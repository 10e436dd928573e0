import VpnAuthority.Digest.Padding

/-! The digest of 128 bits from which the keys of encrypted key files are derived. Its
words are little-endian. -/
namespace VpnAuthority.Digest.Md5

structure State where
  a : UInt32
  b : UInt32
  c : UInt32
  d : UInt32

def roundConstants : List UInt32 := [
  0xd76aa478, 0xe8c7b756, 0x242070db, 0xc1bdceee, 0xf57c0faf, 0x4787c62a, 0xa8304613,
  0xfd469501, 0x698098d8, 0x8b44f7af, 0xffff5bb1, 0x895cd7be, 0x6b901122, 0xfd987193,
  0xa679438e, 0x49b40821, 0xf61e2562, 0xc040b340, 0x265e5a51, 0xe9b6c7aa, 0xd62f105d,
  0x02441453, 0xd8a1e681, 0xe7d3fbc8, 0x21e1cde6, 0xc33707d6, 0xf4d50d87, 0x455a14ed,
  0xa9e3e905, 0xfcefa3f8, 0x676f02d9, 0x8d2a4c8a, 0xfffa3942, 0x8771f681, 0x6d9d6122,
  0xfde5380c, 0xa4beea44, 0x4bdecfa9, 0xf6bb4b60, 0xbebfbc70, 0x289b7ec6, 0xeaa127fa,
  0xd4ef3085, 0x04881d05, 0xd9d4d039, 0xe6db99e5, 0x1fa27cf8, 0xc4ac5665, 0xf4292244,
  0x432aff97, 0xab9423a7, 0xfc93a039, 0x655b59c3, 0x8f0ccc92, 0xffeff47d, 0x85845dd1,
  0x6fa87e4f, 0xfe2ce6e0, 0xa3014314, 0x4e0811a1, 0xf7537e82, 0xbd3af235, 0x2ad7d2bb,
  0xeb86d391]

def shifts : List (List UInt32) :=
  [[7, 12, 17, 22], [5, 9, 14, 20], [4, 11, 16, 23], [6, 10, 15, 21]]

def mix (round : Nat) (b c d : UInt32) : UInt32 :=
  if round < 16 then (b &&& c) ||| (~~~b &&& d)
  else if round < 32 then (d &&& b) ||| (~~~d &&& c)
  else if round < 48 then b ^^^ c ^^^ d
  else c ^^^ (b ||| ~~~d)

def wordIndex (round : Nat) : Nat :=
  if round < 16 then round
  else if round < 32 then (5 * round + 1) % 16
  else if round < 48 then (3 * round + 5) % 16
  else 7 * round % 16

def round (words : Array UInt32) (s : State) (step : Nat × UInt32) : State :=
  let (n, constant) := step
  let sum := s.a + mix n s.b s.c s.d + constant + words.getD (wordIndex n) 0
  let shift := ((shifts.getD (n / 16) []).getD (n % 4) 0)
  ⟨s.d, s.b + rotateLeft32 sum shift, s.b, s.c⟩

def compress (s : State) (block : Bytes) : State :=
  let words := ((parts 4 block).map fun bytes => word32 bytes.reverse).toArray
  let t := ((List.range 64).zip roundConstants).foldl (round words) s
  ⟨s.a + t.a, s.b + t.b, s.c + t.c, s.d + t.d⟩

def start : State := ⟨0x67452301, 0xefcdab89, 0x98badcfe, 0x10325476⟩

def State.octets (s : State) : Bytes :=
  [s.a, s.b, s.c, s.d].flatMap fun word => (BigEndian.padded 4 word.toNat).reverse

def md5 (message : Bytes) : Bytes :=
  let bits := (BigEndian.padded 8 (message.length * 8)).reverse
  ((parts 64 (message ++ padding 64 8 message.length bits)).foldl compress start).octets

end VpnAuthority.Digest.Md5
