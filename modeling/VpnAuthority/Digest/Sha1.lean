import VpnAuthority.Digest.Padding

/-! The digest of 160 bits that names keys. -/
namespace VpnAuthority.Digest.Sha1

structure State where
  a : UInt32
  b : UInt32
  c : UInt32
  d : UInt32
  e : UInt32

def mix (round : Nat) (b c d : UInt32) : UInt32 :=
  if round < 20 then ((b &&& c) ||| (~~~b &&& d)) + 0x5a827999
  else if round < 40 then (b ^^^ c ^^^ d) + 0x6ed9eba1
  else if round < 60 then ((b &&& c) ||| (b &&& d) ||| (c &&& d)) + 0x8f1bbcdc
  else (b ^^^ c ^^^ d) + 0xca62c1d6

def round (s : State) (n : Nat) (word : UInt32) : State :=
  ⟨rotateLeft32 s.a 5 + mix n s.b s.c s.d + s.e + word, s.a, rotateLeft32 s.b 30, s.c, s.d⟩

def nextWord (window : List UInt32) : UInt32 :=
  match window with
  | [w0, _, w2, _, _, _, _, _, w8, _, _, _, _, w13, _, _] =>
    rotateLeft32 (w0 ^^^ w2 ^^^ w8 ^^^ w13) 1
  | _ => 0

def rounds (s : State) (window : List UInt32) : List Nat → State
  | [] => s
  | n :: rest => rounds (round s n (window.headD 0)) (window.tail ++ [nextWord window]) rest

def compress (s : State) (block : Bytes) : State :=
  let t := rounds s ((parts 4 block).map word32) (List.range 80)
  ⟨s.a + t.a, s.b + t.b, s.c + t.c, s.d + t.d, s.e + t.e⟩

def start : State := ⟨0x67452301, 0xefcdab89, 0x98badcfe, 0x10325476, 0xc3d2e1f0⟩

def State.octets (s : State) : Bytes :=
  [s.a, s.b, s.c, s.d, s.e].flatMap fun word => BigEndian.padded 4 word.toNat

def sha1 (message : Bytes) : Bytes :=
  ((parts 64 (padded 64 8 message)).foldl compress start).octets

end VpnAuthority.Digest.Sha1
