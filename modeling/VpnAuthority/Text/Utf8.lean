/-! Octets, the form in which files and certificates are held, and the one
encoding in which the library turns text into octets and back. -/
namespace VpnAuthority

abbrev Bytes := List UInt8

namespace Utf8

def encode (text : String) : Bytes := text.toUTF8.data.toList

/-- Refuses octets that are not the encoding of any text: overlong forms,
surrogates, values past the last code point and cut-off sequences. -/
def decode? (bytes : Bytes) : Option String := String.fromUTF8? ⟨bytes.toArray⟩

@[simp] theorem decode?_encode (text : String) : decode? (encode text) = some text := by
  simp only [decode?, encode, String.fromUTF8?, String.toUTF8_eq_toByteArray,
    Array.toArray_toList, dif_pos text.isValidUTF8]
  rfl

/-- What the first octet of a character tells: how many octets are due after it, between which
bounds the next of them lies, and the octet's own share of the character. -/
structure Lead where
  due : Nat
  low : Nat
  high : Nat
  share : Nat

def lead? (b : UInt8) : Option Lead :=
  let n := b.toNat
  if n < 0x80 then some ⟨0, 0x80, 0xbf, n⟩
  else if 0xc2 ≤ n ∧ n < 0xe0 then some ⟨1, 0x80, 0xbf, n - 0xc0⟩
  else if 0xe0 ≤ n ∧ n < 0xf0 then
    some ⟨2, if n = 0xe0 then 0xa0 else 0x80, if n = 0xed then 0x9f else 0xbf, n - 0xe0⟩
  else if 0xf0 ≤ n ∧ n < 0xf5 then
    some ⟨3, if n = 0xf0 then 0x90 else 0x80, if n = 0xf4 then 0x8f else 0xbf, n - 0xf0⟩
  else none

/-- The octets in front that go on with a character, as many as are due at most. -/
def continuing : (due low high : Nat) → Bytes → Bytes
  | due + 1, low, high, b :: rest =>
    if low ≤ b.toNat ∧ b.toNat ≤ high then b :: continuing due 0x80 0xbf rest else []
  | _, _, _, _ => []

def joined (share : Nat) (octets : Bytes) : Nat :=
  octets.foldl (fun n b => n * 64 + (b.toNat - 0x80)) share

def replacement : Char := '\uFFFD'

/-- The characters of octets of any kind. The start of a character that does not go on is
replaced as a whole, and so is each octet that starts none. -/
def decodeLossy : Bytes → List Char
  | [] => []
  | b :: rest =>
    match lead? b with
    | none => replacement :: decodeLossy rest
    | some lead =>
      let tail := continuing lead.due lead.low lead.high rest
      (if tail.length = lead.due then Char.ofNat (joined lead.share tail) else replacement) ::
        decodeLossy (rest.drop tail.length)
termination_by bytes => bytes.length
decreasing_by
  · simp
  · rw [List.length_drop, List.length_cons]
    omega

end Utf8
end VpnAuthority
