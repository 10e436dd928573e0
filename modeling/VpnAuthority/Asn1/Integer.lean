import VpnAuthority.Asn1.Element

/-! Integers in two's complement, in as few octets as their sign allows. -/
namespace VpnAuthority.Asn1

/-- The content of a natural number: one zero octet keeps a leading bit from
being taken for a sign. -/
def naturalOctets (n : Nat) : Bytes :=
  match BigEndian.ofNat n with
  | [] => [0]
  | b :: rest => if b < 0x80 then b :: rest else 0 :: b :: rest

def natural (n : Nat) : Bytes := encode integerTag (naturalOctets n)

/-- The number whose content some octets are. No octets are no number, and the
first nine bits of several are not all alike. -/
def integerOfOctets? : Bytes → Option Int
  | [] => none
  | [b] => some (if b < 0x80 then b.toNat else (b.toNat : Int) - 256)
  | b :: c :: rest =>
    if (b = 0 ∧ c < 0x80) ∨ (b = 0xff ∧ 0x80 ≤ c) then none
    else
      let bytes := b :: c :: rest
      let magnitude := BigEndian.toNat bytes
      some (if b < 0x80 then magnitude else (magnitude : Int) - Nat.pow 256 bytes.length)

namespace Element

def primitive? (element : Element) (tag : Nat) : Option Bytes :=
  if element.isUniversal tag && !element.constructed then some element.content else none

def integer? (element : Element) : Option Int := (element.primitive? 2).bind integerOfOctets?

def shortInteger? (element : Element) : Option Int := do
  match ← element.primitive? 2 with
  | [] => some 0
  | octets =>
    let n ← integerOfOctets? octets
    if -0x80000000 ≤ n ∧ n < 0x80000000 then some n else none

/-- The magnitude of a number of a key, whose sign and form do not matter. -/
def magnitude? (element : Element) : Option Nat := (element.primitive? 2).map BigEndian.toNat

def boolean? (element : Element) : Option Bool := do
  match ← element.primitive? 1 with
  | [b] => some (b != 0)
  | _ => none

def octetString? (element : Element) : Option Bytes :=
  if element.isUniversal 4 then element.octets? else none

end Element

/-- The octets of a bit string, and how many bits of the last are not used; those
are cleared. -/
def bitStringOfOctets? : Bytes → Option (UInt8 × Bytes)
  | [] => none
  | unused :: bytes =>
    if 7 < unused then none
    else
      let masked := match bytes.getLast? with
        | some last => bytes.dropLast ++ [last &&& (0xff <<< unused)]
        | none => []
      some (if bytes.isEmpty then 0 else unused, masked)

def Element.bitString? (element : Element) : Option (UInt8 × Bytes) :=
  if element.isUniversal 3 then element.octets?.bind bitStringOfOctets? else none

end VpnAuthority.Asn1
