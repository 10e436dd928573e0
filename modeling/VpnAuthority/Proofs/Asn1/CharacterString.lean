import VpnAuthority.Asn1.CharacterString
import VpnAuthority.Proofs.Number.BigEndian
import VpnAuthority.Proofs.Text.Utf8

/-! What a string of each type says, told from the side of its writer: a reader gives a text
exactly if the octets are those of that text. -/
namespace VpnAuthority.Asn1

inductive IsInUnits (width : Nat) : List Char → Bytes → Prop
  | nil : IsInUnits width [] []
  | cons {c : Char} {text : List Char} {unit octets : Bytes} (fits : unit.length = width)
      (same : BigEndian.toNat unit = c.toNat) (more : IsInUnits width text octets) :
      IsInUnits width (c :: text) (unit ++ octets)

def unitWidths : List (Nat × Nat) :=
  [(18, 1), (19, 1), (20, 1), (22, 1), (26, 1), (28, 4), (30, 2)]

/-- The octets of a text in a string of a type. -/
inductive IsTextOf : Nat → List Char → Bytes → Prop
  | utf8 (text : String) : IsTextOf 12 text.toList (Utf8.encode text)
  | units {tag width : Nat} {text : List Char} {octets : Bytes}
      (isTyped : (tag, width) ∈ unitWidths) (written : IsInUnits width text octets) :
      IsTextOf tag text octets

end VpnAuthority.Asn1
