import VpnAuthority.Asn1.Element

/-! Text in the several character sets that names may use. -/
namespace VpnAuthority.Asn1

def textOfUnits? (width : Nat) (bytes : Bytes) : Option (List Char) :=
  match bytes with
  | [] => some []
  | b :: rest =>
    let unit := BigEndian.toNat ((b :: rest).take width)
    if (b :: rest).length < width ∨ ¬unit.isValidChar then none
    else continueWith (b :: rest) ((b :: rest).drop width) fun rest _ =>
      (textOfUnits? width rest).map (Char.ofNat unit :: ·)
termination_by bytes.length
decreasing_by assumption

def latinText (bytes : Bytes) : List Char := bytes.map fun b => Char.ofNat b.toNat

/-- The text of a string by the number of its type. Five types have one octet for a
code point, and other types than these are no text. -/
def text? (tag : Nat) (bytes : Bytes) : Option (List Char) :=
  match tag with
  | 12 => (Utf8.decode? bytes).map String.toList
  | 18 | 19 | 20 | 22 | 26 => some (latinText bytes)
  | 28 => textOfUnits? 4 bytes
  | 30 => textOfUnits? 2 bytes
  | _ => none

/-- Whether octets have a length that their type allows: characters that take several octets are
whole, and times are not too short. -/
def isWhole (tag : Nat) (bytes : Bytes) : Bool :=
  match tag with
  | 23 => 13 ≤ bytes.length
  | 24 => 15 ≤ bytes.length
  | 28 => bytes.length % 4 == 0
  | 30 => bytes.length % 2 == 0
  | _ => true

def isPrintableStringChar (c : Char) : Bool :=
  c.isAlphanum || [' ', '\'', '(', ')', '+', ',', '-', '.', '/', ':', '=', '?'].contains c

def isAscii (c : Char) : Bool := c.toNat < 0x80

end VpnAuthority.Asn1
