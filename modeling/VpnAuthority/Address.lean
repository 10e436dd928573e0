import VpnAuthority.Number.Digits
import VpnAuthority.Text.Fields

/-! Network addresses of both families as words of bits, and their texts. -/
namespace VpnAuthority

inductive Address where
  | v4 (bits : BitVec 32)
  | v6 (bits : BitVec 128)
  deriving DecidableEq, Repr

namespace Address

/-- How freely an address may be written: whether octets may begin with zeros,
and whether a double colon may stand for no group at all. -/
structure Style where
  leadingZeros : Bool
  emptyGap : Bool

def Style.strict : Style := ⟨false, false⟩

def Style.lenient : Style := ⟨true, true⟩

def octets (bits : BitVec 32) : List (BitVec 8) :=
  [bits.extractLsb' 24 8, bits.extractLsb' 16 8, bits.extractLsb' 8 8, bits.extractLsb' 0 8]

def ofOctets? : List (BitVec 8) → Option (BitVec 32)
  | [a, b, c, d] => some (a ++ b ++ c ++ d)
  | _ => none

def readOctet? (style : Style) (text : List Char) : Option (BitVec 8) :=
  if 3 < text.length ∨ (!style.leadingZeros ∧ text.head? = some '0' ∧ text ≠ ['0']) then none
  else do
    let n ← Digits.read? 10 text
    if n < 256 then some (BitVec.ofNat 8 n) else none

def readDotted? (style : Style) (text : List Char) : Option (BitVec 32) :=
  ((fields (· == '.') text).mapM (readOctet? style)).bind ofOctets?

def dotted (bits : BitVec 32) : List Char :=
  ['.'].intercalate ((octets bits).map fun octet => Digits.decimal octet.toNat)

def groups (bits : BitVec 128) : List (BitVec 16) :=
  [bits.extractLsb' 112 16, bits.extractLsb' 96 16, bits.extractLsb' 80 16,
    bits.extractLsb' 64 16, bits.extractLsb' 48 16, bits.extractLsb' 32 16,
    bits.extractLsb' 16 16, bits.extractLsb' 0 16]

def ofGroups? : List (BitVec 16) → Option (BitVec 128)
  | [a, b, c, d, e, f, g, h] => some (a ++ b ++ c ++ d ++ e ++ f ++ g ++ h)
  | _ => none

def readGroup? (text : List Char) : Option (BitVec 16) :=
  if 4 < text.length then none else (Digits.read? 16 text).map (BitVec.ofNat 16)

/-- Reads groups between colons; with `tail` the last two may be written as a
dotted address. No text is no group. -/
def readGroups? (style : Style) (tail : Bool) (text : List Char) : Option (List (BitVec 16)) :=
  if text.isEmpty then some []
  else
    let parts := fields (· == ':') text
    match parts.mapM readGroup? with
    | some all => some all
    | none =>
      if tail then do
        let front ← parts.dropLast.mapM readGroup?
        let back ← readDotted? style (parts.getLast?.getD [])
        some (front ++ [back.extractLsb' 16 16, back.extractLsb' 0 16])
      else none

def cutAtGap? : List Char → Option (List Char × List Char)
  | ':' :: ':' :: rest => some ([], rest)
  | c :: rest => (cutAtGap? rest).map fun (before, behind) => (c :: before, behind)
  | [] => none

/-- Eight groups, or fewer around a double colon that stands for the missing ones
as zeros. -/
def readColons? (style : Style) (text : List Char) : Option (BitVec 128) :=
  match cutAtGap? text with
  | none => (readGroups? style true text).bind ofGroups?
  | some (before, behind) => do
    let front ← readGroups? style false before
    let back ← readGroups? style true behind
    let filled := front.length + back.length
    if filled < 8 ∨ (style.emptyGap ∧ filled = 8) then
      ofGroups? (front ++ List.replicate (8 - filled) 0 ++ back)
    else none

/-- Where the longest run of zero groups begins and how long it is; of equal
runs the first. -/
def longestZeroRun (all : List (BitVec 16)) : Nat × Nat :=
  (List.range all.length).foldl (fun best first =>
    let length := ((all.drop first).takeWhile (· == 0)).length
    if best.2 < length then (first, length) else best) (0, 0)

def colons (all : List (BitVec 16)) : List Char :=
  [':'].intercalate (all.map fun group => Digits.lowerHex group.toNat)

/-- At least two groups of zeros are left out for a double colon; the addresses
that embed one of the other family end in its dotted text. -/
def writeColons (bits : BitVec 128) : List Char :=
  let all := groups bits
  if bits.extractLsb' 32 96 = 0xffff then "::ffff:".toList ++ dotted (bits.extractLsb' 0 32)
  else
    let (first, length) := longestZeroRun all
    if 1 < length then
      colons (all.take first) ++ [':', ':'] ++ colons (all.drop (first + length))
    else colons all

def ofText? (text : String) : Option Address :=
  match readDotted? .strict text.toList with
  | some bits => some (.v4 bits)
  | none => (readColons? .strict text.toList).map .v6

def chars : Address → List Char
  | .v4 bits => dotted bits
  | .v6 bits => writeColons bits

def text (address : Address) : String := String.ofList address.chars

end Address
end VpnAuthority
