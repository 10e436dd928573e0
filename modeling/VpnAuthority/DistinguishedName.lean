import VpnAuthority.Asn1.CharacterString
import VpnAuthority.Asn1.ObjectId
import VpnAuthority.Text.Quoted

/-! Distinguished names: a sequence of sets of typed attributes. -/
namespace VpnAuthority

open Asn1 (Element ObjectId)

structure NameAttribute where
  type : ObjectId
  tag : Nat
  octets : Bytes
  deriving DecidableEq, Repr

/-- A name with its encoding, which is kept as it was read. -/
structure DistinguishedName where
  sets : List (List NameAttribute)
  der : Bytes
  deriving DecidableEq, Repr

namespace NameAttribute

def encode (entry : NameAttribute) : Bytes :=
  Asn1.sequence
    [entry.type.encode, Asn1.encode (UInt8.ofNat entry.tag) entry.octets]

def text? (entry : NameAttribute) : Option String :=
  (Asn1.text? entry.tag entry.octets).map String.ofList

def allowedTags : List Nat := [3, 7, 8, 9, 11, 12, 13, 14, 15, 16, 18, 19, 20, 22, 28, 29, 30]

/-- The types whose values are compared as text and must therefore have one. -/
def comparedAsText : List Nat := [12, 19, 20, 22, 28, 30]

def valueOctets? (value : Element) : Option Bytes :=
  if value.tagClass ≠ .universal ∨ !allowedTags.contains value.tag then none
  else if value.tag = 16 then if value.constructed then some value.raw else none
  else if value.tag = 3 then value.bitString?.map fun (unused, octets) => unused :: octets
  else do
    let octets ← value.octets?
    if !Asn1.isWhole value.tag octets then none
    else if comparedAsText.contains value.tag ∧ (Asn1.text? value.tag octets).isNone then none
    else some octets

def ofElement? (element : Element) : Option NameAttribute := do
  match ← element.members? with
  | [type, value] => some ⟨← type.objectId?, value.tag, ← valueOctets? value⟩
  | _ => none

end NameAttribute

namespace DistinguishedName

def ofSets (sets : List (List NameAttribute)) : DistinguishedName :=
  ⟨sets, Asn1.sequence (sets.map fun set => Asn1.set (set.map NameAttribute.encode))⟩

def ofElement? (element : Element) : Option DistinguishedName := do
  let sets ← element.items? 16
  some ⟨← sets.mapM fun set => do (← set.items? 17).mapM NameAttribute.ofElement?, element.raw⟩

def attributes (name : DistinguishedName) : List NameAttribute := name.sets.flatten

end DistinguishedName
end VpnAuthority
