import VpnAuthority.Certificate

/-! The extensions of a certificate that decide what it may be used for. -/
namespace VpnAuthority

open Asn1 (Element ObjectId)

namespace Extension

def arc (n : Nat) : ObjectId := ⟨[2, 5, 29, n]⟩

def subjectKeyId : ObjectId := arc 14
def keyUsageId : ObjectId := arc 15
def alternativeNameId : ObjectId := arc 17
def basicConstraintsId : ObjectId := arc 19
def nameConstraintsId : ObjectId := arc 30
def distributionPointsId : ObjectId := arc 31
def authorityKeyId : ObjectId := arc 35
def extendedKeyUsageId : ObjectId := arc 37
def legacyTypeId : ObjectId := ⟨[2, 16, 840, 1, 113730, 1, 1]⟩
def proxyId : ObjectId := ⟨[1, 3, 6, 1, 5, 5, 7, 1, 14]⟩
def addressBlocksId : ObjectId := ⟨[1, 3, 6, 1, 5, 5, 7, 1, 7]⟩
def systemNumbersId : ObjectId := ⟨[1, 3, 6, 1, 5, 5, 7, 1, 8]⟩
def noCheckId : ObjectId := ⟨[1, 3, 6, 1, 5, 5, 7, 48, 1, 5]⟩

def understood : List ObjectId := [legacyTypeId, keyUsageId, alternativeNameId,
  basicConstraintsId, arc 32, distributionPointsId, extendedKeyUsageId, addressBlocksId,
  systemNumbersId, noCheckId, arc 36, proxyId, nameConstraintsId, arc 33, arc 54]

end Extension

structure BasicConstraints where
  isAuthority : Bool
  pathLength : Option Int
  deriving DecidableEq, Repr

/-- Which key made a certificate: by its identifier, or by the issuer and the number of
its own certificate. -/
structure AuthorityKey where
  keyId : Option Bytes
  issuer : List (Option DistinguishedName)
  serial : Option Int
  deriving DecidableEq, Repr

/-- The element at the front of a value; what follows it does not matter. -/
def Extension.element? (value : Bytes) : Option Element := (Asn1.read? value).map (·.1)

namespace BasicConstraints

def encode (constraints : BasicConstraints) : Bytes :=
  Asn1.sequence [if constraints.isAuthority then Asn1.boolean true else [],
    match constraints.pathLength with
    | some n => Asn1.natural n.toNat
    | none => []]

def decode? (value : Bytes) : Option BasicConstraints := do
  match ← (← Extension.element? value).members? with
  | [] => some ⟨false, none⟩
  | [only] =>
    if only.isUniversal 1 then some ⟨← only.boolean?, none⟩
    else some ⟨false, some (← only.integer?)⟩
  | [authority, length] => some ⟨← authority.boolean?, some (← length.integer?)⟩
  | _ => none

end BasicConstraints

namespace Extension

def octets? (value : Bytes) : Option Bytes := do (← element? value).octetString?

def bits? (value : Bytes) : Option Bytes := do (← (← element? value).bitString?).2

def objectIds? (value : Bytes) : Option (List ObjectId) := do
  (← (← element? value).items? 16).mapM Element.objectId?

def readDirectoryText? (element : Element) : Option Unit := do
  let octets ← element.octets?
  if element.tagClass == .universal ∧ [12, 19, 20, 28, 30].contains element.tag
      ∧ Asn1.isWhole element.tag octets then
    some ()
  else none

def readParty? (content : Bytes) : Option Unit := do
  let fields ← Asn1.readAll? content
  let tags := fields.map (·.tag)
  if fields.all (·.tagClass == .context) ∧ (tags = [1] ∨ tags = [0, 1]) then
    fields.forM fun field => field.explicit?.bind readDirectoryText?
  else none

/-- A name of one of several kinds; only that of an entry in a directory is kept. -/
def readGeneralName? (element : Element) : Option (Option DistinguishedName) :=
  if element.tagClass ≠ .context then none
  else
    match element.tag with
    | 1 | 2 | 6 | 7 => element.octets?.map fun _ => none
    | 4 => do some (some (← DistinguishedName.ofElement? (← element.explicit?)))
    | 8 => if element.constructed then none
      else (ObjectId.ofOctets? element.content).map fun _ => none
    | 0 => do
      if !element.constructed then none
      match ← Asn1.readAll? element.content with
      | [id, value] =>
        let _ ← id.objectId?
        if value.isContext 0 ∧ value.explicit?.isSome then some none else none
      | _ => none
    | 3 => if element.constructed then some none else none
    | 5 => if element.constructed then (readParty? element.content).map fun _ => none else none
    | _ => none

def readGeneralNames? (content : Bytes) : Option (List (Option DistinguishedName)) := do
  (← Asn1.readAll? content).mapM readGeneralName?

def generalNames? (value : Bytes) : Option (List (Option DistinguishedName)) := do
  let element ← element? value
  if element.isUniversal 16 then readGeneralNames? element.content else none

def fields? (value : Bytes) : Option (List Element) := do
  let fields ← (← element? value).members?
  if fields.all (·.tagClass == .context) ∧ (fields.map (·.tag)).Pairwise (· < ·) then some fields
  else none

def readSubtree? (element : Element) : Option Unit := do
  let base ← (← element.members?).head?
  (readGeneralName? base).map fun _ => ()

def nameConstraints? (value : Bytes) : Option Unit := do
  let fields ← fields? value
  if fields.all (·.tag < 2) then
    let trees ← fields.mapM fun field => Asn1.readAll? field.content
    (trees.flatten.mapM readSubtree?).map fun _ => ()
  else none

def readPointName? (element : Element) : Option Unit :=
  if element.isContext 0 then (readGeneralNames? element.content).map fun _ => ()
  else if element.isContext 1 then do
    (← Asn1.readAll? element.content).forM fun entry =>
      (NameAttribute.ofElement? entry).map fun _ => ()
  else none

def readPointField? (field : Element) : Option Unit :=
  match field.tagClass, field.tag with
  | .context, 0 => field.explicit?.bind readPointName?
  | .context, 1 => (field.octets?.bind Asn1.bitStringOfOctets?).map fun _ => ()
  | .context, 2 => (readGeneralNames? field.content).map fun _ => ()
  | _, _ => none

/-- A place with its name, or at least with those who answer for it. -/
def readPoint? (element : Element) : Option Unit := do
  let fields ← element.members?
  let tags := fields.map (·.tag)
  fields.forM readPointField?
  if tags.Pairwise (· < ·) ∧ fields.any (fun field => field.tag == 0 || field.tag == 2
      && !field.content.isEmpty) then
    some ()
  else none

def distributionPoints? (value : Bytes) : Option Unit := do
  (← (← element? value).items? 16).forM readPoint?

def readResource? (read? : Element → Option α) (element : Element) : Option Unit :=
  if element.isUniversal 16 then do
    match ← (← element.members?).mapM read? with
    | [_, _] => some ()
    | _ => none
  else (read? element).map fun _ => ()

def readResources? (read? : Element → Option α) (element : Element) : Option Unit :=
  if element.isUniversal 5 then
    if element.content.isEmpty ∧ !element.constructed then some () else none
  else do
    (← element.items? 16).forM (readResource? read?)

def readAddressFamily? (element : Element) : Option Unit := do
  match ← element.members? with
  | [family, addresses] =>
    let _ ← family.octetString?
    readResources? Element.bitString? addresses
  | _ => none

def addressBlocks? (value : Bytes) : Option Unit := do
  (← (← element? value).items? 16).forM readAddressFamily?

def systemNumbers? (value : Bytes) : Option Unit := do
  let fields ← fields? value
  if fields.all (·.tag < 2) then
    fields.forM fun field => field.explicit?.bind (readResources? Element.integer?)
  else none

end Extension

namespace AuthorityKey

def encode (keyId : Option Bytes) : Bytes :=
  Asn1.sequence [match keyId with
    | some id => Asn1.encode 0x80 id
    | none => []]

def readField? (fields : List Element) (tag : Nat) (read? : Element → Option α) :
    Option (Option α) :=
  match fields.find? (·.tag == tag) with
  | some field => (read? field).map some
  | none => some none

def decode? (value : Bytes) : Option AuthorityKey := do
  let fields ← Extension.fields? value
  let keyId ← readField? fields 0 Element.octets?
  let issuer ← readField? fields 1 fun field => Extension.readGeneralNames? field.content
  let serial ← readField? fields 2 fun field =>
    if field.constructed then none else Asn1.integerOfOctets? field.content
  if fields.all (·.tag < 3) then some ⟨keyId, issuer.getD [], serial⟩ else none

end AuthorityKey

/-- An extension that may stand once: missing, in order or faulty. -/
inductive Single (α : Type) where
  | absent
  | present (value : α)
  | faulty

namespace Single

def toOption : Single α → Option α
  | .present value => some value
  | _ => none

def isFaulty : Single α → Bool
  | .faulty => true
  | _ => false

end Single

namespace Certificate

def extensionValues (certificate : Certificate) (id : ObjectId) : List Bytes :=
  (certificate.body.extensions.filter (·.id = id)).map (·.value)

/-- An extension that stands twice, or whose value has not its format, is faulty. -/
def single (certificate : Certificate) (id : ObjectId) (decode? : Bytes → Option α) : Single α :=
  match certificate.extensionValues id with
  | [] => .absent
  | [value] =>
    match decode? value with
    | some decoded => .present decoded
    | none => .faulty
  | _ => .faulty

def basicConstraints (certificate : Certificate) : Single BasicConstraints :=
  certificate.single Extension.basicConstraintsId BasicConstraints.decode?

def keyUsage (certificate : Certificate) : Single Bytes :=
  certificate.single Extension.keyUsageId Extension.bits?

def legacyType (certificate : Certificate) : Single Bytes :=
  certificate.single Extension.legacyTypeId Extension.bits?

def subjectKey (certificate : Certificate) : Single Bytes :=
  certificate.single Extension.subjectKeyId Extension.octets?

def authorityKey (certificate : Certificate) : Single AuthorityKey :=
  certificate.single Extension.authorityKeyId AuthorityKey.decode?

def isProxy (certificate : Certificate) : Bool :=
  !(certificate.extensionValues Extension.proxyId).isEmpty

/-- Whether the extensions are in order: each stands once and has its format, a path
length is not negative, and a key has some usage. -/
def isConsistent (certificate : Certificate) : Bool :=
  let constraints := certificate.basicConstraints
  let usage := certificate.keyUsage
  !constraints.isFaulty
    && constraints.toOption.all (fun constraints => constraints.pathLength.all (0 ≤ ·))
    && !usage.isFaulty && usage.toOption.all (fun bits => (bits.take 2).any (· != 0))
    && !certificate.legacyType.isFaulty
    && !certificate.subjectKey.isFaulty && !certificate.authorityKey.isFaulty
    && !(certificate.single Extension.extendedKeyUsageId Extension.objectIds?).isFaulty
    && !(certificate.single Extension.alternativeNameId Extension.generalNames?).isFaulty
    && !(certificate.single Extension.nameConstraintsId Extension.nameConstraints?).isFaulty
    && !(certificate.single Extension.distributionPointsId Extension.distributionPoints?).isFaulty
    && !(certificate.single Extension.addressBlocksId Extension.addressBlocks?).isFaulty
    && !(certificate.single Extension.systemNumbersId Extension.systemNumbers?).isFaulty

def hasUnknownCritical (certificate : Certificate) : Bool :=
  certificate.body.extensions.any fun extension =>
    extension.critical && !Extension.understood.contains extension.id

end Certificate
end VpnAuthority
