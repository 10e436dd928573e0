import VpnAuthority.Asn1.Time
import VpnAuthority.DistinguishedName
import VpnAuthority.Pem

/-! Certificates as they are read: the signed body with its fields, the algorithm and
the signature. -/
namespace VpnAuthority

open Asn1 (Element ObjectId)

structure Algorithm where
  id : ObjectId
  parameters : Option Bytes
  deriving DecidableEq, Repr

structure PublicKeyInfo where
  algorithm : Algorithm
  unused : UInt8
  octets : Bytes
  deriving DecidableEq, Repr

structure Extension where
  id : ObjectId
  critical : Bool
  value : Bytes
  deriving DecidableEq, Repr

structure Validity where
  notBefore : Asn1.Time
  notAfter : Asn1.Time
  deriving DecidableEq, Repr

structure CertificateBody where
  version : Int
  serial : Int
  algorithm : Algorithm
  issuer : DistinguishedName
  validity : Validity
  subject : DistinguishedName
  key : PublicKeyInfo
  extensions : List Extension
  deriving DecidableEq, Repr

/-- A certificate. The body is kept in encoded form beside its fields, since the
signature covers the octets. -/
structure Certificate where
  body : CertificateBody
  bodyDer : Bytes
  algorithm : Algorithm
  unused : UInt8
  signature : Bytes
  deriving DecidableEq, Repr

namespace Algorithm

def encode (algorithm : Algorithm) : Bytes :=
  Asn1.sequence [algorithm.id.encode, algorithm.parameters.getD []]

def encodeSimple (tag : Nat) (content : Bytes) : Bytes :=
  if tag < 31 then Asn1.encode (UInt8.ofNat tag) content
  else 0x1f :: (ObjectId.encodeArc tag ++ Asn1.encodeLength content.length ++ content)

/-- Parameters in their own shortest form; lists and private types are kept as they
are, and simple types must be in order. -/
def parameters? (element : Element) : Option Bytes :=
  if element.tagClass ≠ .universal then some element.raw
  else
    match element.tag with
    | 16 | 17 => if element.constructed then some element.raw else none
    | 1 => element.boolean?.map fun _ => Asn1.encode 1 element.content
    | 2 => element.integer?.map fun _ => Asn1.encode 2 element.content
    | 10 => if element.constructed then none
      else (Asn1.integerOfOctets? element.content).map fun _ => Asn1.encode 10 element.content
    | 3 => element.bitString?.map fun (unused, octets) => Asn1.encode 3 (unused :: octets)
    | 5 => if element.content.isEmpty ∧ !element.constructed then some Asn1.null else none
    | 6 => element.objectId?.map fun _ => Asn1.encode 6 element.content
    | tag => do
      let octets ← element.octets?
      if Asn1.isWhole tag octets then some (encodeSimple tag octets) else none

def ofElement? (element : Element) : Option Algorithm := do
  match ← element.members? with
  | [id] => some ⟨← id.objectId?, none⟩
  | [id, parameters] => some ⟨← id.objectId?, some (← parameters? parameters)⟩
  | _ => none

end Algorithm

namespace PublicKeyInfo

def encode (key : PublicKeyInfo) : Bytes :=
  Asn1.sequence [key.algorithm.encode, Asn1.encode Asn1.bitStringTag (key.unused :: key.octets)]

def ofElement? (element : Element) : Option PublicKeyInfo := do
  match ← element.members? with
  | [algorithm, bits] =>
    let (unused, octets) ← bits.bitString?
    some ⟨← Algorithm.ofElement? algorithm, unused, octets⟩
  | _ => none

end PublicKeyInfo

namespace Extension

def encode (extension : Extension) : Bytes :=
  Asn1.sequence [extension.id.encode, if extension.critical then Asn1.boolean true else [],
    Asn1.octetString extension.value]

def ofElement? (element : Element) : Option Extension := do
  match ← element.members? with
  | [id, value] => some ⟨← id.objectId?, false, ← value.octetString?⟩
  | [id, critical, value] => some ⟨← id.objectId?, ← critical.boolean?, ← value.octetString?⟩
  | _ => none

end Extension

namespace Validity

def encode (validity : Validity) : Bytes :=
  Asn1.sequence [validity.notBefore.encode, validity.notAfter.encode]

def ofElement? (element : Element) : Option Validity := do
  match ← element.members? with
  | [notBefore, notAfter] => some ⟨← notBefore.time?, ← notAfter.time?⟩
  | _ => none

end Validity

namespace CertificateBody

def version3 : Int := 2

/-- Drops an optional bit string in an implicit tag, if it stands in front. -/
def skipUnique (tag : Nat) : List Element → Option (List Element)
  | element :: rest =>
    if element.isContext tag then
      (element.octets?.bind Asn1.bitStringOfOctets?).map fun _ => rest
    else some (element :: rest)
  | [] => some []

def extensions? : List Element → Option (List Extension)
  | [] => some []
  | [element] =>
    if element.isContext 3 then do
      (← (← element.explicit?).items? 16).mapM Extension.ofElement?
    else none
  | _ => none

def version? : List Element → Option (Int × List Element)
  | element :: rest =>
    if element.isContext 0 then do some (← (← element.explicit?).integer?, rest)
    else some (0, element :: rest)
  | [] => none

def ofElement? (element : Element) : Option CertificateBody := do
  let (version, fields) ← version? (← element.members?)
  match fields with
  | serial :: algorithm :: issuer :: validity :: subject :: key :: rest =>
    some {
      version
      serial := ← serial.integer?
      algorithm := ← Algorithm.ofElement? algorithm
      issuer := ← DistinguishedName.ofElement? issuer
      validity := ← Validity.ofElement? validity
      subject := ← DistinguishedName.ofElement? subject
      key := ← PublicKeyInfo.ofElement? key
      extensions := ← extensions? (← skipUnique 2 (← skipUnique 1 rest)) }
  | _ => none

def encode (body : CertificateBody) : Bytes :=
  Asn1.sequence [
    Asn1.encode (Asn1.contextTag 0) (Asn1.natural body.version.toNat),
    Asn1.natural body.serial.toNat,
    body.algorithm.encode,
    body.issuer.der,
    body.validity.encode,
    body.subject.der,
    body.key.encode,
    Asn1.encode (Asn1.contextTag 3) (Asn1.sequence (body.extensions.map Extension.encode))]

end CertificateBody

namespace Certificate

def encode (certificate : Certificate) : Bytes :=
  Asn1.sequence [certificate.bodyDer, certificate.algorithm.encode,
    Asn1.encode Asn1.bitStringTag (certificate.unused :: certificate.signature)]

/-- The certificate at the front of some octets; what follows it does not matter. -/
def decode? (bytes : Bytes) : Option Certificate := do
  let (element, _) ← Asn1.read? bytes
  match ← element.members? with
  | [body, algorithm, signature] =>
    let (unused, octets) ← signature.bitString?
    some {
      body := ← CertificateBody.ofElement? body
      bodyDer := body.raw
      algorithm := ← Algorithm.ofElement? algorithm
      unused
      signature := octets }
  | _ => none

def pemLabel : Bytes := Utf8.encode "CERTIFICATE"

def oldPemLabel : Bytes := Utf8.encode "X509 CERTIFICATE"

def toPem (certificate : Certificate) : Bytes := Pem.encode pemLabel certificate.encode

/-- The certificate of the first block that has the label of one; a header is not
allowed in it. -/
def ofPem? (text : Bytes) : Option Certificate := do
  let block ← Pem.find? (fun label => label == pemLabel || label == oldPemLabel) text
  if block.header.isEmpty then decode? block.content else none

end Certificate
end VpnAuthority
