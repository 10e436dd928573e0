import VpnAuthority.Certificate.Chain
import VpnAuthority.CommonName
import VpnAuthority.DistinguishedName.Subject
import VpnAuthority.Failure
import VpnAuthority.PrivateKey

/-! The two kinds of certificate that the authority makes: its own, and those of the ends
of a tunnel. -/
namespace VpnAuthority

open Asn1 (ObjectId)

inductive Purpose where
  | server
  | client
  deriving DecidableEq, Repr

def Purpose.id : Purpose → ObjectId
  | .server => ⟨[1, 3, 6, 1, 5, 5, 7, 3, 1]⟩
  | .client => ⟨[1, 3, 6, 1, 5, 5, 7, 3, 2]⟩

def PublicKeyInfo.keyId (key : PublicKeyInfo) : Bytes := Digest.Sha1.sha1 key.octets

namespace Extension

def subjectKey (keyId : Bytes) : Extension := ⟨subjectKeyId, false, Asn1.octetString keyId⟩

def authorityKey (keyId : Option Bytes) : Extension :=
  ⟨authorityKeyId, false, AuthorityKey.encode keyId⟩

def basicConstraints (constraints : BasicConstraints) : Extension :=
  ⟨basicConstraintsId, true, constraints.encode⟩

def hostName (name : String) : Extension :=
  ⟨alternativeNameId, false, Asn1.sequence [Asn1.encode 0x82 (Utf8.encode name)]⟩

/-- A key that signs data and nothing else: the first of eight bits. -/
def digitalSignature : Extension :=
  ⟨keyUsageId, true, Asn1.encode Asn1.bitStringTag [7, 0x80]⟩

def purpose (purpose : Purpose) : Extension :=
  ⟨extendedKeyUsageId, true, Asn1.sequence [purpose.id.encode]⟩

end Extension

def standardAlgorithm : Algorithm := ⟨Digest.Kind.sha256.signatureId, some Asn1.null⟩

/-- A key as it signs: an algorithm, and the signature of a message if there is one. -/
structure Signer where
  algorithm : Algorithm
  sign? : Bytes → Option Bytes

/-- Keys of systems other than the one in use do not sign. -/
def PrivateKey.signer : PrivateKey → Signer
  | .rsa key => ⟨standardAlgorithm, Rsa.sign? key .sha256⟩
  | .other _ => ⟨standardAlgorithm, fun _ => none⟩

/-- What a clock shows while a certificate is made: its validity begins at the first
look, and its days are counted from the second. -/
structure Clock where
  first : Instant
  second : Instant
  deriving DecidableEq, Repr

namespace Certificate

/-- The validity of some days by two looks at a clock, which ends before the year
10000. -/
def validityBy (clock : Clock) (days : Nat) : Except CertificateFault Validity :=
  match Asn1.Time.ofInstant? clock.first with
  | none => .error .startTime
  | some notBefore =>
    match Asn1.Time.ofInstant? (clock.second.addDays days) with
    | none => .error .endTime
    | some notAfter => .ok ⟨notBefore, notAfter⟩

def sign (body : CertificateBody) (signer : Signer) : Except CertificateFault Certificate :=
  let body := { body with algorithm := signer.algorithm }
  match signer.sign? body.encode with
  | some signature => .ok ⟨body, body.encode, signer.algorithm, 0, signature⟩
  | none => .error .signing

def newBody (serial : Nat) (issuer subject : DistinguishedName) (validity : Validity)
    (key : PublicKeyInfo) (extensions : List Extension) : CertificateBody where
  version := CertificateBody.version3
  serial
  algorithm := standardAlgorithm
  issuer
  validity
  subject
  key
  extensions

def rootExtensions (key : PublicKeyInfo) : List Extension := [
  .subjectKey key.keyId,
  .authorityKey (some key.keyId),
  .basicConstraints ⟨true, some 0⟩]

/-- The extensions of a leaf; without an identifier of the issuer's key there is an
empty one. -/
def leafExtensions (commonName : String) (key : PublicKeyInfo) (issuerKey : Option Bytes)
    (purpose : Purpose) : List Extension := [
  .hostName commonName,
  .subjectKey key.keyId,
  .authorityKey issuerKey,
  .digitalSignature,
  .purpose purpose,
  .basicConstraints ⟨false, none⟩]

def givenKeyId (certificate : Certificate) : Option Bytes := do
  let id ← Extension.octets? (← (certificate.extensionValues Extension.subjectKeyId).head?)
  if id.isEmpty then none else some id

def subject (policy : Policy) (commonName : String) : Except CertificateFault DistinguishedName :=
  (DistinguishedName.ofSubject policy commonName).mapError .subject

def root (policy : Policy) (key : PrivateKey) (commonName : String) (days serial : Nat)
    (clock : Clock) : Except CertificateFault Certificate := do
  let subject ← subject policy commonName
  let validity ← validityBy clock days
  match key with
  | .other _ => .error .signing
  | .rsa rsaKey =>
    let info := rsaKey.toPublic.toInfo
    sign (newBody serial subject subject validity info (rootExtensions info)) key.signer

structure LeafRequest where
  policy : Policy
  subject : String
  key : PublicKeyInfo
  purpose : Purpose
  days : Nat

/-- A leaf with its common name, in the name of an issuer and signed by whatever key is
given for it. -/
def leafBy (request : LeafRequest) (issuer : Certificate) (signer : Signer)
    (suffix : UniqueSuffix) (serial : Nat) (clock : Clock) :
    Except CertificateFault (Certificate × String) := do
  let commonName := CommonName.ofSubject suffix request.subject
  let subject ← subject request.policy commonName
  let validity ← validityBy clock request.days
  let extensions := leafExtensions commonName request.key issuer.givenKeyId request.purpose
  let body := newBody serial issuer.body.subject subject validity request.key extensions
  .ok (← sign body signer, commonName)

def leaf (request : LeafRequest) (issuer : Certificate) (issuerKey : PrivateKey)
    (suffix : UniqueSuffix) (serial : Nat) (clock : Clock) :
    Except CertificateFault (Certificate × String) :=
  leafBy request issuer issuerKey.signer suffix serial clock

end Certificate

def verifyIssuedBy (leaf authority : Certificate) (now : Instant) : Except Failure Bool :=
  match leaf.isIssuedBy authority now with
  | some verdict => .ok verdict
  | none => .error (.certificate .chainCheck)

end VpnAuthority
