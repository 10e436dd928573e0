import VpnAuthority.Certificate.Extensions
import VpnAuthority.DistinguishedName.Canonical
import VpnAuthority.Rsa.Signature

/-! Whether a certificate was issued by another that is trusted and heads its own
chain. -/
namespace VpnAuthority

open Asn1 (ObjectId)

inductive PublicKey where
  | rsa (key : Rsa.PublicKey)
  | other (system : ObjectId)
  deriving DecidableEq, Repr

namespace PublicKey

def otherSystems : List ObjectId := [
  ⟨[1, 2, 840, 10045, 2, 1]⟩, ⟨[1, 2, 840, 10040, 4, 1]⟩, ⟨[1, 2, 840, 113549, 1, 1, 10]⟩,
  ⟨[1, 3, 101, 110]⟩, ⟨[1, 3, 101, 111]⟩, ⟨[1, 3, 101, 112]⟩, ⟨[1, 3, 101, 113]⟩]

def ofInfo? (info : PublicKeyInfo) : Option PublicKey :=
  if info.algorithm.id = Rsa.PublicKey.algorithmId then (Rsa.PublicKey.ofInfo? info).map .rsa
  else if otherSystems.contains info.algorithm.id then some (.other info.algorithm.id)
  else none

def rsaSignatureIds : List ObjectId :=
  (Digest.Kind.all.map (·.signatureId)) ++ [
    ⟨[1, 3, 14, 3, 2, 29]⟩, ⟨[1, 2, 840, 113549, 1, 1, 2]⟩, ⟨[1, 2, 840, 113549, 1, 1, 3]⟩,
    ⟨[1, 2, 840, 113549, 1, 1, 10]⟩, ⟨[1, 2, 840, 113549, 1, 1, 15]⟩,
    ⟨[1, 2, 840, 113549, 1, 1, 16]⟩, ⟨[2, 5, 8, 3, 100]⟩, ⟨[1, 3, 36, 3, 3, 1, 2]⟩,
    ⟨[2, 16, 840, 1, 101, 3, 4, 3, 13]⟩, ⟨[2, 16, 840, 1, 101, 3, 4, 3, 14]⟩,
    ⟨[2, 16, 840, 1, 101, 3, 4, 3, 15]⟩, ⟨[2, 16, 840, 1, 101, 3, 4, 3, 16]⟩]

def otherSignatureIds : List (ObjectId × ObjectId) := [
  (⟨[1, 2, 840, 10045, 4, 1]⟩, ⟨[1, 2, 840, 10045, 2, 1]⟩),
  (⟨[1, 2, 840, 10045, 4, 3, 1]⟩, ⟨[1, 2, 840, 10045, 2, 1]⟩),
  (⟨[1, 2, 840, 10045, 4, 3, 2]⟩, ⟨[1, 2, 840, 10045, 2, 1]⟩),
  (⟨[1, 2, 840, 10045, 4, 3, 3]⟩, ⟨[1, 2, 840, 10045, 2, 1]⟩),
  (⟨[1, 2, 840, 10045, 4, 3, 4]⟩, ⟨[1, 2, 840, 10045, 2, 1]⟩),
  (⟨[1, 3, 101, 112]⟩, ⟨[1, 3, 101, 112]⟩),
  (⟨[1, 3, 101, 113]⟩, ⟨[1, 3, 101, 113]⟩)]

def signsWith (key : PublicKey) (algorithm : ObjectId) : Bool :=
  match key with
  | .rsa _ => rsaSignatureIds.contains algorithm
  | .other system => otherSignatureIds.lookup algorithm == some system

end PublicKey

namespace Certificate

def publicKey? (certificate : Certificate) : Option PublicKey :=
  PublicKey.ofInfo? certificate.body.key

def fitsAuthorityKey (issuer : Certificate) (key : AuthorityKey) : Bool :=
  let idFits := match key.keyId, issuer.subjectKey.toOption with
    | some a, some b => a == b
    | _, _ => true
  let nameFits := match key.issuer.find? (·.isSome) with
    | some (some name) => name.same issuer.body.issuer
    | _ => true
  idFits && key.serial.all (· == issuer.body.serial) && nameFits

/-- Whether a certificate may have issued another, by names, key identifiers and the
kind of key. -/
def mayHaveIssued (issuer certificate : Certificate) : Bool :=
  issuer.body.subject.same certificate.body.issuer
    && issuer.isConsistent && certificate.isConsistent
    && certificate.authorityKey.toOption.all issuer.fitsAuthorityKey
    && issuer.publicKey?.any (·.signsWith certificate.body.algorithm.id)

/-- Whether a certificate heads a chain; its signature is not looked at. -/
def isSelfSigned (certificate : Certificate) : Bool := certificate.mayHaveIssued certificate

def certificateSigning : UInt8 := 0x04

def legacyAuthorities : UInt8 := 0x07

def allowsSigning (certificate : Certificate) : Bool :=
  certificate.keyUsage.toOption.all fun bits => bits.headD 0 &&& certificateSigning != 0

/-- Whether the certificate is one of an authority: it says so, or it is too old to. -/
def isAuthority (certificate : Certificate) : Bool :=
  certificate.allowsSigning &&
    match certificate.basicConstraints.toOption with
    | some constraints => constraints.isAuthority
    | none =>
      (certificate.body.version == 0 && certificate.isSelfSigned)
        || certificate.keyUsage.toOption.isSome
        || certificate.legacyType.toOption.any fun bits => bits.headD 0 &&& legacyAuthorities != 0

def isSignedBy (certificate : Certificate) (key : PublicKey) : Bool :=
  match key, Digest.Kind.ofSignatureId? certificate.algorithm.id with
  | .rsa key, some kind =>
    certificate.algorithm == certificate.body.algorithm && certificate.unused == 0
      && Rsa.verify key kind certificate.bodyDer certificate.signature
  | _, _ => false

def isValidAt (certificate : Certificate) (now : Instant) : Bool :=
  certificate.body.validity.notBefore.instant?.any (·.seconds ≤ now.seconds)
    && certificate.body.validity.notAfter.instant?.any (now.seconds < ·.seconds)

def isAcceptable (certificate : Certificate) : Bool :=
  !certificate.hasUnknownCritical && !certificate.isProxy

/-- Whether `leaf` is trusted because `authority` is. There is no answer if the key of the
leaf cannot be read although the authority may have issued it. -/
def isIssuedBy (leaf authority : Certificate) (now : Instant) : Option Bool :=
  if !authority.mayHaveIssued leaf then some false
  else if leaf.publicKey?.isNone then none
  else if leaf.isSelfSigned then
    some (leaf.encode == authority.encode && leaf.isAcceptable && leaf.isValidAt now)
  else
    some (authority.isSelfSigned
      && leaf.isAcceptable && authority.isAcceptable
      && authority.isAuthority
      && authority.publicKey?.any leaf.isSignedBy
      && authority.isValidAt now && leaf.isValidAt now)

end Certificate
end VpnAuthority
