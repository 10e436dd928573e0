import VpnAuthority.Authority.Issuance
import VpnAuthority.Configuration
import VpnAuthority.Proofs.Authority.Bootstrap
import VpnAuthority.Proofs.Certificate.Chain
import VpnAuthority.Proofs.Certificate.Length

/-! Issuing a credential: what it reads, what it makes, and that it leaves the files
alone. -/
namespace VpnAuthority

inductive Endpoint where
  | server (server : Server)
  | client (client : Client)

namespace Endpoint

def subject : Endpoint → String
  | server s => s.subject
  | client c => c.subject

def purpose : Endpoint → Purpose
  | server _ => .server
  | client _ => .client

end Endpoint

namespace Authority

def issueFor (authority : Authority) : Endpoint → Chance → Clock → Action Credential
  | .server s => authority.issueServer s
  | .client c => authority.issueClient c

theorem issueFor_eq (authority : Authority) (endpoint : Endpoint) (chance : Chance)
    (clock : Clock) :
    authority.issueFor endpoint chance clock =
      authority.issue endpoint.subject endpoint.purpose chance clock := by
  cases endpoint <;> rfl

variable {authority : Authority} {chance : Chance} {clock : Clock} {site site' : Site}
  {credential : Credential} {subject : String} {purpose : Purpose}

def leafRequest (authority : Authority) (subject : String) (purpose : Purpose)
    (key : Rsa.PrivateKey) : Certificate.LeafRequest :=
  ⟨authority.policy, subject, key.toPublic.toInfo, purpose, authority.policy.leafDays⟩

theorem issue_eq_ok_iff :
    (authority.issue subject purpose chance clock).perform site = (.ok credential, site') ↔
      ∃ material key certificate commonName,
        authority.loadMaterial site.files = .ok material ∧
        chance.keyOfSize? authority.policy.keySize = some key ∧
        Certificate.leaf (authority.leafRequest subject purpose key) material.certificate
          (.rsa material.key) chance.suffix chance.serial clock = .ok (certificate, commonName) ∧
        credential = ⟨Pem.text key.toPem, Pem.text certificate.toPem, commonName⟩ ∧
        site' = ⟨site.files, site.events ++
          (if CommonName.maxLength < subject.length then
            [.shortenedSubject subject (CommonName.ofSubject chance.suffix subject)] else []) ++
          [.issued commonName purpose certificate.body.serial.toNat]⟩ := by
  unfold issue
  simp only [Action.perform_bind_eq_ok, Action.perform_inspect, perform_newKey_eq_ok,
    Action.perform_ite]
  constructor
  · rintro ⟨material, _, hm, key, _, ⟨hk, rfl⟩, h⟩
    obtain ⟨loaded, rfl⟩ := Prod.mk.inj hm
    split at h
    · next long =>
      simp only [Action.perform_bind_eq_ok, Action.perform_report, Action.perform_ofExcept,
        Action.perform_pure, Prod.mk.injEq, mapError_eq_ok] at h
      obtain ⟨_, _, ⟨-, rfl⟩, ⟨certificate, commonName⟩, _, ⟨hl, rfl⟩, _, _, ⟨-, rfl⟩, hc, rfl⟩ := h
      cases hc
      exact ⟨material, key, certificate, commonName, loaded, hk, hl, rfl, by simp [long]⟩
    · next short =>
      simp only [Action.perform_bind_eq_ok, Action.perform_report, Action.perform_ofExcept,
        Action.perform_pure, Prod.mk.injEq, mapError_eq_ok] at h
      obtain ⟨⟨certificate, commonName⟩, _, ⟨hl, rfl⟩, _, _, ⟨-, rfl⟩, hc, rfl⟩ := h
      cases hc
      exact ⟨material, key, certificate, commonName, loaded, hk, hl, rfl, by simp [short]⟩
  · rintro ⟨material, key, certificate, commonName, loaded, hk, hl, rfl, rfl⟩
    refine ⟨material, site, by rw [loaded], key, site, ⟨hk, rfl⟩, ?_⟩
    rw [leafRequest] at hl
    split
    · simp only [Action.perform_bind, Action.perform_report, Action.perform_ofExcept, hl,
        mapError_ok, Action.perform_pure]
    · simp only [Action.perform_bind, Action.perform_report, Action.perform_ofExcept, hl,
        mapError_ok, Action.perform_pure, List.append_nil]

theorem keepsFiles_issue (authority : Authority) (subject : String) (purpose : Purpose)
    (chance : Chance) (clock : Clock) :
    (authority.issue subject purpose chance clock).KeepsFiles := by
  unfold issue
  refine (Action.keepsFiles_inspect _).bind fun material => keepsFiles_newKey.bind fun key => ?_
  split
  · exact (Action.keepsFiles_report _).bind fun _ => (Action.keepsFiles_ofExcept _).bind fun _ =>
      (Action.keepsFiles_report _).bind fun _ => Action.keepsFiles_pure _
  · exact (Action.keepsFiles_ofExcept _).bind fun _ =>
      (Action.keepsFiles_report _).bind fun _ => Action.keepsFiles_pure _

/-- A key and a certificate that an authority made itself. -/
structure IsOwn (authority : Authority) (chance : Chance) (clock : Clock) (material : Material) :
    Prop where
  isSize : authority.policy.keySize ≤ Rsa.maxBits
  key : material.key = chance.key authority.policy.keySize
  certificate : Certificate.root authority.policy (.rsa (chance.key authority.policy.keySize))
    authority.policy.authorityName authority.policy.authorityDays chance.serial clock =
      .ok material.certificate

namespace IsOwn

variable {material : Material} (own : authority.IsOwn chance clock material)
include own

theorem extensions : material.certificate.body.extensions =
    Certificate.rootExtensions (chance.key authority.policy.keySize).toPublic.toInfo := by
  obtain ⟨-, _, _, -, -, made⟩ := Certificate.root_eq_ok_iff.1 own.certificate
  rw [made]
  rfl

theorem length_subject_le :
    material.certificate.body.subject.der.length ≤ DistinguishedName.maxLength := by
  obtain ⟨accepted, _, _, -, -, made⟩ := Certificate.root_eq_ok_iff.1 own.certificate
  rw [made]
  exact DistinguishedName.length_ofSets_le accepted

theorem publicKey?_eq
    (sized : (chance.key authority.policy.keySize).IsOfSize authority.policy.keySize) :
    material.certificate.publicKey? =
      some (.rsa (chance.key authority.policy.keySize).toPublic) := by
  obtain ⟨-, _, _, -, -, made⟩ := Certificate.root_eq_ok_iff.1 own.certificate
  rw [made]
  exact PublicKey.ofInfo?_toInfo (sized.fits_toPublic own.isSize)

end IsOwn

structure Issued (authority : Authority) (endpoint : Endpoint) (chance : Chance) (clock : Clock)
    (files : FileSystem) (credential : Credential) where
  material : Material
  key : Rsa.PrivateKey
  validity : Validity
  signature : Bytes
  isLoaded : authority.loadMaterial files = .ok material
  isMade : chance.keyOfSize? authority.policy.keySize = some key
  isBetween : validity.IsBetween clock.first (clock.second.addDays authority.policy.leafDays)
  commonName : credential.commonName = CommonName.ofSubject chance.suffix endpoint.subject
  isAccepted : ∀ field : SubjectField,
    field.accepts (field.value authority.policy credential.commonName) = true
  isSigned : Rsa.sign? material.key .sha256
    (Certificate.leafBody (authority.leafRequest endpoint.subject endpoint.purpose key)
      material.certificate credential.commonName chance.serial validity).encode = some signature
  certificatePem : credential.certificatePem = Pem.text (Certificate.signed
    (Certificate.leafBody (authority.leafRequest endpoint.subject endpoint.purpose key)
      material.certificate credential.commonName chance.serial validity) signature).toPem

namespace Issued

variable {endpoint : Endpoint} {files : FileSystem}

def request (issued : Issued authority endpoint chance clock files credential) :
    Certificate.LeafRequest :=
  authority.leafRequest endpoint.subject endpoint.purpose issued.key

def body (issued : Issued authority endpoint chance clock files credential) : CertificateBody :=
  Certificate.leafBody issued.request issued.material.certificate credential.commonName
    chance.serial issued.validity

def certificate (issued : Issued authority endpoint chance clock files credential) : Certificate :=
  Certificate.signed issued.body issued.signature

theorem ofPem?_certificatePem (issued : Issued authority endpoint chance clock files credential)
    (fits : Asn1.Fits issued.certificate.encode) :
    Certificate.ofPem? (Utf8.encode credential.certificatePem) = some issued.certificate := by
  obtain ⟨text, -, read⟩ := loadCertificate_eq_ok_iff.1 (loadMaterial_eq_ok_iff.1 issued.isLoaded).1
  have kept := Certificate.isKept_subject_of_ofPem? read
  have plain := Certificate.isPlain_leafBody kept issued.isBetween (Certificate.isWhole_toInfo _)
    (Certificate.fits_body_of_fits_signed fits)
  rw [issued.certificatePem]
  exact Certificate.ofPem?_text (Certificate.isPlain_signed plain issued.signature) fits

theorem fits_of_size (issued : Issued authority endpoint chance clock files credential)
    (size : credential.certificatePem.utf8ByteSize < 2 ^ 63) :
    Asn1.Fits issued.certificate.encode := by
  rw [issued.certificatePem] at size
  exact Certificate.fits_of_size size

theorem length_certificate_le (issued : Issued authority endpoint chance clock files credential)
    {bits : Nat} (issuerKey : PublicKeyInfo) (hb : bits ≤ Rsa.maxBits)
    (caSized : issued.material.key.IsOfSize bits) (sized : issued.key.IsOfSize bits)
    (named : issued.material.certificate.body.subject.der.length ≤ DistinguishedName.maxLength)
    (given : issued.material.certificate.givenKeyId = some issuerKey.keyId) :
    issued.certificate.encode.length ≤ Certificate.maxLength :=
  Certificate.length_leaf_le issued.request hb caSized sized chance.serial.isLt rfl
    named (by rw [given]; exact PublicKeyInfo.length_keyId_le) issued.isAccepted issued.isBetween
    issued.isSigned

theorem key_eq (issued : Issued authority endpoint chance clock files credential) :
    issued.key = chance.key authority.policy.keySize :=
  (Chance.eq_of_keyOfSize? issued.isMade).1

theorem publicKey?_eq (issued : Issued authority endpoint chance clock files credential)
    (hb : authority.policy.keySize ≤ Rsa.maxBits)
    (sized : (chance.key authority.policy.keySize).IsOfSize authority.policy.keySize) :
    issued.certificate.publicKey? =
      some (.rsa (chance.key authority.policy.keySize).toPublic) := by
  change PublicKey.ofInfo? issued.key.toPublic.toInfo = _
  rw [issued.key_eq]
  exact PublicKey.ofInfo?_toInfo (sized.fits_toPublic hb)

theorem length_certificate_le_of_isOwn {caChance : Chance} {caClock : Clock}
    (issued : Issued authority endpoint chance clock files credential)
    (own : authority.IsOwn caChance caClock issued.material)
    (caSized : (caChance.key authority.policy.keySize).IsOfSize authority.policy.keySize)
    (sized : (chance.key authority.policy.keySize).IsOfSize authority.policy.keySize) :
    issued.certificate.encode.length ≤ Certificate.maxLength :=
  issued.length_certificate_le _ own.isSize (by rw [own.key]; exact caSized)
    (by rw [issued.key_eq]; exact sized) own.length_subject_le
    (Certificate.givenKeyId_root own.extensions)

end Issued

theorem nonempty_issued {endpoint : Endpoint}
    (h : (authority.issueFor endpoint chance clock).perform site = (.ok credential, site')) :
    Nonempty (Issued authority endpoint chance clock site.files credential) := by
  rw [issueFor_eq, issue_eq_ok_iff] at h
  obtain ⟨material, key, certificate, commonName, loaded, made, hl, rfl, -⟩ := h
  obtain ⟨rfl, accepted, validity, rsaKey, signature, between, ⟨⟩, signature', rfl⟩ :=
    Certificate.leaf_eq_ok_iff.1 hl
  exact ⟨material, key, validity, signature, loaded, made, between, rfl, accepted, signature', rfl⟩

end Authority
end VpnAuthority
