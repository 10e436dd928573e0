import VpnAuthority.Certificate.Profile
import VpnAuthority.Proofs.Certificate
import VpnAuthority.Proofs.Outcome

/-! What the certificates of the authority consist of. -/
namespace VpnAuthority.Certificate

private theorem isKept_of_null {id : Asn1.ObjectId} (h : id.IsWritable = true) :
    Algorithm.IsKept ⟨id, some Asn1.null⟩ where
  id := h
  parameters := by
    rintro _ ⟨⟩
    exact ⟨Asn1.nullTag, [], by decide, by decide, rfl, rfl⟩

theorem isKept_standardAlgorithm : standardAlgorithm.IsKept := isKept_of_null rfl

theorem isWhole_toInfo (key : Rsa.PublicKey) : key.toInfo.IsWhole := ⟨isKept_of_null rfl, rfl⟩

theorem validityBy_eq_ok_iff {clock : Clock} {days : Nat} {validity : Validity} :
    validityBy clock days = .ok validity ↔
      validity.IsBetween clock.first (clock.second.addDays days) := by
  unfold validityBy Validity.IsBetween
  obtain ⟨notBefore, notAfter⟩ := validity
  cases Asn1.Time.ofInstant? clock.first with
  | none => simp
  | some first =>
    cases Asn1.Time.ofInstant? (clock.second.addDays days) with
    | none => simp
    | some last => simp

def signed (body : CertificateBody) (signature : Bytes) : Certificate :=
  ⟨body, body.encode, body.algorithm, 0, signature⟩

theorem sign_eq_ok_iff {body : CertificateBody} {signer : Signer} {certificate : Certificate} :
    sign body signer = .ok certificate ↔
      ∃ signature, signer.sign? { body with algorithm := signer.algorithm }.encode =
          some signature ∧
        certificate = signed { body with algorithm := signer.algorithm } signature := by
  unfold sign
  dsimp only
  cases hs : signer.sign? { body with algorithm := signer.algorithm }.encode with
  | none => simp
  | some signature => simp [signed, eq_comm]

theorem signer_sign?_eq_some_iff {key : PrivateKey} {message signature : Bytes} :
    key.signer.sign? message = some signature ↔
      ∃ rsaKey, key = .rsa rsaKey ∧ Rsa.sign? rsaKey .sha256 message = some signature := by
  cases key <;> simp [PrivateKey.signer]

theorem algorithm_signer (key : PrivateKey) : key.signer.algorithm = standardAlgorithm := by
  cases key <;> rfl

theorem subject_eq_ok_iff {policy : Policy} {commonName : String} {name : DistinguishedName} :
    subject policy commonName = .ok name ↔
      name = .ofSets (DistinguishedName.subjectSets policy commonName) ∧
        ∀ field : SubjectField, field.accepts (field.value policy commonName) = true :=
  mapError_eq_ok.trans DistinguishedName.ofSubject_eq_ok_iff

def leafBody (request : LeafRequest) (issuer : Certificate) (commonName : String) (serial : Nat)
    (validity : Validity) : CertificateBody :=
  newBody serial issuer.body.subject
    (.ofSets (DistinguishedName.subjectSets request.policy commonName)) validity request.key
    (leafExtensions commonName request.key issuer.givenKeyId request.purpose)

def leafBodyBy (algorithm : Algorithm) (request : LeafRequest) (issuer : Certificate)
    (commonName : String) (serial : Nat) (validity : Validity) : CertificateBody :=
  { leafBody request issuer commonName serial validity with algorithm }

theorem leafBodyBy_signer (key : PrivateKey) (request : LeafRequest) (issuer : Certificate)
    (commonName : String) (serial : Nat) (validity : Validity) :
    leafBodyBy key.signer.algorithm request issuer commonName serial validity =
      leafBody request issuer commonName serial validity := by
  rw [leafBodyBy, algorithm_signer]
  rfl

section
variable {request : LeafRequest} {issuer certificate : Certificate} {suffix : UniqueSuffix}
  {serial : Nat} {clock : Clock} {commonName : String}

theorem leafBy_eq_ok_iff {signer : Signer} :
    leafBy request issuer signer suffix serial clock = .ok (certificate, commonName) ↔
      commonName = CommonName.ofSubject suffix request.subject ∧
        (∀ field : SubjectField, field.accepts (field.value request.policy commonName) = true) ∧
        ∃ validity signature,
          validity.IsBetween clock.first (clock.second.addDays request.days) ∧
          signer.sign?
            (leafBodyBy signer.algorithm request issuer commonName serial validity).encode =
              some signature ∧
          certificate =
            signed (leafBodyBy signer.algorithm request issuer commonName serial validity)
              signature := by
  simp only [leafBy, bind_eq_ok, subject_eq_ok_iff, validityBy_eq_ok_iff, sign_eq_ok_iff]
  constructor
  · rintro ⟨_, ⟨rfl, accepted⟩, validity, hv, _, ⟨signature, hs, rfl⟩, ⟨⟩⟩
    exact ⟨rfl, accepted, validity, signature, hv, hs, rfl⟩
  · rintro ⟨rfl, accepted, validity, signature, hv, hs, rfl⟩
    exact ⟨_, ⟨rfl, accepted⟩, validity, hv, _, ⟨signature, hs, rfl⟩, rfl⟩

theorem leaf_eq_ok_iff {issuerKey : PrivateKey} :
    leaf request issuer issuerKey suffix serial clock = .ok (certificate, commonName) ↔
      commonName = CommonName.ofSubject suffix request.subject ∧
        (∀ field : SubjectField, field.accepts (field.value request.policy commonName) = true) ∧
        ∃ validity rsaKey signature,
          validity.IsBetween clock.first (clock.second.addDays request.days) ∧
          issuerKey = .rsa rsaKey ∧
          Rsa.sign? rsaKey .sha256
            (leafBody request issuer commonName serial validity).encode = some signature ∧
          certificate = signed (leafBody request issuer commonName serial validity) signature := by
  simp only [leaf, leafBy_eq_ok_iff, leafBodyBy_signer, signer_sign?_eq_some_iff]
  constructor
  · rintro ⟨name, accepted, validity, signature, hv, ⟨rsaKey, hk, hs⟩, hc⟩
    exact ⟨name, accepted, validity, rsaKey, signature, hv, hk, hs, hc⟩
  · rintro ⟨name, accepted, validity, rsaKey, signature, hv, hk, hs, hc⟩
    exact ⟨name, accepted, validity, signature, hv, ⟨rsaKey, hk, hs⟩, hc⟩

end

theorem isPlain_newBody {serial : Nat} {issuer subject : DistinguishedName}
    {validity : Validity} {key : PublicKeyInfo} {extensions : List Extension} {first last : Instant}
    (hi : issuer.IsKept) (hs : subject.IsKept) (hv : validity.IsBetween first last)
    (hk : key.IsWhole) (he : ∀ extension ∈ extensions, extension.id.IsWritable = true) :
    (newBody serial issuer subject validity key extensions).IsPlain where
  version := rfl
  serial := Int.natCast_nonneg serial
  algorithm := isKept_standardAlgorithm
  issuer := hi
  validity := ⟨first, last, hv⟩
  subject := hs
  key := hk
  extensions := he

theorem isPlain_signed {body : CertificateBody} (h : body.IsPlain) (signature : Bytes) :
    (signed body signature).IsPlain :=
  ⟨h, rfl, h.algorithm, rfl⟩

theorem isWritable_of_mem_leafExtensions {commonName : String} {key : PublicKeyInfo}
    {issuerKey : Option Bytes} {purpose : Purpose} :
    ∀ extension ∈ leafExtensions commonName key issuerKey purpose,
      extension.id.IsWritable = true := by
  simp only [leafExtensions, List.forall_mem_cons]
  exact ⟨rfl, rfl, rfl, rfl, rfl, rfl, by simp⟩

theorem isPlain_leafBodyBy {algorithm : Algorithm} {request : LeafRequest} {issuer : Certificate}
    {commonName : String} {serial : Nat} {validity : Validity} {first last : Instant}
    (hi : issuer.body.subject.IsKept) (hv : validity.IsBetween first last)
    (hk : request.key.IsWhole) (ha : algorithm.IsKept)
    (fits : Asn1.Fits (leafBodyBy algorithm request issuer commonName serial validity).encode) :
    (leafBodyBy algorithm request issuer commonName serial validity).IsPlain := by
  rw [CertificateBody.encode_eq] at fits
  have subjectFits := (CertificateBody.partsFit fits.of_encode).subject
  have kept := DistinguishedName.isKept_ofSets
    (DistinguishedName.isText_of_mem_subjectSets request.policy commonName) subjectFits.of_encode
  exact { isPlain_newBody hi kept hv hk isWritable_of_mem_leafExtensions with algorithm := ha }

theorem isPlain_leafBody {request : LeafRequest} {issuer : Certificate} {commonName : String}
    {serial : Nat} {validity : Validity} {first last : Instant}
    (hi : issuer.body.subject.IsKept) (hv : validity.IsBetween first last)
    (hk : request.key.IsWhole)
    (fits : Asn1.Fits (leafBody request issuer commonName serial validity).encode) :
    (leafBody request issuer commonName serial validity).IsPlain :=
  isPlain_leafBodyBy hi hv hk isKept_standardAlgorithm fits

def rootBody (policy : Policy) (key : Rsa.PrivateKey) (commonName : String) (serial : Nat)
    (validity : Validity) : CertificateBody :=
  let name := DistinguishedName.ofSets (DistinguishedName.subjectSets policy commonName)
  newBody serial name name validity key.toPublic.toInfo (rootExtensions key.toPublic.toInfo)

theorem exists_rsa_of_root_eq_ok {policy : Policy} {key : PrivateKey} {commonName : String}
    {days serial : Nat} {clock : Clock} {certificate : Certificate}
    (h : root policy key commonName days serial clock = .ok certificate) :
    ∃ rsaKey, key = .rsa rsaKey := by
  cases key with
  | rsa rsaKey => exact ⟨rsaKey, rfl⟩
  | other system =>
    simp only [root, bind_eq_ok] at h
    obtain ⟨_, -, _, -, h⟩ := h
    cases h

theorem root_eq_ok_iff {policy : Policy} {key : Rsa.PrivateKey} {commonName : String}
    {days serial : Nat} {clock : Clock} {certificate : Certificate} :
    root policy (.rsa key) commonName days serial clock = .ok certificate ↔
      (∀ field : SubjectField, field.accepts (field.value policy commonName) = true) ∧
        ∃ validity signature, validity.IsBetween clock.first (clock.second.addDays days) ∧
          Rsa.sign? key .sha256 (rootBody policy key commonName serial validity).encode =
            some signature ∧
          certificate = signed (rootBody policy key commonName serial validity) signature := by
  simp only [root, bind_eq_ok, subject_eq_ok_iff, validityBy_eq_ok_iff, sign_eq_ok_iff]
  constructor
  · rintro ⟨_, ⟨rfl, accepted⟩, validity, hv, signature, hs, rfl⟩
    exact ⟨accepted, validity, signature, hv, hs, rfl⟩
  · rintro ⟨accepted, validity, signature, hv, hs, rfl⟩
    exact ⟨_, ⟨rfl, accepted⟩, validity, hv, signature, hs, rfl⟩

theorem isWritable_of_mem_rootExtensions {key : PublicKeyInfo} :
    ∀ extension ∈ rootExtensions key, extension.id.IsWritable = true := by
  simp only [rootExtensions, List.forall_mem_cons]
  exact ⟨rfl, rfl, rfl, by simp⟩

theorem isPlain_rootBody {policy : Policy} {key : Rsa.PrivateKey} {commonName : String}
    {serial : Nat} {validity : Validity} {first last : Instant}
    (hv : validity.IsBetween first last)
    (fits : Asn1.Fits (rootBody policy key commonName serial validity).encode) :
    (rootBody policy key commonName serial validity).IsPlain := by
  rw [CertificateBody.encode_eq] at fits
  have subjectFits := (CertificateBody.partsFit fits.of_encode).subject
  have kept := DistinguishedName.isKept_ofSets
    (DistinguishedName.isText_of_mem_subjectSets policy commonName)
    subjectFits.of_encode
  exact isPlain_newBody kept kept hv (isWhole_toInfo _) isWritable_of_mem_rootExtensions

theorem fits_body_of_fits_signed {body : CertificateBody} {signature : Bytes}
    (fits : Asn1.Fits (signed body signature).encode) : Asn1.Fits body.encode := by
  rw [encode_eq] at fits
  exact fits.of_encode.of_length_le (List.sublist_append_left _ _).length_le

theorem ofPem?_toPem_root_of_fits {policy : Policy} {key : Rsa.PrivateKey} {commonName : String}
    {days serial : Nat} {clock : Clock} {certificate : Certificate}
    (made : root policy (.rsa key) commonName days serial clock = .ok certificate)
    (fits : Asn1.Fits certificate.encode) : ofPem? certificate.toPem = some certificate := by
  obtain ⟨-, validity, signature, between, -, rfl⟩ := root_eq_ok_iff.1 made
  have plain := isPlain_signed (isPlain_rootBody between (fits_body_of_fits_signed fits)) signature
  exact ofPem?_toPem plain fits

end VpnAuthority.Certificate
