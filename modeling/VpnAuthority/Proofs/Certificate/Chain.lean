import VpnAuthority.Proofs.Certificate.Extensions
import VpnAuthority.Proofs.Rsa.Key
import VpnAuthority.Proofs.Rsa.Signature

/-! What a chain check finds in the certificates of the authority: which of them may have
issued which, and with which signature. -/
namespace VpnAuthority

open Asn1 (Fits ObjectId)

private theorem fits_of_short {content : Bytes} (h : content.length ≤ 1000) : Fits content :=
  h.trans_lt (by decide)

def Clock.Covers (clock : Clock) (days : Nat) (now : Instant) : Prop :=
  clock.first.seconds ≤ now.seconds ∧ now.seconds < (clock.second.addDays days).seconds

instance (clock : Clock) (days : Nat) (now : Instant) : Decidable (clock.Covers days now) :=
  inferInstanceAs (Decidable (_ ∧ _))

namespace PublicKeyInfo

variable (key : PublicKeyInfo)

theorem fits_keyId : Fits key.keyId := fits_of_short (by rw [key.length_keyId]; decide)

private theorem fits_encode_keyId (tag : UInt8) : Fits (Asn1.encode tag key.keyId) := by
  have := Asn1.length_encode_le tag key.keyId
  rw [key.length_keyId] at this
  exact fits_of_short (by omega)

end PublicKeyInfo

theorem PublicKey.ofInfo?_toInfo {key : Rsa.PublicKey} (fits : Fits key.encode) :
    ofInfo? key.toInfo = some (.rsa key) := by
  have isRsa : key.toInfo.algorithm.id = Rsa.PublicKey.algorithmId := rfl
  rw [ofInfo?, if_pos isRsa, Rsa.PublicKey.ofInfo?_toInfo fits]
  rfl

theorem DistinguishedName.same_self (name : DistinguishedName) : name.same name = true :=
  beq_self_eq_true _

namespace Certificate

theorem single_eq_present {α : Type} {certificate : Certificate} {id : ObjectId}
    {decode? : Bytes → Option α} {value : Bytes} {a : α}
    (hv : certificate.extensionValues id = [value]) (hd : decode? value = some a) :
    certificate.single id decode? = .present a := by
  rw [single, hv]
  simp only [hd]

theorem single_eq_absent {α : Type} {certificate : Certificate} {id : ObjectId}
    {decode? : Bytes → Option α} (hv : certificate.extensionValues id = []) :
    certificate.single id decode? = .absent := by
  rw [single, hv]

theorem extensionValues_eq {certificate : Certificate} {extensions : List Extension}
    (h : certificate.body.extensions = extensions) (id : ObjectId) :
    certificate.extensionValues id = (extensions.filter (·.id = id)).map (·.value) := by
  rw [extensionValues, h]

private def rareIds : List ObjectId := [Extension.legacyTypeId, Extension.nameConstraintsId,
  Extension.distributionPointsId, Extension.addressBlocksId, Extension.systemNumbersId]

/-- The rarer extensions do not count where there are none. -/
private theorem isConsistent_of_common {certificate : Certificate}
    (rare : ∀ id ∈ rareIds, certificate.extensionValues id = []) :
    certificate.isConsistent = (!certificate.basicConstraints.isFaulty
      && certificate.basicConstraints.toOption.all (fun constraints =>
        constraints.pathLength.all (0 ≤ ·))
      && !certificate.keyUsage.isFaulty
      && certificate.keyUsage.toOption.all (fun bits => (bits.take 2).any (· != 0))
      && !certificate.subjectKey.isFaulty && !certificate.authorityKey.isFaulty
      && !(certificate.single Extension.extendedKeyUsageId Extension.objectIds?).isFaulty
      && !(certificate.single Extension.alternativeNameId Extension.generalNames?).isFaulty) := by
  have absent {α : Type} {decode? : Bytes → Option α} {id : ObjectId} (isRare : id ∈ rareIds) :
      (certificate.single id decode?).isFaulty = false := by
    rw [single_eq_absent (rare id isRare)]
    rfl
  have legacy : certificate.legacyType.isFaulty = false := absent (by simp [rareIds])
  simp only [isConsistent, legacy, absent (show Extension.nameConstraintsId ∈ rareIds by decide),
    absent (show Extension.distributionPointsId ∈ rareIds by decide),
    absent (show Extension.addressBlocksId ∈ rareIds by decide),
    absent (show Extension.systemNumbersId ∈ rareIds by decide), Bool.not_false, Bool.and_true]

section
variable {policy : Policy} {key : Rsa.PrivateKey} {commonName : String} {days serial : Nat}
  {clock : Clock} {certificate : Certificate}
  (made : root policy (.rsa key) commonName days serial clock = .ok certificate)
  (fits : Fits certificate.encode)
include made fits

theorem fits_key_of_root : Fits key.toPublic.encode := by
  obtain ⟨-, validity, signature, -, -, rfl⟩ := root_eq_ok_iff.1 made
  have bodyFits := fits_body_of_fits_signed fits
  rw [CertificateBody.encode_eq] at bodyFits
  have infoFits := (CertificateBody.partsFit bodyFits.of_encode).key.of_encode
  have octetsFit := (Asn1.Fits.of_append infoFits).2.of_encode
  exact octetsFit.of_length_le (List.sublist_cons_self _ _).length_le

theorem publicKey?_root : certificate.publicKey? = some (.rsa key.toPublic) := by
  have keyFits := fits_key_of_root made fits
  obtain ⟨-, validity, signature, -, -, rfl⟩ := root_eq_ok_iff.1 made
  exact PublicKey.ofInfo?_toInfo keyFits

theorem decode?_encode_root : decode? certificate.encode = some certificate := by
  obtain ⟨-, validity, signature, between, -, rfl⟩ := root_eq_ok_iff.1 made
  exact decode?_encode
    (isPlain_signed (isPlain_rootBody between (fits_body_of_fits_signed fits)) signature) fits

end

section
variable {root : Certificate} {key : PublicKeyInfo}
  (h : root.body.extensions = rootExtensions key)
include h

theorem subjectKey_root : root.subjectKey = .present key.keyId :=
  single_eq_present (extensionValues_eq h _) (Extension.octets?_octetString key.fits_keyId)

theorem authorityKey_root : root.authorityKey = .present ⟨some key.keyId, [], none⟩ :=
  single_eq_present (extensionValues_eq h _) (AuthorityKey.decode?_encode (key.fits_encode_keyId _))

theorem basicConstraints_root : root.basicConstraints = .present ⟨true, some 0⟩ :=
  single_eq_present (extensionValues_eq h _) BasicConstraints.decode?_encode_root

theorem keyUsage_root : root.keyUsage = .absent := single_eq_absent (extensionValues_eq h _)

theorem givenKeyId_root : root.givenKeyId = some key.keyId := by
  have value : root.extensionValues Extension.subjectKeyId = [Asn1.octetString key.keyId] :=
    extensionValues_eq h _
  have isSome : key.keyId ≠ [] := by
    rw [← List.length_pos_iff, key.length_keyId]
    decide
  simp [givenKeyId, value, Extension.octets?_octetString key.fits_keyId, isSome]

private theorem isConsistent_root : root.isConsistent = true := by
  have rare : ∀ id ∈ rareIds, root.extensionValues id = [] := by
    simp only [rareIds, List.mem_cons, List.not_mem_nil, or_false]
    rintro _ (rfl | rfl | rfl | rfl | rfl) <;> exact extensionValues_eq h _
  have purposes : root.single Extension.extendedKeyUsageId Extension.objectIds? = .absent :=
    single_eq_absent (extensionValues_eq h _)
  have names : root.single Extension.alternativeNameId Extension.generalNames? = .absent :=
    single_eq_absent (extensionValues_eq h _)
  rw [isConsistent_of_common rare]
  simp [basicConstraints_root h, keyUsage_root h, subjectKey_root h, authorityKey_root h, purposes,
    names, Single.isFaulty, Single.toOption]

private theorem isAcceptable_root : root.isAcceptable = true := by
  have proxy : root.isProxy = false := by
    rw [isProxy, extensionValues_eq h]
    rfl
  have critical : root.hasUnknownCritical = false := by
    rw [hasUnknownCritical, h]
    rfl
  rw [isAcceptable, proxy, critical]
  rfl

private theorem isAuthority_root : root.isAuthority = true := by
  simp [isAuthority, allowsSigning, keyUsage_root h, basicConstraints_root h, Single.toOption]

end

section
variable {leaf : Certificate} {key issuerKey : PublicKeyInfo} {commonName : String}
  {purpose : Purpose} (h : leaf.body.extensions =
    leafExtensions commonName key (some issuerKey.keyId) purpose)
include h

private theorem subjectKey_leaf : leaf.subjectKey = .present key.keyId :=
  single_eq_present (extensionValues_eq h _) (Extension.octets?_octetString key.fits_keyId)

private theorem authorityKey_leaf : leaf.authorityKey = .present ⟨some issuerKey.keyId, [], none⟩ :=
  single_eq_present (extensionValues_eq h _)
    (AuthorityKey.decode?_encode (issuerKey.fits_encode_keyId _))

private theorem isConsistent_leaf (fits : Fits (Asn1.encode 0x82 (Utf8.encode commonName))) :
    leaf.isConsistent = true := by
  have rare : ∀ id ∈ rareIds, leaf.extensionValues id = [] := by
    simp only [rareIds, List.mem_cons, List.not_mem_nil, or_false]
    rintro _ (rfl | rfl | rfl | rfl | rfl) <;> exact extensionValues_eq h _
  have constraints : leaf.basicConstraints = .present ⟨false, none⟩ :=
    single_eq_present (extensionValues_eq h _) BasicConstraints.decode?_encode_leaf
  have usage : leaf.keyUsage = .present [0x80] :=
    single_eq_present (extensionValues_eq h _) Extension.bits?_digitalSignature
  have purposes : leaf.single Extension.extendedKeyUsageId Extension.objectIds? =
      .present [purpose.id] :=
    single_eq_present (extensionValues_eq h _) (Extension.objectIds?_purpose purpose)
  have names : leaf.single Extension.alternativeNameId Extension.generalNames? = .present [none] :=
    single_eq_present (extensionValues_eq h _) (Extension.generalNames?_hostName fits)
  rw [isConsistent_of_common rare]
  simp [constraints, usage, subjectKey_leaf h, authorityKey_leaf h, purposes, names,
    Single.isFaulty, Single.toOption]

private theorem isAcceptable_leaf : leaf.isAcceptable = true := by
  have proxy : leaf.isProxy = false := by
    rw [isProxy, extensionValues_eq h]
    rfl
  have critical : leaf.hasUnknownCritical = false := by
    rw [hasUnknownCritical, h]
    rfl
  rw [isAcceptable, proxy, critical]
  rfl

end

private theorem not_mayHaveIssued {issuer certificate : Certificate} {own id : Bytes}
    {fields : AuthorityKey} (hs : issuer.subjectKey = .present own)
    (ha : certificate.authorityKey = .present fields) (names : fields.keyId = some id)
    (apart : id ≠ own) : issuer.mayHaveIssued certificate = false := by
  have : (id == own) = false := beq_eq_false_iff_ne.2 apart
  simp [mayHaveIssued, ha, Single.toOption, fitsAuthorityKey, hs, names, this]

private theorem mayHaveIssued_of {issuer certificate : Certificate} {id : Bytes}
    {key : Rsa.PublicKey} (named : issuer.body.subject.same certificate.body.issuer = true)
    (hi : issuer.isConsistent = true) (hc : certificate.isConsistent = true)
    (hs : issuer.subjectKey = .present id)
    (ha : certificate.authorityKey = .present ⟨some id, [], none⟩)
    (hk : issuer.publicKey? = some (.rsa key))
    (algorithm : certificate.body.algorithm = standardAlgorithm) :
    issuer.mayHaveIssued certificate = true := by
  have isListed : PublicKey.rsaSignatureIds.contains standardAlgorithm.id = true := by decide
  have signs : (PublicKey.rsa key).signsWith standardAlgorithm.id = true := isListed
  simp [mayHaveIssued, named, hi, hc, ha, hk, algorithm, signs, Single.toOption, fitsAuthorityKey,
    hs]

private theorem isSignedBy_signed {body : CertificateBody} {key : Rsa.PrivateKey}
    {signature : Bytes} (hb : body.algorithm = standardAlgorithm) (sound : key.Sound)
    (hs : Rsa.sign? key .sha256 body.encode = some signature) :
    (signed body signature).isSignedBy (.rsa key.toPublic) = true := by
  have kind : Digest.Kind.ofSignatureId? standardAlgorithm.id = some .sha256 := by decide
  have verified := Rsa.verify_of_sign?_eq_some sound hs
  simp [isSignedBy, signed, kind, hb, verified]

theorem isValidAt_of_isBetween {certificate : Certificate} {clock : Clock} {days : Nat}
    (h : certificate.body.validity.IsBetween clock.first (clock.second.addDays days))
    (now : Instant) : certificate.isValidAt now = decide (clock.Covers days now) := by
  obtain ⟨notBefore, notAfter⟩ := h
  rw [Bool.eq_iff_iff, decide_eq_true_iff]
  simp [isValidAt, Asn1.Time.instant?_of_ofInstant? notBefore,
    Asn1.Time.instant?_of_ofInstant? notAfter, Clock.Covers]

section
variable {policy : Policy} {caKey key : Rsa.PrivateKey} {caName commonName : String}
  {caSerial serial caDays : Nat} {caValidity validity : Validity} {caSignature signature : Bytes}
  {caClock clock : Clock} {request : LeafRequest}

theorem isSelfSigned_root {root : Certificate}
    (hr : root = signed (rootBody policy caKey caName caSerial caValidity) caSignature)
    (caFits : Fits caKey.toPublic.encode) : root.isSelfSigned = true := by
  have extended : root.body.extensions = rootExtensions caKey.toPublic.toInfo := by
    rw [hr]
    rfl
  have isConsistent := isConsistent_root extended
  have isKey : root.publicKey? = some (.rsa caKey.toPublic) := by
    rw [hr]
    exact PublicKey.ofInfo?_toInfo caFits
  exact mayHaveIssued_of (by rw [hr]; exact DistinguishedName.same_self _) isConsistent
    isConsistent (subjectKey_root extended) (authorityKey_root extended) isKey (by rw [hr]; rfl)

theorem isIssuedBy_self {root : Certificate}
    (hr : root = signed (rootBody policy caKey caName caSerial caValidity) caSignature)
    (caFits : Fits caKey.toPublic.encode)
    (caBetween : caValidity.IsBetween caClock.first (caClock.second.addDays caDays))
    (now : Instant) : root.isIssuedBy root now = some (decide (caClock.Covers caDays now)) := by
  have extended : root.body.extensions = rootExtensions caKey.toPublic.toInfo := by
    rw [hr]
    rfl
  have isKey : root.publicKey? = some (.rsa caKey.toPublic) := by
    rw [hr]
    exact PublicKey.ofInfo?_toInfo caFits
  have isSelf := isSelfSigned_root hr caFits
  have issued : root.mayHaveIssued root = true := isSelf
  have isValid : root.isValidAt now = decide (caClock.Covers caDays now) :=
    isValidAt_of_isBetween (by rw [hr]; exact caBetween) now
  simp [isIssuedBy, issued, isKey, isSelf, isAcceptable_root extended, isValid]

/-- A leaf is trusted because of a certificate with whose key it was signed, if it was made in
the name of one of the same name and key, as long as both are valid. -/
theorem isIssuedBy_root {root issuer leaf : Certificate}
    (hr : root = signed (rootBody policy caKey caName caSerial caValidity) caSignature)
    (hl : leaf = signed (leafBody request issuer commonName serial validity) signature)
    (named : root.body.subject.same issuer.body.subject = true)
    (given : issuer.givenKeyId = some caKey.toPublic.toInfo.keyId)
    (hk : request.key = key.toPublic.toInfo)
    (isSigned : Rsa.sign? caKey .sha256 leaf.body.encode = some signature)
    (sound : caKey.Sound) (caFits : Fits caKey.toPublic.encode) (fits : Fits key.toPublic.encode)
    (nameFits : Fits (Asn1.encode 0x82 (Utf8.encode commonName)))
    (apart : caKey.toPublic.toInfo.keyId ≠ key.toPublic.toInfo.keyId)
    (caBetween : caValidity.IsBetween caClock.first (caClock.second.addDays caDays))
    (between : validity.IsBetween clock.first (clock.second.addDays request.days))
    (now : Instant) :
    leaf.isIssuedBy root now =
      some (decide (caClock.Covers caDays now ∧ clock.Covers request.days now)) := by
  have rootExtended : root.body.extensions = rootExtensions caKey.toPublic.toInfo := by
    rw [hr]
    rfl
  have leafExtended : leaf.body.extensions = leafExtensions commonName key.toPublic.toInfo
      (some caKey.toPublic.toInfo.keyId) request.purpose := by
    rw [hl, ← hk, ← given]
    rfl
  have rootKey : root.publicKey? = some (.rsa caKey.toPublic) := by
    rw [hr]
    exact PublicKey.ofInfo?_toInfo caFits
  have leafKey : leaf.publicKey? = some (.rsa key.toPublic) := by
    have : leaf.body.key = key.toPublic.toInfo := by rw [hl, ← hk]; rfl
    rw [publicKey?, this]
    exact PublicKey.ofInfo?_toInfo fits
  have issued : root.mayHaveIssued leaf = true :=
    mayHaveIssued_of (by rw [hl]; exact named) (isConsistent_root rootExtended)
      (isConsistent_leaf leafExtended nameFits) (subjectKey_root rootExtended)
      (authorityKey_leaf leafExtended) rootKey (by rw [hl]; rfl)
  have rootSelf := isSelfSigned_root hr caFits
  have leafSelf : leaf.isSelfSigned = false :=
    not_mayHaveIssued (subjectKey_leaf leafExtended) (authorityKey_leaf leafExtended) rfl apart
  have verified : leaf.isSignedBy (.rsa caKey.toPublic) = true := by
    rw [hl] at isSigned ⊢
    exact isSignedBy_signed rfl sound isSigned
  have rootValid : root.isValidAt now = decide (caClock.Covers caDays now) :=
    isValidAt_of_isBetween (by rw [hr]; exact caBetween) now
  have leafValid : leaf.isValidAt now = decide (clock.Covers request.days now) :=
    isValidAt_of_isBetween (by rw [hl]; exact between) now
  simp [isIssuedBy, issued, leafKey, leafSelf, rootSelf, isAcceptable_leaf leafExtended,
    isAcceptable_root rootExtended, isAuthority_root rootExtended, rootKey, verified, rootValid,
    leafValid]

theorem isIssuedBy_of_length {issuer leaf : Certificate} {issuerKey : Rsa.PublicKey}
    {leafKey : PublicKey} (hi : issuer.publicKey? = some (.rsa issuerKey))
    (hl : leaf.publicKey? = some leafKey) (other : leaf.encode ≠ issuer.encode)
    (length : leaf.signature.length ≠ issuerKey.size) (now : Instant) :
    leaf.isIssuedBy issuer now = some false := by
  have unverified : leaf.isSignedBy (.rsa issuerKey) = false := by
    have : (leaf.signature.length == issuerKey.size) = false := beq_eq_false_iff_ne.2 length
    unfold isSignedBy
    split
    · next kind hk _ =>
      cases hk
      simp [Rsa.verify, this]
    · rfl
  unfold isIssuedBy
  rw [hl, hi]
  split
  · rfl
  · split
    · next isNone => cases isNone
    · split
      · simp [beq_eq_false_iff_ne.2 other]
      · simp [unverified]

theorem isIssuedBy_of_not_same {issuer certificate : Certificate}
    (apart : issuer.body.subject.same certificate.body.issuer = false) (now : Instant) :
    certificate.isIssuedBy issuer now = some false := by
  simp [isIssuedBy, mayHaveIssued, apart]

theorem isIssuedBy_of_otherKey {issuer certificate : Certificate} {own id value : Bytes}
    {fields : AuthorityKey} (hs : issuer.subjectKey = .present own)
    (isValue : value ∈ certificate.extensionValues Extension.authorityKeyId)
    (decoded : AuthorityKey.decode? value = some fields) (names : fields.keyId = some id)
    (apart : id ≠ own) (now : Instant) : certificate.isIssuedBy issuer now = some false := by
  have refused : issuer.mayHaveIssued certificate = false := by
    cases h : certificate.authorityKey with
    | absent =>
      unfold authorityKey single at h
      split at h
      · next none => simp [none] at isValue
      · split at h <;> cases h
      · cases h
    | present fields' =>
      refine not_mayHaveIssued hs h ?_ apart
      unfold authorityKey single at h
      split at h
      · cases h
      · next value' only =>
        rw [only, List.mem_singleton] at isValue
        subst isValue
        rw [decoded] at h
        cases h
        exact names
      · cases h
    | faulty => simp [mayHaveIssued, isConsistent, h, Single.isFaulty]
  simp [isIssuedBy, refused]

theorem isIssuedBy_of_apart {issuer leaf : Certificate} {issuerKey info : PublicKeyInfo}
    {own : Bytes} {purpose : Purpose}
    (hl : leaf.body.extensions = leafExtensions commonName info (some issuerKey.keyId) purpose)
    (hs : issuer.subjectKey = .present own) (apart : issuerKey.keyId ≠ own) (now : Instant) :
    leaf.isIssuedBy issuer now = some false := by
  simp [isIssuedBy, not_mayHaveIssued hs (authorityKey_leaf hl) rfl apart]

end

end Certificate

end VpnAuthority
