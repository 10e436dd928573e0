import VpnAuthority.Proofs.Authority.Availability
import VpnAuthority.Proofs.Certificate.Leaf
import VpnAuthority.Proofs.Rsa.Generation

/-! What stands in the certificate of a credential, and in any other leaf. -/
namespace VpnAuthority

open Asn1 (Fits)

namespace Authority

variable {authority : Authority} {endpoint : Endpoint} {chance : Chance} {clock : Clock}
  {site site' : Site} {credential : Credential}

private theorem exists_isLeaf_of_issued
    (h : (authority.issueFor endpoint chance clock).perform site = (.ok credential, site'))
    (size : credential.certificatePem.utf8ByteSize < 2 ^ 63) :
    ∃ issuer leaf, authority.loadCertificate site.files = .ok issuer ∧
      Certificate.ofPem? (Utf8.encode credential.certificatePem) = some leaf ∧
      leaf.IsLeaf (authority.leafRequest endpoint.subject endpoint.purpose
        (chance.key authority.policy.keySize)) issuer credential.commonName chance.serial clock := by
  rw [issueFor_eq, issue_eq_ok_iff] at h
  obtain ⟨material, key, leaf, commonName, loaded, isMade, made, rfl, -⟩ := h
  obtain ⟨rfl, -⟩ := Chance.eq_of_keyOfSize? isMade
  have fits := Certificate.fits_of_size size
  have loadedCertificate := (loadMaterial_eq_ok_iff.1 loaded).1
  obtain ⟨text, -, read⟩ := loadCertificate_eq_ok_iff.1 loadedCertificate
  refine ⟨material.certificate, leaf, loadedCertificate, ?_,
    Certificate.isLeaf_of_leafBy made fits⟩
  rw [Certificate.encode_text_toPem, Certificate.ofPem?_toPem_eq]
  exact Certificate.decode?_encode_of_leafBy (Certificate.isKept_subject_of_ofPem? read)
    (Certificate.isWhole_toInfo _) Certificate.isKept_standardAlgorithm made fits

/-- A leaf is read back with all that it was asked for and nothing else, whoever issued it
and whatever kind of key signed it. It names the key of its issuer as the issuer's own
certificate does, and not at all where that has no name for it or an empty one. A
credential is for what its holder is. -/
theorem profile_of_leafBy :
    (∀ {request : Certificate.LeafRequest} {issuer leaf : Certificate} {der : Bytes}
        {signer : Signer} {suffix : UniqueSuffix} {serial : Nat} {clock : Clock}
        {commonName : String},
      Certificate.decode? der = some issuer → request.key.IsWhole → signer.algorithm.IsKept →
      Certificate.leafBy request issuer signer suffix serial clock = .ok (leaf, commonName) →
      leaf.encode.length < 2 ^ 63 →
        Certificate.decode? leaf.encode = some leaf ∧
        commonName = CommonName.ofSubject suffix request.subject ∧
        leaf.IsLeaf request issuer commonName serial clock ∧
        leaf.IsSignedWith signer ∧
        (∀ id, issuer.subjectKey = .present id → id ≠ [] →
          leaf.authorityKey = .present ⟨some id, [], none⟩) ∧
        (issuer.subjectKey = .absent ∨ issuer.subjectKey = .present [] →
          leaf.extensionValues Extension.authorityKeyId = [Asn1.sequence []]) ∧
        ∀ key, signer = (PrivateKey.rsa key).signer →
          leaf.algorithm = ⟨⟨[1, 2, 840, 113549, 1, 1, 11]⟩, some Asn1.null⟩ ∧
          Rsa.sign? key .sha256 leaf.body.encode = some leaf.signature ∧
          (key.Sound → Rsa.verify key.toPublic .sha256 leaf.body.encode leaf.signature = true)) ∧
    ∀ {authority : Authority} {endpoint : Endpoint} {chance : Chance} {clock : Clock}
        {site site' : Site} {credential : Credential},
      (authority.issueFor endpoint chance clock).perform site = (.ok credential, site') →
      credential.certificatePem.utf8ByteSize < 2 ^ 63 →
        ∃ issuer leaf, authority.loadCertificate site.files = .ok issuer ∧
          Certificate.ofPem? (Utf8.encode credential.certificatePem) = some leaf ∧
          leaf.IsLeaf (authority.leafRequest endpoint.subject endpoint.purpose
            (chance.key authority.policy.keySize)) issuer credential.commonName chance.serial
            clock ∧
          leaf.purposes = .present [match endpoint with
            | .server _ => ⟨[1, 3, 6, 1, 5, 5, 7, 3, 1]⟩
            | .client _ => ⟨[1, 3, 6, 1, 5, 5, 7, 3, 2]⟩] := by
  constructor
  · intro request issuer leaf der signer suffix serial clock commonName issued key algorithm made
      size
    have fits : Fits leaf.encode := size.trans (by decide)
    have isLeaf := Certificate.isLeaf_of_leafBy made fits
    have isSigned := Certificate.isSignedWith_of_leafBy made
    have isRead := Certificate.decode?_encode_of_leafBy
      (Certificate.isKept_subject_of_decode? issued) key algorithm made fits
    refine ⟨isRead, (Certificate.leafBy_eq_ok_iff.1 made).1, isLeaf, isSigned, ?_, ?_, ?_⟩
    · intro id given isSome
      rw [isLeaf.authorityKey, Certificate.givenKeyId_of_subjectKey given, if_neg isSome]
    · intro without
      have notGiven : issuer.givenKeyId = none := by
        rcases without with absent | isEmpty
        · exact Certificate.givenKeyId_of_absent absent
        · rw [Certificate.givenKeyId_of_subjectKey isEmpty, if_pos rfl]
      rw [Certificate.authorityKeyValues_of_leafBy made, notGiven]
      rfl
    · rintro rsaKey rfl
      have signature : Rsa.sign? rsaKey .sha256 leaf.body.encode = some leaf.signature := by
        rw [← isSigned.bodyDer]
        exact isSigned.signature
      exact ⟨isSigned.algorithm, signature, fun sound =>
        Rsa.verify_of_sign?_eq_some sound signature⟩
  · intro authority endpoint chance clock site site' credential h size
    obtain ⟨issuer, leaf, loaded, read, isLeaf⟩ := exists_isLeaf_of_issued h size
    refine ⟨issuer, leaf, loaded, read, isLeaf, ?_⟩
    rw [isLeaf.purposes]
    cases endpoint <;> rfl

theorem profile_of_leafBy_plain :
    ∃ site site' credential issuer leaf commonName,
      (plain.issueFor (.client ⟨"office", .user "alice@example.org"⟩) (.ofSmallPrime 7)
        plainClock).perform site = (.ok credential, site') ∧
      Certificate.leafBy (plain.leafRequest "alice@example.org_office" .client
          ((Chance.ofSmallPrime 7).key 2206)) issuer
        (PrivateKey.rsa ((Chance.ofSmallPrime 5).key 2206)).signer (Chance.ofSmallPrime 7).suffix
        (Chance.ofSmallPrime 7).serial plainClock = .ok (leaf, commonName) ∧
      Certificate.decode? leaf.encode = some leaf ∧
      leaf.hostNames = .present [Utf8.encode "alice@example.org_office"] ∧
      leaf.authorityKey = .present ⟨some ((Chance.ofSmallPrime 5).keyId 2206), [], none⟩ ∧
      ∃ issued, Certificate.ofPem? (Utf8.encode (credential : Credential).certificatePem) =
          some issued ∧
        issued.purposes = .present [⟨[1, 3, 6, 1, 5, 5, 7, 3, 2]⟩] := by
  have sound := Chance.isSound_ofSmallPrime_five
  have sound' := Chance.isSound_ofSmallPrime_seven
  obtain ⟨ca, reported, -, loaded, own⟩ := exists_bootstrap_plain sound.toIsRegular
  obtain ⟨credential, events, issued, -, size⟩ := exists_issueFor_plain
    (.client ⟨"office", .user "alice@example.org"⟩) reported dates_plainClock sound.toIsRegular
    sound'.toIsRegular loaded own (by decide) (by decide)
  have steps := issued
  rw [issueFor_eq, issue_eq_ok_iff] at steps
  obtain ⟨material, key, leaf, commonName, loaded', isMade, made, made', -⟩ := steps
  obtain ⟨rfl, -⟩ := Chance.eq_of_keyOfSize? isMade
  obtain rfl := Except.ok.inj (loaded'.symm.trans loaded)
  have caRead := Certificate.ofPem?_toPem_root own.isSize sound.key
    (Chance.ofSmallPrime 5).serial.isLt own.certificate
  rw [Certificate.ofPem?_toPem_eq] at caRead
  have short := size
  rw [made'] at short
  obtain ⟨read, rfl, isLeaf, -, named, -⟩ := profile_of_leafBy.1 caRead
    (Certificate.isWhole_toInfo _) Certificate.isKept_standardAlgorithm made
    ((Certificate.length_encode_le_text leaf).trans_lt short)
  obtain ⟨_, leaf', -, read', -, purposes⟩ := profile_of_leafBy.2 issued size
  refine ⟨_, _, credential, _, leaf, _, issued, made, read, isLeaf.hostNames, ?_, leaf', read',
    purposes⟩
  refine named _ (Certificate.subjectKey_root own.extensions) ?_
  rw [Chance.keyId, ← List.length_pos_iff, PublicKeyInfo.length_keyId]
  decide

/-- The certificate of an authority that gives its key an empty name. -/
def nameless : Certificate :=
  let name := DistinguishedName.ofSets (DistinguishedName.subjectSets plain.policy "Example CA")
  .signed (Certificate.newBody 1 name name
    ⟨⟨Asn1.shortTimeTag, Utf8.encode "700101000000Z"⟩,
      ⟨Asn1.shortTimeTag, Utf8.encode "721231000000Z"⟩⟩
    ((Chance.ofSmallPrime 5).key 2206).toPublic.toInfo [.subjectKey []]) []

private theorem length_subject_nameless :
    nameless.body.subject.der.length ≤ DistinguishedName.maxLength :=
  have accepted : ∀ field : SubjectField,
      field.accepts (field.value plain.policy "Example CA") = true :=
    accepts_default 2206 (by decide) (by decide)
  DistinguishedName.length_ofSets_le accepted

private theorem isBetween_nameless : nameless.body.validity.IsBetween plainClock.first
    (plainClock.second.addDays plain.policy.leafDays) :=
  ⟨by decide +kernel, by decide +kernel⟩

theorem length_encode_nameless : nameless.encode.length ≤ Certificate.maxLength := by
  have named := length_subject_nameless
  have sized := Chance.isSound_ofSmallPrime_five.key
  have bodyLength : nameless.body.encode.length ≤ Certificate.maxBodyLength :=
    Certificate.length_newBody_le (by decide) named named isBetween_nameless
      (sized.length_toPublic_encode_le (by decide)) (by decide)
      (List.forall_mem_singleton.2 (by decide +kernel))
  exact Certificate.length_signed_le rfl bodyLength (by decide)

theorem decode?_encode_nameless : Certificate.decode? nameless.encode = some nameless := by
  have named := length_subject_nameless
  have isKept : nameless.body.subject.IsKept := DistinguishedName.isKept_of_length_le
    (DistinguishedName.isText_of_mem_subjectSets _ _) named
  have sized := Chance.isSound_ofSmallPrime_five.key
  exact Certificate.decode?_encode_newBody (by decide) isKept isKept named named
    isBetween_nameless (sized.length_toPublic_encode_le (by decide)) (by decide)
    (List.forall_mem_singleton.2 ⟨rfl, by decide +kernel⟩) (by decide)

private theorem exists_leaf_of_not_givenKeyId {issuer : Certificate} {der : Bytes}
    {caChance : Chance} (subject : String) (purpose : Purpose)
    (caRegular : caChance.IsRegular 2206) (regular : chance.IsRegular 2206)
    (issued : Certificate.decode? der = some issuer) (notGiven : issuer.givenKeyId = none)
    (named : issuer.body.subject.der.length ≤ DistinguishedName.maxLength)
    (isSome : 1 ≤ subject.length) (short : subject.length ≤ 64) :
    ∃ leaf, Certificate.leaf (plain.leafRequest subject purpose (chance.key 2206)) issuer
        (.rsa (caChance.key 2206)) chance.suffix chance.serial plainClock = .ok (leaf, subject) ∧
      Certificate.decode? leaf.encode = some leaf ∧
      leaf.authorityKey = .present ⟨none, [], none⟩ := by
  let request := plain.leafRequest subject purpose (chance.key 2206)
  have accepted := accepts_default 2206 isSome short
  obtain ⟨validity, between⟩ := dates_plainClock.exists_isBetween
  obtain ⟨signature, isSigned⟩ := caRegular.key.exists_sign?_eq_some (by decide)
    (Certificate.leafBody request issuer subject chance.serial validity).encode
  have made : Certificate.leaf request issuer (.rsa (caChance.key 2206)) chance.suffix
      chance.serial plainClock = .ok (Certificate.signed
        (Certificate.leafBody request issuer subject chance.serial validity) signature, subject) :=
    Certificate.leaf_eq_ok_iff.2
      ⟨(if_pos short).symm, accepted, validity, _, signature, between, rfl, isSigned, rfl⟩
  have length := Certificate.length_leaf_le request (by decide) caRegular.key regular.key
    chance.serial.isLt rfl named (by simp [notGiven]) accepted between isSigned
  generalize Certificate.signed _ signature = leaf at made length
  have fits : Fits leaf.encode := length.trans_lt (by decide : Certificate.maxLength < 256 ^ 126)
  refine ⟨leaf, made, ?_, ?_⟩
  · exact Certificate.decode?_encode_of_leafBy (Certificate.isKept_subject_of_decode? issued)
      (Certificate.isWhole_toInfo _) Certificate.isKept_standardAlgorithm made fits
  · rw [(Certificate.isLeaf_of_leafBy made fits).authorityKey, notGiven]

/-- A leaf does not take over the empty name of its issuer's key. -/
theorem exists_authorityKey_ne_subjectKey :
    ∃ leaf, Certificate.decode? nameless.encode = some nameless ∧
      Certificate.leaf (plain.leafRequest "alice@example.org_office" .client
          ((Chance.ofSmallPrime 7).key 2206)) nameless (.rsa ((Chance.ofSmallPrime 5).key 2206))
        (Chance.ofSmallPrime 7).suffix (Chance.ofSmallPrime 7).serial plainClock =
          .ok (leaf, "alice@example.org_office") ∧
      Certificate.decode? leaf.encode = some leaf ∧
      nameless.subjectKey = .present [] ∧
      leaf.authorityKey ≠ .present ⟨some [], [], none⟩ := by
  have isEmpty : nameless.subjectKey = .present [] :=
    Certificate.single_eq_present (Certificate.extensionValues_eq rfl _)
      (Extension.octets?_octetString (by unfold Fits; decide))
  have notGiven : nameless.givenKeyId = none := Certificate.givenKeyId_of_subjectKey isEmpty
  obtain ⟨leaf, made, read, without⟩ := exists_leaf_of_not_givenKeyId "alice@example.org_office"
    .client Chance.isSound_ofSmallPrime_five.toIsRegular
    Chance.isSound_ofSmallPrime_seven.toIsRegular decode?_encode_nameless notGiven
    length_subject_nameless (by decide) (by decide)
  refine ⟨leaf, decode?_encode_nameless, made, read, isEmpty, ?_⟩
  rw [without]
  simp

end Authority

end VpnAuthority
