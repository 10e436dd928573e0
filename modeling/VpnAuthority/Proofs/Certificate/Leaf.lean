import VpnAuthority.Proofs.Certificate.Chain

/-! What a leaf says when it is read again, whoever issued it and whatever kind of key
signed it. -/
namespace VpnAuthority.Certificate

open Asn1 (Fits)

variable {request : LeafRequest} {issuer leaf : Certificate} {signer : Signer}
  {suffix : UniqueSuffix} {serial : Nat} {clock : Clock} {commonName : String}

def hostNames (certificate : Certificate) : Single (List Bytes) :=
  certificate.single Extension.alternativeNameId Extension.hostNames?

def purposes (certificate : Certificate) : Single (List Asn1.ObjectId) :=
  certificate.single Extension.extendedKeyUsageId Extension.objectIds?

/-- All that the body of a leaf says. There are no more than these six extensions, and none
has anything behind its value. -/
structure IsLeaf (leaf : Certificate) (request : LeafRequest) (issuer : Certificate)
    (commonName : String) (serial : Nat) (clock : Clock) : Prop where
  version : leaf.body.version = CertificateBody.version3
  serial : leaf.body.serial = serial
  issuerName : leaf.body.issuer = issuer.body.subject
  validity : leaf.body.validity.IsBetween clock.first (clock.second.addDays request.days)
  subject : Certificate.subject request.policy commonName = .ok leaf.body.subject
  key : leaf.body.key = request.key
  extensions : leaf.body.extensions.map (fun extension => (extension.id, extension.critical)) = [
    (Extension.alternativeNameId, false), (Extension.subjectKeyId, false),
    (Extension.authorityKeyId, false), (Extension.keyUsageId, true),
    (Extension.extendedKeyUsageId, true), (Extension.basicConstraintsId, true)]
  isWhole : ∀ extension ∈ leaf.body.extensions,
    ∃ element, Asn1.read? extension.value = some (element, [])
  hostNames : leaf.hostNames = .present [Utf8.encode commonName]
  subjectKey : leaf.subjectKey = .present (Digest.Sha1.sha1 request.key.octets)
  authorityKey : leaf.authorityKey = .present ⟨issuer.givenKeyId, [], none⟩
  keyUsage : leaf.keyUsage = .present [0x80]
  purposes : leaf.purposes = .present [request.purpose.id]
  basicConstraints : leaf.basicConstraints = .present ⟨false, none⟩

structure IsSignedWith (certificate : Certificate) (signer : Signer) : Prop where
  bodyDer : certificate.bodyDer = certificate.body.encode
  signature : signer.sign? certificate.bodyDer = some certificate.signature
  algorithm : certificate.algorithm = signer.algorithm
  bodyAlgorithm : certificate.body.algorithm = signer.algorithm
  unused : certificate.unused = 0

section
variable {key : PublicKeyInfo} {issuerKey : Option Bytes} {purpose : Purpose}
  (h : leaf.body.extensions = leafExtensions commonName key issuerKey purpose)
  (fits : ∀ extension ∈ leaf.body.extensions, Fits extension.value)
include h fits

private theorem isWhole_of_mem_leaf : ∀ extension ∈ leaf.body.extensions,
    ∃ element, Asn1.read? extension.value = some (element, []) := by
  have isRead {tag : UInt8} {content : Bytes} (hs : Asn1.IsShortTag tag)
      (fits : Fits (Asn1.encode tag content)) :
      ∃ element, Asn1.read? (Asn1.encode tag content) = some (element, []) := by
    have := Asn1.read?_encode hs fits.of_encode []
    rw [List.append_nil] at this
    exact ⟨_, this⟩
  intro extension hm
  have valueFits := fits extension hm
  rw [h] at hm
  simp only [leafExtensions, List.mem_cons, List.not_mem_nil, or_false] at hm
  rcases hm with rfl | rfl | rfl | rfl | rfl | rfl <;> exact isRead (by decide) valueFits

private theorem hostNames_leaf : leaf.hostNames = .present [Utf8.encode commonName] := by
  have hostFits := fits (.hostName commonName) (by rw [h]; simp [leafExtensions])
  rw [Extension.hostName, Asn1.sequence, List.flatten_singleton] at hostFits
  exact single_eq_present (extensionValues_eq h _)
    (Extension.hostNames?_hostName hostFits.of_encode)

private theorem authorityKey_leaf_of_option : leaf.authorityKey = .present ⟨issuerKey, [], none⟩ := by
  have keyFits := fits (.authorityKey issuerKey) (by rw [h]; simp [leafExtensions])
  refine single_eq_present (extensionValues_eq h _) ?_
  cases issuerKey with
  | none => exact AuthorityKey.decode?_encode_none
  | some id =>
    rw [Extension.authorityKey, AuthorityKey.encode, Asn1.sequence, List.flatten_singleton]
      at keyFits
    exact AuthorityKey.decode?_encode keyFits.of_encode

end

theorem givenKeyId_of_subjectKey {certificate : Certificate} {id : Bytes}
    (h : certificate.subjectKey = .present id) :
    certificate.givenKeyId = if id = [] then none else some id := by
  unfold Certificate.subjectKey single at h
  split at h
  · cases h
  · next value hv =>
    split at h
    · next id' hd =>
      cases h
      simp only [givenKeyId, hv, List.head?_cons, Option.bind_eq_bind, Option.bind_some, hd,
        List.isEmpty_iff]
    · cases h
  · cases h

theorem givenKeyId_of_absent {certificate : Certificate}
    (h : certificate.subjectKey = .absent) : certificate.givenKeyId = none := by
  unfold Certificate.subjectKey single at h
  split at h
  · next hv => simp [givenKeyId, hv]
  · split at h <;> cases h
  · cases h

theorem isLeaf_of_leafBy (made : leafBy request issuer signer suffix serial clock =
    .ok (leaf, commonName)) (fits : Fits leaf.encode) :
    leaf.IsLeaf request issuer commonName serial clock := by
  obtain ⟨-, accepted, validity, signature, between, -, rfl⟩ := leafBy_eq_ok_iff.1 made
  have valuesFit : ∀ extension ∈ _, Fits (Extension.value extension) := fun _ hm =>
    CertificateBody.fits_value (fits_body_of_fits_signed fits) hm
  exact {
    version := rfl
    serial := rfl
    issuerName := rfl
    validity := between
    subject := subject_eq_ok_iff.2 ⟨rfl, accepted⟩
    key := rfl
    extensions := rfl
    isWhole := isWhole_of_mem_leaf rfl valuesFit
    hostNames := hostNames_leaf rfl valuesFit
    subjectKey := single_eq_present (extensionValues_eq rfl _)
      (Extension.octets?_octetString request.key.fits_keyId)
    authorityKey := authorityKey_leaf_of_option rfl valuesFit
    keyUsage := single_eq_present (extensionValues_eq rfl _) Extension.bits?_digitalSignature
    purposes := single_eq_present (extensionValues_eq rfl _)
      (Extension.objectIds?_purpose request.purpose)
    basicConstraints := single_eq_present (extensionValues_eq rfl _)
      BasicConstraints.decode?_encode_leaf }

theorem authorityKeyValues_of_leafBy (made : leafBy request issuer signer suffix serial clock =
    .ok (leaf, commonName)) : leaf.extensionValues Extension.authorityKeyId =
      [AuthorityKey.encode issuer.givenKeyId] := by
  obtain ⟨-, -, validity, signature, -, -, rfl⟩ := leafBy_eq_ok_iff.1 made
  exact extensionValues_eq rfl _

theorem isSignedWith_of_leafBy (made : leafBy request issuer signer suffix serial clock =
    .ok (leaf, commonName)) : leaf.IsSignedWith signer := by
  obtain ⟨-, -, validity, signature, -, isSigned, rfl⟩ := leafBy_eq_ok_iff.1 made
  exact ⟨rfl, isSigned, rfl, rfl, rfl⟩

theorem decode?_encode_of_leafBy (named : issuer.body.subject.IsKept)
    (key : request.key.IsWhole) (algorithm : signer.algorithm.IsKept)
    (made : leafBy request issuer signer suffix serial clock = .ok (leaf, commonName))
    (fits : Fits leaf.encode) : decode? leaf.encode = some leaf := by
  obtain ⟨-, -, validity, signature, between, -, rfl⟩ := leafBy_eq_ok_iff.1 made
  have plain := isPlain_leafBodyBy named between key algorithm
    (fits_body_of_fits_signed fits)
  exact decode?_encode (isPlain_signed plain signature) fits

end VpnAuthority.Certificate
