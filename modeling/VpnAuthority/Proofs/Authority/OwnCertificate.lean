import VpnAuthority.Proofs.Authority.Trust

/-! The certificate of an authority's own key: what it holds when it is read back, and which
certificates are trusted because of it. -/
namespace VpnAuthority

namespace Certificate

variable {policy : Policy} {key : Rsa.PrivateKey} {commonName : String} {days serial : Nat}
  {clock : Clock} {certificate : Certificate}

/-- A certificate of a key that may head a chain of leaves: it is made in its own name, gives
the identifier of the key as its own and as that of its issuer, and admits no authority
below it. -/
structure IsHead (certificate : Certificate) (policy : Policy) (commonName : String)
    (key : Rsa.PublicKey) : Prop where
  subject : Certificate.subject policy commonName = .ok certificate.body.subject
  issuer : certificate.body.issuer = certificate.body.subject
  publicKey : certificate.publicKey? = some (.rsa key)
  extensions : certificate.body.extensions.map (fun extension =>
    (extension.id, extension.critical)) = [(Extension.subjectKeyId, false),
      (Extension.authorityKeyId, false), (Extension.basicConstraintsId, true)]
  subjectKey : certificate.subjectKey = .present key.toInfo.keyId
  authorityKey : certificate.authorityKey = .present ⟨some key.toInfo.keyId, [], none⟩
  basicConstraints : certificate.basicConstraints = .present ⟨true, some 0⟩
  keyUsage : certificate.keyUsage = .absent

section
variable (made : root policy (.rsa key) commonName days serial clock = .ok certificate)
  (fits : Asn1.Fits certificate.encode)
include made fits

theorem isHead_root : certificate.IsHead policy commonName key.toPublic := by
  have isKey := publicKey?_root made fits
  obtain ⟨accepted, validity, signature, -, -, rfl⟩ := root_eq_ok_iff.1 made
  exact {
    subject := subject_eq_ok_iff.2 ⟨rfl, accepted⟩
    issuer := rfl
    publicKey := isKey
    extensions := rfl
    subjectKey := subjectKey_root rfl
    authorityKey := authorityKey_root rfl
    basicConstraints := basicConstraints_root rfl
    keyUsage := keyUsage_root rfl }

theorem verifyIssuedBy_self (now : Instant) :
    verifyIssuedBy certificate certificate now = .ok (decide (clock.Covers days now)) := by
  obtain ⟨-, validity, signature, between, -, isSigned⟩ := root_eq_ok_iff.1 made
  rw [verifyIssuedBy, isIssuedBy_self isSigned (fits_key_of_root made fits) between]

end

/-- The certificate of a key is read back from its encoding as it was made, and heads a chain:
it is trusted because of itself as long as it is valid, which is a day at least if it was made
for some. No certificate is trusted because of it whose issuer has another name, however
names are written, or which gives another identifier for the key of its issuer. -/
theorem root_heads_chain (made : root policy (.rsa key) commonName days serial clock =
      .ok certificate) (size : certificate.encode.length < 2 ^ 63) :
    decode? certificate.encode = some certificate ∧
      certificate.IsHead policy commonName key.toPublic ∧
      (∀ now, verifyIssuedBy certificate certificate now =
        .ok (decide (clock.Covers days now))) ∧
      (1 ≤ days → ∀ now : Instant, clock.first.seconds ≤ now.seconds →
        now.seconds < clock.second.seconds + secondsPerDay →
        verifyIssuedBy certificate certificate now = .ok true) ∧
      (∀ (other : Certificate) (now : Instant),
        certificate.body.subject.same other.body.issuer = false →
        verifyIssuedBy other certificate now = .ok false) ∧
      ∀ (other : Certificate) (now : Instant) (value id : Bytes) (fields : AuthorityKey),
        value ∈ other.extensionValues Extension.authorityKeyId →
        AuthorityKey.decode? value = some fields → fields.keyId = some id →
        id ≠ key.toPublic.toInfo.keyId → verifyIssuedBy other certificate now = .ok false := by
  have fits : Asn1.Fits certificate.encode := size.trans (by decide)
  have isHead := isHead_root made fits
  have self := verifyIssuedBy_self made fits
  refine ⟨decode?_encode_root made fits, isHead, self, fun some now since before => ?_,
    fun other now apart => ?_, fun other now value id fields isValue decoded names apart => ?_⟩
  · have covers : clock.Covers days now := by
      refine ⟨since, ?_⟩
      simp only [Instant.addDays, secondsPerDay] at before ⊢
      omega
    rw [self, decide_eq_true covers]
  · rw [verifyIssuedBy, isIssuedBy_of_not_same apart]
  · rw [verifyIssuedBy, isIssuedBy_of_otherKey isHead.subjectKey isValue decoded names apart]

end Certificate

namespace Authority

theorem root_heads_chain_plain : ∃ certificate : Certificate,
    certificate.encode.length < 2 ^ 63 ∧
      Certificate.decode? certificate.encode = some certificate ∧
      verifyIssuedBy certificate certificate plainClock.second = .ok true ∧
      verifyIssuedBy certificate certificate lateClock.second = .ok false := by
  have regular : (Chance.ofSmallPrime 5).IsRegular plain.policy.keySize :=
    Chance.isSound_ofSmallPrime_five.toIsRegular
  obtain ⟨certificate, -, -, -, own⟩ := exists_bootstrap_plain regular
  have length := Certificate.length_encode_root_le own.isSize regular.key
    (Chance.ofSmallPrime 5).serial.isLt own.certificate
  have size : certificate.encode.length < 2 ^ 63 := length.trans_lt (by decide)
  obtain ⟨decoded, -, trusted, -⟩ := Certificate.root_heads_chain own.certificate size
  refine ⟨certificate, size, decoded, ?_, ?_⟩
  · rw [trusted, decide_eq_true (by decide)]
  · rw [trusted, decide_eq_false (by decide)]

def capitals : Policy := { plain.policy with organization := "EXAMPLE NETWORK" }

/-- What the plain authority issued is also trusted because of a certificate of the same key
whose name is written in capitals, and so is not that of the issuer octet by octet. -/
theorem not_refused_capitals : ∃ ca leaf : Certificate,
    Certificate.root capitals (.rsa ((Chance.ofSmallPrime 5).key 2206)) capitals.authorityName
      capitals.authorityDays 1 plainClock = .ok ca ∧
    leaf.body.issuer.der ≠ ca.body.subject.der ∧
    verifyIssuedBy leaf ca plainClock.second = .ok true := by
  have sound : (Chance.ofSmallPrime 5).IsSound plain.policy.keySize :=
    Chance.isSound_ofSmallPrime_five
  have sound' : (Chance.ofSmallPrime 7).IsSound plain.policy.keySize :=
    Chance.isSound_ofSmallPrime_seven
  obtain ⟨certificate, reported, -, loaded, own⟩ := exists_bootstrap_plain sound.toIsRegular
  obtain ⟨credential, events, issued, -⟩ := exists_issueFor_plain
    (.client ⟨"office", .user "alice@example.org"⟩) reported dates_plainClock sound.toIsRegular
    sound'.toIsRegular loaded own (by decide) (by decide)
  obtain ⟨made⟩ := nonempty_issued issued
  have isLoaded := Except.ok.inj (made.isLoaded.symm.trans loaded)
  rw [← isLoaded] at own
  have accepted : ∀ field : SubjectField,
      field.accepts (field.value capitals capitals.authorityName) = true := by
    rintro (_ | _) <;> decide
  have dates : plainClock.Dates capitals.authorityDays := ⟨by decide +kernel, by decide +kernel⟩
  obtain ⟨ca, caMade⟩ := Certificate.exists_root_eq_ok accepted dates sound.key (by decide) 1
  have name : ca.body.subject =
      .ofSets (DistinguishedName.subjectSets capitals capitals.authorityName) := by
    obtain ⟨-, _, _, -, -, rfl⟩ := Certificate.root_eq_ok_iff.1 caMade
    rfl
  have ownName : made.material.certificate.body.subject =
      .ofSets (DistinguishedName.subjectSets plain.policy plain.policy.authorityName) := by
    obtain ⟨-, _, _, -, -, same⟩ := Certificate.root_eq_ok_iff.1 own.certificate
    rw [same]
    rfl
  obtain ⟨-, trusted⟩ := made.verifyIssuedBy_root own caMade
    (by rw [name, ownName]; decide +kernel) sound sound' Chance.keyId_ofSmallPrime_ne
  refine ⟨ca, made.certificate, caMade, ?_, ?_⟩
  · have issuer : made.certificate.body.issuer = made.material.certificate.body.subject := rfl
    rw [issuer, name, ownName]
    decide +kernel
  · rw [trusted, decide_eq_true (by decide)]

end Authority

end VpnAuthority
