import VpnAuthority.Proofs.Authority.Availability
import VpnAuthority.Proofs.Authority.Failures
import VpnAuthority.Proofs.CommonName
import VpnAuthority.Proofs.Rsa.Generation

/-! Settings that are accepted and cannot be worked with: the fields of a name have limits
of which the settings are not checked. -/
namespace VpnAuthority

/-- What the names of an authority need, beyond what its settings are checked for. -/
structure Policy.IsNameable (policy : Policy) : Prop where
  country : ∀ c ∈ policy.country.toList, Asn1.isPrintableStringChar c = true
  province : 1 ≤ policy.province.length ∧ policy.province.length ≤ 128
  city : 1 ≤ policy.city.length ∧ policy.city.length ≤ 128
  organization : 1 ≤ policy.organization.length ∧ policy.organization.length ≤ 64
  unit : 1 ≤ policy.unit.length ∧ policy.unit.length ≤ 64
  name : 1 ≤ policy.name.length ∧ policy.name.length ≤ 32768
  email : 1 ≤ policy.email.length ∧ policy.email.length ≤ 128
  emailIsAscii : ∀ c ∈ policy.email.toList, Asn1.isAscii c = true

theorem DistinguishedName.refused?_eq_none_iff_isNameable {policy : Policy} {commonName : String}
    (letters : policy.country.length = 2) :
    refused? policy commonName = none ↔
      policy.IsNameable ∧ 1 ≤ commonName.length ∧ commonName.length ≤ 64 := by
  rw [refused?_eq_none_iff]
  simp only [SubjectField.accepts_iff]
  constructor
  · intro h
    have bounds (field : SubjectField) := And.intro (h field).1 (h field).2.1
    exact ⟨⟨(h .country).2.2, bounds .province, bounds .locality, bounds .organization,
      bounds .unit, bounds .name, bounds .email, (h .email).2.2⟩, bounds .commonName⟩
  · intro ⟨nameable, isSome, short⟩ field
    have any (text : String) : ∀ c ∈ text.toList, true = true := fun _ _ => rfl
    cases field with
    | country => exact ⟨letters.ge, letters.le, nameable.country⟩
    | province => exact ⟨nameable.province.1, nameable.province.2, any _⟩
    | locality => exact ⟨nameable.city.1, nameable.city.2, any _⟩
    | organization => exact ⟨nameable.organization.1, nameable.organization.2, any _⟩
    | unit => exact ⟨nameable.unit.1, nameable.unit.2, any _⟩
    | commonName => exact ⟨isSome, short, any _⟩
    | name => exact ⟨nameable.name.1, nameable.name.2, any _⟩
    | email => exact ⟨nameable.email.1, nameable.email.2, nameable.emailIsAscii⟩

theorem DistinguishedName.exists_ofSubject_eq_ok_iff {policy : Policy} {commonName : String} :
    (∃ name, ofSubject policy commonName = .ok name) ↔ refused? policy commonName = none := by
  simp only [ofSubject_eq_ok_iff, refused?_eq_none_iff, exists_eq_left]

theorem Endpoint.one_le_length_subject (endpoint : Endpoint) : 1 ≤ endpoint.subject.length := by
  cases endpoint with
  | server server =>
    simp only [subject, Server.subject, String.length_append]
    have : "__".length = 2 := rfl
    omega
  | client client =>
    have : "_".length = 1 := rfl
    unfold subject Client.subject
    dsimp only
    split <;> simp only [String.length_append] <;> omega

theorem CommonName.length_ofSubject {subject : String} (suffix : UniqueSuffix)
    (h : 1 ≤ subject.length) :
    1 ≤ (ofSubject suffix subject).length ∧ (ofSubject suffix subject).length ≤ 64 := by
  rcases Nat.lt_or_ge maxLength subject.length with long | short
  · rw [length_shortened long]
    decide
  · rw [ofSubject_of_le short]
    exact ⟨h, short⟩

theorem Certificate.root_eq_error_iff {policy : Policy} {key : Rsa.PrivateKey}
    {commonName : String} {days serial bits : Nat} {clock : Clock} {fault : CertificateFault}
    (sized : key.IsOfSize bits) (enough : Rsa.minBits ≤ bits) (dates : clock.Dates days) :
    root policy (.rsa key) commonName days serial clock = .error fault ↔
      ∃ field, DistinguishedName.refused? policy commonName = some field ∧
        fault = .subject field := by
  cases h : DistinguishedName.refused? policy commonName with
  | none =>
    obtain ⟨validity, between⟩ := dates.exists_isBetween
    obtain ⟨signature, isSigned⟩ :=
      sized.exists_sign?_eq_some enough (rootBody policy key commonName serial validity).encode
    rw [root_eq_ok_iff.2 ⟨DistinguishedName.refused?_eq_none_iff.1 h, validity, signature, between,
      isSigned, rfl⟩]
    simp
  | some field =>
    have refused : subject policy commonName = .error (.subject field) := by
      rw [subject, DistinguishedName.ofSubject_eq, h]
      rfl
    rw [root, refused]
    simp [bind, Except.bind, eq_comm]

namespace Authority

variable {authority : Authority} {chance : Chance} {clock : Clock} {files later : FileSystem}

private theorem read_ne_ok_of_addsDirectories (h : FileSystem.empty.AddsDirectories files)
    (path : String) (content : Bytes) : files.read path ≠ .ok content := by
  intro read
  obtain ⟨place, access, ht⟩ := FileSystem.read_eq_ok_iff.1 read
  have there := FileSystem.get?_of_target ht
  rcases h place with same | ⟨-, isDirectory⟩
  · rw [same, FileSystem.get?] at there
    split at there <;> cases there
  · rw [isDirectory] at there
    cases there

private theorem ObtainsKey.eq_of_empty {key : Rsa.PrivateKey}
    (h : authority.ObtainsKey chance .empty key later) :
    key = chance.key authority.policy.keySize ∧
      later.read authority.keyPath = .ok (authority.keyText chance key) := by
  obtain ⟨place, text, access, ht, ⟨-, read, -⟩ | ⟨-, rfl, isMade⟩⟩ := h.exists_target
  · exact absurd read (read_ne_ok_of_addsDirectories (.refl .empty) _ _)
  · exact ⟨(Chance.eq_of_keyOfSize? isMade).1, FileSystem.read_eq_ok_iff.2 ⟨place, access, ht⟩⟩

private theorem refused?_authorityName_eq_none_iff (authority : Authority) :
    DistinguishedName.refused? authority.policy authority.policy.authorityName = none ↔
      authority.policy.IsNameable ∧ authority.policy.organization.length ≤ 61 := by
  rw [DistinguishedName.refused?_eq_none_iff_isNameable authority.policy_of_accepted.2.2,
    Policy.authorityName, String.length_append, show " CA".length = 3 from rfl]
  refine and_congr_right fun _ => ?_
  omega

/-- Settings that are accepted do to work with if the names fit that are made of them: they
have to be of certain lengths and characters, and that of the organization has to be three
characters shorter than a name may be. Where they do not, a bootstrap writes its key and then
has no certificate for it, and that is the only way in which it gets none for a key. -/
theorem names_of_accepted (authority : Authority) (chance : Chance) (clock : Clock)
    (regular : chance.IsRegular authority.policy.keySize)
    (dates : clock.Dates authority.policy.authorityDays) :
    ((∃ name, DistinguishedName.ofSubject authority.policy authority.policy.authorityName =
        .ok name) ↔
      authority.policy.IsNameable ∧ authority.policy.organization.length ≤ 61) ∧
    (∀ (endpoint : Endpoint) (suffix : UniqueSuffix),
      (∃ name, DistinguishedName.ofSubject authority.policy
          (CommonName.ofSubject suffix endpoint.subject) = .ok name) ↔
        authority.policy.IsNameable) ∧
    ∀ (events : List Event) (outcome : Except Failure Unit) (site : Site),
      (authority.bootstrap chance clock).perform ⟨.empty, events⟩ = (outcome, site) →
        ∀ fault, outcome = .error (.certificate fault) ↔
          site.files.read authority.keyPath = .ok (authority.keyText chance
              (chance.key authority.policy.keySize)) ∧
            site.files.contains authority.certificatePath = false ∧
            ∃ field, DistinguishedName.refused? authority.policy authority.policy.authorityName =
              some field ∧ fault = .subject field := by
  have enough : Rsa.minBits ≤ authority.policy.keySize :=
    (by decide : Rsa.minBits ≤ Settings.minKeySize).trans authority.policy_of_accepted.1
  have unmade {fault : CertificateFault} :
      Certificate.root authority.policy (.rsa (chance.key authority.policy.keySize))
          authority.policy.authorityName authority.policy.authorityDays chance.serial clock =
        .error fault ↔
      ∃ field, DistinguishedName.refused? authority.policy authority.policy.authorityName =
        some field ∧ fault = .subject field :=
    Certificate.root_eq_error_iff regular.key enough dates
  refine ⟨?_, fun endpoint suffix => ?_, fun events outcome site h fault => ⟨?_, ?_⟩⟩
  · rw [← refused?_authorityName_eq_none_iff, DistinguishedName.exists_ofSubject_eq_ok_iff]
  · rw [DistinguishedName.exists_ofSubject_eq_ok_iff,
      DistinguishedName.refused?_eq_none_iff_isNameable authority.policy_of_accepted.2.2]
    exact and_iff_left (CommonName.length_ofSubject suffix endpoint.one_le_length_subject)
  · rintro rfl
    rcases bootstrap_eq_error h with unobtained | ⟨key, middle, obtains, unensured⟩
    · exact absurd rfl ((obtainKey_eq_error unobtained).1 fault)
    obtain ⟨rfl, keyRead⟩ := obtains.eq_of_empty
    obtain ⟨isCertificateNew, ⟨fault, refused, ⟨⟩, same⟩ | ⟨_, _, -, ⟨⟩, -⟩⟩ :=
      ensureCertificate_eq_error unensured
    rw [same]
    exact ⟨keyRead, isCertificateNew, unmade.1 refused⟩
  · rintro ⟨keyRead, isCertificateNew, field, refused, rfl⟩
    have isRefused := unmade.2 ⟨field, refused, rfl⟩
    cases outcome with
    | ok u =>
      obtain ⟨key, middle, -, ensures⟩ := bootstrap_eq_ok_iff.1 ⟨site.events, h⟩
      rw [ensures.contains] at isCertificateNew
      cases isCertificateNew
    | error failure =>
      rcases bootstrap_eq_error h with unobtained | ⟨key, middle, obtains, unensured⟩
      · -- without a key there are at most new directories
        have added : FileSystem.empty.AddsDirectories site.files := by
          rcases (obtainKey_eq_error unobtained).2 with same | ⟨-, same⟩
          · rw [same]
            exact .refl .empty
          · rw [same]
            exact FileSystem.createParents_addsDirectories _ _
        exact absurd keyRead (read_ne_ok_of_addsDirectories added _ _)
      · obtain ⟨rfl, -⟩ := obtains.eq_of_empty
        obtain ⟨-, ⟨fault, refused', rfl, -⟩ | ⟨_, _, made, -⟩⟩ :=
          ensureCertificate_eq_error unensured
        · rw [isRefused] at refused'
          cases refused'
          rfl
        · rw [isRefused] at made
          cases made

/-- An authority whose organization has too long a name for it. -/
def wordy : Authority where
  settings := { plain.settings with
    policy := { plain.policy with organization := String.ofList (List.replicate 62 'a') } }
  isAccepted := by decide

private theorem isNameable_wordy : wordy.policy.IsNameable := by
  have admits (field : SubjectField) := (SubjectField.accepts_iff.1 (accepts_default 2206
    (by decide : 1 ≤ "Example CA".length) (by decide) field)).2.2
  constructor
  case country => exact admits .country
  case emailIsAscii => exact admits .email
  all_goals decide +kernel

theorem exists_bootstrap_wordy : ∃ reported,
    (wordy.bootstrap (.ofSmallPrime 5) plainClock).perform ⟨.empty, []⟩ =
      (.error (.certificate (.subject .commonName)),
        ⟨FileSystem.empty.insert [wordy.keyPath] (.file (wordy.keyText (.ofSmallPrime 5)
          ((Chance.ofSmallPrime 5).key 2206)) .owner), reported⟩) := by
  have refused : Certificate.root wordy.policy (.rsa ((Chance.ofSmallPrime 5).key 2206))
      wordy.policy.authorityName wordy.policy.authorityDays (Chance.ofSmallPrime 5).serial
      plainClock = .error (.subject .commonName) :=
    (Certificate.root_eq_error_iff Chance.isSound_ofSmallPrime_five.key (by decide)
      ⟨by decide +kernel, by decide +kernel⟩).2 ⟨.commonName, by decide +kernel, rfl⟩
  have obtains : wordy.ObtainsKey (.ofSmallPrime 5) .empty ((Chance.ofSmallPrime 5).key 2206)
      (FileSystem.empty.insert [wordy.keyPath] (.file (wordy.keyText (.ofSmallPrime 5)
        ((Chance.ofSmallPrime 5).key 2206)) .owner)) :=
    .made (FileSystem.contains_name_of_isFree isName_keyPath_plain rfl) (if_pos (by decide))
      (FileSystem.createParents_name isName_keyPath_plain _)
      (FileSystem.createSecret_name isName_keyPath_plain rfl _)
  generalize hl : FileSystem.empty.insert [wordy.keyPath] _ = later at obtains ⊢
  obtain ⟨events, obtained⟩ : ∃ events, (wordy.obtainKey (.ofSmallPrime 5)).perform ⟨.empty, []⟩ =
      (.ok ((Chance.ofSmallPrime 5).key 2206), ⟨later, events⟩) := obtainKey_eq_ok_iff.2 obtains
  have isNew : later.contains wordy.certificatePath = false := by
    refine FileSystem.contains_name_of_isFree isName_certificatePath_plain ?_
    rw [← hl, FileSystem.get?_insert_of_ne (by decide)]
    rfl
  obtain ⟨reported, unensured⟩ := exists_ensureCertificate_eq_error isNew refused events
  rw [bootstrap, Action.perform_bind, obtained]
  exact ⟨_, unensured⟩

/-- The wordy authority has names for all but itself. Its key is written all the same. -/
theorem names_of_accepted_wordy :
    (¬∃ name, DistinguishedName.ofSubject wordy.policy wordy.policy.authorityName = .ok name) ∧
    (∃ name, DistinguishedName.ofSubject wordy.policy "alice@example.org_office" = .ok name) ∧
    ∃ site : Site, (wordy.bootstrap (.ofSmallPrime 5) plainClock).perform ⟨.empty, []⟩ =
        (.error (.certificate (.subject .commonName)), site) ∧
      site.files.read wordy.keyPath = .ok (wordy.keyText (.ofSmallPrime 5)
        ((Chance.ofSmallPrime 5).key 2206)) ∧
      site.files.contains wordy.certificatePath = false := by
  obtain ⟨root, ends, bootstrap⟩ := names_of_accepted wordy (.ofSmallPrime 5) plainClock
    Chance.isSound_ofSmallPrime_five.toIsRegular ⟨by decide +kernel, by decide +kernel⟩
  refine ⟨?_, ?_, ?_⟩
  · rw [root]
    rintro ⟨-, short⟩
    exact absurd short (by decide)
  · have named := (ends (.client ⟨"office", .user "alice@example.org"⟩) (.ofBits 0)).2
      isNameable_wordy
    rwa [show CommonName.ofSubject (.ofBits 0) (Endpoint.client ⟨"office",
      .user "alice@example.org"⟩).subject = "alice@example.org_office" from by decide] at named
  · obtain ⟨reported, performed⟩ := exists_bootstrap_wordy
    obtain ⟨keyRead, isCertificateNew, -⟩ := (bootstrap _ _ _ performed _).1 rfl
    exact ⟨_, performed, keyRead, isCertificateNew⟩

end Authority

end VpnAuthority
