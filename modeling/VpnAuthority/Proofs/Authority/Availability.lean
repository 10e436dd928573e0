import VpnAuthority.Proofs.Authority.Issuance

/-! What is enough for a bootstrap and for an issuance to end well: free names, a key of
a size that is made, fields that a name admits and a clock that shows a date. -/
namespace VpnAuthority

open Asn1 (Fits)

theorem Rsa.PrivateKey.IsOfSize.exists_sign?_eq_some {key : Rsa.PrivateKey} {bits : Nat}
    (sized : key.IsOfSize bits) (enough : Rsa.minBits ≤ bits) (message : Bytes) :
    ∃ signature, Rsa.sign? key .sha256 message = some signature := by
  refine Rsa.exists_sign?_eq_some ?_ message
  have : bits ≤ Rsa.bitLength key.toPublic.modulus + 1 := sized.modulus.1
  rw [Rsa.PublicKey.size]
  rw [Rsa.minBits] at enough
  omega

/-- Whether certificates of some days can be made by a clock. -/
def Clock.Dates (clock : Clock) (days : Nat) : Prop :=
  (Asn1.Time.ofInstant? clock.first).isSome ∧
    (Asn1.Time.ofInstant? (clock.second.addDays days)).isSome

theorem Clock.Dates.exists_isBetween {clock : Clock} {days : Nat} (h : clock.Dates days) :
    ∃ validity : Validity, validity.IsBetween clock.first (clock.second.addDays days) := by
  obtain ⟨notBefore, hb⟩ := Option.isSome_iff_exists.1 h.1
  obtain ⟨notAfter, ha⟩ := Option.isSome_iff_exists.1 h.2
  exact ⟨⟨notBefore, notAfter⟩, hb, ha⟩

theorem Certificate.exists_root_eq_ok {policy : Policy} {key : Rsa.PrivateKey}
    {commonName : String} {days bits : Nat} {clock : Clock}
    (accepted : ∀ field : SubjectField, field.accepts (field.value policy commonName) = true)
    (dates : clock.Dates days) (sized : key.IsOfSize bits) (enough : Rsa.minBits ≤ bits)
    (serial : Nat) : ∃ certificate,
      Certificate.root policy (.rsa key) commonName days serial clock = .ok certificate := by
  obtain ⟨validity, between⟩ := dates.exists_isBetween
  obtain ⟨signature, isSigned⟩ := sized.exists_sign?_eq_some enough
    (Certificate.rootBody policy key commonName serial validity).encode
  exact ⟨_, root_eq_ok_iff.2 ⟨accepted, validity, signature, between, isSigned, rfl⟩⟩

theorem Settings.check_eq_ok_iff {settings : Settings} :
    settings.check = .ok () ↔ minKeySize ≤ settings.policy.keySize ∧
      (0 < settings.policy.leafDays ∧ settings.policy.leafDays < settings.policy.authorityDays) ∧
      settings.policy.country.length = 2 := by
  simp only [check]
  split
  · simp
    omega
  · split
    · simp
      omega
    · split
      · simp
        omega
      · simp
        omega

namespace Authority

variable {authority : Authority} {chance : Chance} {clock : Clock} {files : FileSystem}
  {site : Site} {material : Material} {endpoint : Endpoint} {bits : Nat}

theorem policy_of_accepted (authority : Authority) :
    Settings.minKeySize ≤ authority.policy.keySize ∧
      (0 < authority.policy.leafDays ∧ authority.policy.leafDays < authority.policy.authorityDays) ∧
      authority.policy.country.length = 2 :=
  Settings.check_eq_ok_iff.1 authority.isAccepted

def newFiles (authority : Authority) (chance : Chance) (certificate : Certificate)
    (files : FileSystem) : FileSystem :=
  (files.insert [authority.keyPath]
    (.file (authority.keyText chance (chance.key authority.policy.keySize)) .owner)).insert
      [authority.certificatePath] (.file certificate.toPem .everyone)

theorem get?_keyPath_newFiles {certificate : Certificate}
    (apart : authority.keyPath ≠ authority.certificatePath) :
    (authority.newFiles chance certificate files).get? [authority.keyPath] =
      some (.file (authority.keyText chance (chance.key authority.policy.keySize)) .owner) := by
  rw [newFiles, FileSystem.get?_insert_of_ne (by simp [apart]),
    FileSystem.get?_insert_self (by simp)]

theorem get?_certificatePath_newFiles {certificate : Certificate} :
    (authority.newFiles chance certificate files).get? [authority.certificatePath] =
      some (.file certificate.toPem .everyone) :=
  FileSystem.get?_insert_self (by simp)

theorem read_keyPath_newFiles {certificate : Certificate}
    (keyName : Path.IsName authority.keyPath)
    (apart : authority.keyPath ≠ authority.certificatePath) :
    (authority.newFiles chance certificate files).read authority.keyPath =
      .ok (authority.keyText chance (chance.key authority.policy.keySize)) :=
  FileSystem.read_eq_ok_iff.2
    ⟨_, .owner, FileSystem.target_name_of_file keyName (get?_keyPath_newFiles apart)⟩

theorem read_certificatePath_newFiles {certificate : Certificate}
    (certificateName : Path.IsName authority.certificatePath) :
    (authority.newFiles chance certificate files).read authority.certificatePath =
      .ok certificate.toPem :=
  FileSystem.read_eq_ok_iff.2
    ⟨_, .everyone, FileSystem.target_name_of_file certificateName get?_certificatePath_newFiles⟩

theorem exists_bootstrap_eq_ok (keyName : Path.IsName authority.keyPath)
    (certificateName : Path.IsName authority.certificatePath)
    (apart : authority.keyPath ≠ authority.certificatePath)
    (isKeyFree : files.get? [authority.keyPath] = none)
    (isCertificateFree : files.get? [authority.certificatePath] = none)
    (regular : chance.IsRegular authority.policy.keySize)
    (isSize : Rsa.minBits ≤ authority.policy.keySize ∧ authority.policy.keySize ≤ Rsa.maxBits)
    (accepted : ∀ field : SubjectField,
      field.accepts (field.value authority.policy authority.policy.authorityName) = true)
    (dates : clock.Dates authority.policy.authorityDays)
    (noNul : '\x00' ∉ authority.passphrase.text.toList)
    (short : authority.passphrase.octets.length ≤ PrivateKey.maxPassphraseLength)
    (events : List Event) :
    ∃ certificate reported,
      (authority.bootstrap chance clock).perform ⟨files, events⟩ =
        (.ok (), ⟨authority.newFiles chance certificate files, reported⟩) ∧
      authority.loadMaterial (authority.newFiles chance certificate files) =
        .ok ⟨chance.key authority.policy.keySize, certificate⟩ ∧
      authority.IsOwn chance clock ⟨chance.key authority.policy.keySize, certificate⟩ := by
  have isMade : chance.keyOfSize? authority.policy.keySize =
      some (chance.key authority.policy.keySize) := if_pos isSize
  obtain ⟨certificate, rootMade⟩ :=
    Certificate.exists_root_eq_ok accepted dates regular.key isSize.1 chance.serial
  have isRead := Certificate.ofPem?_toPem_root isSize.2 regular.key chance.serial.isLt rootMade
  have isStillFree : (files.insert [authority.keyPath] (.file (authority.keyText chance
      (chance.key authority.policy.keySize)) .owner)).get? [authority.certificatePath] = none := by
    rw [FileSystem.get?_insert_of_ne (by simp [apart.symm]), isCertificateFree]
  have obtains := ObtainsKey.made (FileSystem.contains_name_of_isFree keyName isKeyFree) isMade
    (FileSystem.createParents_name keyName files)
    (FileSystem.createSecret_name keyName isKeyFree (authority.keyText chance _))
  have ensures := EnsuresCertificate.made (FileSystem.contains_name_of_isFree certificateName
    isStillFree) rootMade (FileSystem.createParents_name certificateName _)
    (FileSystem.write_name certificateName isStillFree certificate.toPem)
  obtain ⟨reported, performed⟩ : ∃ reported, (authority.bootstrap chance clock).perform
      ⟨files, events⟩ = (.ok (), ⟨authority.newFiles chance certificate files, reported⟩) :=
    bootstrap_eq_ok_iff.2 ⟨_, _, obtains, ensures⟩
  refine ⟨certificate, reported, performed, loadMaterial_eq_ok_iff.2
    ⟨loadCertificate_eq_ok_iff.2 ⟨_, read_certificatePath_newFiles certificateName, isRead⟩,
      loadKey_eq_ok_iff.2 ⟨_, read_keyPath_newFiles keyName apart, ?_,
        Rsa.PrivateKey.ofPem?_toEncryptedPem (regular.key.fits isSize.2) regular.iv short⟩⟩,
    isSize.2, rfl, rootMade⟩
  rw [← Bool.not_eq_true, List.contains_iff_mem, Passphrase.octets, Utf8.zero_mem_encode_iff]
  exact noNul

theorem exists_bootstrap_of_loadKey {key : Rsa.PrivateKey}
    (loaded : authority.loadKey files = .ok key) (sized : key.IsOfSize bits)
    (isSize : Rsa.minBits ≤ bits ∧ bits ≤ Rsa.maxBits)
    (accepted : ∀ field : SubjectField,
      field.accepts (field.value authority.policy authority.policy.authorityName) = true)
    (dates : clock.Dates authority.policy.authorityDays)
    (isNew : files.contains authority.certificatePath = false)
    (hasParents : files.createParents authority.certificatePath = (files, .ok ()))
    (writes : ∀ content, ∃ later, files.write authority.certificatePath content = .ok later)
    (chance : Chance) (events : List Event) :
    ∃ (second : Site) (new : Certificate),
      (authority.bootstrap chance clock).perform ⟨files, events⟩ = (.ok (), second) ∧
      authority.loadCertificate second.files = .ok new ∧
      Certificate.root authority.policy (.rsa key) authority.policy.authorityName
        authority.policy.authorityDays chance.serial clock = .ok new := by
  obtain ⟨text, read, -⟩ := loadKey_eq_ok_iff.1 loaded
  obtain ⟨place, access, target⟩ := FileSystem.read_eq_ok_iff.1 read
  obtain ⟨new, isMade⟩ :=
    Certificate.exists_root_eq_ok accepted dates sized isSize.1 chance.serial
  obtain ⟨later, isWritten⟩ := writes new.toPem
  obtain ⟨_, _, -, -, -, leads⟩ := FileSystem.write_eq_ok isWritten
  obtain ⟨reported, performed⟩ : ∃ reported, (authority.bootstrap chance clock).perform
      ⟨files, events⟩ = (.ok (), ⟨later, reported⟩) :=
    bootstrap_eq_ok_iff.2 ⟨_, _, .reused (FileSystem.contains_iff.2 ⟨place, _, target⟩) loaded,
      .made isNew isMade hasParents isWritten⟩
  exact ⟨_, new, performed, loadCertificate_eq_ok_iff.2 ⟨_,
    FileSystem.read_eq_ok_iff.2 ⟨_, _, leads⟩,
    Certificate.ofPem?_toPem_root isSize.2 sized chance.serial.isLt isMade⟩, isMade⟩

theorem exists_issueFor_eq_ok (endpoint : Endpoint) (chance : Chance) (clock : Clock)
    (events : List Event) (loaded : authority.loadMaterial files = .ok material)
    (sized : material.key.IsOfSize bits) (enough : Rsa.minBits ≤ bits)
    (isSize : Rsa.minBits ≤ authority.policy.keySize ∧ authority.policy.keySize ≤ Rsa.maxBits)
    (accepted : ∀ field : SubjectField, field.accepts (field.value authority.policy
      (CommonName.ofSubject chance.suffix endpoint.subject)) = true)
    (dates : clock.Dates authority.policy.leafDays) :
    ∃ credential reported, (authority.issueFor endpoint chance clock).perform ⟨files, events⟩ =
      (.ok credential, ⟨files, reported⟩) := by
  obtain ⟨validity, between⟩ := dates.exists_isBetween
  obtain ⟨signature, isSigned⟩ := sized.exists_sign?_eq_some enough
    (Certificate.leafBody (authority.leafRequest endpoint.subject endpoint.purpose
      (chance.key authority.policy.keySize)) material.certificate
      (CommonName.ofSubject chance.suffix endpoint.subject) chance.serial validity).encode
  rw [issueFor_eq]
  exact ⟨_, _, issue_eq_ok_iff.2 ⟨material, chance.key authority.policy.keySize, _, _, loaded,
    if_pos isSize, Certificate.leaf_eq_ok_iff.2
      ⟨rfl, accepted, validity, _, signature, between, rfl, isSigned, rfl⟩, rfl, rfl⟩⟩

def plain : Authority where
  settings := {
    authority := ⟨"key.pem", "certificate.pem", ⟨"secret"⟩⟩
    policy := { Policy.default with keySize := 2206 }
    templates := .default }
  isAccepted := rfl

def plainClock : Clock := ⟨⟨0⟩, ⟨0⟩⟩

theorem dates_plainClock : plainClock.Dates plain.policy.leafDays :=
  ⟨by decide +kernel, by decide +kernel⟩

theorem isName_keyPath_plain : Path.IsName plain.keyPath :=
  ⟨by decide, by decide, by decide, by decide⟩

theorem isName_certificatePath_plain : Path.IsName plain.certificatePath :=
  ⟨by decide, by decide, by decide, by decide⟩

theorem isName_new : Path.IsName "new" := ⟨by decide, by decide, by decide, by decide⟩

theorem accepts_default (bits : Nat) {commonName : String} (isSome : 1 ≤ commonName.length)
    (short : commonName.length ≤ 64) (field : SubjectField) :
    field.accepts (field.value { Policy.default with keySize := bits } commonName) = true := by
  have others : ∀ field : SubjectField, field ≠ .commonName →
      field.accepts (field.value .default "") = true := by
    rintro (_ | _) <;> decide
  cases field with
  | commonName =>
    simp [SubjectField.accepts, SubjectField.value, SubjectField.minLength, SubjectField.maxLength,
      SubjectField.admits, isSome, short]
  | _ => exact others _ (by decide)

theorem exists_bootstrap_plain (regular : chance.IsRegular 2206) :
    ∃ certificate reported,
      (plain.bootstrap chance plainClock).perform ⟨.empty, []⟩ =
        (.ok (), ⟨plain.newFiles chance certificate .empty, reported⟩) ∧
      plain.loadMaterial (plain.newFiles chance certificate .empty) =
        .ok ⟨chance.key 2206, certificate⟩ ∧
      plain.IsOwn chance plainClock ⟨chance.key 2206, certificate⟩ :=
  exists_bootstrap_eq_ok isName_keyPath_plain
    isName_certificatePath_plain (by decide) (by decide) (by decide) regular (by decide)
    (accepts_default 2206 (by decide) (by decide))
    ⟨by decide +kernel, by decide +kernel⟩ (by decide) (by decide) []

theorem exists_issueFor_plain (endpoint : Endpoint) (events : List Event) {chance' : Chance}
    (dates : clock.Dates plain.policy.leafDays) (regular : chance.IsRegular 2206)
    (regular' : chance'.IsRegular 2206)
    (loaded : plain.loadMaterial files = .ok material)
    (own : plain.IsOwn chance plainClock material)
    (isSome : 1 ≤ endpoint.subject.length) (short : endpoint.subject.length ≤ 64) :
    ∃ credential reported,
      (plain.issueFor endpoint chance' clock).perform ⟨files, events⟩ =
        (.ok credential, ⟨files, reported⟩) ∧
      credential.commonName = endpoint.subject ∧
      credential.certificatePem.utf8ByteSize < 2 ^ 63 := by
  have isSize : Rsa.minBits ≤ plain.policy.keySize ∧ plain.policy.keySize ≤ Rsa.maxBits := by decide
  have sized : material.key.IsOfSize plain.policy.keySize := by
    rw [own.key]
    exact regular.key
  have name : CommonName.ofSubject chance'.suffix endpoint.subject = endpoint.subject :=
    if_pos short
  obtain ⟨credential, reported, issued⟩ := exists_issueFor_eq_ok endpoint chance' clock events
    loaded sized isSize.1 isSize (by rw [name]; exact accepts_default 2206 isSome short) dates
  refine ⟨credential, reported, issued, ?_⟩
  obtain ⟨made⟩ := nonempty_issued issued
  refine ⟨made.commonName.trans name, ?_⟩
  have same := Except.ok.inj (made.isLoaded.symm.trans loaded)
  have length := made.length_certificate_le_of_isOwn (by rw [same]; exact own) regular.key
    regular'.key
  have pem : credential.certificatePem = Pem.text made.certificate.toPem := made.certificatePem
  rw [pem]
  exact Certificate.size_text_lt length

end Authority

end VpnAuthority
