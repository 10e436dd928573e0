import VpnAuthority.Proofs.Authority.Availability
import VpnAuthority.Proofs.Rsa.Generation

/-! What is issued by an authority that was made anew is trusted because of its
certificate, and because of no other. -/
namespace VpnAuthority

open Asn1 (Fits)

namespace Authority

variable {authority : Authority} {chance chance' : Chance} {clock clock' : Clock}
  {site site' issuing issuing' : Site} {files later : FileSystem} {key : Rsa.PrivateKey}
  {material : Material} {endpoint : Endpoint} {credential : Credential}

private theorem read_of_bootstrap (hi : chance.iv.length = 16)
    (isKeyNew : site.files.contains authority.keyPath = false)
    (h : (authority.bootstrap chance clock).perform site = (.ok (), site'))
    (isNew : ∀ place node, site'.files.target authority.certificatePath = .ok (.node place node) →
      site.files.get? place = none)
    (loaded : authority.loadMaterial site'.files = .ok material) :
    ∃ key certificate, chance.keyOfSize? authority.policy.keySize = some key ∧
      Certificate.root authority.policy (.rsa key) authority.policy.authorityName
        authority.policy.authorityDays chance.serial clock = .ok certificate ∧
      site'.files.read authority.keyPath = .ok (authority.keyText chance key) ∧
      site'.files.read authority.certificatePath = .ok certificate.toPem := by
  obtain ⟨later, log⟩ := site'
  obtain ⟨key, middle, obtains, ensures⟩ := bootstrap_eq_ok_iff.1 ⟨log, h⟩
  obtain ⟨loadedCertificate, loadedKey⟩ := loadMaterial_eq_ok_iff.1 loaded
  obtain ⟨text, certificateRead, certificateText⟩ := loadCertificate_eq_ok_iff.1 loadedCertificate
  obtain ⟨place, access, certificateTarget⟩ := FileSystem.read_eq_ok_iff.1 certificateRead
  obtain ⟨found, keyContent, keyAccess, keyTarget, origin⟩ := obtains.exists_target
  rcases origin with ⟨isThere, -⟩ | ⟨-, rfl, isMade⟩
  · rw [isKeyNew] at isThere
    cases isThere
  cases ensures with
  | kept =>
    -- no certificate is read from what is new before one is made
    have isFree := isNew place _ certificateTarget
    rcases obtains.eq_of_isFree isFree (FileSystem.get?_of_target certificateTarget) with
      isDirectory | isKey
    · cases isDirectory
    · cases isKey
      rw [keyText, Certificate.ofPem?_toEncryptedPem key hi] at certificateText
      cases certificateText
  | made isCertificateNew rootMade hp hw =>
    obtain ⟨_, _, -, -, -, target⟩ := FileSystem.write_eq_ok hw
    refine ⟨key, _, isMade, rootMade, ?_, FileSystem.read_eq_ok_iff.2 ⟨_, _, target⟩⟩
    obtain ⟨keyRead, hr, -, hk⟩ := loadKey_eq_ok_iff.1 loadedKey
    rcases (EnsuresCertificate.made isCertificateNew rootMade hp hw).read_of_target keyTarget with
      same | ⟨-, certificate, replaced⟩
    · exact same
    · rw [replaced] at hr
      cases hr
      rw [PrivateKey.ofPem?_certificate] at hk
      cases hk

/-- With a passphrase that is too long to be used in full, the file of a new key does not by
chance give another key. -/
def OpensNoOther (authority : Authority) (chance : Chance) : Prop :=
  PrivateKey.maxPassphraseLength < authority.passphrase.octets.length →
    ∀ other, PrivateKey.ofPem? authority.passphrase.octets
      (authority.keyText chance (chance.key authority.policy.keySize)) = some (.rsa other) →
      other = chance.key authority.policy.keySize

theorem loadKey_eq_of_read (regular : chance.IsRegular authority.policy.keySize)
    (hb : authority.policy.keySize ≤ Rsa.maxBits) (unlike : authority.OpensNoOther chance)
    (read : files.read authority.keyPath =
      .ok (authority.keyText chance (chance.key authority.policy.keySize)))
    (loaded : authority.loadKey files = .ok key) :
    key = chance.key authority.policy.keySize := by
  obtain ⟨text, hr, -, hk⟩ := loadKey_eq_ok_iff.1 loaded
  rw [read] at hr
  cases hr
  rcases Nat.lt_or_ge PrivateKey.maxPassphraseLength authority.passphrase.octets.length with
    long | short
  · exact unlike long key hk
  · rw [keyText, Rsa.PrivateKey.ofPem?_toEncryptedPem (regular.key.fits hb) regular.iv short] at hk
    cases hk
    rfl

private theorem isOwn_of_bootstrap (regular : chance.IsRegular authority.policy.keySize)
    (unlike : authority.OpensNoOther chance)
    (isKeyNew : site.files.contains authority.keyPath = false)
    (bootstrapped : (authority.bootstrap chance clock).perform site = (.ok (), site'))
    (isNew : ∀ place node, site'.files.target authority.certificatePath = .ok (.node place node) →
      site.files.get? place = none)
    (loaded : authority.loadMaterial site'.files = .ok material) :
    authority.IsOwn chance clock material := by
  obtain ⟨key, certificate, isMade, rootMade, keyRead, certificateRead⟩ :=
    read_of_bootstrap regular.iv isKeyNew bootstrapped isNew loaded
  obtain ⟨loadedCertificate, loadedKey⟩ := loadMaterial_eq_ok_iff.1 loaded
  obtain ⟨rfl, hb⟩ := Chance.eq_of_keyOfSize? isMade
  have isRead := Certificate.ofPem?_toPem_root hb regular.key chance.serial.isLt rootMade
  obtain ⟨text, hr, hp⟩ := loadCertificate_eq_ok_iff.1 loadedCertificate
  rw [certificateRead] at hr
  cases hr
  rw [isRead, Option.some.injEq] at hp
  subst hp
  exact ⟨hb, loadKey_eq_of_read regular hb unlike keyRead loadedKey, rootMade⟩

namespace Issued

variable (issued : Issued authority endpoint chance' clock' files credential)
  (own : authority.IsOwn chance clock issued.material)
include own

private theorem extensions : issued.certificate.body.extensions =
    Certificate.leafExtensions credential.commonName
      (chance'.key authority.policy.keySize).toPublic.toInfo
      (some (chance.key authority.policy.keySize).toPublic.toInfo.keyId) endpoint.purpose := by
  rw [← issued.key_eq, ← Certificate.givenKeyId_root own.extensions]
  rfl

private theorem isIssuedBy_of_root {policy : Policy} {name : String} {days serial : Nat}
    {caClock : Clock} {ca : Certificate}
    (made : Certificate.root policy (.rsa (chance.key authority.policy.keySize)) name days serial
      caClock = .ok ca)
    (named : ca.body.subject.same issued.material.certificate.body.subject = true)
    (sound : chance.IsSound authority.policy.keySize)
    (sound' : chance'.IsSound authority.policy.keySize)
    (apart : chance.keyId authority.policy.keySize ≠ chance'.keyId authority.policy.keySize)
    (now : Instant) :
    issued.certificate.isIssuedBy ca now = some (decide
      (caClock.Covers days now ∧ clock'.Covers authority.policy.leafDays now)) := by
  obtain ⟨-, validity, signature, between, -, made⟩ := Certificate.root_eq_ok_iff.1 made
  have nameFits : Fits (Asn1.encode 0x82 (Utf8.encode credential.commonName)) := by
    have short := DistinguishedName.length_commonName_le issued.isAccepted
    have octets := Utf8.length_encode_le credential.commonName
    have := Asn1.length_encode_le 0x82 (Utf8.encode credential.commonName)
    exact lt_of_le_of_lt (b := 1000) (by omega) (by decide)
  have isKey : issued.request.key = (chance'.key authority.policy.keySize).toPublic.toInfo := by
    rw [← issued.key_eq]
    rfl
  have isSigned := issued.isSigned
  rw [own.key] at isSigned
  exact Certificate.isIssuedBy_root made rfl named (Certificate.givenKeyId_root own.extensions)
    isKey isSigned sound.sound (sound.key.fits_toPublic own.isSize)
    (sound'.key.fits_toPublic own.isSize) nameFits apart between
    issued.isBetween now

/-- What is issued by an authority with its own certificate is read back, and trusted because
of every certificate of the same key and name as long as both certificates are valid. -/
theorem verifyIssuedBy_root {policy : Policy} {name : String} {days serial : Nat}
    {caClock : Clock} {ca : Certificate}
    (made : Certificate.root policy (.rsa (chance.key authority.policy.keySize)) name days serial
      caClock = .ok ca)
    (named : ca.body.subject.same issued.material.certificate.body.subject = true)
    (sound : chance.IsSound authority.policy.keySize)
    (sound' : chance'.IsSound authority.policy.keySize)
    (apart : chance.keyId authority.policy.keySize ≠ chance'.keyId authority.policy.keySize) :
    Certificate.ofPem? (Utf8.encode credential.certificatePem) = some issued.certificate ∧
      ∀ now, verifyIssuedBy issued.certificate ca now = .ok (decide
        (caClock.Covers days now ∧ clock'.Covers authority.policy.leafDays now)) := by
  have fits : Fits issued.certificate.encode :=
    (issued.length_certificate_le_of_isOwn own sound.key sound'.key).trans_lt
      (by decide : Certificate.maxLength < 256 ^ 126)
  refine ⟨issued.ofPem?_certificatePem fits, fun now => ?_⟩
  rw [verifyIssuedBy, issued.isIssuedBy_of_root own made named sound sound' apart]

theorem verifyIssuedBy_own (sound : chance.IsSound authority.policy.keySize)
    (sound' : chance'.IsSound authority.policy.keySize)
    (apart : chance.keyId authority.policy.keySize ≠ chance'.keyId authority.policy.keySize) :
    Certificate.ofPem? (Utf8.encode credential.certificatePem) = some issued.certificate ∧
      ∀ now, verifyIssuedBy issued.certificate issued.material.certificate now = .ok (decide
        (clock.Covers authority.policy.authorityDays now ∧
          clock'.Covers authority.policy.leafDays now)) :=
  issued.verifyIssuedBy_root own own.certificate (DistinguishedName.same_self _) sound sound' apart

private theorem not_isIssuedBy {other : Certificate} {id : Bytes}
    (otherKey : other.subjectKey = .present id)
    (differs : other.subjectKey ≠ issued.material.certificate.subjectKey) (now : Instant) :
    issued.certificate.isIssuedBy other now = some false := by
  rw [Certificate.subjectKey_root own.extensions, otherKey] at differs
  refine Certificate.isIssuedBy_of_apart (issued.extensions own) otherKey (fun same => ?_) now
  exact differs (by rw [same])

end Issued

/-- A credential of a new authority holds a certificate that is trusted because of the
certificate of the authority as long as both are valid, and never because of a certificate
with another key identifier, such as that of an authority with another key, whatever their
names. It ends before that of the authority, if less time passed between the two than by
which it is to live shorter. -/
theorem verifyIssuedBy_of_issued
    (sound : chance.IsSound authority.policy.keySize)
    (sound' : chance'.IsSound authority.policy.keySize)
    (apart : chance.keyId authority.policy.keySize ≠ chance'.keyId authority.policy.keySize)
    (unlike : authority.OpensNoOther chance)
    (isKeyNew : site.files.contains authority.keyPath = false)
    (bootstrapped : (authority.bootstrap chance clock).perform site = (.ok (), site'))
    (isNew : ∀ place node, site'.files.target authority.certificatePath = .ok (.node place node) →
      site.files.get? place = none)
    (unchanged : issuing.files = site'.files)
    (issued : (authority.issueFor endpoint chance' clock').perform issuing =
      (.ok credential, issuing')) :
    ∃ leaf ca, Certificate.ofPem? (Utf8.encode credential.certificatePem) = some leaf ∧
      authority.loadCertificate site'.files = .ok ca ∧
      (∀ now, verifyIssuedBy leaf ca now = .ok (decide
        (clock.Covers authority.policy.authorityDays now ∧
          clock'.Covers authority.policy.leafDays now))) ∧
      (clock'.first.seconds ≤ clock'.second.seconds →
        clock.Covers authority.policy.authorityDays clock'.second →
        verifyIssuedBy leaf ca clock'.second = .ok true) ∧
      (∀ other own, other.subjectKey = .present own → other.subjectKey ≠ ca.subjectKey →
        ∀ now, verifyIssuedBy leaf other now = .ok false) ∧
      (∀ policy key commonName days serial clock'' other,
        Certificate.root policy key commonName days serial clock'' = .ok other →
        other.subjectKey ≠ ca.subjectKey → ∀ now, verifyIssuedBy leaf other now = .ok false) ∧
      ∃ leafEnd caEnd, leaf.body.validity.notAfter.instant? = some leafEnd ∧
        ca.body.validity.notAfter.instant? = some caEnd ∧
        (clock.second.seconds ≤ clock'.second.seconds →
          clock'.second.seconds < clock.second.seconds +
            (authority.policy.authorityDays - authority.policy.leafDays) * secondsPerDay →
          leafEnd.seconds < caEnd.seconds) := by
  obtain ⟨files, events⟩ := issuing
  dsimp only at unchanged
  subst unchanged
  obtain ⟨made⟩ := nonempty_issued issued
  have own := isOwn_of_bootstrap sound.toIsRegular unlike isKeyNew bootstrapped isNew made.isLoaded
  obtain ⟨read, trusted⟩ := made.verifyIssuedBy_own own sound sound' apart
  refine ⟨made.certificate, made.material.certificate, read,
    (loadMaterial_eq_ok_iff.1 made.isLoaded).1, trusted, fun inOrder covers => ?_,
    fun other id otherKey differs now => ?_, ?_, ?_⟩
  · have lives : clock'.Covers authority.policy.leafDays clock'.second := by
      have := authority.policy_of_accepted.2.1.1
      refine ⟨inOrder, ?_⟩
      simp only [Instant.addDays, secondsPerDay]
      omega
    rw [trusted]
    exact congrArg Except.ok (decide_eq_true ⟨covers, lives⟩)
  · rw [verifyIssuedBy, made.not_isIssuedBy own otherKey differs]
  · intro policy key commonName days serial clock'' other otherMade differs now
    obtain ⟨rsaKey, rfl⟩ := Certificate.exists_rsa_of_root_eq_ok otherMade
    obtain ⟨-, _, _, -, -, signed⟩ := Certificate.root_eq_ok_iff.1 otherMade
    have extended : other.body.extensions =
        Certificate.rootExtensions rsaKey.toPublic.toInfo := by
      rw [signed]
      rfl
    rw [verifyIssuedBy, made.not_isIssuedBy own (Certificate.subjectKey_root extended) differs]
  · obtain ⟨-, validity, signature, between, -, caMade⟩ :=
      Certificate.root_eq_ok_iff.1 own.certificate
    refine ⟨_, clock.second.addDays authority.policy.authorityDays,
      Asn1.Time.instant?_of_ofInstant? made.isBetween.2, ?_, fun _ sooner => ?_⟩
    · rw [caMade]
      exact Asn1.Time.instant?_of_ofInstant? between.2
    · simp only [Instant.addDays, secondsPerDay] at sooner ⊢
      omega

theorem verifyIssuedBy_of_issued_plain :
    ∃ certificate issuing' credential leaf ca,
      (plain.bootstrap (.ofSmallPrime 5) plainClock).perform ⟨.empty, []⟩ =
        (.ok (), ⟨plain.newFiles (.ofSmallPrime 5) certificate .empty, issuing'⟩) ∧
      Certificate.ofPem? (Utf8.encode (credential : Credential).certificatePem) = some leaf ∧
      plain.loadCertificate (plain.newFiles (.ofSmallPrime 5) certificate .empty) = .ok ca ∧
      verifyIssuedBy leaf ca plainClock.second = .ok true := by
  have sound : (Chance.ofSmallPrime 5).IsSound plain.policy.keySize :=
    Chance.isSound_ofSmallPrime_five
  have sound' : (Chance.ofSmallPrime 7).IsSound plain.policy.keySize :=
    Chance.isSound_ofSmallPrime_seven
  obtain ⟨certificate, reported, bootstrapped, loaded, made⟩ :=
    exists_bootstrap_plain sound.toIsRegular
  obtain ⟨credential, events, issued, -⟩ := exists_issueFor_plain
    (.client ⟨"office", .user "alice@example.org"⟩) reported dates_plainClock sound.toIsRegular
    sound'.toIsRegular loaded made (by decide) (by decide)
  have isNew : ∀ place node,
      (plain.newFiles (.ofSmallPrime 5) certificate .empty).target plain.certificatePath =
        .ok (.node place node) → FileSystem.empty.get? place = none := by
    intro place node found
    rw [FileSystem.target_name_of_file isName_certificatePath_plain
      get?_certificatePath_newFiles] at found
    cases found
    rfl
  obtain ⟨leaf, ca, isLeaf, isRoot, verified, -⟩ := verifyIssuedBy_of_issued sound sound'
    Chance.keyId_ofSmallPrime_ne (fun long => absurd long (by decide))
    (by exact FileSystem.contains_name_of_isFree isName_keyPath_plain rfl) bootstrapped
    (by exact isNew) rfl issued
  refine ⟨certificate, reported, credential, leaf, ca, bootstrapped, isLeaf, isRoot, ?_⟩
  rw [verified, decide_eq_true]
  exact ⟨by decide, by decide⟩

/-- An authority next to the plain one. The way to its certificate leads through the
directory of its key, and back out of it. -/
def neighbour : Authority where
  settings := {
    authority := ⟨"new/key.pem", "new/../certificate.pem", ⟨"secret"⟩⟩
    policy := { Policy.default with keySize := 2210 }
    templates := .default }
  isAccepted := rfl

/-- A clock that stands where the plain authority, made at the beginning of 1970, has ended. -/
def lateClock : Clock := ⟨⟨3650 * secondsPerDay⟩, ⟨3650 * secondsPerDay⟩⟩

section
variable {content : Bytes} {access : Access}

private theorem isName_key : Path.IsName "key.pem" := isName_keyPath_plain

private theorem isName_certificate : Path.IsName "certificate.pem" := isName_certificatePath_plain

theorem target_keyPath_neighbour (files : FileSystem) : files.target neighbour.keyPath =
    files.walk true Path.maxLinks [] ["new", "key.pem"] :=
  FileSystem.target_of_checked (by decide)

theorem target_certificatePath_neighbour (files : FileSystem) :
    files.target neighbour.certificatePath =
      files.walk true Path.maxLinks [] ["new", "..", "certificate.pem"] :=
  FileSystem.target_of_checked (by decide)

section
variable (isDirectory : files.get? ["new"] = some .directory)
include isDirectory

theorem target_keyPath_neighbour_of_file
    (there : files.get? ["new", "key.pem"] = some (.file content access)) :
    files.target neighbour.keyPath = .ok (.node ["new", "key.pem"] (.file content access)) := by
  have isDirectory' : files.get? ([] ++ ["new"]) = some .directory := isDirectory
  rw [target_keyPath_neighbour, FileSystem.walk_name_of_directory isName_new isDirectory']
  exact FileSystem.walk_name_of_file isName_key there

theorem locate_certificatePath_neighbour (followLast : Bool) :
    files.locate followLast (Path.steps neighbour.certificatePath) =
      files.walk followLast Path.maxLinks [] ["certificate.pem"] := by
  have steps : Path.steps neighbour.certificatePath = ["new", "..", "certificate.pem"] := by decide
  rw [steps]
  exact FileSystem.locate_up isName_new isDirectory (by decide) followLast

theorem target_certificatePath_neighbour_of_file
    (there : files.get? ["certificate.pem"] = some (.file content access)) :
    files.target neighbour.certificatePath =
      .ok (.node ["certificate.pem"] (.file content access)) := by
  rw [FileSystem.target, locate_certificatePath_neighbour isDirectory]
  exact FileSystem.walk_name_of_file isName_certificate there

end

theorem contains_neighbour (isFree : files.get? ["new"] = none) :
    files.contains neighbour.keyPath = false ∧
      files.contains neighbour.certificatePath = false := by
  rw [FileSystem.contains, FileSystem.contains, target_keyPath_neighbour,
    target_certificatePath_neighbour, FileSystem.walk_name_of_isFree isName_new isFree,
    FileSystem.walk_name_of_isFree isName_new isFree]
  exact ⟨rfl, rfl⟩

def neighbourFiles (chance : Chance) (files : FileSystem) : FileSystem :=
  (files.insert ["new"] .directory).insert ["new", "key.pem"]
    (.file (neighbour.keyText chance (chance.key 2210)) .owner)

theorem get?_new_neighbourFiles (chance : Chance) (files : FileSystem) :
    (neighbourFiles chance files).get? ["new"] = some .directory := by
  rw [neighbourFiles, FileSystem.get?_insert_of_ne (by simp)]
  exact FileSystem.get?_insert_self (by simp)

theorem get?_key_neighbourFiles (chance : Chance) (files : FileSystem) :
    (neighbourFiles chance files).get? ["new", "key.pem"] =
      some (.file (neighbour.keyText chance (chance.key 2210)) .owner) :=
  FileSystem.get?_insert_self (by simp)

theorem get?_certificate_neighbourFiles (chance : Chance) (files : FileSystem) :
    (neighbourFiles chance files).get? ["certificate.pem"] = files.get? ["certificate.pem"] := by
  rw [neighbourFiles, FileSystem.get?_insert_of_ne (by simp),
    FileSystem.get?_insert_of_ne (by simp)]

theorem obtainsKey_neighbour {chance : Chance} (isFree : files.get? ["new"] = none)
    (isKeyFree : files.get? ["new", "key.pem"] = none) :
    neighbour.ObtainsKey chance files (chance.key 2210) (neighbourFiles chance files) := by
  have isMade : chance.keyOfSize? neighbour.policy.keySize = some (chance.key 2210) :=
    if_pos (by decide)
  have hasParents : files.createParents neighbour.keyPath =
      (files.insert ["new"] .directory, .ok ()) :=
    FileSystem.ensureAll_name_of_isFree isName_new isFree
  refine .made (contains_neighbour isFree).1 isMade hasParents ?_
  have isDirectory : (files.insert ["new"] .directory).get? ([] ++ ["new"]) = some .directory :=
    FileSystem.get?_insert_self (by simp)
  have isStillFree :
      (files.insert ["new"] .directory).get? ([] ++ ["new"] ++ ["key.pem"]) = none := by
    rw [FileSystem.get?_insert_of_ne (by simp)]
    exact isKeyFree
  have found : (files.insert ["new"] .directory).locate false ["new", "key.pem"] =
      .ok (.free ["new", "key.pem"]) := by
    change (files.insert ["new"] .directory).walk false Path.maxLinks [] ["new", "key.pem"] = _
    rw [FileSystem.walk_name_of_directory isName_new isDirectory,
      FileSystem.walk_name_of_isFree isName_key isStillFree]
    rfl
  have steps : Path.steps neighbour.keyPath = ["new", "key.pem"] := by decide
  exact FileSystem.createSecret_free (by rw [steps, found]) _

theorem loadMaterial_neighbour {chance : Chance} {certificate : Certificate} {text : Bytes}
    (regular : chance.IsRegular 2210)
    (there : files.get? ["certificate.pem"] = some (.file text access))
    (isCertificate : Certificate.ofPem? text = some certificate) :
    (neighbourFiles chance files).contains neighbour.certificatePath = true ∧
      neighbour.loadMaterial (neighbourFiles chance files) =
        .ok ⟨chance.key 2210, certificate⟩ := by
  have isDirectory := get?_new_neighbourFiles chance files
  have keyTarget := target_keyPath_neighbour_of_file isDirectory
    (get?_key_neighbourFiles chance files)
  have certificateTarget := target_certificatePath_neighbour_of_file isDirectory
    ((get?_certificate_neighbourFiles chance files).trans there)
  exact ⟨FileSystem.contains_iff.2 ⟨_, _, certificateTarget⟩, loadMaterial_eq_ok_iff.2
    ⟨loadCertificate_eq_ok_iff.2 ⟨text, FileSystem.read_eq_ok_iff.2 ⟨_, _, certificateTarget⟩,
        isCertificate⟩,
      loadKey_eq_ok_iff.2 ⟨_, FileSystem.read_eq_ok_iff.2 ⟨_, _, keyTarget⟩, by decide,
        Rsa.PrivateKey.ofPem?_toEncryptedPem (regular.key.fits (by decide)) regular.iv
          (by decide)⟩⟩⟩

theorem exists_bootstrap_neighbour {chance chance' : Chance}
    (regular : chance.IsRegular 2206) (regular' : chance'.IsRegular 2210) :
    ∃ ca reported later,
      (plain.bootstrap chance plainClock).perform ⟨.empty, []⟩ =
        (.ok (), ⟨plain.newFiles chance ca .empty, reported⟩) ∧
      (plain.newFiles chance ca .empty).contains neighbour.keyPath = false ∧
      (plain.newFiles chance ca .empty).contains neighbour.certificatePath = false ∧
      (neighbour.bootstrap chance' plainClock).perform
        ⟨plain.newFiles chance ca .empty, reported⟩ =
          (.ok (), ⟨neighbourFiles chance' (plain.newFiles chance ca .empty), later⟩) ∧
      neighbour.loadMaterial (neighbourFiles chance' (plain.newFiles chance ca .empty)) =
        .ok ⟨chance'.key 2210, ca⟩ ∧
      plain.IsOwn chance plainClock ⟨chance.key 2206, ca⟩ := by
  obtain ⟨ca, reported, isOld, loaded, own⟩ := exists_bootstrap_plain regular
  have isDirectoryFree : (plain.newFiles chance ca .empty).get? ["new"] = none := by
    rw [newFiles, FileSystem.get?_insert_of_ne (by decide),
      FileSystem.get?_insert_of_ne (by decide)]
    rfl
  have isKeyFree : (plain.newFiles chance ca .empty).get? ["new", "key.pem"] = none := by
    rw [newFiles, FileSystem.get?_insert_of_ne (by decide),
      FileSystem.get?_insert_of_ne (by decide)]
    rfl
  have there : (plain.newFiles chance ca .empty).get? ["certificate.pem"] =
      some (.file ca.toPem .everyone) := get?_certificatePath_newFiles
  obtain ⟨text, caRead, caText⟩ := loadCertificate_eq_ok_iff.1 (loadMaterial_eq_ok_iff.1 loaded).1
  rw [read_certificatePath_newFiles isName_certificatePath_plain] at caRead
  cases caRead
  obtain ⟨isKept, newLoaded⟩ := loadMaterial_neighbour regular' there caText
  obtain ⟨later, isNew⟩ : ∃ later, (neighbour.bootstrap chance' plainClock).perform
      ⟨plain.newFiles chance ca .empty, reported⟩ = (.ok (), ⟨_, later⟩) :=
    bootstrap_eq_ok_iff.2 ⟨_, _, obtainsKey_neighbour isDirectoryFree isKeyFree, .kept isKept⟩
  obtain ⟨isKeyNew, isCertificateNew⟩ := contains_neighbour isDirectoryFree
  exact ⟨ca, reported, later, isOld, isKeyNew, isCertificateNew, isNew, newLoaded, own⟩

end

theorem exists_issueFor_neighbour {old chance chance' : Chance} {ca : Certificate}
    (sized : (chance.key 2210).IsOfSize 2210) (sized' : (chance'.key 2210).IsOfSize 2210)
    (own : plain.IsOwn old plainClock ⟨old.key 2206, ca⟩)
    (loaded : neighbour.loadMaterial files = .ok ⟨chance.key 2210, ca⟩) (events : List Event) :
    ∃ (credential : Credential) (reported : List Event) (made : Issued neighbour
        (.client ⟨"office", .user "alice@example.org"⟩) chance' plainClock files credential),
      (neighbour.issueFor (.client ⟨"office", .user "alice@example.org"⟩) chance'
        plainClock).perform ⟨files, events⟩ = (.ok credential, ⟨files, reported⟩) ∧
      made.material = ⟨chance.key 2210, ca⟩ ∧ Fits made.certificate.encode := by
  have isSize : Rsa.minBits ≤ neighbour.policy.keySize ∧
      neighbour.policy.keySize ≤ Rsa.maxBits := by decide
  have name : CommonName.ofSubject chance'.suffix
      (Endpoint.client ⟨"office", .user "alice@example.org"⟩).subject =
        (Endpoint.client ⟨"office", .user "alice@example.org"⟩).subject := if_pos (by decide)
  obtain ⟨credential, reported, issued⟩ := exists_issueFor_eq_ok
    (.client ⟨"office", .user "alice@example.org"⟩) chance' plainClock events loaded
    sized isSize.1 isSize (by rw [name]; exact accepts_default 2210 (by decide) (by decide))
    ⟨by decide +kernel, by decide +kernel⟩
  obtain ⟨made⟩ := nonempty_issued issued
  have same := Except.ok.inj (made.isLoaded.symm.trans loaded)
  have fits : Fits made.certificate.encode := (made.length_certificate_le _ isSize.2
    (by rw [same]; exact sized) (by rw [made.key_eq]; exact sized')
    (by rw [same]; exact own.length_subject_le)
    (by rw [same]; exact Certificate.givenKeyId_root own.extensions)).trans_lt
      (by decide : Certificate.maxLength < 256 ^ 126)
  exact ⟨credential, reported, made, issued, same, fits⟩

private theorem Issued.not_isIssuedBy_of_length {other : Authority} {ca : Material}
    (issued : Issued authority endpoint chance' clock' files credential)
    (fits : Fits issued.certificate.encode)
    (isSize : authority.policy.keySize ≤ Rsa.maxBits)
    (sized' : (chance'.key authority.policy.keySize).IsOfSize authority.policy.keySize)
    (own : other.IsOwn chance clock ca)
    (sized : (chance.key other.policy.keySize).IsOfSize other.policy.keySize)
    (length : issued.material.key.toPublic.size ≠
      (chance.key other.policy.keySize).toPublic.size) (now : Instant) :
    issued.certificate.isIssuedBy ca.certificate now = some false := by
  obtain ⟨-, validity, signature, -, caSigned, caMade⟩ :=
    Certificate.root_eq_ok_iff.1 own.certificate
  have leafLength : issued.certificate.signature.length = issued.material.key.toPublic.size :=
    Rsa.length_of_sign?_eq_some issued.isSigned
  have caLength : ca.certificate.signature.length =
      (chance.key other.policy.keySize).toPublic.size := by
    rw [caMade]
    exact Rsa.length_of_sign?_eq_some caSigned
  have differs : issued.certificate.encode ≠ ca.certificate.encode := by
    intro same
    have samePem : issued.certificate.toPem = ca.certificate.toPem := congrArg (Pem.encode _) same
    have read := issued.ofPem?_certificatePem fits
    have text : Utf8.encode credential.certificatePem = issued.certificate.toPem := by
      rw [issued.certificatePem]
      exact Certificate.encode_text_toPem _
    rw [text, samePem, Certificate.ofPem?_toPem_root own.isSize sized chance.serial.isLt
      own.certificate, Option.some.injEq] at read
    rw [← read, caLength] at leafLength
    exact length leafLength.symm
  exact Certificate.isIssuedBy_of_length (own.publicKey?_eq sized)
    (issued.publicKey?_eq isSize sized') differs (by rw [leafLength]; exact length) now

/-- A certificate that stood where the path of the certificate leads only once the directory
of the key is there is taken for that of the new authority, though it is that of another.
And a credential that is issued when the authority has ended is not trusted either. -/
theorem exists_not_verifyIssuedBy :
    (∃ site site' issuing' credential leaf ca,
      (plain.bootstrap (.ofSmallPrime 5) plainClock).perform ⟨.empty, []⟩ = (.ok (), site) ∧
      site.files.contains neighbour.keyPath = false ∧
      site.files.contains neighbour.certificatePath = false ∧
      neighbour.keyPath ≠ neighbour.certificatePath ∧
      (neighbour.bootstrap (.ofSmallPrime 67) plainClock).perform site = (.ok (), site') ∧
      (neighbour.issueFor (.client ⟨"office", .user "alice@example.org"⟩) (.ofSmallPrime 71)
        plainClock).perform site' = (.ok credential, issuing') ∧
      Certificate.ofPem? (Utf8.encode credential.certificatePem) = some leaf ∧
      neighbour.loadCertificate site'.files = .ok ca ∧
      verifyIssuedBy leaf ca plainClock.second = .ok false) ∧
    ∃ site issuing' credential leaf ca,
      (plain.bootstrap (.ofSmallPrime 5) plainClock).perform ⟨.empty, []⟩ = (.ok (), site) ∧
      (plain.issueFor (.client ⟨"office", .user "alice@example.org"⟩) (.ofSmallPrime 7)
        lateClock).perform site = (.ok credential, issuing') ∧
      Certificate.ofPem? (Utf8.encode credential.certificatePem) = some leaf ∧
      plain.loadCertificate site.files = .ok ca ∧
      verifyIssuedBy leaf ca lateClock.second = .ok false := by
  have sound : (Chance.ofSmallPrime 5).IsSound plain.policy.keySize :=
    Chance.isSound_ofSmallPrime_five
  have sound' : (Chance.ofSmallPrime 7).IsSound plain.policy.keySize :=
    Chance.isSound_ofSmallPrime_seven
  constructor
  · have new : (Chance.ofSmallPrime 67).IsSound neighbour.policy.keySize :=
      Chance.isSound_ofSmallPrime_sixtySeven
    have served : (Chance.ofSmallPrime 71).IsSound neighbour.policy.keySize :=
      Chance.isSound_ofSmallPrime_seventyOne
    obtain ⟨ca, reported, later, isOld, isKeyNew, isCertificateNew, isNew, loaded, own⟩ :=
      exists_bootstrap_neighbour sound.toIsRegular new.toIsRegular
    obtain ⟨credential, events, made, issued, same, fits⟩ :=
      exists_issueFor_neighbour new.key served.key own loaded later
    have length : ((Chance.ofSmallPrime 67).key 2210).toPublic.size ≠
        ((Chance.ofSmallPrime 5).key plain.policy.keySize).toPublic.size := by decide +kernel
    refine ⟨_, _, _, credential, made.certificate, ca, isOld, isKeyNew, isCertificateNew,
      by decide, isNew, issued, made.ofPem?_certificatePem fits,
      (loadMaterial_eq_ok_iff.1 loaded).1, ?_⟩
    rw [verifyIssuedBy, made.not_isIssuedBy_of_length fits (by decide) served.key own sound.key
      (by rw [same]; exact length)]
  · obtain ⟨ca, reported, bootstrapped, loaded, own⟩ := exists_bootstrap_plain sound.toIsRegular
    obtain ⟨credential, events, issued, -⟩ := exists_issueFor_plain
      (.client ⟨"office", .user "alice@example.org"⟩) reported
      (⟨by decide +kernel, by decide +kernel⟩ : lateClock.Dates plain.policy.leafDays)
      sound.toIsRegular sound'.toIsRegular loaded own (by decide) (by decide)
    obtain ⟨made⟩ := nonempty_issued issued
    have same := Except.ok.inj (made.isLoaded.symm.trans loaded)
    rw [← same] at own
    have fits : Fits made.certificate.encode :=
      (made.length_certificate_le_of_isOwn own sound.key sound'.key).trans_lt
        (by decide : Certificate.maxLength < 256 ^ 126)
    refine ⟨_, _, credential, made.certificate, _, bootstrapped, issued,
      made.ofPem?_certificatePem fits, (loadMaterial_eq_ok_iff.1 made.isLoaded).1, ?_⟩
    rw [verifyIssuedBy, made.isIssuedBy_of_root own own.certificate
      (DistinguishedName.same_self _) sound sound' Chance.keyId_ofSmallPrime_ne,
      decide_eq_false (by decide)]

end Authority

end VpnAuthority
