import VpnAuthority.Proofs.Authority.Naming
import VpnAuthority.Proofs.Authority.Operations

/-! A bootstrap that fails, and one that takes up what it left. -/
namespace VpnAuthority

namespace Call

variable {path : String} {content : Bytes}

theorem read_after (call : Call) {site : Site} (read : site.files.read path = .ok content) :
    (call.after site).files.read path = .ok content ∨
      ∃ certificate : Certificate, (call.after site).files.read path = .ok certificate.toPem :=
  (Authority.Leaves.read (call.leaves_after site) read).imp_right fun ⟨_, _, replaced⟩ => replaced

theorem read_run (calls : List Call) {site : Site} (read : site.files.read path = .ok content) :
    (run calls site).files.read path = .ok content ∨
      ∃ certificate : Certificate, (run calls site).files.read path = .ok certificate.toPem := by
  induction calls generalizing site content with
  | nil => exact .inl read
  | cons call rest ih =>
    rcases call.read_after read with same | ⟨certificate, replaced⟩
    · exact ih same
    · rcases ih replaced with kept | again
      · exact .inr ⟨certificate, kept⟩
      · exact .inr again

end Call

namespace Authority

variable {authority resumed : Authority} {chance chance' : Chance} {clock clock' : Clock}
  {site stopped before done : Site} {files middle later : FileSystem} {key : Rsa.PrivateKey}
  {place : Place} {text content : Bytes} {access : Access}

/-- The passphrase of an authority gives a key for a text, cut as it is for reading or in full. -/
def Opens (authority : Authority) (text : Bytes) (key : Rsa.PrivateKey) : Prop :=
  PrivateKey.ofPem? authority.passphrase.octets text = some (.rsa key) ∨
    PrivateKey.openPem? authority.passphrase.octets text = some (.rsa key)

/-- A file holds a new certificate of the key in the key file, which is read back as it is. -/
def Certifies (authority : Authority) (chance : Chance) (clock : Clock) (files : FileSystem)
    (content : Bytes) : Prop :=
  ∃ text key certificate, files.read authority.keyPath = .ok text ∧ authority.Opens text key ∧
    Certificate.root authority.policy (.rsa key) authority.policy.authorityName
      authority.policy.authorityDays chance.serial clock = .ok certificate ∧
    content = certificate.toPem ∧ Certificate.ofPem? content = some certificate ∧
    certificate.publicKey? = some (.rsa key.toPublic)

/-- The way to the certificate led nowhere, and comes to lead to the key. -/
def ReplacesKey (authority : Authority) (files later : FileSystem) : Prop :=
  files.contains authority.certificatePath = false ∧
    later.Meets authority.keyPath authority.certificatePath

theorem ObtainsKey.of_read (h : authority.ObtainsKey chance files key later)
    (read : files.read authority.keyPath = .ok text) :
    later = files ∧ PrivateKey.ofPem? authority.passphrase.octets text = some (.rsa key) := by
  obtain ⟨place, access, leads⟩ := FileSystem.read_eq_ok_iff.1 read
  have isThere := FileSystem.contains_iff.2 ⟨place, _, leads⟩
  cases h with
  | reused _ isLoaded =>
    obtain ⟨text', read', -, isKey⟩ := loadKey_eq_ok_iff.1 isLoaded
    rw [read, Except.ok.injEq] at read'
    subst read'
    exact ⟨rfl, isKey⟩
  | made isNew =>
    rw [isThere] at isNew
    cases isNew

theorem read_of_performed
    (performed : (resumed.bootstrap chance' clock').perform before = (.ok (), done))
    (held : before.files.read resumed.keyPath = .ok text ∨
      ∃ certificate : Certificate, before.files.read resumed.keyPath = .ok certificate.toPem) :
    before.files.read resumed.keyPath = .ok text := by
  obtain ⟨key, middle, obtains, -⟩ := bootstrap_eq_ok_iff.1 ⟨done.events, performed⟩
  rcases held with same | ⟨certificate, replaced⟩
  · exact same
  · have isKey := (obtains.of_read replaced).2
    rw [PrivateKey.ofPem?_certificate] at isKey
    cases isKey

/-- A bootstrap that ends well keeps the key that it found, unless it takes the way to the key
for that to the certificate. -/
theorem read_done_iff
    (performed : (resumed.bootstrap chance' clock').perform before = (.ok (), done))
    (read : before.files.read resumed.keyPath = .ok text) :
    done.files.read resumed.keyPath = .ok text ↔ ¬resumed.ReplacesKey before.files done.files := by
  obtain ⟨later, reported⟩ := done
  constructor
  · rintro same ⟨isNew, place, node, leads, leads'⟩
    obtain ⟨key, middle, obtains, ensures⟩ := bootstrap_eq_ok_iff.1 ⟨reported, performed⟩
    obtain ⟨rfl, isKey⟩ := obtains.of_read read
    cases ensures with
    | kept isThere =>
      rw [isThere] at isNew
      cases isNew
    | made _ _ _ isWritten =>
      obtain ⟨found, access, -, -, -, target⟩ := FileSystem.write_eq_ok isWritten
      rw [target, Except.ok.injEq, FileSystem.Target.node.injEq] at leads'
      obtain ⟨rfl, rfl⟩ := leads'
      rw [FileSystem.read_eq_ok_iff.2 ⟨_, _, leads⟩, Except.ok.injEq] at same
      subst same
      rw [PrivateKey.ofPem?_certificate] at isKey
      cases isKey
  · intro notReplaced
    have leaves := resumed.leaves_bootstrap chance' clock' before
    rw [performed] at leaves
    rcases Leaves.read leaves read with same | ⟨isNew, meets, -⟩
    · exact same
    · exact absurd ⟨isNew, meets⟩ notReplaced

theorem openPem?_keyText (regular : chance.IsRegular authority.policy.keySize)
    (isMade : chance.keyOfSize? authority.policy.keySize = some key) :
    PrivateKey.openPem? authority.passphrase.octets (authority.keyText chance key) =
      some (.rsa key) := by
  obtain ⟨rfl, hb⟩ := Chance.eq_of_keyOfSize? isMade
  exact Rsa.PrivateKey.openPem?_toEncryptedPem (regular.key.fits hb) regular.iv

theorem ObtainsKey.opens (h : authority.ObtainsKey chance files key later)
    (regular : chance.IsRegular authority.policy.keySize) :
    ∃ place text access, later.target authority.keyPath =
        .ok (.node place (.file text access)) ∧ authority.Opens text key := by
  obtain ⟨place, text, access, leads, ⟨-, read, isLoaded⟩ | ⟨-, rfl, isMade⟩⟩ := h.exists_target
  · obtain ⟨text', read', -, isKey⟩ := loadKey_eq_ok_iff.1 isLoaded
    rw [read, Except.ok.injEq] at read'
    subst read'
    exact ⟨place, text, access, leads, .inl isKey⟩
  · exact ⟨place, _, access, leads, .inr (openPem?_keyText regular isMade)⟩

private theorem contains_eq_false {path : String} (keeps : files.Keeps later)
    (isNew : later.contains path = false) : files.contains path = false := by
  rw [← Bool.not_eq_true] at isNew ⊢
  exact fun isThere => isNew (keeps.contains isThere)

private theorem contains_eq_false_of_isFree {path : String} {node : Node}
    (keeps : files.Keeps later) (leads : later.target path = .ok (.node place node))
    (isFree : files.get? place = none) : files.contains path = false := by
  rw [← Bool.not_eq_true]
  intro isThere
  obtain ⟨found, before, target⟩ := FileSystem.contains_iff.1 isThere
  obtain ⟨_, target', -⟩ := keeps.target target
  rw [leads, Except.ok.injEq, FileSystem.Target.node.injEq] at target'
  rw [target'.1, FileSystem.get?_of_target target] at isFree
  cases isFree

theorem certifies_of_performed (regular : chance'.IsRegular resumed.policy.keySize)
    (performed : (resumed.bootstrap chance' clock').perform before = (.ok (), done))
    (leads : done.files.target resumed.certificatePath = .ok (.node place (.file content access)))
    (isPut : done.files.get? place ≠ before.files.get? place)
    (notReplaced : ¬resumed.ReplacesKey before.files done.files)
    (size : content.length < 2 ^ 63) :
    resumed.Certifies chance' clock' done.files content := by
  obtain ⟨later, reported⟩ := done
  obtain ⟨key, middle, obtains, ensures⟩ := bootstrap_eq_ok_iff.1 ⟨reported, performed⟩
  obtain ⟨_, text, _, keyLeads, opens⟩ := obtains.opens regular
  have there := FileSystem.get?_of_target leads
  cases ensures with
  | kept =>
    -- all that is new is directories and the key
    cases obtains.addsKey place with
    | same isSame => exact absurd isSame isPut
    | directory isFree isNew =>
      rw [isNew] at there
      cases there
    | key isFree isNew isMade keyLeads' =>
      rw [FileSystem.get?_of_target keyLeads', Option.some.injEq] at there
      exact absurd ⟨contains_eq_false_of_isFree obtains.keeps leads isFree, place, _, keyLeads',
        there ▸ leads⟩ notReplaced
  | made isNew isMade hasParents isWritten =>
    have ensures := EnsuresCertificate.made isNew isMade hasParents isWritten
    obtain ⟨found, access', -, -, -, target⟩ := FileSystem.write_eq_ok isWritten
    rw [leads, Except.ok.injEq, FileSystem.Target.node.injEq, Node.file.injEq] at target
    obtain ⟨rfl, rfl, rfl⟩ := target
    have fits : Asn1.Fits (Certificate.encode _) :=
      ((Pem.length_encode_bounds _ _).1.trans_lt size).trans (by decide)
    refine ⟨text, key, _, ?_, opens, isMade, rfl, Certificate.ofPem?_toPem_root_of_fits isMade fits,
      Certificate.publicKey?_root isMade fits⟩
    rcases ensures.read_of_target keyLeads with read | ⟨meets, -⟩
    · exact read
    · exact absurd ⟨contains_eq_false obtains.keeps isNew, meets⟩ notReplaced

/-- A bootstrap that fails has made no certificate. What it may have made is directories on the
way, and a key where there was none, which is there in full. Whatever was done in between, a
bootstrap that ends well keeps the key that is there, and a certificate that it makes is that of
the key. The one exception is a way to the certificate that leads nowhere until directories are
made on it, and then to the key: the certificate is written over the key. -/
theorem bootstrap_resumes {failure : Failure}
    (failed : (authority.bootstrap chance clock).perform site = (.error failure, stopped))
    (regular : chance.IsRegular authority.policy.keySize) :
    (∀ place, authority.AddsKey chance site.files stopped.files place) ∧
    (∀ key, chance.keyOfSize? authority.policy.keySize = some key →
      PrivateKey.openPem? authority.passphrase.octets (authority.keyText chance key) =
        some (.rsa key)) ∧
    ∀ (calls : List Call) (resumed : Authority) (chance' : Chance) (clock' : Clock) (done : Site),
      resumed.keyPath = authority.keyPath →
      (resumed.bootstrap chance' clock').perform (Call.run calls stopped) = (.ok (), done) →
      (∀ text, stopped.files.read authority.keyPath = .ok text →
        (Call.run calls stopped).files.read authority.keyPath = .ok text ∧
        (done.files.read authority.keyPath = .ok text ↔
          ¬resumed.ReplacesKey (Call.run calls stopped).files done.files)) ∧
      (chance'.IsRegular resumed.policy.keySize → ∀ place content access,
        done.files.target resumed.certificatePath = .ok (.node place (.file content access)) →
        done.files.get? place ≠ (Call.run calls stopped).files.get? place →
        ¬resumed.ReplacesKey (Call.run calls stopped).files done.files →
        content.length < 2 ^ 63 → resumed.Certifies chance' clock' done.files content) := by
  refine ⟨addsKey_of_failed failed, fun key => openPem?_keyText regular, ?_⟩
  intro calls resumed chance' clock' done sameKey performed
  refine ⟨fun text read => ?_, fun regular' place content access leads isPut notReplaced size =>
    certifies_of_performed regular' performed leads isPut notReplaced size⟩
  rw [← sameKey] at read ⊢
  have kept := read_of_performed performed (Call.read_run calls read)
  exact ⟨kept, read_done_iff performed kept⟩

private def wordyText : Bytes := wordy.keyText (.ofSmallPrime 5) ((Chance.ofSmallPrime 5).key 2206)

private def wordyFiles : FileSystem :=
  FileSystem.empty.insert [plain.keyPath] (.file wordyText .owner)

private theorem get?_wordyFiles :
    wordyFiles.get? [plain.keyPath] = some (.file wordyText .owner) :=
  FileSystem.get?_insert_self (by simp)

private theorem isFree_wordyFiles {place : Place} (isNamed : place ≠ [])
    (apart : place ≠ [plain.keyPath]) : wordyFiles.get? place = none := by
  rw [wordyFiles, FileSystem.get?_insert_of_ne apart, FileSystem.get?, if_neg isNamed]
  rfl

private theorem read_wordyFiles : wordyFiles.read plain.keyPath = .ok wordyText :=
  FileSystem.read_eq_ok_iff.2
    ⟨_, _, FileSystem.target_name_of_file isName_keyPath_plain get?_wordyFiles⟩

private theorem contains_wordyFiles : wordyFiles.contains plain.keyPath = true :=
  FileSystem.contains_iff.2
    ⟨_, _, FileSystem.target_name_of_file isName_keyPath_plain get?_wordyFiles⟩

private theorem ofPem?_wordyText : PrivateKey.ofPem? plain.passphrase.octets wordyText =
    some (.rsa ((Chance.ofSmallPrime 5).key 2206)) :=
  have regular := Chance.isSound_ofSmallPrime_five.toIsRegular
  Rsa.PrivateKey.ofPem?_toEncryptedPem (regular.key.fits (by decide)) regular.iv (by decide)

private theorem eq_of_opens_wordyText (opens : plain.Opens wordyText key) :
    key = (Chance.ofSmallPrime 5).key 2206 := by
  have short : plain.passphrase.octets.length ≤ PrivateKey.maxPassphraseLength := by decide
  have opened := ofPem?_wordyText
  rw [Opens, PrivateKey.ofPem?_eq_openPem?, List.take_of_length_le short, or_self] at opens
  rw [PrivateKey.ofPem?_eq_openPem?, List.take_of_length_le short, opens, Option.some.injEq,
    PrivateKey.rsa.injEq] at opened
  exact opened

private theorem loadKey_wordyFiles :
    plain.loadKey wordyFiles = .ok ((Chance.ofSmallPrime 5).key 2206) :=
  loadKey_eq_ok_iff.2 ⟨wordyText, read_wordyFiles, by decide, ofPem?_wordyText⟩

private theorem exists_root_wordyFiles : ∃ certificate,
    Certificate.root plain.policy (.rsa ((Chance.ofSmallPrime 5).key 2206))
      plain.policy.authorityName plain.policy.authorityDays (Chance.ofSmallPrime 7).serial
      plainClock = .ok certificate ∧ certificate.toPem.length < 2 ^ 63 := by
  have sized := Chance.isSound_ofSmallPrime_five.key
  have dates : plainClock.Dates plain.policy.authorityDays :=
    ⟨by decide +kernel, by decide +kernel⟩
  have accepted (field : SubjectField) :
      field.accepts (field.value plain.policy plain.policy.authorityName) = true :=
    accepts_default 2206 (by decide) (by decide) field
  obtain ⟨certificate, isMade⟩ :=
    Certificate.exists_root_eq_ok accepted dates sized (by decide) (Chance.ofSmallPrime 7).serial
  have short := Certificate.size_text_lt
    (Certificate.length_encode_root_le (by decide) sized (Chance.ofSmallPrime 7).serial.isLt isMade)
  rw [← Utf8.length_encode, Certificate.encode_text_toPem] at short
  exact ⟨certificate, isMade, short⟩

/-- An authority like the plain one that comes to its certificate by way of a directory. -/
def winding : Authority where
  settings := { plain.settings with
    authority := ⟨"key.pem", "new/../key.pem", ⟨"secret"⟩⟩ }
  isAccepted := by decide

/-- What the plain authority leaves when it takes up the key. -/
private def resumedFiles (certificate : Certificate) : FileSystem :=
  wordyFiles.insert [plain.certificatePath] (.file certificate.toPem .everyone)

private theorem isFree_certificatePath_wordyFiles :
    wordyFiles.get? [plain.certificatePath] = none :=
  isFree_wordyFiles (by simp) (by decide)

private theorem get?_resumedFiles (certificate : Certificate) :
    (resumedFiles certificate).get? [plain.certificatePath] =
      some (.file certificate.toPem .everyone) :=
  FileSystem.get?_insert_self (by simp)

private theorem target_resumedFiles (certificate : Certificate) :
    (resumedFiles certificate).target plain.certificatePath =
      .ok (.node [plain.certificatePath] (.file certificate.toPem .everyone)) :=
  FileSystem.target_name_of_file isName_certificatePath_plain (get?_resumedFiles certificate)

private theorem not_replacesKey_resumedFiles (certificate : Certificate) :
    ¬plain.ReplacesKey wordyFiles (resumedFiles certificate) := by
  rintro ⟨-, place, node, keyLeads, leads⟩
  have keyThere : (resumedFiles certificate).get? [plain.keyPath] = _ :=
    FileSystem.get?_insert_free isFree_certificatePath_wordyFiles get?_wordyFiles
  rw [target_resumedFiles, Except.ok.injEq, FileSystem.Target.node.injEq] at leads
  rw [FileSystem.target_name_of_file isName_keyPath_plain keyThere, Except.ok.injEq,
    FileSystem.Target.node.injEq, ← leads.1] at keyLeads
  exact absurd keyLeads.1 (by decide)

/-- What an authority leaves that comes to its certificate by way of the directory. -/
private def lostFiles (certificate : Certificate) : FileSystem :=
  (wordyFiles.insert ["new"] .directory).insert ["key.pem"] (.file certificate.toPem .owner)

private theorem read_lostFiles (certificate : Certificate) :
    (lostFiles certificate).read winding.keyPath = .ok certificate.toPem :=
  FileSystem.read_eq_ok_iff.2 ⟨_, _, FileSystem.target_name_of_file isName_keyPath_plain
    (FileSystem.get?_insert_self (by simp))⟩

section
variable {certificate : Certificate}
  (isMade : Certificate.root plain.policy (.rsa ((Chance.ofSmallPrime 5).key 2206))
    plain.policy.authorityName plain.policy.authorityDays (Chance.ofSmallPrime 7).serial
    plainClock = .ok certificate)
include isMade

private theorem exists_bootstrap_resumed (events : List Event) :
    ∃ reported, (plain.bootstrap (.ofSmallPrime 7) plainClock).perform ⟨wordyFiles, events⟩ =
      (.ok (), ⟨resumedFiles certificate, reported⟩) :=
  have isFree := isFree_certificatePath_wordyFiles
  bootstrap_eq_ok_iff.2 ⟨_, _, .reused contains_wordyFiles loadKey_wordyFiles,
    .made (FileSystem.contains_name_of_isFree isName_certificatePath_plain isFree) isMade
      (FileSystem.createParents_name isName_certificatePath_plain _)
      (FileSystem.write_name isName_certificatePath_plain isFree certificate.toPem)⟩

private theorem exists_bootstrap_lost (events : List Event) :
    ∃ reported, (winding.bootstrap (.ofSmallPrime 7) plainClock).perform ⟨wordyFiles, events⟩ =
      (.ok (), ⟨lostFiles certificate, reported⟩) :=
  bootstrap_eq_ok_iff.2 ⟨_, _, .reused contains_wordyFiles loadKey_wordyFiles,
    .of_upward isName_new isName_keyPath_plain (by decide) ⟨by decide, by decide⟩ (by decide)
      (isFree_wordyFiles (by simp) (by decide)) get?_wordyFiles isMade⟩

end

/-- The wordy authority stops with a key and no certificate. The plain authority takes up that
key and makes its certificate. An authority that comes to its certificate by way of a new
directory, and so to the key, writes the one over the other. -/
theorem bootstrap_resumes_wordy :
    ∃ stopped : Site, (wordy.bootstrap (.ofSmallPrime 5) plainClock).perform ⟨.empty, []⟩ =
        (.error (.certificate (.subject .commonName)), stopped) ∧
      (∃ (done : Site) (certificate : Certificate),
        (plain.bootstrap (.ofSmallPrime 7) plainClock).perform stopped = (.ok (), done) ∧
        done.files.read plain.keyPath = stopped.files.read plain.keyPath ∧
        plain.loadCertificate done.files = .ok certificate ∧
        certificate.publicKey? = some (.rsa ((Chance.ofSmallPrime 5).key 2206).toPublic)) ∧
      ∃ (lost : Site) (certificate : Certificate),
        (winding.bootstrap (.ofSmallPrime 7) plainClock).perform stopped = (.ok (), lost) ∧
        lost.files.read winding.keyPath = .ok certificate.toPem ∧
        winding.ReplacesKey stopped.files lost.files := by
  obtain ⟨events, failed⟩ : ∃ events, (wordy.bootstrap (.ofSmallPrime 5) plainClock).perform
      ⟨.empty, []⟩ = (.error (.certificate (.subject .commonName)), ⟨wordyFiles, events⟩) :=
    exists_bootstrap_wordy
  obtain ⟨certificate, isMade, short⟩ := exists_root_wordyFiles
  have resumes := (bootstrap_resumes failed Chance.isSound_ofSmallPrime_five.toIsRegular).2.2
  refine ⟨_, failed, ?_, ?_⟩
  · obtain ⟨reported, performed⟩ := exists_bootstrap_resumed isMade events
    have leads := target_resumedFiles certificate
    have notReplaced := not_replacesKey_resumedFiles certificate
    obtain ⟨keeps, certifies⟩ := resumes [] plain _ _ _ rfl performed
    obtain ⟨text, key, made, read, opens, -, same, isRead, publicKey⟩ := certifies
      Chance.isSound_ofSmallPrime_seven.toIsRegular _ _ _ leads
      (by simp [get?_resumedFiles, Call.run, isFree_certificatePath_wordyFiles]) notReplaced short
    have kept := (keeps wordyText read_wordyFiles).2.2 notReplaced
    obtain rfl := Except.ok.inj (read.symm.trans kept)
    obtain rfl := eq_of_opens_wordyText opens
    refine ⟨_, made, performed, kept.trans read_wordyFiles.symm, ?_, publicKey⟩
    exact loadCertificate_eq_ok_iff.2 ⟨_, FileSystem.read_eq_ok_iff.2 ⟨_, _, leads⟩, isRead⟩
  · obtain ⟨reported, performed⟩ := exists_bootstrap_lost isMade events
    have replaced := read_lostFiles certificate
    refine ⟨_, certificate, performed, replaced, ?_⟩
    by_contra notReplaced
    have kept := ((resumes [] winding _ _ _ rfl performed).1 wordyText read_wordyFiles).2.2
      notReplaced
    have isKey := ofPem?_wordyText
    rw [← Except.ok.inj (replaced.symm.trans kept), PrivateKey.ofPem?_certificate] at isKey
    cases isKey

end Authority

end VpnAuthority
