import VpnAuthority.Authority.Bootstrap
import VpnAuthority.Proofs.Authority.Loading
import VpnAuthority.Proofs.FileSystem
import VpnAuthority.Proofs.Site

/-! What a bootstrap does to the files, and what a second one finds. -/
namespace VpnAuthority.Authority

variable {authority : Authority} {chance : Chance} {clock : Clock} {site site' : Site}
  {files later : FileSystem} {key : Rsa.PrivateKey}

theorem perform_newKey_eq_ok {bits : Nat} :
    (newKey bits chance).perform site = (.ok key, site') ↔
      chance.keyOfSize? bits = some key ∧ site' = site := by
  unfold newKey
  cases chance.keyOfSize? bits with
  | none => simp
  | some made => simp [eq_comm]

theorem keepsFiles_newKey {bits : Nat} : (newKey bits chance).KeepsFiles := by
  unfold newKey
  split
  · exact Action.keepsFiles_pure _
  · exact Action.keepsFiles_throw _

theorem perform_writeFile_eq_ok {path : String}
    {write : FileSystem → Except FileFault FileSystem} {u : Unit} :
    (writeFile path write).perform site = (.ok u, site') ↔
      ∃ parents later, site.files.createParents path = (parents, .ok ()) ∧
        write parents = .ok later ∧
        site' = ⟨later, site.events ++ [.wroteFile path]⟩ := by
  unfold writeFile
  simp only [Action.perform_bind_eq_ok, Action.perform_change, Action.perform_report,
    Prod.mk.injEq, mapError_eq_ok]
  constructor
  · rintro ⟨_, _, ⟨made, rfl⟩, _, _, ⟨written, rfl⟩, -, rfl⟩
    refine ⟨(site.files.createParents path).1, ?_⟩
    dsimp only at written ⊢
    cases hw : write (site.files.createParents path).1 with
    | error fault =>
      rw [hw] at written
      cases written
    | ok later => exact ⟨later, Prod.ext rfl made, rfl, rfl⟩
  · rintro ⟨parents, later, made, written, rfl⟩
    refine ⟨(), ⟨parents, site.events⟩, ⟨by rw [made], by rw [made]⟩, (), ⟨later, site.events⟩, ?_⟩
    simp [written]

def keyText (authority : Authority) (chance : Chance) (key : Rsa.PrivateKey) : Bytes :=
  key.toEncryptedPem authority.passphrase.octets chance.iv

/-- How the key of an authority is obtained, and what the files are then: a key that is
there is loaded, and else one is made and written to a new file. -/
inductive ObtainsKey (authority : Authority) (chance : Chance) (files : FileSystem)
    (key : Rsa.PrivateKey) : FileSystem → Prop where
  | reused (isThere : files.contains authority.keyPath = true)
    (isLoaded : authority.loadKey files = .ok key) : ObtainsKey authority chance files key files
  | made {parents later : FileSystem} (isNew : files.contains authority.keyPath = false)
    (isMade : chance.keyOfSize? authority.policy.keySize = some key)
    (hasParents : files.createParents authority.keyPath = (parents, .ok ()))
    (isWritten : parents.createSecret authority.keyPath (authority.keyText chance key) =
      .ok later) : ObtainsKey authority chance files key later

theorem perform_obtainKey_of_there (authority : Authority) (chance : Chance)
    (isThere : site.files.contains authority.keyPath = true) :
    (authority.obtainKey chance).perform site =
      (authority.loadKey site.files,
        ⟨site.files, site.events ++ [Event.reusingKey authority.keyPath]⟩) := by
  unfold obtainKey
  simp only [Action.perform_bind, Action.perform_get, isThere, if_true, Action.perform_report,
    Action.perform_inspect]

theorem perform_obtainKey_of_new (authority : Authority) (chance : Chance)
    (isNew : site.files.contains authority.keyPath = false) :
    (authority.obtainKey chance).perform site =
      (do
        let key ← newKey authority.policy.keySize chance
        writeFile authority.keyPath
          (·.createSecret authority.keyPath (authority.keyText chance key))
        return key : Action Rsa.PrivateKey).perform ⟨site.files, site.events ++
          [Event.generatingKey authority.keyPath authority.policy.keySize]⟩ := by
  unfold obtainKey
  simp only [Action.perform_bind, Action.perform_get, isNew, Bool.false_eq_true, if_false,
    Action.perform_report]
  rfl

theorem obtainKey_eq_ok_iff :
    (∃ events, (authority.obtainKey chance).perform site = (.ok key, ⟨later, events⟩)) ↔
      authority.ObtainsKey chance site.files key later := by
  cases isThere : site.files.contains authority.keyPath with
  | true =>
    rw [perform_obtainKey_of_there authority chance isThere]
    constructor
    · rintro ⟨events, h⟩
      obtain ⟨isLoaded, ⟨⟩⟩ := Prod.mk.inj h
      exact .reused isThere isLoaded
    · rintro (⟨-, isLoaded⟩ | ⟨isNew⟩)
      · exact ⟨_, by rw [isLoaded]⟩
      · rw [isThere] at isNew
        cases isNew
  | false =>
    rw [perform_obtainKey_of_new authority chance isThere]
    simp only [Action.perform_bind_eq_ok, Action.perform_pure, perform_newKey_eq_ok,
      perform_writeFile_eq_ok, Prod.mk.injEq]
    constructor
    · rintro ⟨events, key, _, ⟨isMade, rfl⟩, _, _, ⟨parents, _, hp, hw, rfl⟩, ⟨⟩, ⟨⟩⟩
      exact .made isThere isMade hp hw
    · rintro (⟨isOld⟩ | ⟨-, isMade, hp, hw⟩)
      · rw [isThere] at isOld
        cases isOld
      · exact ⟨_, key, _, ⟨isMade, rfl⟩, (), _, ⟨_, _, hp, hw, rfl⟩, rfl, rfl⟩

/-- What becomes of the certificate: one that is there is kept, and else one is made and
written. -/
inductive EnsuresCertificate (authority : Authority) (key : Rsa.PrivateKey) (chance : Chance)
    (clock : Clock) (files : FileSystem) : FileSystem → Prop where
  | kept (isThere : files.contains authority.certificatePath = true) :
    EnsuresCertificate authority key chance clock files files
  | made {certificate : Certificate} {parents later : FileSystem}
    (isNew : files.contains authority.certificatePath = false)
    (isMade : Certificate.root authority.policy (.rsa key) authority.policy.authorityName
      authority.policy.authorityDays chance.serial clock = .ok certificate)
    (hasParents : files.createParents authority.certificatePath = (parents, .ok ()))
    (isWritten : parents.write authority.certificatePath certificate.toPem = .ok later) :
    EnsuresCertificate authority key chance clock files later

theorem perform_ensureCertificate_of_there (authority : Authority) (key : Rsa.PrivateKey)
    (chance : Chance) (clock : Clock)
    (isThere : site.files.contains authority.certificatePath = true) :
    (authority.ensureCertificate key chance clock).perform site = (.ok (),
      ⟨site.files, site.events ++ [Event.keepingCertificate authority.certificatePath]⟩) := by
  unfold ensureCertificate
  simp only [Action.perform_bind, Action.perform_get, isThere, if_true, Action.perform_report]

theorem perform_ensureCertificate_of_new (authority : Authority) (key : Rsa.PrivateKey)
    (chance : Chance) (clock : Clock)
    (isNew : site.files.contains authority.certificatePath = false) :
    (authority.ensureCertificate key chance clock).perform site =
      (do
        let certificate ← Action.ofExcept
          ((Certificate.root authority.policy (.rsa key) authority.policy.authorityName
            authority.policy.authorityDays chance.serial clock).mapError .certificate)
        writeFile authority.certificatePath
          (·.write authority.certificatePath certificate.toPem)).perform ⟨site.files,
            site.events ++ [Event.creatingCertificate authority.certificatePath
              authority.policy.authorityName]⟩ := by
  unfold ensureCertificate
  simp only [Action.perform_bind, Action.perform_get, isNew, Bool.false_eq_true, if_false,
    Action.perform_report]

theorem ensureCertificate_eq_ok_iff :
    (∃ events, (authority.ensureCertificate key chance clock).perform site =
        (.ok (), ⟨later, events⟩)) ↔
      authority.EnsuresCertificate key chance clock site.files later := by
  cases isThere : site.files.contains authority.certificatePath with
  | true =>
    rw [perform_ensureCertificate_of_there authority key chance clock isThere]
    constructor
    · rintro ⟨events, ⟨⟩⟩
      exact .kept isThere
    · rintro (⟨-⟩ | ⟨isNew⟩)
      · exact ⟨_, rfl⟩
      · rw [isThere] at isNew
        cases isNew
  | false =>
    rw [perform_ensureCertificate_of_new authority key chance clock isThere]
    simp only [Action.perform_bind_eq_ok, Action.perform_ofExcept, perform_writeFile_eq_ok,
      Prod.mk.injEq, mapError_eq_ok]
    constructor
    · rintro ⟨events, certificate, _, ⟨isMade, rfl⟩, parents, _, hp, hw, ⟨⟩⟩
      exact .made isThere isMade hp hw
    · rintro (⟨isOld⟩ | ⟨-, isMade, hp, hw⟩)
      · rw [isThere] at isOld
        cases isOld
      · exact ⟨_, _, _, ⟨isMade, rfl⟩, _, _, hp, hw, rfl⟩

theorem perform_bootstrap_of_ok {middle : Site}
    (h : (authority.obtainKey chance).perform site = (.ok key, middle)) :
    (authority.bootstrap chance clock).perform site =
      (authority.ensureCertificate key chance clock).perform middle := by
  rw [bootstrap, Action.perform_bind, h]

theorem perform_bootstrap_of_error {failure : Failure} {stopped : Site}
    (h : (authority.obtainKey chance).perform site = (.error failure, stopped)) :
    (authority.bootstrap chance clock).perform site = (.error failure, stopped) := by
  rw [bootstrap, Action.perform_bind, h]

theorem bootstrap_eq_ok_iff :
    (∃ events, (authority.bootstrap chance clock).perform site = (.ok (), ⟨later, events⟩)) ↔
      ∃ key middle, authority.ObtainsKey chance site.files key middle ∧
        authority.EnsuresCertificate key chance clock middle later := by
  simp only [bootstrap, Action.perform_bind_eq_ok]
  constructor
  · rintro ⟨events, key, ⟨middle, reported⟩, first, second⟩
    exact ⟨key, middle, obtainKey_eq_ok_iff.1 ⟨_, first⟩, ensureCertificate_eq_ok_iff.1 ⟨_, second⟩⟩
  · rintro ⟨key, middle, first, second⟩
    obtain ⟨reported, first⟩ := obtainKey_eq_ok_iff.2 first
    obtain ⟨events, second⟩ : ∃ events, (authority.ensureCertificate key chance clock).perform
        ⟨middle, reported⟩ = (.ok (), ⟨later, events⟩) :=
      ensureCertificate_eq_ok_iff.2 second
    exact ⟨events, key, ⟨middle, reported⟩, first, second⟩

namespace ObtainsKey

variable (h : authority.ObtainsKey chance files key later)
include h

theorem keeps : files.Keeps later := by
  cases h with
  | reused => exact .refl files
  | made isNew isMade hp hw =>
    obtain ⟨found, isNamed, isFree, rfl, -⟩ := FileSystem.createSecret_eq_ok hw
    have := FileSystem.createParents_addsDirectories files authority.keyPath
    rw [hp] at this
    exact this.keeps.trans (FileSystem.keeps_insert isNamed (by simp [isFree]))

theorem exists_target : ∃ found text access,
    later.target authority.keyPath = .ok (.node found (.file text access)) ∧
      (files.contains authority.keyPath = true ∧ files.read authority.keyPath = .ok text ∧
          authority.loadKey files = .ok key ∨
        files.contains authority.keyPath = false ∧ text = authority.keyText chance key ∧
          chance.keyOfSize? authority.policy.keySize = some key) := by
  cases h with
  | reused isThere isLoaded =>
    obtain ⟨text, hr, -⟩ := loadKey_eq_ok_iff.1 isLoaded
    obtain ⟨found, access, ht⟩ := FileSystem.read_eq_ok_iff.1 hr
    exact ⟨found, text, access, ht, .inl ⟨isThere, hr, isLoaded⟩⟩
  | made isNew isMade hp hw =>
    obtain ⟨found, -, -, -, ht⟩ := FileSystem.createSecret_eq_ok hw
    exact ⟨found, _, _, ht, .inr ⟨isNew, rfl, isMade⟩⟩

theorem eq_of_isFree {place : Place} {node : Node} (isFree : files.get? place = none)
    (there : later.get? place = some node) :
    node = .directory ∨ node = .file (authority.keyText chance key) .owner := by
  cases h with
  | reused =>
    rw [isFree] at there
    cases there
  | made isNew isMade hp hw =>
    obtain ⟨found, -, -, rfl, -⟩ := FileSystem.createSecret_eq_ok hw
    have top : place ≠ [] := by
      rintro rfl
      cases isFree
    rw [FileSystem.get?_insert _ _ _ _ top] at there
    split at there
    · cases there
      exact .inr rfl
    · have added := FileSystem.createParents_addsDirectories files authority.keyPath place
      rw [hp] at added
      rcases added with same | ⟨-, isDirectory⟩
      · rw [same, isFree] at there
        cases there
      · rw [isDirectory] at there
        cases there
        exact .inl rfl

end ObtainsKey

namespace EnsuresCertificate

variable (h : authority.EnsuresCertificate key chance clock files later)
include h

theorem keeps : files.Keeps later := by
  cases h with
  | kept => exact .refl files
  | made isNew isMade hp hw =>
    obtain ⟨found, access, isNamed, becomes, rfl, -⟩ := FileSystem.write_eq_ok hw
    have := FileSystem.createParents_addsDirectories files authority.certificatePath
    rw [hp] at this
    exact this.keeps.trans (FileSystem.keeps_insert isNamed becomes)

theorem contains : later.contains authority.certificatePath = true := by
  cases h with
  | kept isThere => exact isThere
  | made isNew isMade hp hw =>
    obtain ⟨found, access, -, -, -, ht⟩ := FileSystem.write_eq_ok hw
    exact FileSystem.contains_iff.2 ⟨_, _, ht⟩

theorem read_of_target {path : String} {found : Place} {text : Bytes} {access : Access}
    (ht : files.target path = .ok (.node found (.file text access))) :
    later.read path = .ok text ∨
      later.Meets path authority.certificatePath ∧
        ∃ certificate : Certificate, later.read path = .ok certificate.toPem := by
  obtain ⟨node, ht', -⟩ := h.keeps.target ht
  have there := FileSystem.get?_of_target ht
  have there' := FileSystem.get?_of_target ht'
  cases h with
  | kept =>
    rw [there] at there'
    cases there'
    exact .inl (FileSystem.read_eq_ok_iff.2 ⟨_, _, ht⟩)
  | @made certificate parents _ isNew isMade hp hw =>
    obtain ⟨place, access', isNamed, -, rfl, leads⟩ := FileSystem.write_eq_ok hw
    have isNamed' : found ≠ [] := by
      rintro rfl
      cases there
    have added := FileSystem.createParents_addsDirectories files authority.certificatePath
    rw [hp] at added
    rw [FileSystem.get?_insert _ _ _ _ isNamed', added.get? there] at there'
    split at there'
    · next same =>
      subst same
      cases there'
      exact .inr ⟨⟨_, _, ht', leads⟩, certificate, FileSystem.read_eq_ok_iff.2 ⟨_, _, ht'⟩⟩
    · cases there'
      exact .inl (FileSystem.read_eq_ok_iff.2 ⟨_, _, ht'⟩)

end EnsuresCertificate

end VpnAuthority.Authority
