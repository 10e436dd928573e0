import VpnAuthority.Proofs.Authority.Publication
import VpnAuthority.Proofs.Authority.Upkeep
import VpnAuthority.Proofs.FileSystem.Footprint

/-! What an authority publishes is made without its key: neither the key file nor the passphrase
has a say in it. -/
namespace VpnAuthority.Authority

variable {authority other : Authority} {files later : FileSystem} {place : Place}

def Publishes (authority : Authority) (path : String) : Prop :=
  path = authority.certificatePath ∨ path = authority.settings.templates.client ∨
    path = authority.settings.templates.server

/-- A place that is not looked at for anything that is published. -/
def IsAside (authority : Authority) (files : FileSystem) (place : Place) : Prop :=
  ∀ path, authority.Publishes path → place ∉ files.footprintOf path

/-- In a tree without links, where the paths lead downwards, such are all places but those on the
way of one of the paths. -/
theorem isAside_of_downward (noLink : ∀ place target, files.get? place ≠ some (.link target))
    (downward : ∀ path, authority.Publishes path → ".." ∉ Path.steps path)
    (apart : ∀ path, authority.Publishes path → ¬place <+: FileSystem.named (Path.steps path)) :
    authority.IsAside files place :=
  fun path publishes seen => apart path publishes
    (FileSystem.prefix_of_mem_footprintOf noLink (downward path publishes) seen)

theorem publication_of_error {failure : Failure}
    (unloaded : authority.loadCertificate files = .error failure) :
    authority.certificatePem files = .error failure ∧
    (∀ parameters, authority.clientConfiguration files parameters = .error failure) ∧
    ∀ parameters, authority.serverConfiguration files parameters = .error failure := by
  have pem : authority.certificatePem files = .error failure := by
    rw [certificatePem, unloaded]
    rfl
  refine ⟨pem, fun parameters => ?_, fun parameters => ?_⟩
  · rw [clientConfiguration, pem]
    rfl
  · rw [serverConfiguration, pem]
    rfl

section
variable (sameCertificate : other.certificatePath = authority.certificatePath)
  (sameTemplates : other.settings.templates = authority.settings.templates)
  (agree : ∀ seen, seen ≠ place → later.get? seen = files.get? seen)
  (aside : authority.IsAside files place)
include agree aside

private theorem agree_of_publishes {path : String} (publishes : authority.Publishes path) :
    ∀ seen ∈ files.footprintOf path, later.get? seen = files.get? seen := by
  intro seen isSeen
  refine agree seen ?_
  rintro rfl
  exact aside path publishes isSeen

include sameCertificate in
theorem loadCertificate_congr : other.loadCertificate later = authority.loadCertificate files := by
  have same := FileSystem.read_congr (agree_of_publishes agree aside (.inl rfl))
  rw [loadCertificate, loadCertificate, readMaterial, readMaterial, sameCertificate, same]

theorem readTemplate_congr {path : String} (publishes : authority.Publishes path) :
    readTemplate later path = readTemplate files path := by
  rw [readTemplate, readTemplate,
    FileSystem.readText_congr (agree_of_publishes agree aside publishes)]

include sameCertificate sameTemplates in
/-- What an authority publishes is the same whatever its passphrase is, and whatever is at a place
that is not looked at for it, such as that of the key: whether there is a key, and which. It is
the template with the certificate, written anew, filled in. If the certificate cannot be loaded,
that is reported, else if the template cannot be read, that, and else what is wrong with the
template. -/
theorem publication_keyless :
    (other.certificatePem later = authority.certificatePem files ∧
      (∀ parameters, other.clientConfiguration later parameters =
        authority.clientConfiguration files parameters) ∧
      ∀ parameters, other.serverConfiguration later parameters =
        authority.serverConfiguration files parameters) ∧
    (∀ failure, authority.loadCertificate files = .error failure →
      authority.certificatePem files = .error failure ∧
      (∀ parameters, authority.clientConfiguration files parameters = .error failure) ∧
      ∀ parameters, authority.serverConfiguration files parameters = .error failure) ∧
    ∀ certificate, authority.loadCertificate files = .ok certificate →
      authority.certificatePem files = .ok (Pem.text certificate.toPem) ∧
      (∀ parameters, authority.clientConfiguration files parameters =
        match files.readText authority.settings.templates.client with
        | .error fault => .error (.file authority.settings.templates.client fault)
        | .ok template => renderClient template (Pem.text certificate.toPem) parameters) ∧
      ∀ parameters, authority.serverConfiguration files parameters =
        match files.readText authority.settings.templates.server with
        | .error fault => .error (.file authority.settings.templates.server fault)
        | .ok template => renderServer template (Pem.text certificate.toPem) parameters := by
  have loaded := loadCertificate_congr sameCertificate agree aside
  have pem : other.certificatePem later = authority.certificatePem files := by
    rw [certificatePem, certificatePem, loaded]
  refine ⟨⟨pem, fun parameters => ?_, fun parameters => ?_⟩, fun failure => publication_of_error,
    fun certificate isLoaded => ⟨?_, fun parameters => ?_, fun parameters => ?_⟩⟩
  · rw [clientConfiguration, clientConfiguration, pem, sameTemplates,
      readTemplate_congr agree aside (.inr (.inl rfl))]
  · rw [serverConfiguration, serverConfiguration, pem, sameTemplates,
      readTemplate_congr agree aside (.inr (.inr rfl))]
  · exact certificatePem_eq_ok_iff.2 ⟨certificate, isLoaded, rfl⟩
  · rw [(configurations_eq isLoaded).1, readTemplate]
    cases files.readText authority.settings.templates.client <;> rfl
  · rw [(configurations_eq isLoaded).2, readTemplate]
    cases files.readText authority.settings.templates.server <;> rfl

end

def forgetful : Authority where
  settings := { plain.settings with
    authority := { plain.settings.authority with passphrase := ⟨"forgotten"⟩ } }
  isAccepted := rfl

theorem publication_keyless_plain :
    ∃ (site : Site) (certificate : Certificate),
      (plain.bootstrap (.ofSmallPrime 5) plainClock).perform ⟨.empty, []⟩ = (.ok (), site) ∧
      forgetful.certificatePem (site.files.erase [plain.keyPath]) =
        .ok (Pem.text certificate.toPem) ∧
      ∀ parameters, forgetful.clientConfiguration (site.files.erase [plain.keyPath]) parameters =
        plain.clientConfiguration site.files parameters := by
  obtain ⟨certificate, reported, performed, loaded, -⟩ :=
    exists_bootstrap_plain Chance.isSound_ofSmallPrime_five.toIsRegular
  have tree := Leaves.isTree FileSystem.isTree_empty (leaves_of_performed performed)
  have aside : plain.IsAside (plain.newFiles (.ofSmallPrime 5) certificate .empty)
      [plain.keyPath] := by
    refine isAside_of_downward tree.noLink ?_ ?_ <;> rintro path (rfl | rfl | rfl) <;> decide
  have agree (seen : Place) (apart : seen ≠ [plain.keyPath]) :
      ((plain.newFiles (.ofSmallPrime 5) certificate .empty).erase [plain.keyPath]).get? seen =
        (plain.newFiles (.ofSmallPrime 5) certificate .empty).get? seen := by
    by_cases top : seen = []
    · rw [top]
      rfl
    · rw [FileSystem.get?_erase _ _ _ top, if_neg apart]
  have sameCertificate : forgetful.certificatePath = plain.certificatePath := rfl
  obtain ⟨⟨pem, client, -⟩, -, published⟩ :=
    publication_keyless sameCertificate rfl agree aside
  refine ⟨_, certificate, performed, ?_, client⟩
  exact pem.trans (published certificate (loadMaterial_eq_ok_iff.1 loaded).1).1

/-- An authority whose certificate would lie below its key. -/
def nested : Authority where
  settings := { plain.settings with
    authority := ⟨"ca", "ca/certificate.pem", ⟨"secret"⟩⟩ }
  isAccepted := rfl

/-- Where the way to the certificate leads through the place of the key, it is reported in another
way that there is no certificate if there is a key. -/
theorem not_keyless_nested :
    (nested.keyPath ≠ nested.certificatePath ∧
      nested.keyPath ≠ nested.settings.templates.client ∧
      nested.keyPath ≠ nested.settings.templates.server) ∧
    (∀ seen, seen ≠ [nested.keyPath] →
      (FileSystem.empty.insert [nested.keyPath] (.file [] .owner)).get? seen =
        FileSystem.empty.get? seen) ∧
    nested.certificatePem .empty =
      .error (.unavailable nested.certificatePath .fileNotFound) ∧
    nested.certificatePem (FileSystem.empty.insert [nested.keyPath] (.file [] .owner)) =
      .error (.unavailable nested.certificatePath .unreadable) := by
  have isName : Path.IsName "ca" := ⟨by decide, by decide, by decide, by decide⟩
  have target (files : FileSystem) : files.target nested.certificatePath =
      files.walk true Path.maxLinks [] ["ca", "certificate.pem"] :=
    FileSystem.target_of_checked (by decide)
  have unread {files : FileSystem} {reason : Unavailable}
      (h : readMaterial files nested.certificatePath =
        .error (.unavailable nested.certificatePath reason)) :
      nested.certificatePem files = .error (.unavailable nested.certificatePath reason) :=
    (publication_of_error (by rw [loadCertificate, h]; rfl)).1
  refine ⟨by decide, fun seen apart => FileSystem.get?_insert_of_ne apart, unread ?_, unread ?_⟩
  · have missing : FileSystem.empty.walk true Path.maxLinks [] ["ca", "certificate.pem"] =
        .error .notFound :=
      FileSystem.walk_name_of_isFree isName rfl
    rw [readMaterial, FileSystem.read, target, missing]
  · have there : (FileSystem.empty.insert [nested.keyPath] (.file [] .owner)).get?
        ([] ++ ["ca"]) = some (.file [] .owner) :=
      FileSystem.get?_insert_self (by simp)
    have beyond : (FileSystem.empty.insert [nested.keyPath] (.file [] .owner)).walk true
        Path.maxLinks [] ["ca", "certificate.pem"] = .error .notADirectory := by
      rw [FileSystem.walk, if_neg (by decide), if_neg (by decide), if_neg (by decide), there]
      rfl
    rw [readMaterial, FileSystem.read, target, beyond]

end VpnAuthority.Authority
