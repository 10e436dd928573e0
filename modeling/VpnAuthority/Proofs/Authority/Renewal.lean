import VpnAuthority.Proofs.Authority.Operations
import VpnAuthority.Proofs.Authority.Upkeep
import VpnAuthority.Proofs.FileSystem.Removal

/-! An authority whose certificate alone is taken away, and made again. The key stays what it
was, and the new certificate is as good as the old one for all that was issued before. -/
namespace VpnAuthority.Authority

variable {authority renewed : Authority} {chance chance' : Chance} {clock clock' : Clock}
  {files without : FileSystem} {key : Rsa.PrivateKey} {site first second : Site}
  {calls : List Call} {events : List Event}

/-- The same files, passphrase and names. The size of new keys and the periods of validity may
be others. -/
structure IsRenewalOf (renewed authority : Authority) : Prop where
  files : renewed.settings.authority = authority.settings.authority
  policy : renewed.policy = { authority.policy with
    keySize := renewed.policy.keySize
    authorityDays := renewed.policy.authorityDays
    leafDays := renewed.policy.leafDays }

namespace IsRenewalOf

variable (renewal : renewed.IsRenewalOf authority)
include renewal

theorem keyPath : renewed.keyPath = authority.keyPath :=
  congrArg AuthorityFiles.keyPath renewal.files

theorem certificatePath : renewed.certificatePath = authority.certificatePath :=
  congrArg AuthorityFiles.certificatePath renewal.files

theorem loadKey (files : FileSystem) : renewed.loadKey files = authority.loadKey files := by
  have passphrase : renewed.passphrase = authority.passphrase :=
    congrArg AuthorityFiles.passphrase renewal.files
  rw [Authority.loadKey, Authority.loadKey, loadKeyBy, loadKeyBy, renewal.keyPath, passphrase]

theorem authorityName : renewed.policy.authorityName = authority.policy.authorityName := by
  rw [renewal.policy]
  rfl

theorem subjectSets (commonName : String) :
    DistinguishedName.subjectSets renewed.policy commonName =
      DistinguishedName.subjectSets authority.policy commonName := by
  rw [renewal.policy]
  rfl

end IsRenewalOf

private theorem IsRenewalOf.root_eq (renewal : renewed.IsRenewalOf authority)
    {days days' serial serial' : Nat} {old new : Certificate}
    (made : Certificate.root authority.policy (.rsa key) authority.policy.authorityName days serial
      clock = .ok old)
    (made' : Certificate.root renewed.policy (.rsa key) renewed.policy.authorityName days' serial'
      clock' = .ok new) :
    new.body.subject = old.body.subject ∧ new.body.key = old.body.key ∧
      old.subjectKey = .present key.toPublic.toInfo.keyId ∧
      new.subjectKey = .present key.toPublic.toInfo.keyId := by
  obtain ⟨-, _, _, -, -, isOld⟩ := Certificate.root_eq_ok_iff.1 made
  obtain ⟨-, _, _, -, -, isNew⟩ := Certificate.root_eq_ok_iff.1 made'
  refine ⟨?_, ?_, Certificate.subjectKey_root (by rw [isOld]; rfl),
    Certificate.subjectKey_root (by rw [isNew]; rfl)⟩
  · rw [isOld, isNew, renewal.authorityName]
    exact congrArg DistinguishedName.ofSets (renewal.subjectSets _)
  · rw [isOld, isNew]
    rfl

private theorem exists_root_of_removed {keyPlace certificatePlace : Place} {node : Node}
    {text : Bytes} {access : Access}
    (keyTarget : files.target authority.keyPath = .ok (.node keyPlace node))
    (certificateTarget : files.target authority.certificatePath =
      .ok (.node certificatePlace (.file text access)))
    (apart : keyPlace ≠ certificatePlace)
    (isRemoved : files.remove authority.certificatePath = .ok without)
    (renewed : (authority.bootstrap chance clock).perform ⟨without, events⟩ = (.ok (), second)) :
    ∃ key certificate, authority.loadKey without = .ok key ∧
      Certificate.root authority.policy (.rsa key) authority.policy.authorityName
        authority.policy.authorityDays chance.serial clock = .ok certificate ∧
      without.target authority.keyPath = .ok (.node keyPlace node) ∧
      second.files.target authority.keyPath = .ok (.node keyPlace node) ∧
      second.files.read authority.certificatePath = .ok certificate.toPem := by
  have keyTarget' := FileSystem.target_of_remove_of_ne certificateTarget isRemoved apart keyTarget
  obtain ⟨gone, isFree⟩ := FileSystem.exists_free_of_remove certificateTarget isRemoved
  obtain ⟨key, middle, obtains, ensures⟩ := bootstrap_eq_ok_iff.1 ⟨second.events, renewed⟩
  cases obtains with
  | made isNew =>
    rw [FileSystem.contains_iff.2 ⟨keyPlace, node, keyTarget'⟩] at isNew
    cases isNew
  | reused isThere isLoaded =>
    cases ensures with
    | kept isThere =>
      rw [FileSystem.contains, isFree] at isThere
      cases isThere
    | made isNew isMade hasParents isWritten =>
      obtain ⟨leads, stays⟩ := FileSystem.write_of_free isFree hasParents isWritten
      exact ⟨key, _, isLoaded, isMade, keyTarget', stays _ _ _ keyTarget',
        FileSystem.read_eq_ok_iff.2 ⟨_, _, leads⟩⟩

/-- When the certificate of a new authority is taken away, whatever the authority was used for
in between, a bootstrap makes another one for the key, which stays as it is. The two
certificates have their subject, their key and its identifier in common. All that was issued
before is trusted because of the new one as well, as long as both are valid. -/
theorem verifyIssuedBy_of_renewal
    (sound : chance.IsSound authority.policy.keySize) (unlike : authority.OpensNoOther chance)
    (isKeyNew : site.files.contains authority.keyPath = false)
    (isCertificateNew : site.files.contains authority.certificatePath = false)
    (bootstrapped : (authority.bootstrap chance clock).perform site = (.ok (), first))
    (places : authority.HasOwnPlaces site.files first.files)
    (noBootstrap : ∀ call ∈ calls, call.operation ≠ .bootstrap)
    (isRemoved : (Call.run calls first).files.remove authority.certificatePath = .ok without)
    (renewal : renewed.IsRenewalOf authority)
    (again : (renewed.bootstrap chance' clock').perform ⟨without, events⟩ = (.ok (), second)) :
    ∃ text old new,
      first.files.read authority.keyPath = .ok text ∧
      without.read authority.keyPath = .ok text ∧
      second.files.read authority.keyPath = .ok text ∧
      authority.loadCertificate first.files = .ok old ∧
      renewed.loadCertificate second.files = .ok new ∧
      new.body.subject = old.body.subject ∧ new.body.key = old.body.key ∧
      new.publicKey? = old.publicKey? ∧
      old.subjectKey = .present (chance.keyId authority.policy.keySize) ∧
      new.subjectKey = .present (chance.keyId authority.policy.keySize) ∧
      ∀ done endpoint chance'' clock'' rest credential issuing,
        calls = done ++ ⟨authority, .issue endpoint, chance'', clock''⟩ :: rest →
        (authority.issueFor endpoint chance'' clock'').perform (Call.run done first) =
          (.ok credential, issuing) →
        chance''.IsSound authority.policy.keySize →
        chance.keyId authority.policy.keySize ≠ chance''.keyId authority.policy.keySize →
          ∃ leaf, Certificate.ofPem? (Utf8.encode credential.certificatePem) = some leaf ∧
            ∀ now, verifyIssuedBy leaf new now = .ok (decide
              (clock'.Covers renewed.policy.authorityDays now ∧
                clock''.Covers authority.policy.leafDays now)) := by
  obtain ⟨isKeyThere, isCertificateThere⟩ := contains_of_performed bootstrapped
  have holds : authority.Holds chance clock first.files :=
    places.holds_of_new (leaves_of_performed bootstrapped) sound unlike isKeyNew isCertificateNew
      (.inl isKeyThere)
  obtain ⟨old, loadedOld, -, own, material⟩ := holds.material isCertificateThere
  have keyRead := holds.key isKeyThere
  obtain ⟨certificate, -, certificateRead⟩ := holds.certificate isCertificateThere
  obtain ⟨keyPlace, keyAccess, keyTarget⟩ := FileSystem.read_eq_ok_iff.1 keyRead
  obtain ⟨place, access, certificateTarget⟩ := FileSystem.read_eq_ok_iff.1 certificateRead
  have apart : keyPlace ≠ place := by
    rintro rfl
    exact places.apart _ _ _ keyTarget certificateTarget
  rw [Call.files_run noBootstrap] at isRemoved
  obtain ⟨key, new, loadedKey, isMade, keyTarget', keyTarget'', newRead⟩ :=
    exists_root_of_removed (by rwa [renewal.keyPath]) (by rwa [renewal.certificatePath]) apart
      (by rwa [renewal.certificatePath]) again
  rw [renewal.keyPath] at keyTarget' keyTarget''
  rw [renewal.loadKey] at loadedKey
  have keyRead' := FileSystem.read_eq_ok_iff.2 ⟨keyPlace, keyAccess, keyTarget'⟩
  obtain rfl := loadKey_eq_of_read sound.toIsRegular own.isSize unlike keyRead' loadedKey
  obtain ⟨named, keyed, oldId, newId⟩ := renewal.root_eq own.certificate isMade
  refine ⟨_, old, new, keyRead, keyRead', FileSystem.read_eq_ok_iff.2 ⟨_, _, keyTarget''⟩,
    loadedOld, ?_, named, keyed, ?_, oldId, newId, ?_⟩
  · exact loadCertificate_eq_ok_iff.2 ⟨_, newRead,
      Certificate.ofPem?_toPem_root own.isSize sound.key chance'.serial.isLt isMade⟩
  · rw [Certificate.publicKey?, Certificate.publicKey?, keyed]
  · rintro done endpoint chance'' clock'' rest credential issuing rfl issued sound'' differs
    obtain ⟨made⟩ := nonempty_issued issued
    have before : ∀ call ∈ done, call.operation ≠ .bootstrap := fun call isMember =>
      noBootstrap call (List.mem_append_left _ isMember)
    have same := material made.material (by
      rw [← Call.files_run before]
      exact made.isLoaded)
    have own' : authority.IsOwn chance clock made.material := by
      rw [same]
      exact own
    obtain ⟨read, trusted⟩ := made.verifyIssuedBy_root own' isMade
      (by rw [same, named]; exact DistinguishedName.same_self _) sound sound'' differs
    exact ⟨made.certificate, read, trusted⟩

def lasting : Authority where
  settings := { plain.settings with
    policy := { Policy.default with keySize := 2210, authorityDays := 7300, leafDays := 1825 } }
  isAccepted := rfl

theorem isRenewalOf_lasting : lasting.IsRenewalOf plain := ⟨rfl, rfl⟩

private theorem loadKey_erase_plain {ca : Certificate} (loaded : plain.loadMaterial
      (plain.newFiles chance ca .empty) = .ok ⟨chance.key 2206, ca⟩) :
    plain.loadKey ((plain.newFiles chance ca .empty).erase [plain.certificatePath]) =
      .ok (chance.key 2206) := by
  have keyThere : (plain.newFiles chance ca .empty).get? [plain.keyPath] =
      some (.file (plain.keyText chance (chance.key 2206)) .owner) :=
    get?_keyPath_newFiles (by decide)
  obtain ⟨text, read, isKey⟩ := loadKey_eq_ok_iff.1 (loadMaterial_eq_ok_iff.1 loaded).2
  rw [read_keyPath_newFiles isName_keyPath_plain (by decide), Except.ok.injEq] at read
  rw [← read] at isKey
  have keyTarget := FileSystem.target_name_of_file isName_keyPath_plain
    (FileSystem.get?_erase_of_ne (by decide : _ ≠ [plain.certificatePath]) keyThere)
  exact loadKey_eq_ok_iff.2 ⟨_, FileSystem.read_eq_ok_iff.2 ⟨_, _, keyTarget⟩, isKey⟩

theorem verifyIssuedBy_of_renewal_plain :
    ∃ (first issuing second : Site) (without : FileSystem) (credential : Credential)
        (leaf new : Certificate),
      (plain.bootstrap (.ofSmallPrime 5) plainClock).perform ⟨.empty, []⟩ = (.ok (), first) ∧
      (plain.issueFor (.client ⟨"office", .user "alice@example.org"⟩) (.ofSmallPrime 7)
        plainClock).perform first = (.ok credential, issuing) ∧
      issuing.files.remove plain.certificatePath = .ok without ∧
      (lasting.bootstrap (.ofSmallPrime 7) plainClock).perform ⟨without, []⟩ = (.ok (), second) ∧
      lasting.loadCertificate second.files = .ok new ∧
      Certificate.ofPem? (Utf8.encode credential.certificatePem) = some leaf ∧
      verifyIssuedBy leaf new plainClock.second = .ok true := by
  have sound : (Chance.ofSmallPrime 5).IsSound plain.policy.keySize :=
    Chance.isSound_ofSmallPrime_five
  have sound' : (Chance.ofSmallPrime 7).IsSound plain.policy.keySize :=
    Chance.isSound_ofSmallPrime_seven
  have isKeyNew : FileSystem.empty.contains plain.keyPath = false :=
    FileSystem.contains_name_of_isFree isName_keyPath_plain rfl
  have isCertificateNew : FileSystem.empty.contains plain.certificatePath = false :=
    FileSystem.contains_name_of_isFree isName_certificatePath_plain rfl
  obtain ⟨ca, reported, performed, loaded, own⟩ := exists_bootstrap_plain sound.toIsRegular
  have places := isApart_plain.hasOwnPlaces FileSystem.isTree_empty (leaves_of_performed performed)
  obtain ⟨credential, events, issued, -⟩ := exists_issueFor_plain
    (.client ⟨"office", .user "alice@example.org"⟩) reported dates_plainClock sound.toIsRegular
    sound'.toIsRegular loaded own (by decide) (by decide)
  have isRemoved : (plain.newFiles (.ofSmallPrime 5) ca .empty).remove plain.certificatePath =
      .ok ((plain.newFiles (.ofSmallPrime 5) ca .empty).erase [plain.certificatePath]) :=
    FileSystem.remove_name isName_certificatePath_plain get?_certificatePath_newFiles
  have isFree : ((plain.newFiles (.ofSmallPrime 5) ca .empty).erase [plain.certificatePath]).get?
      [plain.certificatePath] = none := by
    rw [FileSystem.get?_erase _ _ _ (by simp), if_pos rfl]
  obtain ⟨second, _, again, -⟩ := exists_bootstrap_of_loadKey
    ((isRenewalOf_lasting.loadKey _).trans (loadKey_erase_plain loaded)) sound.key (by decide)
    (accepts_default 2206 (by decide) (by decide))
    (⟨by decide +kernel, by decide +kernel⟩ : plainClock.Dates lasting.policy.authorityDays)
    (FileSystem.contains_name_of_isFree isName_certificatePath_plain isFree)
    (FileSystem.createParents_name isName_certificatePath_plain _)
    (fun content => ⟨_, FileSystem.write_name isName_certificatePath_plain isFree content⟩)
    (.ofSmallPrime 7) []
  have noBootstrap : ∀ call ∈ [(⟨plain, .issue (.client ⟨"office", .user "alice@example.org"⟩),
      .ofSmallPrime 7, plainClock⟩ : Call)], call.operation ≠ .bootstrap := by simp
  obtain ⟨text, old, new, -, -, -, -, loadedNew, -, -, -, -, -, trusted⟩ :=
    verifyIssuedBy_of_renewal sound (fun long => absurd long (by decide)) isKeyNew isCertificateNew
      performed places noBootstrap (by rw [Call.files_run noBootstrap, isRemoved])
      isRenewalOf_lasting again
  obtain ⟨leaf, isLeaf, verified⟩ :=
    trusted [] _ _ _ [] _ _ rfl issued sound' Chance.keyId_ofSmallPrime_ne
  refine ⟨_, _, second, _, credential, leaf, new, performed, issued, isRemoved, again, loadedNew,
    isLeaf, ?_⟩
  rw [verified, decide_eq_true]
  exact ⟨by decide, by decide⟩

private theorem exists_bootstrap_neighbour_again (regular : chance.IsRegular 2210)
    (isDirectory : files.get? ["new"] = some .directory)
    (keyThere : files.get? ["new", "key.pem"] =
      some (.file (neighbour.keyText chance (chance.key 2210)) .owner))
    (isFree : files.get? ["certificate.pem"] = none) (chance' : Chance) (events : List Event) :
    ∃ (second : Site) (new : Certificate),
      (neighbour.bootstrap chance' plainClock).perform ⟨files, events⟩ = (.ok (), second) ∧
      neighbour.loadCertificate second.files = .ok new ∧
      Certificate.root neighbour.policy (.rsa (chance.key 2210)) neighbour.policy.authorityName
        neighbour.policy.authorityDays chance'.serial plainClock = .ok new := by
  have keyTarget := target_keyPath_neighbour_of_file isDirectory keyThere
  have loadedKey : neighbour.loadKey files = .ok (chance.key 2210) :=
    loadKey_eq_ok_iff.2 ⟨_, FileSystem.read_eq_ok_iff.2 ⟨_, _, keyTarget⟩, by decide,
      Rsa.PrivateKey.ofPem?_toEncryptedPem (regular.key.fits (by decide)) regular.iv (by decide)⟩
  have target : files.target neighbour.certificatePath = .ok (.free ["certificate.pem"]) := by
    rw [FileSystem.target, locate_certificatePath_neighbour isDirectory]
    exact FileSystem.walk_name_of_isFree isName_certificatePath_plain isFree
  have isNew : files.contains neighbour.certificatePath = false := by
    rw [FileSystem.contains, target]
  exact exists_bootstrap_of_loadKey loadedKey regular.key (by decide)
    (accepts_default 2210 (by decide) (by decide)) ⟨by decide +kernel, by decide +kernel⟩ isNew
    (FileSystem.ensureAll_up_of_directory isName_new (by decide) isDirectory)
    (fun content => ⟨_, FileSystem.write_free target content⟩) chance' events

/-- An authority whose two paths lead to one place, once the directory is there. -/
def twin : Authority where
  settings := { plain.settings with authority := ⟨"new/../key.pem", "key.pem", ⟨"secret"⟩⟩ }
  isAccepted := rfl

private theorem locate_keyPath_twin (isDirectory : files.get? ["new"] = some .directory)
    (followLast : Bool) : files.locate followLast (Path.steps twin.keyPath) =
      files.walk followLast Path.maxLinks [] ["key.pem"] := by
  have steps : Path.steps twin.keyPath = ["new", "..", "key.pem"] := by decide
  rw [steps]
  exact FileSystem.locate_up isName_new isDirectory (by decide) followLast

private theorem locate_keyPath_twin_of_isFree (isDirectory : files.get? ["new"] = some .directory)
    (isFree : files.get? ["key.pem"] = none) (followLast : Bool) :
    files.locate followLast (Path.steps twin.keyPath) = .ok (.free ["key.pem"]) := by
  rw [locate_keyPath_twin isDirectory]
  exact FileSystem.walk_name_of_isFree isName_keyPath_plain isFree

private theorem createParents_twin (isKeyFree : files.get? ["key.pem"] = none)
    (isDirectory : files.get? ["new"] = none ∨ files.get? ["new"] = some .directory) :
    files.contains twin.keyPath = false ∧ ∃ parents,
      files.createParents twin.keyPath = (parents, .ok ()) ∧
      parents.get? ["new"] = some .directory ∧ parents.get? ["key.pem"] = none := by
  rcases isDirectory with isFree | there
  · refine ⟨?_, _, FileSystem.ensureAll_up_of_isFree isName_new (by decide) isFree,
      FileSystem.get?_insert_self (by simp), ?_⟩
    · have target : files.target twin.keyPath =
          files.walk true Path.maxLinks [] ["new", "..", "key.pem"] :=
        FileSystem.target_of_checked (by decide)
      rw [FileSystem.contains, target, FileSystem.walk_name_of_isFree isName_new isFree]
      rfl
    · rw [FileSystem.get?_insert_of_ne (by decide), isKeyFree]
  · refine ⟨?_, _, FileSystem.ensureAll_up_of_directory isName_new (by decide) there, there,
      isKeyFree⟩
    rw [FileSystem.contains, FileSystem.target, locate_keyPath_twin_of_isFree there isKeyFree]

private theorem exists_bootstrap_twin (chance : Chance) (events : List Event)
    (isKeyFree : files.get? ["key.pem"] = none)
    (isDirectory : files.get? ["new"] = none ∨ files.get? ["new"] = some .directory) :
    ∃ second : Site,
      (twin.bootstrap chance plainClock).perform ⟨files, events⟩ = (.ok (), second) ∧
      second.files.get? ["new"] = some .directory ∧
      second.files.get? ["key.pem"] =
        some (.file (twin.keyText chance (chance.key 2206)) .owner) := by
  obtain ⟨isNew, parents, hasParents, there, isFree⟩ := createParents_twin isKeyFree isDirectory
  have isWritten : parents.createSecret twin.keyPath (twin.keyText chance (chance.key 2206)) =
      .ok (parents.insert ["key.pem"] (.file (twin.keyText chance (chance.key 2206)) .owner)) :=
    FileSystem.createSecret_free (locate_keyPath_twin_of_isFree there isFree false) _
  have keyThere : (parents.insert ["key.pem"] (.file (twin.keyText chance (chance.key 2206))
      .owner)).get? ["key.pem"] = some (.file (twin.keyText chance (chance.key 2206)) .owner) :=
    FileSystem.get?_insert_self (by simp)
  obtain ⟨reported, performed⟩ : ∃ reported, (twin.bootstrap chance plainClock).perform
      ⟨files, events⟩ = (.ok (), ⟨_, reported⟩) :=
    bootstrap_eq_ok_iff.2 ⟨_, _, .made isNew (if_pos (by decide)) hasParents isWritten,
      .kept (FileSystem.contains_iff.2
        ⟨_, _, FileSystem.target_name_of_file isName_keyPath_plain keyThere⟩)⟩
  exact ⟨_, performed, (FileSystem.get?_insert_of_ne (by decide)).trans there, keyThere⟩

private theorem read_keyPath_twin {text : Bytes} {access : Access}
    (isDirectory : files.get? ["new"] = some .directory)
    (there : files.get? ["key.pem"] = some (.file text access)) :
    files.read twin.keyPath = .ok text := by
  refine FileSystem.read_eq_ok_iff.2 ⟨["key.pem"], access, ?_⟩
  rw [FileSystem.target, locate_keyPath_twin isDirectory]
  exact FileSystem.walk_name_of_file isName_keyPath_plain there

private theorem keyText_twin_ne (regular : chance.IsRegular 2206)
    (regular' : chance'.IsRegular 2206) (differs : chance.keyId 2206 ≠ chance'.keyId 2206) :
    twin.keyText chance (chance.key 2206) ≠ twin.keyText chance' (chance'.key 2206) := by
  have opens {chance : Chance} (regular : chance.IsRegular 2206) :
      PrivateKey.ofPem? twin.passphrase.octets (twin.keyText chance (chance.key 2206)) =
        some (.rsa (chance.key 2206)) :=
    Rsa.PrivateKey.ofPem?_toEncryptedPem (regular.key.fits (by decide)) regular.iv (by decide)
  intro same
  have sameKey := opens regular
  rw [same, opens regular', Option.some.injEq, PrivateKey.rsa.injEq] at sameKey
  exact differs (by rw [Chance.keyId, Chance.keyId, sameKey])

private theorem exists_renewal_neighbour {ca : Certificate} (regular : chance'.IsRegular 2210)
    (chance'' : Chance) (events : List Event)
    (there : files.get? ["certificate.pem"] = some (.file ca.toPem .everyone)) :
    ∃ without second new, (neighbourFiles chance' files).remove neighbour.certificatePath =
        .ok without ∧
      (neighbour.bootstrap chance'' plainClock).perform ⟨without, events⟩ = (.ok (), second) ∧
      neighbour.loadCertificate second.files = .ok new ∧
      Certificate.root neighbour.policy (.rsa (chance'.key 2210)) neighbour.policy.authorityName
        neighbour.policy.authorityDays chance''.serial plainClock = .ok new := by
  have isDirectory := get?_new_neighbourFiles chance' files
  have located : (neighbourFiles chance' files).locate false
      (Path.steps neighbour.certificatePath) =
        .ok (.node ["certificate.pem"] (.file ca.toPem .everyone)) :=
    (locate_certificatePath_neighbour isDirectory false).trans (FileSystem.walk_name_of_file
      isName_certificatePath_plain ((get?_certificate_neighbourFiles chance' files).trans there))
  have isRemoved : (neighbourFiles chance' files).remove neighbour.certificatePath =
      .ok ((neighbourFiles chance' files).erase ["certificate.pem"]) := by
    rw [FileSystem.remove, located]
  have isFree : ((neighbourFiles chance' files).erase ["certificate.pem"]).get?
      ["certificate.pem"] = none := by
    rw [FileSystem.get?_erase _ _ _ (by simp), if_pos rfl]
  obtain ⟨second, new, performed, loaded, isMade⟩ := exists_bootstrap_neighbour_again regular
    (FileSystem.get?_erase_of_ne (by decide) isDirectory)
    (FileSystem.get?_erase_of_ne (by decide) (get?_key_neighbourFiles chance' files)) isFree
    chance'' events
  exact ⟨_, second, new, isRemoved, performed, loaded, isMade⟩

/-- Certificates of keys with other identifiers have no key in common, and no identifier. -/
private theorem ne_of_keyId_ne {policy policy' : Policy} {key key' : Rsa.PrivateKey}
    {name name' : String} {days days' serial serial' : Nat} {clock clock' : Clock}
    {old new : Certificate}
    (isOld : Certificate.root policy (.rsa key) name days serial clock = .ok old)
    (isNew : Certificate.root policy' (.rsa key') name' days' serial' clock' = .ok new)
    (fits : Asn1.Fits key.toPublic.encode) (fits' : Asn1.Fits key'.toPublic.encode)
    (apart : key.toPublic.toInfo.keyId ≠ key'.toPublic.toInfo.keyId) :
    new.publicKey? ≠ old.publicKey? ∧ new.subjectKey ≠ old.subjectKey := by
  obtain ⟨-, _, _, -, -, rfl⟩ := Certificate.root_eq_ok_iff.1 isOld
  obtain ⟨-, _, _, -, -, rfl⟩ := Certificate.root_eq_ok_iff.1 isNew
  constructor
  · intro sameKey
    change PublicKey.ofInfo? key'.toPublic.toInfo = PublicKey.ofInfo? key.toPublic.toInfo at sameKey
    rw [PublicKey.ofInfo?_toInfo fits, PublicKey.ofInfo?_toInfo fits', Option.some.injEq,
      PublicKey.rsa.injEq] at sameKey
    exact apart (congrArg (fun key : Rsa.PublicKey => key.toInfo.keyId) sameKey.symm)
  · rw [Certificate.subjectKey_root rfl, Certificate.subjectKey_root rfl]
    exact fun sameId => apart (Single.present.inj sameId).symm

private theorem exists_untrusted_neighbour :
    ∃ (site first issuing second : Site) (without : FileSystem) (credential : Credential)
        (old new leaf : Certificate),
      (plain.bootstrap (.ofSmallPrime 5) plainClock).perform ⟨.empty, []⟩ = (.ok (), site) ∧
      site.files.contains neighbour.keyPath = false ∧
      site.files.contains neighbour.certificatePath = false ∧
      neighbour.keyPath ≠ neighbour.certificatePath ∧
      (neighbour.bootstrap (.ofSmallPrime 67) plainClock).perform site = (.ok (), first) ∧
      neighbour.loadCertificate first.files = .ok old ∧
      (neighbour.issueFor (.client ⟨"office", .user "alice@example.org"⟩) (.ofSmallPrime 71)
        plainClock).perform first = (.ok credential, issuing) ∧
      issuing.files.remove neighbour.certificatePath = .ok without ∧
      (neighbour.bootstrap (.ofSmallPrime 71) plainClock).perform ⟨without, []⟩ =
        (.ok (), second) ∧
      neighbour.loadCertificate second.files = .ok new ∧
      new.publicKey? ≠ old.publicKey? ∧ new.subjectKey ≠ old.subjectKey ∧
      Certificate.ofPem? (Utf8.encode credential.certificatePem) = some leaf ∧
      verifyIssuedBy leaf new plainClock.second = .ok false := by
  have sound : (Chance.ofSmallPrime 5).IsSound 2206 := Chance.isSound_ofSmallPrime_five
  have made : (Chance.ofSmallPrime 67).IsSound 2210 := Chance.isSound_ofSmallPrime_sixtySeven
  have served : (Chance.ofSmallPrime 71).IsSound 2210 := Chance.isSound_ofSmallPrime_seventyOne
  have differs : (Chance.ofSmallPrime 5).keyId 2206 ≠ (Chance.ofSmallPrime 67).keyId 2210 :=
    Chance.keyId_ofSmallPrime_five_ne
  obtain ⟨ca, reported, later, isOld, isKeyNew, isCertificateNew, performed, loaded, own⟩ :=
    exists_bootstrap_neighbour sound.toIsRegular made.toIsRegular
  obtain ⟨without, second, new, isRemoved, performed', loadedNew, isMade⟩ :=
    exists_renewal_neighbour made.toIsRegular (.ofSmallPrime 71) []
      (get?_certificatePath_newFiles : (plain.newFiles (.ofSmallPrime 5) ca .empty).get? _ = _)
  obtain ⟨credential, events, issued, performedIssue, same, fits⟩ :=
    exists_issueFor_neighbour made.key served.key own loaded later
  obtain ⟨otherKey, otherId⟩ := ne_of_keyId_ne own.certificate isMade
    (sound.key.fits_toPublic (by decide)) (made.key.fits_toPublic (by decide)) differs
  have newId : new.subjectKey = .present ((Chance.ofSmallPrime 67).keyId 2210) := by
    obtain ⟨-, _, _, -, -, isNew⟩ := Certificate.root_eq_ok_iff.1 isMade
    exact Certificate.subjectKey_root (by rw [isNew]; rfl)
  have leafExtended : issued.certificate.body.extensions =
      Certificate.leafExtensions credential.commonName issued.key.toPublic.toInfo
        (some ((Chance.ofSmallPrime 5).keyId 2206)) .client := by
    have given : issued.material.certificate.givenKeyId =
        some ((Chance.ofSmallPrime 5).keyId 2206) := by
      rw [same]
      exact Certificate.givenKeyId_root own.extensions
    rw [← given]
    rfl
  refine ⟨_, _, _, second, without, credential, ca, new, issued.certificate, isOld, isKeyNew,
    isCertificateNew, by decide, performed, (loadMaterial_eq_ok_iff.1 loaded).1, performedIssue,
    isRemoved, performed', loadedNew, otherKey, otherId, issued.ofPem?_certificatePem fits, ?_⟩
  rw [verifyIssuedBy, Certificate.isIssuedBy_of_apart leafExtended newId differs]

private theorem exists_renewal_twin :
    ∃ (first second : Site) (without : FileSystem),
      FileSystem.empty.contains twin.keyPath = false ∧
      FileSystem.empty.contains twin.certificatePath = false ∧
      twin.keyPath ≠ twin.certificatePath ∧
      (twin.bootstrap (.ofSmallPrime 5) plainClock).perform ⟨.empty, []⟩ = (.ok (), first) ∧
      first.files.remove twin.certificatePath = .ok without ∧
      (twin.bootstrap (.ofSmallPrime 7) plainClock).perform ⟨without, []⟩ = (.ok (), second) ∧
      second.files.read twin.keyPath ≠ first.files.read twin.keyPath := by
  have sound : (Chance.ofSmallPrime 5).IsSound 2206 := Chance.isSound_ofSmallPrime_five
  have sound' : (Chance.ofSmallPrime 7).IsSound 2206 := Chance.isSound_ofSmallPrime_seven
  obtain ⟨first, performed, isDirectory, keyThere⟩ :=
    exists_bootstrap_twin (.ofSmallPrime 5) [] (rfl : FileSystem.empty.get? ["key.pem"] = _)
      (.inl rfl)
  have isRemoved := FileSystem.remove_name isName_keyPath_plain keyThere
  have isFree : (first.files.erase ["key.pem"]).get? ["key.pem"] = none := by
    rw [FileSystem.get?_erase _ _ _ (by simp), if_pos rfl]
  obtain ⟨second, performed', isDirectory', keyThere'⟩ :=
    exists_bootstrap_twin (.ofSmallPrime 7) [] isFree
      (.inr (FileSystem.get?_erase_of_ne (by decide) isDirectory))
  refine ⟨first, second, _, (createParents_twin rfl (.inl rfl)).1,
    FileSystem.contains_name_of_isFree isName_keyPath_plain rfl, by decide, performed, isRemoved,
    performed', ?_⟩
  rw [read_keyPath_twin isDirectory keyThere, read_keyPath_twin isDirectory' keyThere', ne_eq,
    Except.ok.injEq]
  exact keyText_twin_ne sound'.toIsRegular sound.toIsRegular Chance.keyId_ofSmallPrime_ne.symm

/-- A certificate that was there before is not that of the key, and not made again. What was
issued with it loses all trust when it is taken away. And a key that is the certificate as
well is lost with it. -/
theorem exists_not_verifyIssuedBy_of_renewal :
    (∃ (site first issuing second : Site) (without : FileSystem) (credential : Credential)
        (old new leaf : Certificate),
      (plain.bootstrap (.ofSmallPrime 5) plainClock).perform ⟨.empty, []⟩ = (.ok (), site) ∧
      site.files.contains neighbour.keyPath = false ∧
      site.files.contains neighbour.certificatePath = false ∧
      neighbour.keyPath ≠ neighbour.certificatePath ∧
      (neighbour.bootstrap (.ofSmallPrime 67) plainClock).perform site = (.ok (), first) ∧
      neighbour.loadCertificate first.files = .ok old ∧
      (neighbour.issueFor (.client ⟨"office", .user "alice@example.org"⟩) (.ofSmallPrime 71)
        plainClock).perform first = (.ok credential, issuing) ∧
      issuing.files.remove neighbour.certificatePath = .ok without ∧
      (neighbour.bootstrap (.ofSmallPrime 71) plainClock).perform ⟨without, []⟩ =
        (.ok (), second) ∧
      neighbour.loadCertificate second.files = .ok new ∧
      new.publicKey? ≠ old.publicKey? ∧ new.subjectKey ≠ old.subjectKey ∧
      Certificate.ofPem? (Utf8.encode credential.certificatePem) = some leaf ∧
      verifyIssuedBy leaf new plainClock.second = .ok false) ∧
    ∃ (first second : Site) (without : FileSystem),
      FileSystem.empty.contains twin.keyPath = false ∧
      FileSystem.empty.contains twin.certificatePath = false ∧
      twin.keyPath ≠ twin.certificatePath ∧
      (twin.bootstrap (.ofSmallPrime 5) plainClock).perform ⟨.empty, []⟩ = (.ok (), first) ∧
      first.files.remove twin.certificatePath = .ok without ∧
      (twin.bootstrap (.ofSmallPrime 7) plainClock).perform ⟨without, []⟩ = (.ok (), second) ∧
      second.files.read twin.keyPath ≠ first.files.read twin.keyPath :=
  ⟨exists_untrusted_neighbour, exists_renewal_twin⟩

end VpnAuthority.Authority
