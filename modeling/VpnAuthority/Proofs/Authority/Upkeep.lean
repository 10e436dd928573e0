import VpnAuthority.Proofs.Authority.Growth
import VpnAuthority.Proofs.Authority.Trust

/-! An authority whose files are taken away now and then, and made again by a bootstrap. Its
key and its certificate belong together unless the key alone was taken away. -/
namespace VpnAuthority.Authority

variable {authority : Authority} {chance : Chance} {clock : Clock} {start files later : FileSystem}
  {key : Rsa.PrivateKey} {place : Place} {node : Node} {path : String} {text : Bytes}

/-- The paths of an authority come to lead only to what was put there, which is no directory,
and each to something of its own. -/
structure HasOwnPlaces (authority : Authority) (files later : FileSystem) : Prop where
  isNew : ∀ path place node, authority.Owns path → files.contains path = false →
    later.target path = .ok (.node place node) →
      later.get? place ≠ files.get? place ∧ node ≠ .directory
  apart : ∀ place node node', later.target authority.keyPath = .ok (.node place node) →
    later.target authority.certificatePath ≠ .ok (.node place node')

/-- A certificate without its key. -/
def IsOrphaned (authority : Authority) (files : FileSystem) : Prop :=
  files.contains authority.certificatePath = true ∧ files.contains authority.keyPath = false

/-- The trees that an authority may be in: what comes of a tree by bootstraps, however they
end, and by taking its files away. No bootstrap finds a certificate without its key. -/
inductive Upkept (authority : Authority) (start : FileSystem) : FileSystem → Prop where
  | start : Upkept authority start start
  | bootstrapped {files : FileSystem} {chance : Chance} {clock : Clock} {events : List Event}
    {outcome : Except Failure Unit} {site : Site} (isUpkept : Upkept authority start files)
    (sound : chance.IsSound authority.policy.keySize) (unlike : authority.OpensNoOther chance)
    (performed : (authority.bootstrap chance clock).perform ⟨files, events⟩ = (outcome, site))
    (ownPlaces : authority.HasOwnPlaces files site.files)
    (notOrphaned : ¬authority.IsOrphaned files) : Upkept authority start site.files
  | removed {files later : FileSystem} {path : String} (isUpkept : Upkept authority start files)
    (owns : authority.Owns path) (isRemoved : files.remove path = .ok later) :
    Upkept authority start later

namespace HasOwnPlaces

variable (places : authority.HasOwnPlaces files later)
  (leaves : ∀ place, authority.Leaves chance clock files later place)
include places leaves

theorem read_keyPath (read : files.read authority.keyPath = .ok text) :
    later.read authority.keyPath = .ok text := by
  rcases Leaves.read leaves read with same | ⟨-, ⟨place, _, leads, leads'⟩, -⟩
  · exact same
  · exact absurd leads' (places.apart place _ _ leads)

omit places in
theorem read_certificatePath (read : files.read authority.certificatePath = .ok text) :
    later.read authority.certificatePath = .ok text := by
  rcases Leaves.read leaves read with same | ⟨isNew, -⟩
  · exact same
  · obtain ⟨place, access, ht⟩ := FileSystem.read_eq_ok_iff.1 read
    rw [FileSystem.contains_iff.2 ⟨place, _, ht⟩] at isNew
    cases isNew

theorem new_key (isNew : files.contains authority.keyPath = false)
    (isThere : later.contains authority.keyPath = true) :
    ∃ key, chance.keyOfSize? authority.policy.keySize = some key ∧
      later.read authority.keyPath = .ok (authority.keyText chance key) := by
  obtain ⟨place, node, ht⟩ := FileSystem.contains_iff.1 isThere
  obtain ⟨isPut, isFile⟩ := places.isNew _ place node (.inl rfl) isNew ht
  cases leaves place with
  | same isSame => exact absurd isSame isPut
  | directory isFree isNew' =>
    rw [FileSystem.get?_of_locate ht] at isNew'
    cases isNew'
    exact absurd rfl isFile
  | key isFree isNew' isMade leads =>
    exact ⟨_, isMade, FileSystem.read_eq_ok_iff.2 ⟨place, _, leads⟩⟩
  | certificate isNew' hasKey isMade becomes leads => exact absurd leads (places.apart _ _ _ ht)

theorem new_certificate (isNew : files.contains authority.certificatePath = false)
    (isThere : later.contains authority.certificatePath = true) :
    ∃ key certificate, authority.HasKey chance files key ∧
      Certificate.root authority.policy (.rsa key) authority.policy.authorityName
        authority.policy.authorityDays chance.serial clock = .ok certificate ∧
      later.read authority.certificatePath = .ok certificate.toPem := by
  obtain ⟨place, node, ht⟩ := FileSystem.contains_iff.1 isThere
  obtain ⟨isPut, isFile⟩ := places.isNew _ place node (.inr rfl) isNew ht
  cases leaves place with
  | same isSame => exact absurd isSame isPut
  | directory isFree isNew' =>
    rw [FileSystem.get?_of_locate ht] at isNew'
    cases isNew'
    exact absurd rfl isFile
  | key isFree isNew' isMade leads => exact absurd ht (places.apart _ _ _ leads)
  | certificate isNew' hasKey isMade becomes leads =>
    exact ⟨_, _, hasKey, isMade, FileSystem.read_eq_ok_iff.2 ⟨place, _, leads⟩⟩

end HasOwnPlaces

/-- Two paths that lead downwards, neither of them through the end of the other. -/
structure IsApart (authority : Authority) : Prop where
  downward : ∀ path, authority.Owns path → ".." ∉ Path.steps path
  key : ¬FileSystem.named (Path.steps authority.keyPath) <+:
    FileSystem.named (Path.steps authority.certificatePath)
  certificate : ¬FileSystem.named (Path.steps authority.certificatePath) <+:
    FileSystem.named (Path.steps authority.keyPath)

private theorem IsApart.not_named_prefix {other : String} (h : authority.IsApart)
    (owns : authority.Owns path) (owns' : authority.Owns other)
    (isSome : FileSystem.named (Path.steps path) ≠ []) :
    ¬FileSystem.named (Path.steps path) <+: (FileSystem.named (Path.steps other)).dropLast := by
  intro isAbove
  have itself {names : List String} (isSome : names ≠ []) : ¬names <+: names.dropLast := by
    intro isAbove
    have := isAbove.length_le
    rw [List.length_dropLast] at this
    have := List.length_pos_iff.2 isSome
    omega
  have isAbove' := isAbove.trans (List.dropLast_prefix _)
  rcases owns with rfl | rfl <;> rcases owns' with rfl | rfl
  · exact itself isSome isAbove
  · exact h.key isAbove'
  · exact h.certificate isAbove'
  · exact itself isSome isAbove

/-- In a tree without links such paths keep to their places. -/
theorem IsApart.hasOwnPlaces (h : authority.IsApart) (tree : files.IsTree)
    (leaves : ∀ place, authority.Leaves chance clock files later place) :
    authority.HasOwnPlaces files later := by
  have tree' := Leaves.isTree tree leaves
  constructor
  · intro path place node owns isNew ht
    have there := FileSystem.get?_of_locate ht
    have isPut : later.get? place ≠ files.get? place := by
      intro same
      exact h.downward path owns (FileSystem.upward_of_target tree tree' (Leaves.keeps leaves)
        isNew ht (same.symm.trans there))
    refine ⟨isPut, ?_⟩
    rintro rfl
    cases leaves place with
    | same isSame => exact isPut isSame
    | directory isFree isNew' way =>
      obtain ⟨other, front, owns', isFront, leads⟩ := way
      have isEnd : place = FileSystem.named (Path.steps path) :=
        FileSystem.goal_of_locate tree' (h.downward path owns) ht
      have isAbove : place <+: (FileSystem.named (Path.steps other)).dropLast :=
        FileSystem.goal_of_front tree' (h.downward other owns') isFront leads
      have isSome : FileSystem.named (Path.steps path) ≠ [] := by
        rw [← isEnd]
        rintro rfl
        cases isFree
      rw [isEnd] at isAbove
      exact h.not_named_prefix owns owns' isSome isAbove
    | key isFree isNew' isMade leads =>
      rw [FileSystem.get?_of_target leads] at there
      cases there
    | certificate isNew' hasKey isMade becomes leads =>
      rw [FileSystem.get?_of_target leads] at there
      cases there
  · intro place node node' ht ht'
    have isEnd : place = FileSystem.named (Path.steps authority.keyPath) :=
      FileSystem.goal_of_locate tree' (h.downward _ (.inl rfl)) ht
    have isEnd' : place = FileSystem.named (Path.steps authority.certificatePath) :=
      FileSystem.goal_of_locate tree' (h.downward _ (.inr rfl)) ht'
    refine h.key ?_
    rw [← isEnd, ← isEnd']

structure Holds (authority : Authority) (chance : Chance) (clock : Clock) (files : FileSystem) :
    Prop where
  sound : chance.IsSound authority.policy.keySize
  unlike : authority.OpensNoOther chance
  isSize : authority.policy.keySize ≤ Rsa.maxBits
  key : files.contains authority.keyPath = true → files.read authority.keyPath =
    .ok (authority.keyText chance (chance.key authority.policy.keySize))
  certificate : files.contains authority.certificatePath = true → ∃ certificate,
    Certificate.root authority.policy (.rsa (chance.key authority.policy.keySize))
      authority.policy.authorityName authority.policy.authorityDays chance.serial clock =
        .ok certificate ∧
    files.read authority.certificatePath = .ok certificate.toPem

/-- There is neither a key nor a certificate, or what is there is of the same origin. -/
def IsSettled (authority : Authority) (files : FileSystem) : Prop :=
  files.contains authority.keyPath = false ∧ files.contains authority.certificatePath = false ∨
    ∃ chance clock, authority.Holds chance clock files

namespace Holds

theorem eq_of_loadKey (h : authority.Holds chance clock files)
    (loaded : authority.loadKey files = .ok key) : key = chance.key authority.policy.keySize := by
  obtain ⟨text, read, -⟩ := loadKey_eq_ok_iff.1 loaded
  obtain ⟨place, access, ht⟩ := FileSystem.read_eq_ok_iff.1 read
  exact loadKey_eq_of_read h.sound.toIsRegular h.isSize h.unlike
    (h.key (FileSystem.contains_iff.2 ⟨place, _, ht⟩)) loaded

theorem exists_loadCertificate (h : authority.Holds chance clock files)
    (isThere : files.contains authority.certificatePath = true) :
    ∃ certificate, authority.loadCertificate files = .ok certificate ∧
      authority.IsOwn chance clock ⟨chance.key authority.policy.keySize, certificate⟩ := by
  obtain ⟨certificate, isMade, read⟩ := h.certificate isThere
  have isRead := Certificate.ofPem?_toPem_root h.isSize h.sound.key chance.serial.isLt isMade
  exact ⟨certificate, loadCertificate_eq_ok_iff.2 ⟨_, read, isRead⟩, h.isSize, rfl, isMade⟩

theorem of_serial {chance' : Chance} {clock' : Clock} {certificate : Certificate}
    (h : authority.Holds chance clock files)
    (read : later.read authority.keyPath =
      .ok (authority.keyText chance (chance.key authority.policy.keySize)))
    (isMade : Certificate.root authority.policy (.rsa (chance.key authority.policy.keySize))
      authority.policy.authorityName authority.policy.authorityDays chance'.serial clock' =
        .ok certificate)
    (read' : later.read authority.certificatePath = .ok certificate.toPem) :
    authority.Holds { chance with serial := chance'.serial } clock' later where
  sound := ⟨⟨h.sound.key, h.sound.iv⟩, h.sound.sound⟩
  unlike := h.unlike
  isSize := h.isSize
  key := fun _ => read
  certificate := fun _ => ⟨certificate, isMade, read'⟩

end Holds

theorem HasOwnPlaces.holds_of_new (places : authority.HasOwnPlaces files later)
    (leaves : ∀ place, authority.Leaves chance clock files later place)
    (sound : chance.IsSound authority.policy.keySize) (unlike : authority.OpensNoOther chance)
    (isKeyNew : files.contains authority.keyPath = false)
    (isCertificateNew : files.contains authority.certificatePath = false)
    (isThere : later.contains authority.keyPath = true ∨
      later.contains authority.certificatePath = true) : authority.Holds chance clock later := by
  have newKey := places.new_key leaves isKeyNew
  have newCertificate := places.new_certificate leaves isCertificateNew
  simp only [HasKey, isKeyNew, Bool.false_eq_true, if_false] at newCertificate
  have isSize : authority.policy.keySize ≤ Rsa.maxBits := by
    rcases isThere with isThere | isThere
    · obtain ⟨key, isMade, -⟩ := newKey isThere
      exact (Chance.eq_of_keyOfSize? isMade).2
    · obtain ⟨key, -, isMade, -⟩ := newCertificate isThere
      exact (Chance.eq_of_keyOfSize? isMade).2
  refine ⟨sound, unlike, isSize, fun isThere => ?_, fun isThere => ?_⟩
  · obtain ⟨key, isMade, read⟩ := newKey isThere
    obtain ⟨rfl, -⟩ := Chance.eq_of_keyOfSize? isMade
    exact read
  · obtain ⟨key, certificate, isMade, rootMade, read⟩ := newCertificate isThere
    obtain ⟨rfl, -⟩ := Chance.eq_of_keyOfSize? isMade
    exact ⟨certificate, rootMade, read⟩

namespace IsSettled

private theorem of_reused (holds : authority.Holds chance clock files) {chance' : Chance}
    {clock' : Clock} (leaves : ∀ place, authority.Leaves chance' clock' files later place)
    (places : authority.HasOwnPlaces files later)
    (isKeyThere : files.contains authority.keyPath = true) : authority.IsSettled later := by
  have read := places.read_keyPath leaves (holds.key isKeyThere)
  cases isThere : files.contains authority.certificatePath with
  | true =>
    obtain ⟨certificate, isMade, read'⟩ := holds.certificate isThere
    exact .inr ⟨chance, clock, holds.sound, holds.unlike, holds.isSize, fun _ => read, fun _ =>
      ⟨certificate, isMade, HasOwnPlaces.read_certificatePath leaves read'⟩⟩
  | false =>
    cases isLeft : later.contains authority.certificatePath with
    | true =>
      obtain ⟨key, certificate, hasKey, isMade, read'⟩ :=
        places.new_certificate leaves isThere isLeft
      rw [HasKey, if_pos isKeyThere] at hasKey
      obtain rfl := holds.eq_of_loadKey hasKey
      exact .inr ⟨_, clock', holds.of_serial read isMade read'⟩
    | false =>
      refine .inr ⟨chance, clock, holds.sound, holds.unlike, holds.isSize, fun _ => read, ?_⟩
      rw [isLeft]
      rintro ⟨⟩

private theorem of_new (sound : chance.IsSound authority.policy.keySize)
    (unlike : authority.OpensNoOther chance)
    (leaves : ∀ place, authority.Leaves chance clock files later place)
    (places : authority.HasOwnPlaces files later)
    (isKeyNew : files.contains authority.keyPath = false)
    (isCertificateNew : files.contains authority.certificatePath = false) :
    authority.IsSettled later := by
  by_cases left : later.contains authority.keyPath = false ∧
      later.contains authority.certificatePath = false
  · exact .inl left
  rw [not_and_or, Bool.not_eq_false, Bool.not_eq_false] at left
  exact .inr ⟨chance, clock,
    places.holds_of_new leaves sound unlike isKeyNew isCertificateNew left⟩

theorem of_leaves (settled : authority.IsSettled files)
    (sound : chance.IsSound authority.policy.keySize) (unlike : authority.OpensNoOther chance)
    (leaves : ∀ place, authority.Leaves chance clock files later place)
    (places : authority.HasOwnPlaces files later) (notOrphaned : ¬authority.IsOrphaned files) :
    authority.IsSettled later := by
  cases isKeyThere : files.contains authority.keyPath with
  | true =>
    rcases settled with ⟨isKeyNew, -⟩ | ⟨before, clock', holds⟩
    · rw [isKeyThere] at isKeyNew
      cases isKeyNew
    · exact of_reused holds leaves places isKeyThere
  | false =>
    refine of_new sound unlike leaves places isKeyThere ?_
    rw [← Bool.not_eq_true]
    exact fun isThere => notOrphaned ⟨isThere, isKeyThere⟩

theorem of_remove (settled : authority.IsSettled files) (isRemoved : files.remove path = .ok later) :
    authority.IsSettled later := by
  have contained {other : String} (isThere : later.contains other = true) :
      files.contains other = true := by
    obtain ⟨place, node, ht⟩ := FileSystem.contains_iff.1 isThere
    exact FileSystem.contains_iff.2 ⟨place, node, FileSystem.target_of_remove isRemoved ht⟩
  have read {other : String} {text : Bytes} (isThere : later.contains other = true)
      (before : files.read other = .ok text) : later.read other = .ok text := by
    obtain ⟨place, node, ht⟩ := FileSystem.contains_iff.1 isThere
    obtain ⟨place', access, ht'⟩ := FileSystem.read_eq_ok_iff.1 before
    rw [FileSystem.target_of_remove isRemoved ht, Except.ok.injEq] at ht'
    exact FileSystem.read_eq_ok_iff.2 ⟨place', access, by rw [ht, ht']⟩
  rcases settled with ⟨isKeyNew, isCertificateNew⟩ | ⟨chance, clock, holds⟩
  · refine .inl ⟨?_, ?_⟩
    · rw [← Bool.not_eq_true] at isKeyNew ⊢
      exact fun isThere => isKeyNew (contained isThere)
    · rw [← Bool.not_eq_true] at isCertificateNew ⊢
      exact fun isThere => isCertificateNew (contained isThere)
  · refine .inr ⟨chance, clock, holds.sound, holds.unlike, holds.isSize, fun isThere => ?_,
      fun isThere => ?_⟩
    · exact read isThere (holds.key (contained isThere))
    · obtain ⟨certificate, isMade, before⟩ := holds.certificate (contained isThere)
      exact ⟨certificate, isMade, read isThere before⟩

end IsSettled

theorem leaves_of_performed {events : List Event} {outcome : Except Failure Unit} {site : Site}
    (performed : (authority.bootstrap chance clock).perform ⟨files, events⟩ = (outcome, site))
    (place : Place) : authority.Leaves chance clock files site.files place := by
  have leaves := authority.leaves_bootstrap chance clock ⟨files, events⟩ place
  rwa [performed] at leaves

theorem contains_of_performed {events : List Event} {site : Site}
    (performed : (authority.bootstrap chance clock).perform ⟨files, events⟩ = (.ok (), site)) :
    site.files.contains authority.keyPath = true ∧
      site.files.contains authority.certificatePath = true := by
  obtain ⟨key, middle, obtains, ensures⟩ := bootstrap_eq_ok_iff.1 ⟨site.events, performed⟩
  obtain ⟨place, text, access, ht, -⟩ := obtains.exists_target
  exact ⟨ensures.keeps.contains (FileSystem.contains_iff.2 ⟨place, _, ht⟩), ensures.contains⟩

theorem Upkept.isSettled (h : authority.Upkept start files)
    (isKeyNew : start.contains authority.keyPath = false)
    (isCertificateNew : start.contains authority.certificatePath = false) :
    authority.IsSettled files := by
  induction h with
  | start => exact .inl ⟨isKeyNew, isCertificateNew⟩
  | bootstrapped isUpkept sound unlike performed ownPlaces notOrphaned ih =>
    exact ih.of_leaves sound unlike (leaves_of_performed performed) ownPlaces notOrphaned
  | removed isUpkept owns isRemoved ih => exact ih.of_remove isRemoved

theorem Holds.material (holds : authority.Holds chance clock files)
    (isThere : files.contains authority.certificatePath = true) :
    ∃ ca, authority.loadCertificate files = .ok ca ∧
      ca.publicKey? = some (.rsa (chance.key authority.policy.keySize).toPublic) ∧
      authority.IsOwn chance clock ⟨chance.key authority.policy.keySize, ca⟩ ∧
      ∀ material, authority.loadMaterial files = .ok material →
        material = ⟨chance.key authority.policy.keySize, ca⟩ := by
  obtain ⟨ca, loaded, own⟩ := holds.exists_loadCertificate isThere
  refine ⟨ca, loaded, own.publicKey?_eq holds.sound.key, own, ?_⟩
  intro material loaded'
  obtain ⟨key, certificate⟩ := material
  obtain ⟨loadedCertificate, loadedKey⟩ := loadMaterial_eq_ok_iff.1 loaded'
  obtain rfl := holds.eq_of_loadKey loadedKey
  obtain rfl := Except.ok.inj (loaded.symm.trans loadedCertificate)
  rfl

/-- However often the files of an authority are taken away and made again: after a bootstrap
that ends well the certificate is that of the key, and what is issued next is trusted because
of it. The one exception is a key that was taken away without its certificate. The bootstrap
then makes another key, leaves the certificate as it is and ends well all the same. -/
theorem material_of_upkept (isKeyNew : start.contains authority.keyPath = false)
    (isCertificateNew : start.contains authority.certificatePath = false)
    {events : List Event} {site : Site} (isUpkept : authority.Upkept start files)
    (sound : chance.IsSound authority.policy.keySize) (unlike : authority.OpensNoOther chance)
    (performed : (authority.bootstrap chance clock).perform ⟨files, events⟩ = (.ok (), site))
    (places : authority.HasOwnPlaces files site.files) :
    (¬authority.IsOrphaned files → ∃ (made : Chance) (caClock : Clock) (ca : Certificate),
      site.files.read authority.keyPath =
        .ok (authority.keyText made (made.key authority.policy.keySize)) ∧
      authority.loadCertificate site.files = .ok ca ∧
      ca.publicKey? = some (.rsa (made.key authority.policy.keySize).toPublic) ∧
      (∀ material, authority.loadMaterial site.files = .ok material →
        material = ⟨made.key authority.policy.keySize, ca⟩ ∧ material.isMatched = true) ∧
      ∀ (endpoint : Endpoint) (chance' : Chance) (clock' : Clock) (events' : List Event)
          (credential : Credential) (site' : Site),
        (authority.issueFor endpoint chance' clock').perform ⟨site.files, events'⟩ =
          (.ok credential, site') →
        chance'.IsSound authority.policy.keySize →
        made.keyId authority.policy.keySize ≠ chance'.keyId authority.policy.keySize →
          ∃ leaf, Certificate.ofPem? (Utf8.encode credential.certificatePem) = some leaf ∧
            ∀ now, verifyIssuedBy leaf ca now = .ok (decide
              (caClock.Covers authority.policy.authorityDays now ∧
                clock'.Covers authority.policy.leafDays now))) ∧
    (authority.IsOrphaned files → ∃ (made : Rsa.PrivateKey) (ca : Certificate),
      authority.loadCertificate files = .ok ca ∧ authority.loadCertificate site.files = .ok ca ∧
      ca.publicKey? = some (.rsa made.toPublic) ∧
      site.files.read authority.keyPath =
        .ok (authority.keyText chance (chance.key authority.policy.keySize)) ∧
      ∀ material, authority.loadMaterial site.files = .ok material →
        material = ⟨chance.key authority.policy.keySize, ca⟩ ∧
        (material.isMatched = true ↔
          made.toPublic = (chance.key authority.policy.keySize).toPublic)) := by
  have settled := isUpkept.isSettled isKeyNew isCertificateNew
  have leaves := leaves_of_performed performed
  obtain ⟨isKeyThere, isCertificateThere⟩ := contains_of_performed performed
  constructor
  · intro notOrphaned
    rcases settled.of_leaves sound unlike leaves places notOrphaned with
      ⟨isKeyMissing, -⟩ | ⟨made, caClock, holds⟩
    · rw [isKeyThere] at isKeyMissing
      cases isKeyMissing
    obtain ⟨ca, loaded, publicKey, own, material⟩ := holds.material isCertificateThere
    refine ⟨made, caClock, ca, holds.key isKeyThere, loaded, publicKey, ?_, ?_⟩
    · intro loadedMaterial isLoaded
      obtain rfl := material loadedMaterial isLoaded
      exact ⟨rfl, by rw [Material.isMatched, publicKey, beq_self_eq_true]⟩
    · intro endpoint chance' clock' events' credential site' issued sound' apart
      obtain ⟨credentialMade⟩ := nonempty_issued issued
      have same := material _ credentialMade.isLoaded
      have own' : authority.IsOwn made caClock credentialMade.material := by
        rw [same]
        exact own
      obtain ⟨read, trusted⟩ := credentialMade.verifyIssuedBy_own own' holds.sound sound' apart
      rw [same] at trusted
      exact ⟨credentialMade.certificate, read, trusted⟩
  · rintro ⟨isThere, isKeyMissing⟩
    rcases settled with ⟨-, isMissing⟩ | ⟨made, caClock, holds⟩
    · rw [isThere] at isMissing
      cases isMissing
    obtain ⟨ca, loaded, publicKey, -⟩ := holds.material isThere
    have loaded' : authority.loadCertificate site.files = .ok ca := by
      obtain ⟨text, read, isCertificate⟩ := loadCertificate_eq_ok_iff.1 loaded
      exact loadCertificate_eq_ok_iff.2
        ⟨text, HasOwnPlaces.read_certificatePath leaves read, isCertificate⟩
    obtain ⟨key, isMade, read⟩ := places.new_key leaves isKeyMissing isKeyThere
    obtain ⟨rfl, isSize⟩ := Chance.eq_of_keyOfSize? isMade
    refine ⟨_, ca, loaded, loaded', publicKey, read, ?_⟩
    rintro ⟨key, certificate⟩ isLoaded
    obtain ⟨loadedCertificate, loadedKey⟩ := loadMaterial_eq_ok_iff.1 isLoaded
    obtain rfl := loadKey_eq_of_read sound.toIsRegular isSize unlike read loadedKey
    obtain rfl := Except.ok.inj (loaded'.symm.trans loadedCertificate)
    refine ⟨rfl, ?_⟩
    simp only [Material.isMatched, publicKey, beq_iff_eq, Option.some.injEq, PublicKey.rsa.injEq]

theorem isApart_plain : plain.IsApart where
  downward := by
    rintro path (rfl | rfl) <;> decide
  key := by decide
  certificate := by decide

private theorem exists_bootstrap_orphaned (chance chance' : Chance) (certificate : Certificate) :
    ∃ (files : FileSystem) (later : Site),
      (plain.newFiles chance certificate .empty).remove plain.keyPath = .ok files ∧
      files.read plain.certificatePath = .ok certificate.toPem ∧ plain.IsOrphaned files ∧
      (plain.bootstrap chance' plainClock).perform ⟨files, []⟩ = (.ok (), later) := by
  have keyThere : (plain.newFiles chance certificate .empty).get? [plain.keyPath] =
      some (.file (plain.keyText chance (chance.key plain.policy.keySize)) .owner) :=
    get?_keyPath_newFiles (by decide)
  have isRemoved := FileSystem.remove_name isName_keyPath_plain keyThere
  have isFree : ((plain.newFiles chance certificate .empty).erase [plain.keyPath]).get?
      [plain.keyPath] = none := by
    rw [FileSystem.get?_erase _ _ _ (by simp), if_pos rfl]
  have there : ((plain.newFiles chance certificate .empty).erase [plain.keyPath]).get?
      [plain.certificatePath] = some (.file certificate.toPem .everyone) := by
    rw [FileSystem.get?_erase _ _ _ (by simp), if_neg (by decide), get?_certificatePath_newFiles]
  generalize (plain.newFiles chance certificate .empty).erase [plain.keyPath] = files at *
  have isKeyNew : files.contains plain.keyPath = false :=
    FileSystem.contains_name_of_isFree isName_keyPath_plain isFree
  have target := FileSystem.target_name_of_file isName_certificatePath_plain there
  have isThere : files.contains plain.certificatePath = true :=
    FileSystem.contains_iff.2 ⟨_, _, target⟩
  have obtains : plain.ObtainsKey chance' files (chance'.key 2206) (files.insert [plain.keyPath]
      (.file (plain.keyText chance' (chance'.key 2206)) .owner)) :=
    .made isKeyNew (if_pos (by decide))
      (FileSystem.createParents_name isName_keyPath_plain files)
      (FileSystem.createSecret_name isName_keyPath_plain isFree _)
  obtain ⟨reported, performed⟩ : ∃ reported, (plain.bootstrap chance' plainClock).perform
      ⟨files, []⟩ = (.ok (), ⟨_, reported⟩) :=
    bootstrap_eq_ok_iff.2 ⟨_, _, obtains, .kept (obtains.keeps.contains isThere)⟩
  exact ⟨files, _, isRemoved, FileSystem.read_eq_ok_iff.2 ⟨_, _, target⟩, ⟨isThere, isKeyNew⟩,
    performed⟩

/-- The plain authority is made with a certificate that is that of its key. When its key is
taken away, it is made again with one that is not. -/
theorem material_of_upkept_plain :
    ∃ (site later : Site) (files : FileSystem) (material material' : Material),
      (plain.bootstrap (.ofSmallPrime 5) plainClock).perform ⟨.empty, []⟩ = (.ok (), site) ∧
      plain.loadMaterial site.files = .ok material ∧ material.isMatched = true ∧
      site.files.remove plain.keyPath = .ok files ∧
      (plain.bootstrap (.ofSmallPrime 7) plainClock).perform ⟨files, []⟩ = (.ok (), later) ∧
      plain.loadMaterial later.files = .ok material' ∧ material'.isMatched = false := by
  have sound : (Chance.ofSmallPrime 5).IsSound plain.policy.keySize :=
    Chance.isSound_ofSmallPrime_five
  have sound' : (Chance.ofSmallPrime 7).IsSound plain.policy.keySize :=
    Chance.isSound_ofSmallPrime_seven
  have short : ∀ chance, plain.OpensNoOther chance := fun _ long => absurd long (by decide)
  have isKeyNew : FileSystem.empty.contains plain.keyPath = false :=
    FileSystem.contains_name_of_isFree isName_keyPath_plain rfl
  have isCertificateNew : FileSystem.empty.contains plain.certificatePath = false :=
    FileSystem.contains_name_of_isFree isName_certificatePath_plain rfl
  obtain ⟨ca, reported, performed, loaded, own⟩ := exists_bootstrap_plain sound.toIsRegular
  have leaves := leaves_of_performed performed
  have places := isApart_plain.hasOwnPlaces FileSystem.isTree_empty leaves
  have notOrphaned : ¬plain.IsOrphaned .empty := by
    rintro ⟨isThere, -⟩
    rw [isThere] at isCertificateNew
    cases isCertificateNew
  obtain ⟨_, _, _, -, -, -, matched, -⟩ := (material_of_upkept isKeyNew isCertificateNew .start
    sound (short _) performed places).1 notOrphaned
  obtain ⟨files, later, isRemoved, read, orphaned, performed'⟩ :=
    exists_bootstrap_orphaned (.ofSmallPrime 5) (.ofSmallPrime 7) ca
  have isUpkept : plain.Upkept .empty files :=
    .removed (.bootstrapped .start sound (short _) performed places notOrphaned) (.inl rfl) isRemoved
  have tree : files.IsTree := (Leaves.isTree FileSystem.isTree_empty leaves).remove isRemoved
  have places' := isApart_plain.hasOwnPlaces tree (leaves_of_performed performed')
  obtain ⟨made, ca', loadedBefore, loadedLater, publicKey, keyRead, mismatched⟩ :=
    (material_of_upkept isKeyNew isCertificateNew isUpkept sound' (short _) performed' places').2
      orphaned
  -- the certificate is still that of the first key
  have same : ca' = ca := by
    obtain ⟨text, read', isCertificate⟩ := loadCertificate_eq_ok_iff.1 loadedBefore
    rw [read, Except.ok.injEq] at read'
    subst read'
    rw [Certificate.ofPem?_toPem_root own.isSize sound.key (Chance.ofSmallPrime 5).serial.isLt
      own.certificate, Option.some.injEq] at isCertificate
    exact isCertificate.symm
  rw [same, own.publicKey?_eq sound.key, Option.some.injEq, PublicKey.rsa.injEq] at publicKey
  have loadedKey : plain.loadKey later.files = .ok ((Chance.ofSmallPrime 7).key 2206) :=
    loadKey_eq_ok_iff.2 ⟨_, keyRead, by decide, Rsa.PrivateKey.ofPem?_toEncryptedPem
      (sound'.key.fits (by decide)) sound'.iv (by decide)⟩
  have loaded' : plain.loadMaterial later.files =
      .ok ⟨(Chance.ofSmallPrime 7).key plain.policy.keySize, ca'⟩ :=
    loadMaterial_eq_ok_iff.2 ⟨loadedLater, loadedKey⟩
  refine ⟨_, later, files, _, _, performed, loaded, (matched _ loaded).2, isRemoved, performed',
    loaded', ?_⟩
  rw [← Bool.not_eq_true, (mismatched _ loaded').2, ← publicKey]
  intro sameKey
  refine Chance.keyId_ofSmallPrime_ne ?_
  rw [Chance.keyId, Chance.keyId]
  exact congrArg (fun key : Rsa.PublicKey => key.toInfo.keyId) sameKey

end VpnAuthority.Authority
