import VpnAuthority.Proofs.Authority.Failures
import VpnAuthority.Proofs.FileSystem.Tree

/-! What a bootstrap leaves at each place of the tree, however it ends. -/
namespace VpnAuthority.Authority

variable {authority : Authority} {chance : Chance} {clock : Clock} {site : Site}
  {files middle later : FileSystem} {key : Rsa.PrivateKey} {place : Place} {path : String}

def HasKey (authority : Authority) (chance : Chance) (files : FileSystem) (key : Rsa.PrivateKey) :
    Prop :=
  if files.contains authority.keyPath then authority.loadKey files = .ok key
  else chance.keyOfSize? authority.policy.keySize = some key

def Owns (authority : Authority) (path : String) : Prop :=
  path = authority.keyPath ∨ path = authority.certificatePath

def IsOnTheWay (authority : Authority) (files : FileSystem) (place : Place) : Prop :=
  ∃ path front, authority.Owns path ∧ front <+: Path.parentSteps (Path.steps path) ∧
    files.locate true front = .ok (.node place .directory)

theorem IsOnTheWay.of_keeps (h : authority.IsOnTheWay files place) (keeps : files.Keeps later) :
    authority.IsOnTheWay later place := by
  obtain ⟨path, front, owns, isFront, leads⟩ := h
  obtain ⟨_, leads', ⟨⟩⟩ := keeps.locate leads
  exact ⟨path, front, owns, isFront, leads'⟩

def Adds (authority : Authority) (files : FileSystem) (place : Place) (node : Node) : Prop :=
  node = .directory ∧ authority.IsOnTheWay files place ∨
    ∃ path content access, authority.Owns path ∧ node = .file content access ∧
      files.target path = .ok (.node place node)

theorem Adds.of_keeps {node node' : Node} (h : authority.Adds files place node)
    (keeps : files.Keeps later) (there : later.get? place = some node') :
    authority.Adds later place node' := by
  rcases h with ⟨rfl, way⟩ | ⟨path, content, access, owns, rfl, leads⟩
  · have way' := way.of_keeps keeps
    refine .inl ⟨?_, way'⟩
    obtain ⟨path, front, -, -, leads⟩ := way'
    rw [FileSystem.get?_of_locate leads, Option.some.injEq] at there
    exact there.symm
  · obtain ⟨now, leads', becomes⟩ := keeps.target leads
    rw [FileSystem.get?_of_target leads', Option.some.injEq] at there
    subst there
    cases becomes with
    | same => exact .inr ⟨path, _, _, owns, rfl, leads'⟩
    | rewritten => exact .inr ⟨path, _, _, owns, rfl, leads'⟩

/-- What can become of a place while there is no new certificate: nothing, or it gets a
directory that is on the way or a new key. -/
inductive AddsKey (authority : Authority) (chance : Chance) (files later : FileSystem)
    (place : Place) : Prop where
  | same (isSame : later.get? place = files.get? place)
  | directory (isFree : files.get? place = none) (isNew : later.get? place = some .directory)
    (way : authority.IsOnTheWay later place)
  | key {key : Rsa.PrivateKey} (isFree : files.get? place = none)
    (isNew : files.contains authority.keyPath = false)
    (isMade : chance.keyOfSize? authority.policy.keySize = some key)
    (leads : later.target authority.keyPath =
      .ok (.node place (.file (authority.keyText chance key) .owner)))

/-- What can become of a place: nothing, or it gets a directory that is on the way, a new
key or the certificate. -/
inductive Leaves (authority : Authority) (chance : Chance) (clock : Clock)
    (files later : FileSystem) (place : Place) : Prop where
  | same (isSame : later.get? place = files.get? place)
  | directory (isFree : files.get? place = none) (isNew : later.get? place = some .directory)
    (way : authority.IsOnTheWay later place)
  | key {key : Rsa.PrivateKey} (isFree : files.get? place = none)
    (isNew : files.contains authority.keyPath = false)
    (isMade : chance.keyOfSize? authority.policy.keySize = some key)
    (leads : later.target authority.keyPath =
      .ok (.node place (.file (authority.keyText chance key) .owner)))
  | certificate {key : Rsa.PrivateKey} {certificate : Certificate} {access : Access}
    (isNew : files.contains authority.certificatePath = false)
    (hasKey : authority.HasKey chance files key)
    (isMade : Certificate.root authority.policy (.rsa key) authority.policy.authorityName
      authority.policy.authorityDays chance.serial clock = .ok certificate)
    (becomes : ∀ before, files.get? place = some before →
      before.Becomes (.file certificate.toPem access))
    (leads : later.target authority.certificatePath =
      .ok (.node place (.file certificate.toPem access)))

private theorem target_of_keeps {content : Bytes} {access : Access} (keeps : middle.Keeps later)
    (isSame : later.get? place = middle.get? place)
    (leads : middle.target path = .ok (.node place (.file content access))) :
    later.target path = .ok (.node place (.file content access)) := by
  obtain ⟨node, leads', -⟩ := keeps.target leads
  have there := FileSystem.get?_of_target leads'
  rw [isSame, FileSystem.get?_of_target leads, Option.some.injEq] at there
  rw [leads', there]

namespace AddsKey

theorem leaves (h : authority.AddsKey chance files later place) (clock : Clock) :
    authority.Leaves chance clock files later place := by
  cases h with
  | same isSame => exact .same isSame
  | directory isFree isNew way => exact .directory isFree isNew way
  | key isFree isNew isMade leads => exact .key isFree isNew isMade leads

theorem of_keeps (h : authority.AddsKey chance files middle place) (keeps : middle.Keeps later)
    (isSame : later.get? place = middle.get? place) :
    authority.AddsKey chance files later place := by
  cases h with
  | same isSame' => exact .same (isSame.trans isSame')
  | directory isFree isNew way =>
    exact .directory isFree (isSame.trans isNew) (way.of_keeps keeps)
  | key isFree isNew isMade leads =>
    exact .key isFree isNew isMade (target_of_keeps keeps isSame leads)

theorem isFree (h : authority.AddsKey chance files later place)
    (isFree : later.get? place = none) : files.get? place = none := by
  cases h with
  | same isSame => rw [← isSame, isFree]
  | directory isFree => exact isFree
  | key isFree => exact isFree

theorem createParents (h : authority.AddsKey chance files middle place)
    (owns : authority.Owns path) :
    authority.AddsKey chance files (middle.createParents path).1 place := by
  have added := FileSystem.createParents_addsDirectoriesOn middle path
  rcases added place with isSame | ⟨isFree, isNew, front, isFront, leads⟩
  · exact h.of_keeps added.addsDirectories.keeps isSame
  · exact .directory (h.isFree isFree) isNew ⟨path, front, owns, isFront, leads⟩

end AddsKey

namespace Leaves

theorem keeps (h : ∀ place, authority.Leaves chance clock files later place) :
    files.Keeps later := by
  intro place node there
  cases h place with
  | same isSame => exact ⟨node, isSame.trans there, .same node⟩
  | directory isFree | key isFree =>
    rw [isFree] at there
    cases there
  | certificate isNew hasKey isMade becomes leads =>
    exact ⟨_, FileSystem.get?_of_target leads, becomes node there⟩

theorem read {content : Bytes} (h : ∀ place, authority.Leaves chance clock files later place)
    (read : files.read path = .ok content) :
    later.read path = .ok content ∨ files.contains authority.certificatePath = false ∧
      later.Meets path authority.certificatePath ∧
        ∃ certificate : Certificate, later.read path = .ok certificate.toPem := by
  obtain ⟨place, access, ht⟩ := FileSystem.read_eq_ok_iff.1 read
  have there := FileSystem.get?_of_target ht
  obtain ⟨node, ht', -⟩ := (Leaves.keeps h).target ht
  have there' := FileSystem.get?_of_target ht'
  cases h place with
  | same isSame =>
    rw [isSame, there, Option.some.injEq] at there'
    subst there'
    exact .inl (FileSystem.read_eq_ok_iff.2 ⟨place, access, ht'⟩)
  | directory isFree | key isFree =>
    rw [isFree] at there
    cases there
  | certificate isNew hasKey isMade becomes leads =>
    rw [FileSystem.get?_of_target leads, Option.some.injEq] at there'
    subst there'
    exact .inr ⟨isNew, ⟨place, _, ht', leads⟩, _, FileSystem.read_eq_ok_iff.2 ⟨_, _, ht'⟩⟩

theorem isClosed (closed : files.IsClosed)
    (h : ∀ place, authority.Leaves chance clock files later place) : later.IsClosed where
  parent := by
    intro place step node there
    have isAbove : place <+: place ++ [step] := List.prefix_append _ _
    have apart : place ≠ place ++ [step] := by simp
    cases h (place ++ [step]) with
    | same isSame =>
      rw [isSame] at there
      obtain ⟨node', there', becomes⟩ := Leaves.keeps h _ _ (closed.parent there)
      cases becomes
      exact there'
    | directory isFree isNew way =>
      obtain ⟨_, _, -, -, leads⟩ := way
      exact (FileSystem.locate_reaches leads).2 place isAbove apart
    | key isFree isNew isMade leads => exact (FileSystem.locate_reaches leads).2 place isAbove apart
    | certificate isNew hasKey isMade becomes leads =>
      exact (FileSystem.locate_reaches leads).2 place isAbove apart

theorem isTree (tree : files.IsTree)
    (h : ∀ place, authority.Leaves chance clock files later place) : later.IsTree where
  isClosed := (isClosed tree.closed h).parent
  noLink := by
    intro place target there
    cases h place with
    | same isSame => exact tree.noLink place target (isSame.symm.trans there)
    | directory isFree isNew way =>
      rw [isNew] at there
      cases there
    | key isFree isNew isMade leads =>
      rw [FileSystem.get?_of_target leads] at there
      cases there
    | certificate isNew hasKey isMade becomes leads =>
      rw [FileSystem.get?_of_target leads] at there
      cases there

end Leaves

theorem ObtainsKey.hasKey (h : authority.ObtainsKey chance files key later) :
    authority.HasKey chance files key := by
  unfold HasKey
  cases h with
  | reused isThere isLoaded => rwa [if_pos isThere]
  | made isNew isMade => rwa [if_neg (by simp [isNew])]

theorem ObtainsKey.addsKey (h : authority.ObtainsKey chance files key later) (place : Place) :
    authority.AddsKey chance files later place := by
  cases h with
  | reused => exact .same rfl
  | @made parents _ isNew isMade hp hw =>
    have parentsAdd : authority.AddsKey chance files parents place := by
      have adds : authority.AddsKey chance files (files.createParents authority.keyPath).1
        place := AddsKey.createParents (.same rfl) (.inl rfl)
      rwa [hp] at adds
    obtain ⟨found, isNamed, isFree, rfl, leads⟩ := FileSystem.createSecret_eq_ok hw
    by_cases apart : place = found
    · subst apart
      exact .key (parentsAdd.isFree isFree) isNew isMade leads
    · exact parentsAdd.of_keeps (FileSystem.keeps_insert isNamed (by simp [isFree]))
        (FileSystem.get?_insert_of_ne apart)

theorem EnsuresCertificate.leaves (obtains : authority.ObtainsKey chance files key middle)
    (h : authority.EnsuresCertificate key chance clock middle later) (place : Place) :
    authority.Leaves chance clock files later place := by
  cases h with
  | kept => exact (obtains.addsKey place).leaves clock
  | @made certificate parents _ isNew isMade hp hw =>
    have parentsAdd (place : Place) : authority.AddsKey chance files parents place := by
      have adds : authority.AddsKey chance files
        (middle.createParents authority.certificatePath).1 place :=
          (obtains.addsKey place).createParents (.inr rfl)
      rwa [hp] at adds
    obtain ⟨found, access, isNamed, becomes, rfl, leads⟩ := FileSystem.write_eq_ok hw
    by_cases apart : place = found
    · subst apart
      refine .certificate ?_ obtains.hasKey isMade ?_ leads
      · rw [← Bool.not_eq_true] at isNew ⊢
        exact fun isThere => isNew (obtains.keeps.contains isThere)
      · intro before there
        have parentsLeave (place : Place) := (parentsAdd place).leaves clock
        obtain ⟨now, there', becomes'⟩ := Leaves.keeps parentsLeave _ _ there
        exact becomes'.trans (becomes now there')
    · exact ((parentsAdd place).of_keeps (FileSystem.keeps_insert isNamed becomes)
        (FileSystem.get?_insert_of_ne apart)).leaves clock

theorem addsKey_of_failed {failure : Failure} {stopped : Site}
    (failed : (authority.bootstrap chance clock).perform site = (.error failure, stopped))
    (place : Place) : authority.AddsKey chance site.files stopped.files place := by
  have untouched : authority.AddsKey chance site.files site.files place := .same rfl
  rcases bootstrap_eq_error failed with unobtained | ⟨key, middle, obtains, unensured⟩
  · rcases (obtainKey_eq_error unobtained).2 with same | ⟨-, same⟩
    · rw [same]
      exact untouched
    · rw [same]
      exact untouched.createParents (.inl rfl)
  · have adds := obtains.addsKey place
    rcases (ensureCertificate_eq_error unensured).2 with ⟨_, -, -, same⟩ | ⟨_, _, -, -, same⟩
    · rw [same]
      exact adds
    · rw [same]
      exact adds.createParents (.inr rfl)

theorem leaves_bootstrap (authority : Authority) (chance : Chance) (clock : Clock) (site : Site)
    (place : Place) : authority.Leaves chance clock site.files
      ((authority.bootstrap chance clock).perform site).2.files place := by
  rcases h : (authority.bootstrap chance clock).perform site with ⟨outcome, later⟩
  cases outcome with
  | ok u =>
    obtain ⟨key, middle, obtains, ensures⟩ := bootstrap_eq_ok_iff.1 ⟨later.events, h⟩
    exact ensures.leaves obtains place
  | error failure => exact (addsKey_of_failed h place).leaves clock

end VpnAuthority.Authority
