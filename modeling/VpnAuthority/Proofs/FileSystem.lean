import VpnAuthority.FileSystem.Administration
import VpnAuthority.Proofs.Outcome

/-! What becomes of a tree in which files are written: nothing is taken away, and paths
lead where they led before. -/
namespace VpnAuthority

/-- What a node may become: a file may get another content, all else stays. -/
inductive Node.Becomes : Node → Node → Prop where
  | same (node : Node) : Becomes node node
  | rewritten (content content' : Bytes) (access access' : Access) :
    Becomes (.file content access) (.file content' access')

theorem Node.Becomes.trans {before now later : Node} (h : before.Becomes now)
    (h' : now.Becomes later) : before.Becomes later := by
  cases h with
  | same => exact h'
  | rewritten => cases h' <;> constructor

/-- A path that is one name and lies at the top of the tree. -/
structure Path.IsName (path : String) : Prop where
  steps : Path.steps path = [path]
  checked : Path.check [path] = .ok ()
  isNamed : path ≠ "" ∧ path ≠ "." ∧ path ≠ ".."
  fits : ¬Path.maxNameLength < path.utf8ByteSize

namespace FileSystem

variable {files later last : FileSystem} {followLast : Bool} {links : Nat} {place found : Place}
  {steps : List String} {path : String} {node : Node} {content : Bytes} {access : Access}

theorem get?_insert_self (isNamed : place ≠ []) :
    (files.insert place node).get? place = some node := by
  rw [get?_insert _ _ _ _ isNamed, if_pos rfl]

theorem get?_insert_of_ne {other : Place} (apart : other ≠ place) :
    (files.insert place node).get? other = files.get? other := by
  by_cases top : other = []
  · subst top
    rfl
  · rw [get?_insert _ _ _ _ top, if_neg apart]

theorem get?_insert_free {other : Place} {before : Node} (isFree : files.get? place = none)
    (there : files.get? other = some before) :
    (files.insert place node).get? other = some before := by
  rw [get?_insert_of_ne, there]
  rintro rfl
  rw [isFree] at there
  cases there

theorem walk_nil : files.walk followLast links place [] = .ok (.node place .directory) := by
  rw [walk]

theorem walk_stays {step : String} {rest : List String} (stays : step = "" ∨ step = ".") :
    files.walk followLast links place (step :: rest) = files.walk followLast links place rest := by
  rw [walk, if_pos stays]

theorem walk_up {rest : List String} :
    files.walk followLast links place (".." :: rest) =
      files.walk followLast links place.dropLast rest := by
  rw [walk, if_neg (by decide), if_pos rfl]

section
variable {step : String} {rest : List String} (named : ¬(step = "" ∨ step = "."))
  (forward : ¬step = "..") (fits : ¬Path.maxNameLength < step.utf8ByteSize)
include named forward fits

theorem walk_free (isFree : files.get? (place ++ [step]) = none) :
    files.walk followLast links place (step :: rest) =
      if rest.isEmpty then .ok (.free (place ++ [step])) else .error .notFound := by
  rw [walk, if_neg named, if_neg forward, if_neg fits, isFree]

theorem walk_directory (there : files.get? (place ++ [step]) = some .directory) :
    files.walk followLast links place (step :: rest) =
      files.walk followLast links (place ++ [step]) rest := by
  rw [walk, if_neg named, if_neg forward, if_neg fits, there]

theorem walk_file (there : files.get? (place ++ [step]) = some (.file content access))
    (isLast : rest.isEmpty = true) :
    files.walk followLast links place (step :: rest) =
      .ok (.node (place ++ [step]) (.file content access)) := by
  rw [walk, if_neg named, if_neg forward, if_neg fits, there]
  exact if_pos isLast

theorem walk_link {target : String} (there : files.get? (place ++ [step]) = some (.link target))
    (isLast : (rest.isEmpty && !followLast) = true) :
    files.walk followLast links place (step :: rest) =
      .ok (.node (place ++ [step]) (.link target)) := by
  rw [walk, if_neg named, if_neg forward, if_neg fits, there]
  exact if_pos isLast

theorem walk_onward {target : String} (there : files.get? (place ++ [step]) = some (.link target))
    (onward : ¬(rest.isEmpty && !followLast) = true)
    (isSome : ¬target = "") :
    files.walk followLast (links + 1) place (step :: rest) =
      files.walk followLast links (linkBase place target) (Path.steps target ++ rest) := by
  rw [walk, if_neg named, if_neg forward, if_neg fits, there]
  exact (if_neg onward).trans (if_neg isSome)

theorem walk_file_eq_ok {goal : Target}
    (there : files.get? (place ++ [step]) = some (.file content access))
    (hw : files.walk followLast links place (step :: rest) = .ok goal) :
    rest = [] ∧ goal = .node (place ++ [step]) (.file content access) := by
  rw [walk, if_neg named, if_neg forward, if_neg fits, there] at hw
  dsimp only at hw
  split at hw
  · next isLast =>
    cases hw
    exact ⟨List.isEmpty_iff.1 isLast, rfl⟩
  · cases hw

theorem walk_onward_eq_ok {target : String} {goal : Target}
    (there : files.get? (place ++ [step]) = some (.link target))
    (onward : ¬(rest.isEmpty && !followLast) = true)
    (hw : files.walk followLast links place (step :: rest) = .ok goal) :
    ∃ links', files.walk followLast links' (linkBase place target)
      (Path.steps target ++ rest) = .ok goal := by
  rw [walk, if_neg named, if_neg forward, if_neg fits, there] at hw
  dsimp only at hw
  rw [if_neg onward] at hw
  split at hw
  · cases hw
  · split at hw
    · cases hw
    · exact ⟨_, hw⟩

end

def Target.goal : Target → Place
  | .node place _ | .free place => place

def Target.node? : Target → Option Node
  | .node _ node => some node
  | .free _ => none

def IsOpen (files : FileSystem) (place : Place) : Prop :=
  ∀ above, above <+: place → files.get? above = some .directory

theorem isOpen_nil (files : FileSystem) : files.IsOpen [] := by
  intro above isAbove
  rw [List.prefix_nil.1 isAbove]
  rfl

theorem IsOpen.dropLast (h : files.IsOpen place) : files.IsOpen place.dropLast := by
  intro above isAbove
  exact h above (isAbove.trans (List.dropLast_prefix place))

theorem IsOpen.concat {step : String} (h : files.IsOpen place)
    (there : files.get? (place ++ [step]) = some .directory) : files.IsOpen (place ++ [step]) := by
  intro above isAbove
  rcases List.prefix_concat_iff.1 isAbove with rfl | isAbove
  · exact there
  · exact h above isAbove

theorem IsOpen.linkBase (h : files.IsOpen place) (target : String) :
    files.IsOpen (linkBase place target) := by
  unfold FileSystem.linkBase
  split
  · exact isOpen_nil files
  · exact h

/-- From such a directory a path goes through directories to the node that the tree has at
its end, if any. -/
theorem walk_reaches {target : Target} (isOpen : files.IsOpen place)
    (hw : files.walk followLast links place steps = .ok target) :
    files.get? target.goal = target.node? ∧
      ∀ above, above <+: target.goal → above ≠ target.goal → files.get? above = some .directory := by
  have below {place : Place} {step : String} (isOpen : files.IsOpen place) {above : Place}
      (isAbove : above <+: place ++ [step]) (apart : above ≠ place ++ [step]) :
      files.get? above = some .directory := by
    rcases List.prefix_concat_iff.1 isAbove with same | isAbove
    · exact absurd same apart
    · exact isOpen above isAbove
  fun_induction FileSystem.walk files followLast links place steps with
  | case1 links place =>
    cases hw
    exact ⟨isOpen _ List.prefix_rfl, fun above isAbove _ => isOpen above isAbove⟩
  | case2 links place step rest stays ih => exact ih isOpen hw
  | case3 links place rest named ih => exact ih isOpen.dropLast hw
  | case5 links place step rest named forward fits there
  | case8 links place step rest named forward fits content access there
  | case10 links place step rest named forward fits target there =>
    cases hw
    exact ⟨there, fun above => below isOpen⟩
  | case7 links place step rest named forward fits there ih => exact ih (isOpen.concat there) hw
  | case13 place step rest named forward fits target there onward links isSome ih =>
    exact ih (isOpen.linkBase target) hw
  | _ => cases hw

theorem locate_reaches {target : Target} (hl : files.locate followLast steps = .ok target) :
    files.get? target.goal = target.node? ∧
      ∀ above, above <+: target.goal → above ≠ target.goal → files.get? above = some .directory := by
  simp only [locate, bind_eq_ok] at hl
  obtain ⟨_, -, hw⟩ := hl
  exact walk_reaches (isOpen_nil files) hw

theorem get?_of_locate (hl : files.locate followLast steps = .ok (.node found node)) :
    files.get? found = some node :=
  (locate_reaches hl).1

theorem get?_of_target (ht : files.target path = .ok (.node found node)) :
    files.get? found = some node :=
  get?_of_locate ht

/-- Every node of a tree is still there, at most with another content. -/
def Keeps (files later : FileSystem) : Prop :=
  ∀ place node, files.get? place = some node →
    ∃ node', later.get? place = some node' ∧ node.Becomes node'

theorem Keeps.refl (files : FileSystem) : files.Keeps files := fun _ node h => ⟨node, h, .same node⟩

theorem Keeps.trans (h : files.Keeps later) (h' : later.Keeps last) : files.Keeps last := by
  intro place node hn
  obtain ⟨middle, hm, first⟩ := h place node hn
  obtain ⟨node', hn', second⟩ := h' place middle hm
  exact ⟨node', hn', first.trans second⟩

theorem Keeps.isFree (h : files.Keeps later) (isFree : later.get? place = none) :
    files.get? place = none := by
  cases there : files.get? place with
  | none => rfl
  | some node =>
    obtain ⟨node', there', -⟩ := h place node there
    rw [there'] at isFree
    cases isFree

theorem keeps_insert (hp : place ≠ [])
    (h : ∀ before, files.get? place = some before → before.Becomes node) :
    files.Keeps (files.insert place node) := by
  intro other before hb
  by_cases same : other = place
  · subst same
    exact ⟨node, get?_insert_self hp, h before hb⟩
  · exact ⟨before, (get?_insert_of_ne same).trans hb, .same before⟩

theorem Keeps.walk (h : files.Keeps later)
    (hw : files.walk followLast links place steps = .ok (.node found node)) :
    ∃ node', later.walk followLast links place steps = .ok (.node found node') ∧
      node.Becomes node' := by
  fun_induction FileSystem.walk files followLast links place steps with
  | case1 =>
    cases hw
    exact ⟨.directory, walk_nil, .same _⟩
  | case2 links place step rest stays ih =>
    rw [walk_stays stays]
    exact ih hw
  | case3 links place rest named ih =>
    rw [walk_up]
    exact ih hw
  | case7 links place step rest named forward fits there ih =>
    obtain ⟨_, there', ⟨⟩⟩ := h _ _ there
    rw [walk_directory named forward fits there']
    exact ih hw
  | case8 links place step rest named forward fits content access there isLast =>
    cases hw
    obtain ⟨_, there', _ | _⟩ := h _ _ there
    · exact ⟨_, walk_file named forward fits there' isLast, .same _⟩
    · exact ⟨_, walk_file named forward fits there' isLast, .rewritten _ _ _ _⟩
  | case10 links place step rest named forward fits target there isLast =>
    cases hw
    obtain ⟨_, there', ⟨⟩⟩ := h _ _ there
    exact ⟨_, walk_link named forward fits there' isLast, .same _⟩
  | case13 place step rest named forward fits target there onward links isSome ih =>
    obtain ⟨_, there', ⟨⟩⟩ := h _ _ there
    rw [walk_onward named forward fits there' onward isSome]
    exact ih hw
  | _ => cases hw

theorem walk_insert_free (noLink : ∀ target, node ≠ .link target)
    (hw : files.walk followLast links place steps = .ok (.free found)) :
    files.get? found = none ∧ found ≠ [] ∧
      (files.insert found node).walk true links place steps = .ok (.node found node) := by
  fun_induction FileSystem.walk files followLast links place steps with
  | case2 links place step rest stays ih =>
    rw [walk_stays stays]
    exact ih hw
  | case3 links place rest named ih =>
    rw [walk_up]
    exact ih hw
  | case5 links place step rest named forward fits isFree isLast =>
    cases hw
    have isNamed : place ++ [step] ≠ [] := by simp
    have there : (files.insert (place ++ [step]) node).get? (place ++ [step]) = some node :=
      get?_insert_self isNamed
    refine ⟨isFree, isNamed, ?_⟩
    cases node with
    | file content access => exact walk_file named forward fits there isLast
    | directory => rw [walk_directory named forward fits there, List.isEmpty_iff.1 isLast, walk_nil]
    | link target => exact absurd rfl (noLink target)
  | case7 links place step rest named forward fits there ih =>
    obtain ⟨isFree, isNamed, hw'⟩ := ih hw
    refine ⟨isFree, isNamed, ?_⟩
    rw [walk_directory named forward fits (get?_insert_free isFree there), hw']
  | case13 place step rest named forward fits target there onward links isSome ih =>
    obtain ⟨isFree, isNamed, hw'⟩ := ih hw
    refine ⟨isFree, isNamed, ?_⟩
    rw [walk_onward named forward fits (get?_insert_free isFree there) (by simp) isSome, hw']
  | _ => cases hw

theorem target_of_checked (checked : Path.check (Path.steps path) = .ok ()) :
    files.target path = files.walk true Path.maxLinks [] (Path.steps path) := by
  rw [FileSystem.target, locate, checked]
  rfl

theorem Keeps.locate (h : files.Keeps later)
    (hl : files.locate followLast steps = .ok (.node found node)) :
    ∃ node', later.locate followLast steps = .ok (.node found node') ∧ node.Becomes node' := by
  simp only [FileSystem.locate, bind_eq_ok] at hl ⊢
  obtain ⟨_, checked, hw⟩ := hl
  obtain ⟨node', hw', becomes⟩ := h.walk hw
  exact ⟨node', ⟨_, checked, hw'⟩, becomes⟩

theorem Keeps.target (h : files.Keeps later) (ht : files.target path = .ok (.node found node)) :
    ∃ node', later.target path = .ok (.node found node') ∧ node.Becomes node' :=
  h.locate ht

theorem locate_insert_free (node : Node) (noLink : ∀ target, node ≠ .link target)
    (hl : files.locate followLast steps = .ok (.free found)) :
    files.get? found = none ∧ found ≠ [] ∧
      (files.insert found node).locate true steps = .ok (.node found node) := by
  simp only [FileSystem.locate, bind_eq_ok] at hl ⊢
  obtain ⟨_, checked, hw⟩ := hl
  obtain ⟨isFree, isNamed, hw'⟩ := walk_insert_free noLink hw
  exact ⟨isFree, isNamed, _, checked, hw'⟩

theorem contains_iff : files.contains path = true ↔
    ∃ found node, files.target path = .ok (.node found node) := by
  unfold contains
  split
  · next found node ht => simp [ht]
  · next ht => simpa using ht

theorem Keeps.contains (h : files.Keeps later) (hc : files.contains path = true) :
    later.contains path = true := by
  obtain ⟨found, node, ht⟩ := contains_iff.1 hc
  obtain ⟨node', ht', -⟩ := h.target ht
  exact contains_iff.2 ⟨found, node', ht'⟩

theorem read_eq_ok_iff : files.read path = .ok content ↔
    ∃ found access, files.target path = .ok (.node found (.file content access)) := by
  unfold read
  split
  · next found content' access ht => simp [ht]
  · next found node isOther ht =>
    simp only [ht, reduceCtorEq, Except.ok.injEq, Target.node.injEq, false_iff, not_exists, not_and]
    rintro _ access - rfl
    exact isOther _ _ rfl
  · next ht => simp [ht]
  · next ht => simp [ht]

def Meets (files : FileSystem) (path other : String) : Prop :=
  ∃ place node, files.target path = .ok (.node place node) ∧
    files.target other = .ok (.node place node)

/-- A path that ends in a slash leads to a directory, if anywhere. -/
theorem walk_of_slash {target : Target} (slash : steps.getLast? = some "")
    (hw : files.walk followLast links place steps = .ok target) :
    ∃ found, target = .node found .directory := by
  have behind {step : String} {rest : List String} (named : ¬(step = "" ∨ step = "."))
      (slash : (step :: rest).getLast? = some "") : rest.getLast? = some "" := by
    cases rest with
    | nil => simp_all
    | cons => rwa [List.getLast?_cons_cons] at slash
  fun_induction FileSystem.walk files followLast links place steps with
  | case1 => cases slash
  | case2 links place step rest stays ih =>
    cases rest with
    | nil =>
      rw [walk_nil] at hw
      cases hw
      exact ⟨place, rfl⟩
    | cons => exact ih (by rwa [List.getLast?_cons_cons] at slash) hw
  | case3 links place rest named ih => exact ih (behind named slash) hw
  | case7 links place step rest named forward fits there ih => exact ih (behind named slash) hw
  | case13 place step rest named forward fits target there onward links isSome ih =>
    exact ih (by rw [List.getLast?_append, behind named slash, Option.some_or]) hw
  | case5 links place step rest named forward fits there isLast
  | case8 links place step rest named forward fits content access there isLast
  | case10 links place step rest named forward fits target there isLast =>
    have := behind named slash
    simp_all
  | _ => cases hw

/-- A path that leads to anything but a directory does not end in a slash, and none of its links
does that it follows to the last. -/
theorem endsInSlash_of_walk {target : Target}
    (noDirectory : ∀ found, target ≠ .node found .directory)
    (hw : files.walk followLast links place steps = .ok target) :
    files.endsInSlash followLast links place steps = false := by
  have goesOn {links : Nat} {place : Place} {rest : List String} (front : List String)
      (hw : files.walk followLast links place (front ++ rest) = .ok target) :
      ¬Path.isSlash rest = true := by
    intro isSlash
    simp only [Path.isSlash, Bool.and_eq_true, Bool.not_eq_true', List.isEmpty_eq_false_iff,
      List.all_eq_true, beq_iff_eq] at isSlash
    have slash : rest.getLast? = some "" := by
      rw [List.getLast?_eq_some_getLast isSlash.1, isSlash.2 _ (List.getLast_mem _)]
    obtain ⟨found, same⟩ := walk_of_slash (by rw [List.getLast?_append, slash, Option.some_or]) hw
    exact noDirectory found same
  fun_induction FileSystem.walk files followLast links place steps with
  | case1 => rw [endsInSlash]
  | case2 links place step rest stays ih =>
    rw [endsInSlash, if_pos stays]
    exact ih hw
  | case3 links place rest named ih =>
    rw [endsInSlash, if_neg named, if_pos rfl]
    exact ih hw
  | case5 links place step rest named forward fits there isLast
  | case8 links place step rest named forward fits content access there isLast =>
    rw [endsInSlash, if_neg named, if_neg forward, List.isEmpty_iff.1 isLast, if_neg (by decide),
      if_neg fits, there]
  | case7 links place step rest named forward fits there ih =>
    rw [endsInSlash, if_neg named, if_neg forward, if_neg (goesOn [] hw), if_neg fits, there]
    exact ih hw
  | case10 links place step rest named forward fits target there isLast =>
    rw [endsInSlash, if_neg named, if_neg forward, if_neg (by simp_all [Path.isSlash]), if_neg fits,
      there]
    cases links with
    | zero => rfl
    | succ links => exact if_pos isLast
  | case13 place step rest named forward fits target there onward links isSome ih =>
    rw [endsInSlash, if_neg named, if_neg forward, if_neg (goesOn _ hw), if_neg fits, there]
    exact (if_neg onward).trans (ih hw)
  | _ => cases hw

theorem locate_of_locateNew {target : Target}
    (h : files.locateNew followLast path = .ok target) :
    files.locate followLast (Path.steps path) = .ok target := by
  simp only [locateNew, bind_eq_ok] at h
  obtain ⟨_, -, h⟩ := h
  split at h
  · cases h
  · exact h

theorem locateNew_of_locate {target : Target}
    (noDirectory : ∀ found, target ≠ .node found .directory)
    (h : files.locate followLast (Path.steps path) = .ok target) :
    files.locateNew followLast path = .ok target := by
  have hl := h
  simp only [locate, bind_eq_ok] at h
  obtain ⟨_, checked, hw⟩ := h
  rw [locateNew, checked, endsInSlash_of_walk noDirectory hw]
  exact hl

theorem createSecret_free (h : files.locate false (Path.steps path) = .ok (.free found))
    (content : Bytes) :
    files.createSecret path content = .ok (files.insert found (.file content .owner)) := by
  rw [createSecret, locateNew_of_locate (by simp) h]

theorem write_free (h : files.target path = .ok (.free found)) (content : Bytes) :
    files.write path content = .ok (files.insert found (.file content .everyone)) := by
  rw [write, locateNew_of_locate (by simp) h]

theorem write_file {old : Bytes} (h : files.target path = .ok (.node found (.file old access)))
    (content : Bytes) :
    files.write path content = .ok (files.insert found (.file content access)) := by
  rw [write, locateNew_of_locate (by simp) h]

theorem createSecret_eq_ok (h : files.createSecret path content = .ok later) :
    ∃ found, found ≠ [] ∧ files.get? found = none ∧
      later = files.insert found (.file content .owner) ∧
      later.target path = .ok (.node found (.file content .owner)) := by
  unfold createSecret at h
  split at h
  · next found opened =>
    cases h
    obtain ⟨isFree, isNamed, leads⟩ :=
      locate_insert_free (.file content .owner) (by simp) (locate_of_locateNew opened)
    exact ⟨found, isNamed, isFree, rfl, leads⟩
  · cases h
  · cases h

theorem write_cases (h : files.write path content = .ok later) :
    (∃ found, files.target path = .ok (.free found) ∧
      later = files.insert found (.file content .everyone)) ∨
    ∃ found old access, files.target path = .ok (.node found (.file old access)) ∧
      later = files.insert found (.file content access) := by
  unfold write at h
  split at h
  · next found opened =>
    cases h
    exact .inl ⟨found, locate_of_locateNew opened, rfl⟩
  · next found old access opened =>
    cases h
    exact .inr ⟨found, old, access, locate_of_locateNew opened, rfl⟩
  · cases h
  · cases h

theorem write_eq_ok (h : files.write path content = .ok later) :
    ∃ found access, found ≠ [] ∧
      (∀ before, files.get? found = some before → before.Becomes (.file content access)) ∧
      later = files.insert found (.file content access) ∧
      later.target path = .ok (.node found (.file content access)) := by
  obtain ⟨found, led, rfl⟩ | ⟨found, old, access, led, rfl⟩ := write_cases h
  · obtain ⟨isFree, isNamed, leads⟩ := locate_insert_free (.file content .everyone) (by simp) led
    exact ⟨found, .everyone, isNamed, by simp [isFree], rfl, leads⟩
  · have there := get?_of_target led
    have isNamed : found ≠ [] := by
      rintro rfl
      cases there
    have same : ∀ before, files.get? found = some before →
        before.Becomes (.file content access) := by
      rw [there]
      rintro _ ⟨⟩
      exact .rewritten _ _ _ _
    refine ⟨found, access, isNamed, same, rfl, ?_⟩
    obtain ⟨node', leads, -⟩ := (keeps_insert isNamed same).target led
    have there' := get?_of_target leads
    rw [get?_insert_self isNamed] at there'
    cases there'
    exact leads

theorem walk_of_shrunk (h : ∀ place node, later.get? place = some node →
      files.get? place = some node)
    (hw : later.walk followLast links place steps = .ok (.node found node)) :
    files.walk followLast links place steps = .ok (.node found node) := by
  fun_induction FileSystem.walk later followLast links place steps with
  | case1 =>
    cases hw
    exact walk_nil
  | case2 links place step rest stays ih => rw [walk_stays stays, ih hw]
  | case3 links place rest named ih => rw [walk_up, ih hw]
  | case7 links place step rest named forward fits there ih =>
    rw [walk_directory named forward fits (h _ _ there), ih hw]
  | case8 links place step rest named forward fits content access there isLast =>
    cases hw
    exact walk_file named forward fits (h _ _ there) isLast
  | case10 links place step rest named forward fits target there isLast =>
    cases hw
    exact walk_link named forward fits (h _ _ there) isLast
  | case13 place step rest named forward fits target there onward links isSome ih =>
    rw [walk_onward named forward fits (h _ _ there) onward isSome, ih hw]
  | _ => cases hw

theorem remove_eq_ok (h : files.remove path = .ok later) :
    ∃ gone node, files.locate false (Path.steps path) = .ok (.node gone node) ∧
      node ≠ .directory ∧ later = files.erase gone := by
  unfold remove at h
  split at h
  · cases h
  · next gone node isOther located =>
    cases h
    exact ⟨gone, node, located, isOther, rfl⟩
  · cases h
  · cases h

theorem get?_of_erase {gone : Place} (there : (files.erase gone).get? place = some node) :
    files.get? place = some node := by
  by_cases top : place = []
  · subst top
    exact there
  · rw [get?_erase _ _ _ top] at there
    split at there
    · cases there
    · exact there

theorem get?_erase_of_ne (apart : place ≠ gone) (there : files.get? place = some node) :
    (files.erase gone).get? place = some node := by
  by_cases top : place = []
  · subst top
    exact there
  · rw [get?_erase _ _ _ top, if_neg apart, there]

theorem target_of_remove (h : files.remove path = .ok later) {other : String}
    (ht : later.target other = .ok (.node found node)) :
    files.target other = .ok (.node found node) := by
  obtain ⟨gone, -, -, -, rfl⟩ := remove_eq_ok h
  simp only [FileSystem.target, locate, bind_eq_ok] at ht ⊢
  obtain ⟨_, checked, hw⟩ := ht
  exact ⟨_, checked, walk_of_shrunk (fun _ _ => get?_of_erase) hw⟩

/-- All that is new in a tree is directories. -/
def AddsDirectories (files later : FileSystem) : Prop :=
  ∀ place, later.get? place = files.get? place ∨
    files.get? place = none ∧ later.get? place = some .directory

theorem AddsDirectories.refl (files : FileSystem) : files.AddsDirectories files := fun _ => .inl rfl

theorem AddsDirectories.trans (h : files.AddsDirectories later) (h' : later.AddsDirectories last) :
    files.AddsDirectories last := by
  intro place
  rcases h' place with same' | ⟨isFree', isNew'⟩
  · rw [same']
    exact h place
  · rcases h place with same | ⟨-, isNew⟩
    · exact .inr ⟨same ▸ isFree', isNew'⟩
    · rw [isNew] at isFree'
      cases isFree'

theorem AddsDirectories.get? (h : files.AddsDirectories later)
    (there : files.get? place = some node) : later.get? place = some node := by
  rcases h place with same | ⟨isFree, -⟩
  · rw [same, there]
  · rw [isFree] at there
    cases there

theorem AddsDirectories.keeps (h : files.AddsDirectories later) : files.Keeps later :=
  fun _ node there => ⟨node, h.get? there, .same node⟩

/-- The new directories of a tree are those on the way of a path. -/
def AddsDirectoriesOn (steps : List String) (files later : FileSystem) : Prop :=
  ∀ place, later.get? place = files.get? place ∨
    files.get? place = none ∧ later.get? place = some .directory ∧
      ∃ front, front <+: steps ∧ later.locate true front = .ok (.node place .directory)

namespace AddsDirectoriesOn

theorem refl (steps : List String) (files : FileSystem) : AddsDirectoriesOn steps files files :=
  fun _ => .inl rfl

theorem addsDirectories (h : AddsDirectoriesOn steps files later) : files.AddsDirectories later :=
  fun place => (h place).imp_right fun ⟨isFree, isNew, _⟩ => ⟨isFree, isNew⟩

theorem of_front {front : List String} (isFront : front <+: steps)
    (h : AddsDirectoriesOn front files later) : AddsDirectoriesOn steps files later :=
  fun place => (h place).imp_right fun ⟨isFree, isNew, front', isFront', leads⟩ =>
    ⟨isFree, isNew, front', isFront'.trans isFront, leads⟩

theorem trans (h : AddsDirectoriesOn steps files later) (h' : AddsDirectoriesOn steps later last) :
    AddsDirectoriesOn steps files last := by
  intro place
  rcases h' place with same' | ⟨isFree', isNew', way'⟩
  · rcases h place with same | ⟨isFree, isNew, front, isFront, leads⟩
    · exact .inl (same'.trans same)
    · obtain ⟨_, leads', ⟨⟩⟩ := h'.addsDirectories.keeps.locate leads
      exact .inr ⟨isFree, same'.trans isNew, front, isFront, leads'⟩
  · rcases h.addsDirectories place with same | ⟨-, isNew⟩
    · exact .inr ⟨same ▸ isFree', isNew', way'⟩
    · rw [isNew] at isFree'
      cases isFree'

end AddsDirectoriesOn

private theorem createDirectory_addsDirectoriesOn (h : files.createDirectory steps = .ok later) :
    AddsDirectoriesOn steps files later := by
  unfold createDirectory at h
  split at h
  · next found hl =>
    cases h
    obtain ⟨isFree, -, leads⟩ := locate_insert_free .directory (by simp) hl
    intro place
    by_cases top : place = []
    · subst top
      exact .inl rfl
    · rw [get?_insert _ _ _ _ top]
      split
      · next same =>
        subst same
        exact .inr ⟨isFree, rfl, steps, List.prefix_rfl, leads⟩
      · exact .inl rfl
  · cases h
  · cases h

private theorem ensureDirectory_addsDirectoriesOn (h : files.ensureDirectory steps = .ok later) :
    AddsDirectoriesOn steps files later := by
  unfold ensureDirectory at h
  split at h
  · next hc =>
    cases h
    exact createDirectory_addsDirectoriesOn hc
  · split at h
    · cases h
      exact .refl steps files
    · cases h

private theorem ensureAll_addsDirectoriesOn (files : FileSystem) (steps : List String) :
    AddsDirectoriesOn steps.reverse files (files.ensureAll steps).1 := by
  induction steps with
  | nil => exact .refl [] files
  | cons step above ih =>
    have ih : AddsDirectoriesOn (step :: above).reverse files (files.ensureAll above).1 :=
      ih.of_front (by simp)
    rw [ensureAll]
    split
    · next h => exact ensureDirectory_addsDirectoriesOn h
    · split
      · next h =>
        rw [h] at ih
        exact ih
      · next h =>
        rw [h] at ih
        split
        · next h' => exact ih.trans (ensureDirectory_addsDirectoriesOn h')
        · exact ih
    · exact .refl _ files

theorem createParents_addsDirectoriesOn (files : FileSystem) (path : String) :
    AddsDirectoriesOn (Path.parentSteps (Path.steps path)) files (files.createParents path).1 := by
  have added := ensureAll_addsDirectoriesOn files (Path.parentSteps (Path.steps path)).reverse
  rwa [List.reverse_reverse] at added

theorem createParents_addsDirectories (files : FileSystem) (path : String) :
    files.AddsDirectories (files.createParents path).1 :=
  (createParents_addsDirectoriesOn files path).addsDirectories

section
variable {name : String} (h : Path.IsName name)
include h

private theorem not_stays : ¬(name = "" ∨ name = ".") := by
  simp [h.isNamed]

theorem walk_name_of_isFree {rest : List String} (isFree : files.get? (place ++ [name]) = none) :
    files.walk followLast links place (name :: rest) =
      if rest.isEmpty then .ok (.free (place ++ [name])) else .error .notFound :=
  walk_free (not_stays h) h.isNamed.2.2 h.fits isFree

theorem walk_name_of_directory {rest : List String}
    (there : files.get? (place ++ [name]) = some .directory) :
    files.walk followLast links place (name :: rest) =
      files.walk followLast links (place ++ [name]) rest :=
  walk_directory (not_stays h) h.isNamed.2.2 h.fits there

theorem walk_name_of_file (there : files.get? (place ++ [name]) = some (.file content access)) :
    files.walk followLast links place [name] =
      .ok (.node (place ++ [name]) (.file content access)) :=
  walk_file (not_stays h) h.isNamed.2.2 h.fits there rfl

private theorem locate_name_of_isFree (isFree : files.get? [name] = none) :
    files.locate followLast (Path.steps name) = .ok (.free [name]) := by
  rw [locate, h.steps, h.checked]
  exact walk_name_of_isFree h isFree

theorem ensureAll_name_of_isFree (isFree : files.get? [name] = none) :
    files.ensureAll [name] = (files.insert [name] .directory, .ok ()) := by
  have located : files.locate false (Path.steps name) = .ok (.free [name]) :=
    locate_name_of_isFree h isFree
  rw [h.steps] at located
  have made : files.ensureDirectory [name] = .ok (files.insert [name] .directory) := by
    rw [ensureDirectory, createDirectory, located]
  simp only [ensureAll, List.reverse_singleton, made]

theorem contains_name_of_isFree (isFree : files.get? [name] = none) :
    files.contains name = false := by
  rw [FileSystem.contains, FileSystem.target, locate_name_of_isFree h isFree]

theorem target_name_of_file (there : files.get? [name] = some (.file content access)) :
    files.target name = .ok (.node [name] (.file content access)) := by
  rw [FileSystem.target, locate, h.steps, h.checked]
  exact walk_name_of_file h there

theorem remove_name (there : files.get? [name] = some (.file content access)) :
    files.remove name = .ok (files.erase [name]) := by
  have located : files.locate false (Path.steps name) =
      .ok (.node [name] (.file content access)) := by
    rw [locate, h.steps, h.checked]
    exact walk_name_of_file h there
  rw [remove, located]

theorem createParents_name (files : FileSystem) : files.createParents name = (files, .ok ()) := by
  have top : Path.parentSteps [name] = [] := by
    have notAbsolute : Path.isAbsolute [name] = false := by
      unfold Path.isAbsolute
      split
      · next he => simp at he
      · rfl
    simp only [Path.parentSteps, notAbsolute, Bool.false_and, Bool.false_eq_true, if_false,
      List.filter_cons, List.filter_nil]
    split <;> rfl
  rw [createParents, h.steps, top]
  rfl

theorem locate_up {rest : List String} (there : files.get? [name] = some .directory)
    (checked : Path.check (name :: ".." :: rest) = .ok ()) (followLast : Bool) :
    files.locate followLast (name :: ".." :: rest) =
      files.walk followLast Path.maxLinks [] rest := by
  have there' : files.get? ([] ++ [name]) = some .directory := there
  rw [locate, checked]
  change files.walk followLast Path.maxLinks [] (name :: ".." :: rest) = _
  rw [walk_name_of_directory h there', walk_up, List.nil_append, List.dropLast_singleton]

section
variable (checked : Path.check [name, ".."] = .ok ())
include checked

private theorem ensureDirectory_up (there : files.get? [name] = some .directory) :
    files.ensureDirectory [name, ".."] = .ok files := by
  have located (followLast : Bool) : files.locate followLast [name, ".."] =
      .ok (.node [] .directory) :=
    (locate_up h there checked followLast).trans walk_nil
  rw [ensureDirectory, createDirectory, located, isDirectory, located]
  rfl

theorem ensureAll_up_of_directory (there : files.get? [name] = some .directory) :
    files.ensureAll ["..", name] = (files, .ok ()) := by
  have present := ensureDirectory_up h checked there
  simp only [ensureAll, List.reverse_cons, List.reverse_nil, List.nil_append,
    List.singleton_append, present]

theorem ensureAll_up_of_isFree (isFree : files.get? ([] ++ [name]) = none) :
    files.ensureAll ["..", name] = (files.insert [name] .directory, .ok ()) := by
  have located (followLast : Bool) : files.locate followLast [name, ".."] = .error .notFound := by
    rw [locate, checked]
    change files.walk followLast Path.maxLinks [] [name, ".."] = _
    rw [walk_name_of_isFree h isFree]
    rfl
  have missing : files.ensureDirectory [name, ".."] = .error .notFound := by
    rw [ensureDirectory, createDirectory, located, isDirectory, located]
    rfl
  have above := ensureAll_name_of_isFree h isFree
  have there : (files.insert [name] .directory).get? [name] = some .directory :=
    get?_insert_self (by simp)
  have present := ensureDirectory_up h checked there
  rw [ensureAll]
  simp only [List.reverse_cons, List.reverse_nil, List.nil_append, List.singleton_append, missing,
    above, present]

end

theorem createSecret_name (isFree : files.get? [name] = none) (content : Bytes) :
    files.createSecret name content = .ok (files.insert [name] (.file content .owner)) := by
  exact createSecret_free (locate_name_of_isFree h isFree) content

theorem write_name (isFree : files.get? [name] = none) (content : Bytes) :
    files.write name content = .ok (files.insert [name] (.file content .everyone)) := by
  exact write_free (locate_name_of_isFree h isFree) content

end

end FileSystem
end VpnAuthority
