import Mathlib.Data.List.Induction
import VpnAuthority.Proofs.FileSystem

/-! Trees without links, in which every node lies in a directory. Where no step of a path
leads upwards, it leads downwards all the way, through directories that were there before
if its end was. -/
namespace VpnAuthority.FileSystem

variable {files later : FileSystem} {followLast : Bool} {links : Nat} {place found above : Place}
  {steps : List String} {path : String} {node : Node}

structure IsTree (files : FileSystem) : Prop where
  isClosed : ∀ {place step node}, files.get? (place ++ [step]) = some node →
    files.get? place = some .directory
  noLink : ∀ place target, files.get? place ≠ some (.link target)

theorem isTree_empty : empty.IsTree where
  isClosed := by
    intro place step node there
    rw [get?, if_neg (by simp)] at there
    cases there
  noLink := by
    intro place target there
    unfold get? at there
    split at there <;> cases there

theorem IsTree.insert {step : String} (h : files.IsTree)
    (parent : files.get? place = some .directory) (isFree : files.get? (place ++ [step]) = none)
    (noLink : ∀ target, node ≠ .link target) : (files.insert (place ++ [step]) node).IsTree where
  isClosed := by
    intro other step' node' there
    rw [get?_insert _ _ _ _ (by simp)] at there
    split at there
    · next same =>
      rw [(List.append_inj' same rfl).1]
      exact get?_insert_free isFree parent
    · exact get?_insert_free isFree (h.isClosed there)
  noLink := by
    intro other target there
    by_cases same : other = place ++ [step]
    · rw [same, get?_insert_self (by simp)] at there
      cases there
      exact noLink target rfl
    · rw [get?_insert_of_ne same] at there
      exact h.noLink other target there

theorem IsTree.remove (h : files.IsTree) (isRemoved : files.remove path = .ok later) :
    later.IsTree := by
  obtain ⟨gone, node, located, isOther, rfl⟩ := remove_eq_ok isRemoved
  have isFile := get?_of_locate located
  constructor
  · intro place step node' there
    have parent := h.isClosed (get?_of_erase there)
    by_cases top : place = []
    · subst top
      rfl
    · rw [get?_erase _ _ _ top, if_neg, parent]
      rintro rfl
      rw [isFile, Option.some.injEq] at parent
      exact isOther parent
  · intro place target there
    exact h.noLink place target (get?_of_erase there)

structure IsClosed (files : FileSystem) : Prop where
  parent : ∀ {place step node}, files.get? (place ++ [step]) = some node →
    files.get? place = some .directory

theorem IsTree.closed (h : files.IsTree) : files.IsClosed := ⟨h.isClosed⟩

theorem IsClosed.get?_above (h : files.IsClosed) (there : files.get? found = some node)
    (isAbove : above <+: found) (apart : above ≠ found) : files.get? above = some .directory := by
  induction found using List.reverseRecOn generalizing node with
  | nil => exact absurd (List.prefix_nil.1 isAbove) apart
  | append_singleton init step ih =>
    have parent := h.parent there
    rcases List.prefix_concat_iff.1 isAbove with rfl | isAbove
    · exact absurd rfl apart
    · by_cases same : above = init
      · rw [same, parent]
      · exact ih parent isAbove same

theorem IsClosed.get?_below (h : files.IsClosed) (isFree : files.get? above = none)
    (isAbove : above <+: found) : files.get? found = none := by
  by_cases same : above = found
  · rw [← same, isFree]
  · cases there : files.get? found with
    | none => rfl
    | some node =>
      rw [h.get?_above there isAbove same] at isFree
      cases isFree

theorem IsTree.get?_above (h : files.IsTree) (there : files.get? found = some node)
    (isAbove : above <+: found) (apart : above ≠ found) : files.get? above = some .directory :=
  h.closed.get?_above there isAbove apart

variable {target : Target}

/-- The steps that lead anywhere. -/
def named (steps : List String) : List String := steps.filter fun s => s ≠ "" ∧ s ≠ "."

theorem named_cons_of_stays {step : String} (stays : step = "" ∨ step = ".") (rest : List String) :
    named (step :: rest) = named rest := by
  rcases stays with rfl | rfl <;> rfl

theorem named_cons_of_named {step : String} (isNamed : ¬(step = "" ∨ step = "."))
    (rest : List String) : named (step :: rest) = step :: named rest := by
  rw [not_or] at isNamed
  rw [named, List.filter_cons_of_pos (by simp [isNamed])]
  rfl

theorem goal_of_walk (h : files.IsTree) (downward : ".." ∉ steps)
    (hw : files.walk followLast links place steps = .ok target) :
    target.goal = place ++ named steps := by
  fun_induction FileSystem.walk files followLast links place steps with
  | case1 links place =>
    cases hw
    exact (List.append_nil place).symm
  | case2 links place step rest stays ih =>
    rw [ih (List.not_mem_of_not_mem_cons downward) hw, named_cons_of_stays stays]
  | case3 links place rest isNamed ih => simp at downward
  | case5 links place step rest isNamed forward fits isFree isLast
  | case8 links place step rest isNamed forward fits content access there isLast
  | case10 links place step rest isNamed forward fits target there isLast =>
    cases hw
    simp only [Bool.and_eq_true, List.isEmpty_iff] at isLast
    rw [named_cons_of_named isNamed]
    simp [isLast, named, Target.goal]
  | case7 links place step rest isNamed forward fits there ih =>
    rw [ih (List.not_mem_of_not_mem_cons downward) hw, named_cons_of_named isNamed,
      List.append_assoc, List.singleton_append]
  | case13 place step rest isNamed forward fits target there onward links isSome ih =>
    exact absurd there (h.noLink _ _)
  | _ => cases hw

theorem walk_below (h : files.IsTree) (downward : ".." ∉ steps)
    (hw : files.walk followLast links place steps = .ok target) : place <+: target.goal := by
  rw [goal_of_walk h downward hw]
  exact List.prefix_append place (named steps)

theorem goal_of_locate (h : files.IsTree) (downward : ".." ∉ steps)
    (hl : files.locate followLast steps = .ok target) : target.goal = named steps := by
  simp only [locate, bind_eq_ok] at hl
  obtain ⟨_, -, hw⟩ := hl
  exact goal_of_walk h downward hw

theorem named_of_named (isNamed : ∀ step ∈ steps, step ≠ "" ∧ step ≠ ".") : named steps = steps := by
  refine List.filter_eq_self.2 fun step isMember => ?_
  simpa using isNamed step isMember

theorem mem_of_mem_named {step : String} (isMember : step ∈ (named steps).dropLast) :
    step ∈ steps ∧ step ≠ "" ∧ step ≠ "." := by
  simpa [named] using (List.dropLast_sublist _).mem isMember

theorem parentSteps_cases (steps : List String) :
    Path.parentSteps steps = (named steps).dropLast ∨
      (∃ rest, steps = "" :: rest) ∧ Path.parentSteps steps = "" :: (named steps).dropLast := by
  dsimp only [Path.parentSteps]
  split
  · next isAbsolute =>
    refine .inr ⟨?_, rfl⟩
    rw [Bool.and_eq_true] at isAbsolute
    unfold Path.isAbsolute at isAbsolute
    split at isAbsolute
    · exact ⟨_, rfl⟩
    · cases isAbsolute.1
  · exact .inl rfl

theorem named_front {front : List String} (isFront : front <+: Path.parentSteps steps) :
    named front <+: (named steps).dropLast ∧ ∀ step ∈ front, step = "" ∨ step ∈ steps := by
  have relative {front : List String} (isFront : front <+: (named steps).dropLast) :
      named front <+: (named steps).dropLast ∧ ∀ step ∈ front, step = "" ∨ step ∈ steps := by
    have isNamed (step : String) (isMember : step ∈ front) :=
      mem_of_mem_named (isFront.sublist.mem isMember)
    rw [named_of_named fun step isMember => (isNamed step isMember).2]
    exact ⟨isFront, fun step isMember => .inr (isNamed step isMember).1⟩
  rcases parentSteps_cases steps with same | ⟨-, same⟩ <;> rw [same] at isFront
  · exact relative isFront
  · cases front with
    | nil => exact relative List.nil_prefix
    | cons step rest =>
      obtain ⟨rfl, isBelow⟩ := List.cons_prefix_cons.1 isFront
      obtain ⟨isAbove, isStep⟩ := relative isBelow
      rw [named_cons_of_stays (.inl rfl)]
      exact ⟨isAbove, List.forall_mem_cons.2 ⟨.inl rfl, isStep⟩⟩

theorem goal_of_front {front : List String} (h : files.IsTree) (downward : ".." ∉ steps)
    (isFront : front <+: Path.parentSteps steps)
    (hl : files.locate followLast front = .ok target) :
    target.goal <+: (named steps).dropLast := by
  obtain ⟨isAbove, isStep⟩ := named_front isFront
  rw [goal_of_locate h (fun isMember => downward ((isStep _ isMember).resolve_left (by simp))) hl]
  exact isAbove

/-- A path that leads downwards to what was there before led to it before. -/
theorem walk_of_later {before : Node} (h : files.IsTree) (h' : later.IsTree)
    (keeps : files.Keeps later) (downward : ".." ∉ steps)
    (hw : later.walk followLast links place steps = .ok (.node found node))
    (there : files.get? found = some before) :
    ∃ node, files.walk followLast links place steps = .ok (.node found node) := by
  obtain ⟨now, there', becomes⟩ := keeps _ _ there
  fun_induction FileSystem.walk later followLast links place steps with
  | case1 links place =>
    cases hw
    exact ⟨.directory, walk_nil⟩
  | case2 links place step rest stays ih =>
    rw [walk_stays stays]
    exact ih (List.not_mem_of_not_mem_cons downward) hw
  | case3 links place rest named ih => simp at downward
  | case7 links place step rest named forward fits here ih =>
    have downward' := List.not_mem_of_not_mem_cons downward
    have isBelow : place ++ [step] <+: found := walk_below h' downward' hw
    have isDirectory : files.get? (place ++ [step]) = some .directory := by
      by_cases isEnd : place ++ [step] = found
      · rw [isEnd, there', Option.some.injEq] at here
        subst here
        cases becomes
        rw [isEnd, there]
      · exact h.get?_above there isBelow isEnd
    rw [walk_directory named forward fits isDirectory]
    exact ih downward' hw
  | case8 links place step rest named forward fits content access here isLast =>
    cases hw
    rw [here, Option.some.injEq] at there'
    subst there'
    cases becomes with
    | same => exact ⟨_, walk_file named forward fits there isLast⟩
    | rewritten => exact ⟨_, walk_file named forward fits there isLast⟩
  | case10 links place step rest named forward fits target here isLast =>
    exact absurd here (h'.noLink _ _)
  | case13 place step rest named forward fits target here onward links isSome ih =>
    exact absurd here (h'.noLink _ _)
  | _ => cases hw

theorem upward_of_target {before : Node} (h : files.IsTree) (h' : later.IsTree)
    (keeps : files.Keeps later) (isNew : files.contains path = false)
    (ht : later.target path = .ok (.node found node)) (there : files.get? found = some before) :
    ".." ∈ Path.steps path := by
  by_contra downward
  simp only [FileSystem.target, locate, bind_eq_ok] at ht
  obtain ⟨_, checked, hw⟩ := ht
  obtain ⟨node', hw'⟩ := walk_of_later h h' keeps downward hw there
  have led : files.target path = .ok (.node found node') := by
    rw [target_of_checked checked, hw']
  rw [contains_iff.2 ⟨found, node', led⟩] at isNew
  cases isNew

end VpnAuthority.FileSystem
