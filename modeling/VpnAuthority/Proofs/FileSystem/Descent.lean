import VpnAuthority.Proofs.FileSystem.Tree

/-! Where the directories of a path lie that are made for it. If no step of the path leads
upwards, they lie below one another from the first that was missing on, and the path ends in
the last of them, where nothing is yet; links on the way to the first do not matter. -/
namespace VpnAuthority

structure Path.IsStep (step : String) : Prop where
  isNamed : ¬(step = "" ∨ step = ".")
  forward : step ≠ ".."
  fits : ¬Path.maxNameLength < step.utf8ByteSize

namespace FileSystem

variable {files later last : FileSystem} {followLast : Bool} {links : Nat}
  {place new : Place} {steps fewer front tail rest : List String} {step path : String}
  {target : Target} {content : Bytes}

/-- Steps of which some are left out that stay in place. -/
inductive Thins : List String → List String → Prop where
  | nil : Thins [] []
  | keep {steps fewer : List String} (step : String) (h : Thins steps fewer) :
    Thins (step :: steps) (step :: fewer)
  | drop {step : String} {steps fewer : List String} (stays : step = "" ∨ step = ".")
    (h : Thins steps fewer) : Thins (step :: steps) fewer

theorem Thins.append (front : List String) (h : Thins steps fewer) :
    Thins (front ++ steps) (front ++ fewer) := by
  induction front with
  | nil => exact h
  | cons step front ih => exact .keep step ih

theorem thins_named (steps : List String) : Thins steps (named steps) := by
  induction steps with
  | nil => exact .nil
  | cons step rest ih =>
    by_cases stays : step = "" ∨ step = "."
    · rw [named_cons_of_stays stays]
      exact .drop stays ih
    · rw [named_cons_of_named stays]
      exact .keep step ih

theorem Thins.walk (h : Thins steps fewer)
    (hw : files.walk true links place steps = .ok target) :
    files.walk true links place fewer = .ok target := by
  fun_induction FileSystem.walk files true links place steps generalizing fewer with
  | case1 =>
    cases h
    rw [walk_nil, hw]
  | case2 links place step rest stays ih =>
    cases h with
    | keep _ h =>
      rw [walk_stays stays]
      exact ih h hw
    | drop _ h => exact ih h hw
  | case3 links place rest isNamed ih =>
    cases h with
    | keep _ h =>
      rw [walk_up]
      exact ih h hw
    | drop stays => exact absurd stays isNamed
  | case5 links place step rest isNamed forward fits isFree isLast =>
    cases List.isEmpty_iff.1 isLast
    cases h with
    | keep _ h =>
      cases h
      rw [walk_free isNamed forward fits isFree]
      exact hw
    | drop stays => exact absurd stays isNamed
  | case7 links place step rest isNamed forward fits there ih =>
    cases h with
    | keep _ h =>
      rw [walk_directory isNamed forward fits there]
      exact ih h hw
    | drop stays => exact absurd stays isNamed
  | case8 links place step rest isNamed forward fits content access there isLast =>
    cases List.isEmpty_iff.1 isLast
    cases h with
    | keep _ h =>
      cases h
      rw [walk_file isNamed forward fits there isLast]
      exact hw
    | drop stays => exact absurd stays isNamed
  | case10 links place step rest isNamed forward fits target there isLast => simp at isLast
  | case13 place step rest isNamed forward fits target there onward links isSome ih =>
    cases h with
    | keep _ h =>
      rw [walk_onward isNamed forward fits there (by simp) isSome]
      exact ih (h.append _) hw
    | drop stays => exact absurd stays isNamed
  | _ => cases hw

/-- Where a path led to a free place, any path that goes on from its end goes on from the
directory which is there now. -/
theorem walk_on_from_free (hw : files.walk false links place front = .ok (.free new))
    (kept : ∀ place node, files.get? place = some node → later.get? place = some node)
    (isDirectory : later.get? new = some .directory) :
    ∃ links', ∀ followLast rest, later.walk followLast links place (front ++ rest) =
      later.walk followLast links' new rest := by
  fun_induction FileSystem.walk files false links place front with
  | case2 links place step rest stays ih =>
    obtain ⟨links', onward⟩ := ih hw
    refine ⟨links', fun followLast more => ?_⟩
    rw [List.cons_append, walk_stays stays, onward]
  | case3 links place rest isNamed ih =>
    obtain ⟨links', onward⟩ := ih hw
    refine ⟨links', fun followLast more => ?_⟩
    rw [List.cons_append, walk_up, onward]
  | case5 links place step rest isNamed forward fits isFree isLast =>
    cases hw
    refine ⟨links, fun followLast more => ?_⟩
    rw [List.isEmpty_iff.1 isLast, List.singleton_append,
      walk_directory isNamed forward fits isDirectory]
  | case7 links place step rest isNamed forward fits there ih =>
    obtain ⟨links', onward⟩ := ih hw
    refine ⟨links', fun followLast more => ?_⟩
    rw [List.cons_append, walk_directory isNamed forward fits (kept _ _ there), onward]
  | case13 place step rest isNamed forward fits target there notLast links isSome ih =>
    obtain ⟨links', onward⟩ := ih hw
    refine ⟨links', fun followLast more => ?_⟩
    have goesOn : ¬((rest ++ more).isEmpty && !followLast) = true := by
      simp only [Bool.not_false, Bool.and_true, List.isEmpty_iff] at notLast
      simp [notLast]
    rw [List.cons_append, walk_onward isNamed forward fits (kept _ _ there) goesOn isSome,
      ← List.append_assoc, onward]
  | _ => cases hw

theorem walk_directories (isStep : ∀ step ∈ tail, Path.IsStep step)
    (directories : ∀ front, front <+: tail → files.get? (place ++ front) = some .directory) :
    files.walk followLast links place (tail ++ rest) =
      files.walk followLast links (place ++ tail) rest := by
  induction tail generalizing place with
  | nil => rw [List.append_nil, List.nil_append]
  | cons step tail ih =>
    obtain ⟨⟨isNamed, forward, fits⟩, isStep⟩ := List.forall_mem_cons.1 isStep
    have first : files.get? (place ++ [step]) = some .directory :=
      directories [step] (by simp)
    rw [List.cons_append, walk_directory isNamed forward fits first, ih isStep,
      List.append_assoc, List.singleton_append]
    intro front isFront
    have := directories (step :: front) (List.cons_prefix_cons.2 ⟨rfl, isFront⟩)
    rwa [List.append_assoc, List.singleton_append]

/-- All that is new in a tree is directories below one another: the first where some steps led to
a free place, and the others on further steps from there. -/
structure Descends (files later : FileSystem) (front tail : List String) (new : Place) : Prop where
  located : files.locate false front = .ok (.free new)
  isStep : ∀ step ∈ tail, Path.IsStep step
  get?_eq : ∀ place, later.get? place =
    if new <+: place ∧ place <+: new ++ tail then some .directory else files.get? place

theorem descends_insert (located : files.locate false front = .ok (.free new)) :
    Descends files (files.insert new .directory) front [] new where
  located := located
  isStep := by simp
  get?_eq place := by
    obtain ⟨-, isNamed, -⟩ := locate_insert_free .directory (by simp) located
    rw [List.append_nil]
    by_cases same : place = new
    · rw [same, get?_insert_self isNamed, if_pos ⟨List.prefix_rfl, List.prefix_rfl⟩]
    · rw [get?_insert_of_ne same, if_neg]
      rintro ⟨isBelow, isAbove⟩
      exact same (isAbove.eq_of_length_le isBelow.length_le)

namespace Descends

variable (d : Descends files later front tail new) (closed : files.IsClosed)
include d closed

theorem get?_new_below (isBelow : new <+: place) : files.get? place = none :=
  closed.get?_below (locate_insert_free .directory (by simp) d.located).1 isBelow

theorem walk_on : ∃ links', ∀ followLast rest,
    later.walk followLast Path.maxLinks [] (front ++ tail ++ rest) =
      later.walk followLast links' (new ++ tail) rest := by
  have located := d.located
  simp only [FileSystem.locate, bind_eq_ok] at located
  obtain ⟨_, -, hw⟩ := located
  have directories : ∀ front, front <+: tail → later.get? (new ++ front) = some .directory := by
    intro front isFront
    rw [d.get?_eq, if_pos ⟨List.prefix_append _ _, (List.prefix_append_right_inj _).2 isFront⟩]
  have kept : ∀ place node, files.get? place = some node → later.get? place = some node := by
    intro place node there
    rw [d.get?_eq, if_neg, there]
    rintro ⟨isBelow, -⟩
    rw [d.get?_new_below closed isBelow] at there
    cases there
  have isDirectory : later.get? new = some .directory := by
    have := directories [] List.nil_prefix
    rwa [List.append_nil] at this
  obtain ⟨links', onward⟩ := walk_on_from_free hw kept isDirectory
  refine ⟨links', fun followLast rest => ?_⟩
  rw [List.append_assoc, onward, walk_directories d.isStep directories]

theorem walk_end (isNamed : ¬(step = "" ∨ step = ".")) (forward : step ≠ "..")
    (followLast : Bool) :
    later.walk followLast Path.maxLinks [] (front ++ tail ++ [step]) =
      if Path.maxNameLength < step.utf8ByteSize then .error .nameTooLong
      else .ok (.free (new ++ tail ++ [step])) := by
  obtain ⟨links', onward⟩ := d.walk_on closed
  rw [onward]
  split
  · next long => rw [FileSystem.walk, if_neg isNamed, if_neg forward, if_pos long]
  · next fits =>
    have isFree : later.get? (new ++ tail ++ [step]) = none := by
      rw [d.get?_eq, if_neg]
      · exact d.get?_new_below closed ((List.prefix_append _ _).trans (List.prefix_append _ _))
      · rintro ⟨-, isAbove⟩
        have := isAbove.length_le
        simp only [List.length_append, List.length_singleton] at this
        omega
    rw [walk_free isNamed forward fits isFree]
    rfl

theorem locate_end (isNamed : ¬(step = "" ∨ step = ".")) (forward : step ≠ "..") :
    (∃ fault, ∀ followLast, later.locate followLast (front ++ tail ++ [step]) = .error fault) ∨
      Path.IsStep step ∧ ∀ followLast, later.locate followLast (front ++ tail ++ [step]) =
        .ok (.free (new ++ tail ++ [step])) := by
  have ends := d.walk_end closed isNamed forward
  unfold FileSystem.locate
  cases Path.check (front ++ tail ++ [step]) with
  | error fault => exact .inl ⟨fault, fun _ => rfl⟩
  | ok u =>
    by_cases long : Path.maxNameLength < step.utf8ByteSize
    · simp only [if_pos long] at ends
      exact .inl ⟨_, ends⟩
    · simp only [if_neg long] at ends
      exact .inr ⟨⟨isNamed, forward, long⟩, ends⟩

theorem ensureDirectory (isNamed : ¬(step = "" ∨ step = ".")) (forward : step ≠ "..")
    (h : later.ensureDirectory (front ++ tail ++ [step]) = .ok last) :
    Descends files last front (tail ++ [step]) new := by
  rcases d.locate_end closed isNamed forward with ⟨fault, nowhere⟩ | ⟨isStep, located⟩
  · simp only [FileSystem.ensureDirectory, FileSystem.createDirectory, FileSystem.isDirectory,
      nowhere, Bool.false_eq_true, if_false, reduceCtorEq] at h
  · simp only [FileSystem.ensureDirectory, FileSystem.createDirectory, located,
      Except.ok.injEq] at h
    subst h
    refine ⟨d.located, ?_, fun place => ?_⟩
    · simpa [or_imp, forall_and] using ⟨d.isStep, isStep⟩
    · rw [← List.append_assoc]
      by_cases same : place = new ++ tail ++ [step]
      · rw [same, get?_insert_self (by simp), if_pos]
        exact ⟨(List.prefix_append _ _).trans (List.prefix_append _ _), List.prefix_rfl⟩
      · rw [get?_insert_of_ne same, d.get?_eq]
        simp only [List.prefix_concat_iff, same, false_or]

end Descends

theorem ensureDirectory_eq_ok (h : files.ensureDirectory steps = .ok later) :
    later = files ∨ ∃ new, files.locate false steps = .ok (.free new) ∧
      later = files.insert new .directory := by
  unfold ensureDirectory createDirectory at h
  split at h
  · next made =>
    cases h
    split at made
    · next new located =>
      cases made
      exact .inr ⟨new, located, rfl⟩
    · cases made
    · cases made
  · split at h
    · cases h
      exact .inl rfl
    · cases h

theorem ensureAll_top {top : List String} (isTop : top = [] ∨ top = [""])
    (h : files.ensureAll top = (later, .ok ())) : later = files := by
  rcases isTop with rfl | rfl
  · cases h
    rfl
  · have nowhere (followLast : Bool) : files.locate followLast [""] = .error .notFound := rfl
    have missing : files.ensureDirectory [""] = .error .notFound := by
      rw [FileSystem.ensureDirectory, createDirectory, nowhere, isDirectory, nowhere]
      rfl
    simp only [ensureAll, List.reverse_singleton, missing] at h
    cases h

/-- What is made of directories is nothing, or such a descent to where the steps lead. -/
theorem ensureAll_cases (closed : files.IsClosed) {top : List String}
    (isTop : top = [] ∨ top = [""])
    (named : ∀ step ∈ steps, ¬(step = "" ∨ step = ".") ∧ step ≠ "..")
    (h : files.ensureAll (steps ++ top) = (later, .ok ())) :
    later = files ∨ ∃ front tail new, (steps ++ top).reverse = front ++ tail ∧
      Descends files later front tail new := by
  induction steps generalizing later with
  | nil => exact .inl (ensureAll_top isTop h)
  | cons step above ih =>
    obtain ⟨⟨isNamed, forward⟩, named⟩ := List.forall_mem_cons.1 named
    rw [List.cons_append] at h ⊢
    generalize above ++ top = above at h ih ⊢
    rw [ensureAll] at h
    cases he : files.ensureDirectory (step :: above).reverse with
    | ok made =>
      simp only [he, Prod.mk.injEq, and_true] at h
      subst h
      rcases ensureDirectory_eq_ok he with same | ⟨new, located, rfl⟩
      · exact .inl same
      · exact .inr ⟨_, [], new, (List.append_nil _).symm, descends_insert located⟩
    | error fault =>
      rcases ha : files.ensureAll above with ⟨middle, outcome⟩
      rw [he, ha] at h
      cases fault with
      | notFound =>
        cases outcome with
        | error fault => cases h
        | ok u =>
          cases he' : middle.ensureDirectory (step :: above).reverse with
          | error fault =>
            dsimp only at h
            rw [he'] at h
            cases h
          | ok made =>
            simp only [he', Prod.mk.injEq, and_true] at h
            subst h
            rcases ih named ha with rfl | ⟨front, tail, new, split, d⟩
            · rw [he] at he'
              cases he'
            · rw [List.reverse_cons, split] at he' ⊢
              exact .inr ⟨front, tail ++ [step], new, List.append_assoc _ _ _,
                d.ensureDirectory closed isNamed forward he'⟩
      | _ => cases h

/-- Where no step of a path leads upwards, and it led nowhere, it leads nowhere once its
directories are there. -/
theorem contains_of_createParents (closed : files.IsClosed) (downward : ".." ∉ Path.steps path)
    (isNew : files.contains path = false)
    (made : files.createParents path = (later, .ok ())) : later.contains path = false := by
  rw [← Bool.not_eq_true] at isNew ⊢
  intro isThere
  obtain ⟨place, node, leads⟩ := contains_iff.1 isThere
  simp only [FileSystem.target, locate, bind_eq_ok] at leads
  obtain ⟨_, checked, hw⟩ := leads
  obtain ⟨top, isTop, parents, thins⟩ : ∃ top, (top = [] ∨ top = [""]) ∧
      Path.parentSteps (Path.steps path) = top ++ (named (Path.steps path)).dropLast ∧
      Thins (Path.steps path) (top ++ named (Path.steps path)) := by
    rcases parentSteps_cases (Path.steps path) with same | ⟨⟨rest, whole⟩, same⟩
    · exact ⟨[], .inl rfl, same, thins_named _⟩
    · refine ⟨[""], .inr rfl, same, ?_⟩
      rw [whole, named_cons_of_stays (.inl rfl)]
      exact .keep "" (thins_named rest)
  have palindrome : top.reverse = top := by
    rcases isTop with rfl | rfl <;> rfl
  rw [createParents, parents, List.reverse_append, palindrome] at made
  rcases List.eq_nil_or_concat (named (Path.steps path)) with none | ⟨init, last, whole⟩
  · rw [none] at made
    rw [ensureAll_top isTop made] at isThere
    exact isNew isThere
  · have isNamed : ∀ step ∈ init ++ [last], ¬(step = "" ∨ step = ".") ∧ step ≠ ".." := by
      intro step isMember
      rw [← List.concat_eq_append, ← whole, named, List.mem_filter] at isMember
      refine ⟨by simpa using isMember.2, ?_⟩
      rintro rfl
      exact downward isMember.1
    rw [whole, List.concat_eq_append, List.dropLast_concat] at made
    have isNamed' : ∀ step ∈ init.reverse, ¬(step = "" ∨ step = ".") ∧ step ≠ ".." :=
      fun step isMember => isNamed step (List.mem_append_left _ (List.mem_reverse.1 isMember))
    rcases ensureAll_cases closed isTop isNamed' made with rfl | ⟨front, tail, new, split, d⟩
    · exact isNew isThere
    · obtain ⟨lastNamed, lastForward⟩ := isNamed last (by simp)
      have ends := thins.walk hw
      rw [List.reverse_append, List.reverse_reverse, palindrome] at split
      rw [whole, List.concat_eq_append, ← List.append_assoc, split,
        d.walk_end closed lastNamed lastForward true] at ends
      split at ends <;> cases ends

theorem write_eq_ok_of_new (isNew : files.contains path = false)
    (h : files.write path content = .ok later) :
    ∃ found, files.get? found = none ∧ later = files.insert found (.file content .everyone) ∧
      later.target path = .ok (.node found (.file content .everyone)) := by
  obtain ⟨found, led, rfl⟩ | ⟨found, old, access, led, rfl⟩ := write_cases h
  · obtain ⟨isFree, -, leads⟩ := locate_insert_free (.file content .everyone) (by simp) led
    exact ⟨found, isFree, rfl, leads⟩
  · rw [contains_iff.2 ⟨_, _, led⟩] at isNew
    cases isNew

end FileSystem
end VpnAuthority
