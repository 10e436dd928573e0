import VpnAuthority.Proofs.FileSystem

/-! Two trees that differ in what one file holds. Paths lead to the same places in both, and
what is made or written in both leaves them as much alike as they were. -/
namespace VpnAuthority.FileSystem

variable {files twin : FileSystem} {followLast : Bool} {links : Nat} {place other start : Place}
  {steps : List String} {path : String} {node : Node} {content : Bytes} {access : Access}

/-- Trees that differ at most in the content of the file at a place. -/
structure Twins (place : Place) (files twin : FileSystem) : Prop where
  same : ∀ other, other ≠ place → twin.get? other = files.get? other
  isFile : ∃ content content' access, files.get? place = some (.file content access) ∧
    twin.get? place = some (.file content' access)

/-- Outcomes that differ at most in the content of the file at a place. -/
inductive Alike (place : Place) : Except FileFault Target → Except FileFault Target → Prop where
  | same (outcome : Except FileFault Target) : Alike place outcome outcome
  | file (content content' : Bytes) (access : Access) :
    Alike place (.ok (.node place (.file content access)))
      (.ok (.node place (.file content' access)))

inductive AlikeTrees (place : Place) :
    Except FileFault FileSystem → Except FileFault FileSystem → Prop where
  | error (fault : FileFault) : AlikeTrees place (.error fault) (.error fault)
  | ok {files twin : FileSystem} (h : Twins place files twin) :
    AlikeTrees place (.ok files) (.ok twin)

theorem Alike.of_eq {outcome outcome' : Except FileFault Target} (h : outcome' = outcome) :
    Alike place outcome outcome' := h ▸ .same outcome'

theorem twins_insert (isNamed : place ≠ []) (content content' : Bytes) (access : Access) :
    Twins place (files.insert place (.file content access))
      (files.insert place (.file content' access)) where
  same other apart := by rw [get?_insert_of_ne apart, get?_insert_of_ne apart]
  isFile := ⟨content, content', access, get?_insert_self isNamed, get?_insert_self isNamed⟩

namespace Twins

variable (h : Twins place files twin)
include h

theorem isNamed : place ≠ [] := by
  obtain ⟨_, _, _, there, -⟩ := h.isFile
  rintro rfl
  cases there

theorem get?_eq {outcome : Option Node} (there : files.get? other = outcome)
    (noFile : ∀ content access, outcome ≠ some (.file content access)) :
    twin.get? other = outcome := by
  rw [h.same other, there]
  rintro rfl
  obtain ⟨content, _, access, there', -⟩ := h.isFile
  exact noFile content access (there.symm.trans there')

theorem insert (node : Node) (apart : other ≠ place) :
    Twins place (files.insert other node) (twin.insert other node) := by
  obtain ⟨content, content', access, there, there'⟩ := h.isFile
  refine ⟨fun seen away => ?_, content, content', access,
    (get?_insert_of_ne apart.symm).trans there, (get?_insert_of_ne apart.symm).trans there'⟩
  by_cases top : seen = []
  · subst top
    rfl
  · rw [get?_insert _ _ _ _ top, get?_insert _ _ _ _ top, h.same seen away]

theorem insert_self (content : Bytes) (access : Access) :
    Twins place (files.insert place (.file content access))
      (twin.insert place (.file content access)) where
  same other apart := by
    rw [get?_insert_of_ne apart, get?_insert_of_ne apart, h.same other apart]
  isFile := ⟨content, content, access, get?_insert_self h.isNamed, get?_insert_self h.isNamed⟩

theorem walk : Alike place (files.walk followLast links start steps)
    (twin.walk followLast links start steps) := by
  -- all but a file is found as it is; a file ends the way, or is in it
  fun_induction FileSystem.walk files followLast links start steps with
  | case1 links start =>
    rw [walk_nil]
    exact .same _
  | case2 links start step rest stays ih =>
    rw [walk_stays stays]
    exact ih
  | case3 links start rest named ih =>
    rw [walk_up]
    exact ih
  | case4 links start step rest named forward long =>
    rw [FileSystem.walk, if_neg named, if_neg forward, if_pos long]
    exact .same _
  | case7 links start step rest named forward fits there ih =>
    rw [walk_directory named forward fits (h.get?_eq there (by simp))]
    exact ih
  | case13 start step rest named forward fits target there onward links isSome ih =>
    rw [walk_onward named forward fits (h.get?_eq there (by simp)) onward isSome]
    exact ih
  | case8 links start step rest named forward fits content access there isLast =>
    by_cases isPlace : start ++ [step] = place
    · obtain ⟨_, content', _, there', thereTwin⟩ := h.isFile
      rw [isPlace, there', Option.some.injEq, Node.file.injEq] at there
      obtain ⟨rfl, rfl⟩ := there
      rw [walk_file named forward fits (by rw [isPlace, thereTwin]) isLast, isPlace]
      exact .file _ _ _
    · rw [walk_file named forward fits ((h.same _ isPlace).trans there) isLast]
      exact .same _
  | case9 links start step rest named forward fits content access there isLast =>
    obtain ⟨content', access', there'⟩ : ∃ content' access',
        twin.get? (start ++ [step]) = some (.file content' access') := by
      by_cases isPlace : start ++ [step] = place
      · obtain ⟨_, content', access', -, thereTwin⟩ := h.isFile
        exact ⟨content', access', by rw [isPlace, thereTwin]⟩
      · exact ⟨content, access, (h.same _ isPlace).trans there⟩
    refine .of_eq ?_
    rw [FileSystem.walk, if_neg named, if_neg forward, if_neg fits, there']
    exact if_neg isLast
  | case5 links start step rest named forward fits there
  | case6 links start step rest named forward fits there
  | case10 links start step rest named forward fits target there
  | case11 start step rest named forward fits target there
  | case12 start step rest named forward fits onward links there =>
    refine .of_eq ?_
    rw [FileSystem.walk, if_neg named, if_neg forward, if_neg fits, h.get?_eq there (by simp)]
    simp_all

theorem locate (followLast : Bool) (steps : List String) :
    Alike place (files.locate followLast steps) (twin.locate followLast steps) := by
  unfold FileSystem.locate
  cases Path.check steps with
  | error fault => exact .same _
  | ok u => exact h.walk

theorem target (path : String) : Alike place (files.target path) (twin.target path) :=
  h.locate true _

theorem endsInSlash :
    twin.endsInSlash followLast links start steps =
      files.endsInSlash followLast links start steps := by
  fun_induction FileSystem.endsInSlash files followLast links start steps with
  | case1 => rw [FileSystem.endsInSlash]
  | case2 links start step rest stays ih => rw [FileSystem.endsInSlash, if_pos stays, ih]
  | case3 links start rest named ih => rw [FileSystem.endsInSlash, if_neg named, if_pos rfl, ih]
  | case4 links start step rest named forward slash =>
    rw [FileSystem.endsInSlash, if_neg named, if_neg forward, if_pos slash]
  | case5 links start step rest named forward slash long =>
    rw [FileSystem.endsInSlash, if_neg named, if_neg forward, if_neg slash, if_pos long]
  | case6 links start step rest named forward slash fits there ih =>
    rw [FileSystem.endsInSlash, if_neg named, if_neg forward, if_neg slash, if_neg fits,
      h.get?_eq there (by simp)]
    exact ih
  | case7 start step rest named forward slash fits target there =>
    rw [FileSystem.endsInSlash, if_neg named, if_neg forward, if_neg slash, if_neg fits,
      h.get?_eq there (by simp)]
  | case8 start step rest named forward slash fits target there links isLast =>
    rw [FileSystem.endsInSlash, if_neg named, if_neg forward, if_neg slash, if_neg fits,
      h.get?_eq there (by simp)]
    exact if_pos isLast
  | case9 start step rest named forward slash fits target there links onward ih =>
    rw [FileSystem.endsInSlash, if_neg named, if_neg forward, if_neg slash, if_neg fits,
      h.get?_eq there (by simp)]
    exact (if_neg onward).trans ih
  | case10 links start step rest named forward slash fits noDirectory noLink =>
    rw [FileSystem.endsInSlash, if_neg named, if_neg forward, if_neg slash, if_neg fits]
    by_cases isPlace : start ++ [step] = place
    · obtain ⟨_, _, _, -, there⟩ := h.isFile
      rw [isPlace, there]
    · rw [h.same _ isPlace]
      split
      · next there => exact absurd there noDirectory
      · next target there => exact absurd there (noLink target)
      · rfl

theorem locateNew (followLast : Bool) (path : String) :
    Alike place (files.locateNew followLast path) (twin.locateNew followLast path) := by
  unfold FileSystem.locateNew
  cases Path.check (Path.steps path) with
  | error fault => exact .same _
  | ok u =>
    dsimp only [bind, Except.bind]
    rw [h.endsInSlash]
    split
    · exact .same _
    · exact h.locate followLast _

theorem contains (path : String) : twin.contains path = files.contains path := by
  have alike := h.target path
  unfold FileSystem.contains
  generalize files.target path = outcome at alike ⊢
  generalize twin.target path = outcome' at alike ⊢
  cases alike <;> rfl

theorem isDirectory (steps : List String) : twin.isDirectory steps = files.isDirectory steps := by
  have alike := h.locate true steps
  unfold FileSystem.isDirectory
  generalize files.locate true steps = outcome at alike ⊢
  generalize twin.locate true steps = outcome' at alike ⊢
  cases alike <;> rfl

theorem ne_of_free (located : files.locate followLast steps = .ok (.free other)) :
    other ≠ place := by
  rintro rfl
  obtain ⟨_, _, _, there, -⟩ := h.isFile
  have isFree : files.get? other = none := (locate_reaches located).1
  rw [isFree] at there
  cases there

theorem createDirectory (steps : List String) :
    AlikeTrees place (files.createDirectory steps) (twin.createDirectory steps) := by
  have alike := h.locate false steps
  unfold FileSystem.createDirectory
  generalize twin.locate false steps = outcome at alike ⊢
  cases located : files.locate false steps with
  | error fault =>
    rw [located] at alike
    cases alike
    exact .error fault
  | ok target =>
    rw [located] at alike
    cases alike with
    | file content content' access => exact .error _
    | same =>
      cases target with
      | node other node => exact .error _
      | free other => exact .ok (h.insert .directory (h.ne_of_free located))

theorem ensureDirectory (steps : List String) :
    AlikeTrees place (files.ensureDirectory steps) (twin.ensureDirectory steps) := by
  have alike := h.createDirectory steps
  unfold FileSystem.ensureDirectory
  rw [h.isDirectory steps]
  generalize files.createDirectory steps = outcome at alike ⊢
  generalize twin.createDirectory steps = outcome' at alike ⊢
  cases alike with
  | ok made => exact .ok made
  | error fault =>
    dsimp only
    split
    · exact .ok h
    · exact .error fault

end Twins

theorem Twins.ensureAll (h : Twins place files twin) (steps : List String) :
    (twin.ensureAll steps).2 = (files.ensureAll steps).2 ∧
      Twins place (files.ensureAll steps).1 (twin.ensureAll steps).1 := by
  induction steps with
  | nil => exact ⟨rfl, h⟩
  | cons step above ih =>
    have alike := h.ensureDirectory (step :: above).reverse
    obtain ⟨same, twins⟩ := ih
    rw [FileSystem.ensureAll, FileSystem.ensureAll]
    generalize files.ensureDirectory (step :: above).reverse = outcome at alike ⊢
    generalize twin.ensureDirectory (step :: above).reverse = outcome' at alike ⊢
    cases alike with
    | ok made => exact ⟨rfl, made⟩
    | error fault =>
      cases fault with
      | notFound =>
        rcases ha : files.ensureAll above with ⟨middle, outcome⟩
        rcases ha' : twin.ensureAll above with ⟨middle', outcome'⟩
        rw [ha, ha'] at same twins
        dsimp only at same twins ⊢
        subst same
        cases outcome' with
        | error fault => exact ⟨rfl, twins⟩
        | ok u =>
          have again := twins.ensureDirectory (step :: above).reverse
          dsimp only
          generalize middle.ensureDirectory (step :: above).reverse = outcome at again ⊢
          generalize middle'.ensureDirectory (step :: above).reverse = outcome' at again ⊢
          cases again with
          | ok made => exact ⟨rfl, made⟩
          | error fault => exact ⟨rfl, twins⟩
      | _ => exact ⟨rfl, h⟩

theorem Twins.createParents (h : Twins place files twin) (path : String) :
    (twin.createParents path).2 = (files.createParents path).2 ∧
      Twins place (files.createParents path).1 (twin.createParents path).1 :=
  h.ensureAll _

theorem Twins.write (h : Twins place files twin) (path : String) (content : Bytes) :
    AlikeTrees place (files.write path content) (twin.write path content) := by
  have alike := h.locateNew true path
  unfold FileSystem.write
  generalize twin.locateNew true path = outcome at alike ⊢
  cases opened : files.locateNew true path with
  | error fault =>
    rw [opened] at alike
    cases alike
    exact .error fault
  | ok target =>
    rw [opened] at alike
    cases alike with
    | file old old' access => exact .ok (h.insert_self content access)
    | same =>
      cases target with
      | free other => exact .ok (h.insert _ (h.ne_of_free (locate_of_locateNew opened)))
      | node other node =>
        cases node with
        | directory | link => exact .error _
        | file old access =>
          by_cases isPlace : other = place
          · subst isPlace
            exact .ok (h.insert_self content access)
          · exact .ok (h.insert _ isPlace)

theorem createSecret_cases (files : FileSystem) (path : String) :
    (∃ fault, ∀ content, files.createSecret path content = .error fault) ∨
      ∃ place, place ≠ [] ∧ ∀ content,
        files.createSecret path content = .ok (files.insert place (.file content .owner)) ∧
        (files.insert place (.file content .owner)).target path =
          .ok (.node place (.file content .owner)) := by
  unfold createSecret
  cases opened : files.locateNew false path with
  | error fault => exact .inl ⟨fault, fun _ => rfl⟩
  | ok target =>
    cases target with
    | node => exact .inl ⟨_, fun _ => rfl⟩
    | free place =>
      have leads (content : Bytes) :=
        locate_insert_free (.file content .owner) (by simp) (locate_of_locateNew opened)
      exact .inr ⟨place, (leads []).2.1, fun content => ⟨rfl, (leads content).2.2⟩⟩

end VpnAuthority.FileSystem
