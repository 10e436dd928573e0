import VpnAuthority.Proofs.FileSystem.Tree

/-! What is looked at on the way of a path. Nothing else in the tree has a say in where the path
leads. -/
namespace VpnAuthority.FileSystem

variable {files later : FileSystem} {followLast : Bool} {links : Nat} {place seen : Place}
  {steps : List String} {path : String}

/-- The places that are looked at while some steps are taken from a directory. -/
def footprint (files : FileSystem) (followLast : Bool) (links : Nat) (place : Place) :
    List String → List Place
  | [] => []
  | step :: rest =>
    if step = "" ∨ step = "." then files.footprint followLast links place rest
    else if step = ".." then files.footprint followLast links place.dropLast rest
    else if Path.maxNameLength < step.utf8ByteSize then []
    else (place ++ [step]) ::
      match files.get? (place ++ [step]) with
      | none | some (.file _ _) => []
      | some .directory => files.footprint followLast links (place ++ [step]) rest
      | some (.link target) =>
        if rest.isEmpty && !followLast then []
        else
          match links with
          | 0 => []
          | links + 1 =>
            if target = "" then []
            else
              files.footprint followLast links (linkBase place target) (Path.steps target ++ rest)
termination_by steps => (links, steps.length)

def footprintOf (files : FileSystem) (path : String) : List Place :=
  files.footprint true Path.maxLinks [] (Path.steps path)

section
variable {step : String} {rest : List String} (named : ¬(step = "" ∨ step = "."))
  (forward : ¬step = "..") (fits : ¬Path.maxNameLength < step.utf8ByteSize)
include named forward fits

theorem mem_footprint :
    place ++ [step] ∈ files.footprint followLast links place (step :: rest) := by
  rw [footprint, if_neg named, if_neg forward, if_neg fits]
  exact List.mem_cons_self

theorem footprint_directory (there : files.get? (place ++ [step]) = some .directory) :
    files.footprint followLast links place (step :: rest) =
      (place ++ [step]) :: files.footprint followLast links (place ++ [step]) rest := by
  rw [footprint, if_neg named, if_neg forward, if_neg fits, there]

theorem footprint_onward {target : String}
    (there : files.get? (place ++ [step]) = some (.link target))
    (onward : ¬(rest.isEmpty && !followLast) = true)
    (isSome : ¬target = "") :
    files.footprint followLast (links + 1) place (step :: rest) =
      (place ++ [step]) ::
        files.footprint followLast links (linkBase place target) (Path.steps target ++ rest) := by
  rw [footprint, if_neg named, if_neg forward, if_neg fits, there]
  simp only [onward, isSome, if_false, Bool.false_eq_true]

end

/-- Trees that agree on what is looked at agree on where it leads. -/
theorem walk_congr
    (agree : ∀ seen ∈ files.footprint followLast links place steps,
      later.get? seen = files.get? seen) :
    later.walk followLast links place steps = files.walk followLast links place steps := by
  have behind {seen first : Place} {more : List Place} (hm : seen ∈ more) : seen ∈ first :: more :=
    List.mem_cons_of_mem _ hm
  fun_induction FileSystem.walk files followLast links place steps with
  | case1 => rw [walk_nil]
  | case2 links place step rest stays ih =>
    rw [footprint, if_pos stays] at agree
    rw [walk_stays stays, ih agree]
  | case3 links place rest named ih =>
    rw [footprint, if_neg named, if_pos rfl] at agree
    rw [walk_up, ih agree]
  | case4 links place step rest named forward long =>
    rw [walk, if_neg named, if_neg forward, if_pos long]
  | case7 links place step rest named forward fits there ih =>
    have same := (agree _ (mem_footprint named forward fits)).trans there
    rw [footprint_directory named forward fits there] at agree
    rw [walk_directory named forward fits same, ih fun seen hm => agree seen (behind hm)]
  | case13 place step rest named forward fits target there onward links isSome ih =>
    have same := (agree _ (mem_footprint named forward fits)).trans there
    rw [footprint_onward named forward fits there onward isSome] at agree
    rw [walk_onward named forward fits same onward isSome, ih fun seen hm => agree seen (behind hm)]
  | case5 links place step rest named forward fits there
  | case6 links place step rest named forward fits there
  | case8 links place step rest named forward fits content access there
  | case9 links place step rest named forward fits content access there
  | case10 links place step rest named forward fits target there
  | case11 place step rest named forward fits target there
  | case12 place step rest named forward fits onward links there =>
    -- here the way ends
    have same := (agree _ (mem_footprint named forward fits)).trans there
    rw [walk, if_neg named, if_neg forward, if_neg fits, same]
    simp_all

theorem target_congr (agree : ∀ seen ∈ files.footprintOf path, later.get? seen = files.get? seen) :
    later.target path = files.target path := by
  rw [FileSystem.target, FileSystem.target, locate, locate, walk_congr agree]

theorem read_congr (agree : ∀ seen ∈ files.footprintOf path, later.get? seen = files.get? seen) :
    later.read path = files.read path := by
  rw [FileSystem.read, FileSystem.read, target_congr agree]

theorem readText_congr
    (agree : ∀ seen ∈ files.footprintOf path, later.get? seen = files.get? seen) :
    later.readText path = files.readText path := by
  rw [readText, readText, read_congr agree]

theorem exists_of_mem_footprint (noLink : ∀ place target, files.get? place ≠ some (.link target))
    (downward : ".." ∉ steps) (h : seen ∈ files.footprint followLast links place steps) :
    ∃ front, front <+: named steps ∧ seen = place ++ front := by
  fun_induction FileSystem.footprint files followLast links place steps with
  | case1 => cases h
  | case2 links place step rest stays ih =>
    rw [named_cons_of_stays stays]
    exact ih (List.not_mem_of_not_mem_cons downward) h
  | case3 links place rest isNamed ih => simp at downward
  | case4 => cases h
  | case5 links place step rest isNamed forward fits ih =>
    rw [named_cons_of_named isNamed]
    rcases List.mem_cons.1 h with rfl | h
    · exact ⟨[step], by simp, rfl⟩
    · split at h
      · cases h
      · cases h
      · obtain ⟨front, isFront, rfl⟩ := ih (List.not_mem_of_not_mem_cons downward) h
        exact ⟨step :: front, List.cons_prefix_cons.2 ⟨rfl, isFront⟩, by simp⟩
      · next target there => exact absurd there (noLink _ target)

theorem prefix_of_mem_footprintOf
    (noLink : ∀ place target, files.get? place ≠ some (.link target))
    (downward : ".." ∉ Path.steps path) (h : seen ∈ files.footprintOf path) :
    seen <+: named (Path.steps path) := by
  obtain ⟨front, isFront, rfl⟩ := exists_of_mem_footprint noLink downward h
  exact isFront

end VpnAuthority.FileSystem
