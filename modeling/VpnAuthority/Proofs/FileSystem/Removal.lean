import VpnAuthority.Proofs.FileSystem

/-! A file that is taken away, and put there again. Its path leads to the free place where it
was, or where the link to it was. No other file is reached through that place, so all others
are read as before. -/
namespace VpnAuthority.FileSystem

variable {files parents later : FileSystem} {followLast : Bool} {links links' : Nat}
  {place found gone goal : Place} {steps : List String} {path other : String} {node : Node}
  {content : Bytes} {access : Access}

/-- A path cannot go on behind a file, and it leads to the same file however many links may
be followed. -/
theorem walk_append_of_file {rest : List String} {target : Target}
    (hw : files.walk true links place steps = .ok (.node found (.file content access)))
    (onward : files.walk followLast links' place (steps ++ rest) = .ok target) :
    rest = [] ∧ (followLast = true → target = .node found (.file content access)) := by
  -- by induction on the way to the file, which the longer path takes as well, link by link
  fun_induction FileSystem.walk files true links place steps generalizing links' with
  | case1 => cases hw
  | case2 links place step rest' stays ih =>
    rw [List.cons_append, walk_stays stays] at onward
    exact ih hw onward
  | case3 links place rest' named ih =>
    rw [List.cons_append, walk_up] at onward
    exact ih hw onward
  | case7 links place step rest' named forward fits there ih =>
    rw [List.cons_append, walk_directory named forward fits there] at onward
    exact ih hw onward
  | case8 links place step rest' named forward fits content access there isLast =>
    cases hw
    obtain ⟨isNil, rfl⟩ := walk_file_eq_ok named forward fits there onward
    exact ⟨(List.append_eq_nil_iff.1 isNil).2, fun _ => rfl⟩
  | case10 links place step rest' named forward fits target there isLast => simp at isLast
  | case13 place step rest' named forward fits target there isOnward links isSome ih =>
    by_cases isLast : ((rest' ++ rest).isEmpty && !followLast) = true
    · rw [Bool.and_eq_true, List.isEmpty_iff, List.append_eq_nil_iff, Bool.not_eq_true'] at isLast
      refine ⟨isLast.1.2, fun isFollowed => ?_⟩
      rw [isLast.2] at isFollowed
      cases isFollowed
    · obtain ⟨links', hw'⟩ := walk_onward_eq_ok named forward fits there isLast onward
      rw [← List.append_assoc] at hw'
      exact ih hw hw'
  | _ => cases hw

/-- Where a path to a file ends if it does not follow its last link: at the file, or at a
link that leads to it. -/
inductive IsEntry (files : FileSystem) (content : Bytes) (access : Access) (goal : Place) :
    Place → Prop where
  | file (there : files.get? goal = some (.file content access)) :
    IsEntry files content access goal goal
  | link {front : Place} {name target : String} {links : Nat}
    (there : files.get? (front ++ [name]) = some (.link target))
    (leads : files.walk true links (linkBase front target) (Path.steps target) =
      .ok (.node goal (.file content access))) :
    IsEntry files content access goal (front ++ [name])

theorem isEntry_of_walk (isOther : node ≠ .directory)
    (ends : files.walk false links place steps = .ok (.node gone node))
    (leads : files.walk true links' place steps = .ok (.node goal (.file content access))) :
    files.IsEntry content access goal gone := by
  fun_induction FileSystem.walk files false links place steps generalizing links' with
  | case1 =>
    cases ends
    exact absurd rfl isOther
  | case2 links place step rest stays ih =>
    rw [walk_stays stays] at leads
    exact ih ends leads
  | case3 links place rest named ih =>
    rw [walk_up] at leads
    exact ih ends leads
  | case7 links place step rest named forward fits there ih =>
    rw [walk_directory named forward fits there] at leads
    exact ih ends leads
  | case8 links place step rest named forward fits content access there isLast =>
    cases ends
    obtain ⟨-, same⟩ := walk_file_eq_ok named forward fits there leads
    cases same
    exact .file there
  | case10 links place step rest named forward fits target there isLast =>
    cases ends
    rw [Bool.and_eq_true, List.isEmpty_iff] at isLast
    obtain ⟨links'', leads'⟩ := walk_onward_eq_ok named forward fits there (by simp) leads
    rw [isLast.1, List.append_nil] at leads'
    exact .link there leads'
  | case13 place step rest named forward fits target there onward links isSome ih =>
    obtain ⟨links'', leads'⟩ := walk_onward_eq_ok named forward fits there (by simp) leads
    exact ih ends leads'
  | _ => cases ends

namespace IsEntry

variable (entry : files.IsEntry content access goal gone)
include entry

theorem get?_ne_directory : files.get? gone ≠ some .directory := by
  cases entry with
  | file there => simp [there]
  | link there => simp [there]

theorem eq_of_walk {target : String} {rest : List String} {end' : Target} {step : String}
    (isGone : place ++ [step] = gone) (there : files.get? (place ++ [step]) = some (.link target))
    (hw : files.walk followLast links (linkBase place target) (Path.steps target ++ rest) =
      .ok end') :
    rest = [] ∧ (followLast = true → end' = .node goal (.file content access)) := by
  cases entry with
  | file there' =>
    rw [isGone, there'] at there
    cases there
  | link there' leads =>
    obtain ⟨rfl, -⟩ := List.append_inj' isGone rfl
    rw [isGone, there', Option.some.injEq, Node.link.injEq] at there
    subst there
    exact walk_append_of_file leads hw

theorem walk_erase (apart : found ≠ goal)
    (hw : files.walk true links place steps = .ok (.node found node)) :
    (files.erase gone).walk true links place steps = .ok (.node found node) := by
  fun_induction FileSystem.walk files true links place steps with
  | case1 =>
    cases hw
    exact walk_nil
  | case2 links place step rest isStep ih => rw [walk_stays isStep, ih hw]
  | case3 links place rest named ih => rw [walk_up, ih hw]
  | case7 links place step rest named forward fits there ih =>
    have isOther : place ++ [step] ≠ gone := by
      intro same
      rw [same] at there
      exact entry.get?_ne_directory there
    rw [walk_directory named forward fits (get?_erase_of_ne isOther there), ih hw]
  | case8 links place step rest named forward fits content' access' there isLast =>
    cases hw
    refine walk_file named forward fits (get?_erase_of_ne (fun same => ?_) there) isLast
    rw [same] at there apart
    cases entry with
    | file => exact apart rfl
    | link there' =>
      rw [there'] at there
      cases there
  | case10 links place step rest named forward fits target there isLast => simp at isLast
  | case13 place step rest named forward fits target there onward links isSome ih =>
    have isOther : place ++ [step] ≠ gone := by
      intro same
      have leads := (entry.eq_of_walk same there hw).2 rfl
      cases leads
      exact apart rfl
    rw [walk_onward named forward fits (get?_erase_of_ne isOther there) onward isSome, ih hw]
  | _ => cases hw

theorem walk_erase_self (isOther : node ≠ .directory)
    (ends : files.walk false links place steps = .ok (.node gone node)) :
    (files.erase gone).walk true links place steps = .ok (.free gone) := by
  have isFree {place : Place} {step : String} (isGone : place ++ [step] = gone) :
      (files.erase gone).get? (place ++ [step]) = none := by
    rw [get?_erase _ _ _ (by simp), if_pos isGone]
  fun_induction FileSystem.walk files false links place steps with
  | case1 =>
    cases ends
    exact absurd rfl isOther
  | case2 links place step rest isStep ih => rw [walk_stays isStep, ih ends]
  | case3 links place rest named ih => rw [walk_up, ih ends]
  | case7 links place step rest named forward fits there ih =>
    have apart : place ++ [step] ≠ gone := by
      intro same
      rw [same] at there
      exact entry.get?_ne_directory there
    rw [walk_directory named forward fits (get?_erase_of_ne apart there), ih ends]
  | case8 links place step rest named forward fits content' access' there isLast
  | case10 links place step rest named forward fits target there isLast =>
    cases ends
    rw [walk_free named forward fits (isFree rfl), if_pos]
    simp_all
  | case13 place step rest named forward fits target there onward links isSome ih =>
    -- the path goes on behind this link, as it could not behind the one that leads to the file
    have apart : place ++ [step] ≠ gone := by
      intro same
      obtain ⟨rfl, -⟩ := entry.eq_of_walk same there ends
      simp at onward
    rw [walk_onward named forward fits (get?_erase_of_ne apart there) (by simp) isSome, ih ends]
  | _ => cases ends

end IsEntry

theorem exists_free_of_remove (ht : files.target path = .ok (.node goal (.file content access)))
    (isRemoved : files.remove path = .ok later) :
    ∃ gone, later.target path = .ok (.free gone) := by
  obtain ⟨gone, node, located, isOther, rfl⟩ := remove_eq_ok isRemoved
  simp only [FileSystem.target, locate, bind_eq_ok] at ht located ⊢
  obtain ⟨_, checked, leads⟩ := ht
  obtain ⟨_, -, ends⟩ := located
  exact ⟨gone, _, checked, (isEntry_of_walk isOther ends leads).walk_erase_self isOther ends⟩

theorem target_of_remove_of_ne
    (ht : files.target path = .ok (.node goal (.file content access)))
    (isRemoved : files.remove path = .ok later) (apart : found ≠ goal)
    (leads_other : files.target other = .ok (.node found node)) :
    later.target other = .ok (.node found node) := by
  obtain ⟨gone, node, located, isOther, rfl⟩ := remove_eq_ok isRemoved
  simp only [FileSystem.target, locate, bind_eq_ok] at ht located leads_other ⊢
  obtain ⟨_, -, leads⟩ := ht
  obtain ⟨_, -, ends⟩ := located
  obtain ⟨_, checked, hw⟩ := leads_other
  exact ⟨_, checked, (isEntry_of_walk isOther ends leads).walk_erase apart hw⟩

theorem AddsDirectories.walk_free (h : files.AddsDirectories later)
    (hw : files.walk true links place steps = .ok (.free found)) :
    later.walk true links place steps = .ok (.free found) ∨
      later.walk true links place steps = .ok (.node found .directory) := by
  fun_induction FileSystem.walk files true links place steps with
  | case2 links place step rest stays ih =>
    rw [walk_stays stays]
    exact ih hw
  | case3 links place rest named ih =>
    rw [walk_up]
    exact ih hw
  | case5 links place step rest named forward fits isFree isLast =>
    cases hw
    rcases h (place ++ [step]) with same | ⟨-, isNew⟩
    · rw [FileSystem.walk_free named forward fits (same.trans isFree), if_pos isLast]
      exact .inl rfl
    · rw [walk_directory named forward fits isNew, List.isEmpty_iff.1 isLast, walk_nil]
      exact .inr rfl
  | case7 links place step rest named forward fits there ih =>
    rw [walk_directory named forward fits (h.get? there)]
    exact ih hw
  | case13 place step rest named forward fits target there onward links isSome ih =>
    rw [walk_onward named forward fits (h.get? there) onward isSome]
    exact ih hw
  | _ => cases hw

theorem write_of_free (ht : files.target path = .ok (.free goal))
    (hasParents : files.createParents path = (parents, .ok ()))
    (isWritten : parents.write path content = .ok later) :
    later.target path = .ok (.node goal (.file content .everyone)) ∧
      ∀ other found node, files.target other = .ok (.node found node) →
        later.target other = .ok (.node found node) := by
  have added : files.AddsDirectories parents := by
    have added := createParents_addsDirectories files path
    rwa [hasParents] at added
  have isFree : parents.target path = .ok (.free goal) ∨
      parents.target path = .ok (.node goal .directory) := by
    simp only [FileSystem.target, locate, bind_eq_ok] at ht
    obtain ⟨_, checked, hw⟩ := ht
    rw [target_of_checked checked]
    exact added.walk_free hw
  have isFree : parents.target path = .ok (.free goal) := by
    rcases isFree with isFree | isDirectory
    · exact isFree
    · obtain ⟨_, led, -⟩ | ⟨_, _, _, led, -⟩ := write_cases isWritten <;>
        cases led.symm.trans isDirectory
  have isLater : later = parents.insert goal (.file content .everyone) := by
    obtain ⟨_, led, isLater⟩ | ⟨_, _, _, led, -⟩ := write_cases isWritten
    · cases led.symm.trans isFree
      exact isLater
    · cases led.symm.trans isFree
  obtain ⟨noNode, isNamed, leads⟩ := locate_insert_free (.file content .everyone) (by simp) isFree
  subst isLater
  refine ⟨leads, fun other found node leads_other => ?_⟩
  have there := added.get? (get?_of_target leads_other)
  have keeps : parents.Keeps (parents.insert goal (.file content .everyone)) :=
    keeps_insert isNamed (by simp [noNode])
  obtain ⟨node', leads', -⟩ := (added.keeps.trans keeps).target leads_other
  have there' := get?_of_target leads'
  rw [get?_insert_free noNode there, Option.some.injEq] at there'
  rw [leads', there']

end VpnAuthority.FileSystem
