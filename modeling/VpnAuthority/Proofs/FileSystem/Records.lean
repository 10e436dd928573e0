import VpnAuthority.Proofs.FileSystem

/-! Records of the files that are written in a tree, and what they say about the tree. -/
namespace VpnAuthority.FileSystem

variable {replaces replaces' : String → Prop} {files middle later : FileSystem}
  {paths more : List String} {place : Place} {path : String} {node : Node}

/-- What becomes of a tree while files are written at some paths, in their order. Each path led
nowhere before, and then leads to its file, which is new or, at some paths, one that was there
with another content. All else that is new is directories. -/
inductive Records (replaces : String → Prop) : FileSystem → List String → FileSystem → Prop where
  | done {files later : FileSystem} (made : files.AddsDirectories later) :
    Records replaces files [] later
  | wrote {files middle later : FileSystem} {path : String} {paths : List String} {place : Place}
    {content : Bytes} {access : Access} (isNew : files.contains path = false)
    (made : files.AddsDirectories middle)
    (becomes : ∀ before, middle.get? place = some before → before.Becomes (.file content access))
    (fresh : ¬replaces path → middle.get? place = none)
    (leads : (middle.insert place (.file content access)).target path =
      .ok (.node place (.file content access)))
    (rest : Records replaces (middle.insert place (.file content access)) paths later) :
    Records replaces files (path :: paths) later

theorem ne_nil_of_target {content : Bytes} {access : Access}
    (leads : files.target path = .ok (.node place (.file content access))) : place ≠ [] := by
  rintro rfl
  cases get?_of_target leads

theorem keeps_of_written {content : Bytes} {access : Access} (made : files.AddsDirectories middle)
    (becomes : ∀ before, middle.get? place = some before → before.Becomes (.file content access))
    (leads : (middle.insert place (.file content access)).target path =
      .ok (.node place (.file content access))) :
    files.Keeps (middle.insert place (.file content access)) :=
  made.keeps.trans (keeps_insert (ne_nil_of_target leads) becomes)

namespace Records

theorem refl (replaces : String → Prop) (files : FileSystem) : Records replaces files [] files :=
  .done (.refl files)

theorem of_directories (made : files.AddsDirectories middle)
    (h : Records replaces middle paths later) : Records replaces files paths later := by
  cases h with
  | done made' => exact .done (made.trans made')
  | wrote isNew made' becomes fresh leads rest =>
    refine .wrote ?_ (made.trans made') becomes fresh leads rest
    rw [← Bool.not_eq_true] at isNew ⊢
    exact fun isThere => isNew (made.keeps.contains isThere)

theorem append (h : Records replaces files paths middle) (h' : Records replaces middle more later) :
    Records replaces files (paths ++ more) later := by
  induction h with
  | done made => exact of_directories made h'
  | wrote isNew made becomes fresh leads rest ih =>
    exact .wrote isNew made becomes fresh leads (ih h')

theorem mono (weaker : ∀ path, replaces path → replaces' path)
    (h : Records replaces files paths later) : Records replaces' files paths later := by
  induction h with
  | done made => exact .done made
  | wrote isNew made becomes fresh leads rest ih =>
    exact .wrote isNew made becomes (fun not => fresh fun may => not (weaker _ may)) leads ih

variable (h : Records replaces files paths later)
include h

theorem keeps : files.Keeps later := by
  induction h with
  | done made => exact made.keeps
  | wrote isNew made becomes fresh leads rest ih =>
    exact (keeps_of_written made becomes leads).trans ih

theorem contains (isMember : path ∈ paths) : files.contains path = false := by
  induction h with
  | done => cases isMember
  | wrote isNew made becomes fresh leads rest ih =>
    rcases List.mem_cons.1 isMember with rfl | isMember
    · exact isNew
    · have := ih isMember
      rw [← Bool.not_eq_true] at this ⊢
      exact fun isThere => this ((keeps_of_written made becomes leads).contains isThere)

theorem nodup : paths.Nodup := by
  induction h with
  | done => exact List.nodup_nil
  | wrote isNew made becomes fresh leads rest ih =>
    refine List.nodup_cons.2 ⟨fun again => ?_, ih⟩
    have isNew' := rest.contains again
    rw [contains_iff.2 ⟨_, _, leads⟩] at isNew'
    cases isNew'

theorem leads (isMember : path ∈ paths) : ∃ place content access,
    later.target path = .ok (.node place (.file content access)) := by
  induction h with
  | done => cases isMember
  | wrote isNew made becomes fresh leads rest ih =>
    rcases List.mem_cons.1 isMember with rfl | isMember
    · obtain ⟨node, leads', becomes'⟩ := rest.keeps.target leads
      cases becomes' <;> exact ⟨_, _, _, leads'⟩
    · exact ih isMember

theorem file_cases {content : Bytes} {access : Access}
    (there : later.get? place = some (.file content access)) :
    files.get? place = some (.file content access) ∨
      ∃ path ∈ paths, ∃ node, later.target path = .ok (.node place node) := by
  have before {files middle : FileSystem} (made : files.AddsDirectories middle)
      (there : middle.get? place = some (.file content access)) :
      files.get? place = some (.file content access) := by
    rcases made place with same | ⟨-, isDirectory⟩
    · rwa [← same]
    · rw [isDirectory] at there
      cases there
  induction h with
  | done made => exact .inl (before made there)
  | @wrote files middle later first paths written old access isNew made becomes fresh leads rest
      ih =>
    by_cases isWritten : place = written
    · subst isWritten
      obtain ⟨node, leads', -⟩ := rest.keeps.target leads
      exact .inr ⟨first, List.mem_cons_self, node, leads'⟩
    · rcases ih there with there' | ⟨path, isMember, leadsThere⟩
      · exact .inl (before made ((get?_insert_of_ne isWritten).symm.trans there'))
      · exact .inr ⟨path, List.mem_cons_of_mem _ isMember, leadsThere⟩

theorem isFile_iff (isFree : files.get? place = none) :
    (∃ content access, later.get? place = some (.file content access)) ↔
      ∃ path ∈ paths, ∃ node, later.target path = .ok (.node place node) := by
  constructor
  · rintro ⟨content, access, there⟩
    refine (h.file_cases there).resolve_left fun there' => ?_
    rw [isFree] at there'
    cases there'
  · rintro ⟨path, isMember, node, leadsThere⟩
    obtain ⟨place', content, access, leadsToFile⟩ := h.leads isMember
    rw [leadsThere, Except.ok.injEq, Target.node.injEq] at leadsToFile
    obtain ⟨rfl, rfl⟩ := leadsToFile
    exact ⟨content, access, get?_of_target leadsThere⟩

section
variable (isFresh : ∀ path ∈ paths, ¬replaces path)
include isFresh

theorem get?_of_fresh (isMember : path ∈ paths)
    (leadsThere : later.target path = .ok (.node place node)) : files.get? place = none := by
  induction h with
  | done => cases isMember
  | @wrote files middle later first paths written content access isNew made becomes fresh leads
      rest ih =>
    rcases List.mem_cons.1 isMember with rfl | isMember
    · obtain ⟨node', leads', -⟩ := rest.keeps.target leads
      rw [leads', Except.ok.injEq, Target.node.injEq] at leadsThere
      obtain ⟨rfl, -⟩ := leadsThere
      exact made.keeps.isFree (fresh (isFresh path List.mem_cons_self))
    · exact (keeps_of_written made becomes leads).isFree
        (ih (fun path hm => isFresh path (List.mem_cons_of_mem _ hm)) isMember leadsThere)

theorem not_meets : paths.Pairwise fun path other => ¬later.Meets path other := by
  induction h with
  | done => exact .nil
  | wrote isNew made becomes fresh leads rest ih =>
    have isFresh' := fun path hm => isFresh path (List.mem_cons_of_mem _ hm)
    refine List.pairwise_cons.2 ⟨?_, ih isFresh'⟩
    rintro other isMember ⟨place, node, leadsThere, otherLeads⟩
    have isFree := rest.get?_of_fresh isFresh' isMember otherLeads
    obtain ⟨node', leads', -⟩ := rest.keeps.target leads
    rw [leads', Except.ok.injEq, Target.node.injEq] at leadsThere
    rw [← leadsThere.1, get?_of_target leads] at isFree
    cases isFree

end

end Records

end VpnAuthority.FileSystem
