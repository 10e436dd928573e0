import Mathlib.Data.List.TakeWhile

/-! Where fronts of a list end: the longest one with a property, and any other. -/
namespace VpnAuthority

variable {α : Type} {p : α → Bool} {front rest : List α}

theorem takeWhile_append_of_stop (holds : ∀ a ∈ front, p a) (stops : ∀ a ∈ rest.head?, ¬p a) :
    (front ++ rest).takeWhile p = front := by
  rw [List.takeWhile_append_of_pos holds]
  cases rest with
  | nil => simp
  | cons a rest =>
    have ha : ¬p a := stops a rfl
    simp [ha]

theorem dropWhile_append_of_stop (holds : ∀ a ∈ front, p a) (stops : ∀ a ∈ rest.head?, ¬p a) :
    (front ++ rest).dropWhile p = rest := by
  rw [List.dropWhile_append_of_pos holds]
  cases rest with
  | nil => rfl
  | cons a rest =>
    have ha : ¬p a := stops a rfl
    simp [ha]

theorem not_of_mem_head?_dropWhile (l : List α) : ∀ a ∈ (l.dropWhile p).head?, ¬p a := by
  intro a ha
  have := List.head?_dropWhile_not p l
  rw [Option.mem_def.1 ha] at this
  simpa using this

theorem of_mem_takeWhile {l : List α} : ∀ a ∈ l.takeWhile p, p a := fun _ ha =>
  List.mem_takeWhile_imp ha

theorem prefix_append_cons {before behind : List α} {a : α}
    (h : front <+: before ++ a :: behind) :
    front <+: before ∨ ∃ more, more <+: behind ∧ front = before ++ a :: more := by
  have isFront : before <+: before ++ a :: behind := List.prefix_append before _
  obtain inFront | ⟨tail, rfl⟩ := List.prefix_or_prefix_of_prefix h isFront
  · exact .inl inFront
  · rw [List.prefix_append_right_inj] at h
    cases tail with
    | nil =>
      rw [List.append_nil]
      exact .inl List.prefix_rfl
    | cons b more =>
      obtain ⟨rfl, isMore⟩ := List.cons_prefix_cons.1 h
      exact .inr ⟨more, isMore, rfl⟩

end VpnAuthority
