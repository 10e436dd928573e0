import Mathlib.Data.List.Basic
import VpnAuthority.Text.Fields

/-! The parts of a list between separators, and the list that parts are joined to. -/
namespace VpnAuthority

variable {α : Type} {separates : α → Bool}

theorem fields_cons_of_separates {a : α} (h : separates a) (rest : List α) :
    fields separates (a :: rest) = [] :: fields separates rest := by
  obtain ⟨part, parts, split⟩ := List.exists_cons_of_ne_nil (fields_ne_nil separates rest)
  rw [fields, split]
  simp only [h, if_true]

theorem fields_cons_of_not {a : α} (h : ¬separates a) {rest part : List α} {parts : List (List α)}
    (split : fields separates rest = part :: parts) :
    fields separates (a :: rest) = (a :: part) :: parts := by
  rw [fields, split]
  simp only [h, if_false, Bool.false_eq_true]

theorem fields_of_plain {part : List α} (plain : ∀ a ∈ part, ¬separates a) :
    fields separates part = [part] := by
  induction part with
  | nil => rfl
  | cons a rest ih =>
    obtain ⟨first, others⟩ := List.forall_mem_cons.1 plain
    exact fields_cons_of_not first (ih others)

theorem fields_append_cons {part : List α} {separator : α} (plain : ∀ a ∈ part, ¬separates a)
    (h : separates separator) (rest : List α) :
    fields separates (part ++ separator :: rest) = part :: fields separates rest := by
  induction part with
  | nil => exact fields_cons_of_separates h rest
  | cons a part ih =>
    obtain ⟨first, others⟩ := List.forall_mem_cons.1 plain
    exact fields_cons_of_not first (ih others)

theorem fields_intercalate {parts : List (List α)} {separator : α} (isSome : parts ≠ [])
    (plain : ∀ part ∈ parts, ∀ a ∈ part, ¬separates a) (h : separates separator) :
    fields separates ([separator].intercalate parts) = parts := by
  induction parts with
  | nil => exact absurd rfl isSome
  | cons part more ih =>
    obtain ⟨first, others⟩ := List.forall_mem_cons.1 plain
    by_cases isMore : more = []
    · subst isMore
      rw [List.intercalate_singleton]
      exact fields_of_plain first
    · rw [List.intercalate_cons_of_ne_nil isMore, List.append_assoc, List.singleton_append,
        fields_append_cons first h, ih isMore others]

theorem separates_or_mem_fields (separates : α → Bool) (l : List α) :
    ∀ a ∈ l, separates a ∨ ∃ part ∈ fields separates l, a ∈ part := by
  induction l with
  | nil => simp
  | cons b rest ih =>
    by_cases h : separates b
    · rw [fields_cons_of_separates h]
      refine List.forall_mem_cons.2 ⟨.inl h, fun a ha => (ih a ha).imp_right ?_⟩
      rintro ⟨part, hp, ha⟩
      exact ⟨part, List.mem_cons_of_mem _ hp, ha⟩
    · obtain ⟨part, parts, split⟩ := List.exists_cons_of_ne_nil (fields_ne_nil separates rest)
      rw [fields_cons_of_not h split]
      refine List.forall_mem_cons.2 ⟨.inr ⟨_, List.mem_cons_self, List.mem_cons_self⟩,
        fun a ha => (ih a ha).imp_right ?_⟩
      rintro ⟨part', hp, ha⟩
      rw [split] at hp
      obtain rfl | hp := List.mem_cons.1 hp
      · exact ⟨_, List.mem_cons_self, List.mem_cons_of_mem _ ha⟩
      · exact ⟨part', List.mem_cons_of_mem _ hp, ha⟩

end VpnAuthority
