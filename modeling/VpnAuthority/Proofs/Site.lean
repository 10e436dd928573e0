import VpnAuthority.Site

/-! Work that succeeded or failed, step by step. -/
namespace VpnAuthority.Action

variable {α β : Type}

theorem perform_bind_eq_ok {first : Action α} {second : α → Action β} {site site' : Site} {b : β} :
    (first >>= second).perform site = (.ok b, site') ↔
      ∃ a middle, first.perform site = (.ok a, middle) ∧
        (second a).perform middle = (.ok b, site') := by
  rw [perform_bind]
  obtain ⟨outcome, middle⟩ := first.perform site
  cases outcome with
  | error failure => simp
  | ok a =>
    constructor
    · intro h
      exact ⟨a, middle, rfl, h⟩
    · rintro ⟨_, _, ⟨⟩, h⟩
      exact h

theorem perform_bind_eq_error {first : Action α} {second : α → Action β} {site site' : Site}
    {failure : Failure} :
    (first >>= second).perform site = (.error failure, site') ↔
      first.perform site = (.error failure, site') ∨
        ∃ a middle, first.perform site = (.ok a, middle) ∧
          (second a).perform middle = (.error failure, site') := by
  rw [perform_bind]
  obtain ⟨outcome, middle⟩ := first.perform site
  cases outcome with
  | error failure => simp
  | ok a =>
    constructor
    · intro h
      exact .inr ⟨a, middle, rfl, h⟩
    · rintro (⟨⟨⟩⟩ | ⟨_, _, ⟨⟩, h⟩)
      exact h

theorem perform_ite {p : Prop} [Decidable p] {yes no : Action α} {site : Site} :
    (if p then yes else no).perform site = if p then yes.perform site else no.perform site := by
  split <;> rfl

/-- Whether some work leaves the files as they are, however it ends. -/
def KeepsFiles (action : Action α) : Prop := ∀ site, (action.perform site).2.files = site.files

theorem keepsFiles_pure (a : α) : (pure a : Action α).KeepsFiles := fun _ => rfl

theorem keepsFiles_throw (failure : Failure) : (throw failure : Action α).KeepsFiles := fun _ => rfl

theorem keepsFiles_get : (get : Action Site).KeepsFiles := fun _ => rfl

theorem keepsFiles_report (event : Event) : (report event).KeepsFiles := fun _ => rfl

theorem keepsFiles_ofExcept (result : Except Failure α) : (ofExcept result).KeepsFiles := fun _ => rfl

theorem keepsFiles_inspect (look : FileSystem → Except Failure α) : (inspect look).KeepsFiles :=
  fun _ => rfl

theorem KeepsFiles.bind {first : Action α} {second : α → Action β} (h : first.KeepsFiles)
    (h' : ∀ a, (second a).KeepsFiles) : (first >>= second).KeepsFiles := by
  intro site
  have same := h site
  rw [perform_bind]
  rcases hf : first.perform site with ⟨outcome, middle⟩
  rw [hf] at same
  cases outcome with
  | ok a => exact (h' a middle).trans same
  | error failure => exact same

end VpnAuthority.Action
