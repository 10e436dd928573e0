import VpnAuthority.Proofs.FileSystem.Records
import VpnAuthority.Proofs.Site

/-! What some work reports, and whether that tells which files it wrote. -/
namespace VpnAuthority

open FileSystem (Records)

namespace Event

def writtenPath? : Event → Option String
  | .wroteFile path => some path
  | _ => none

def written (events : List Event) : List String := events.filterMap writtenPath?

theorem written_append (events more : List Event) :
    written (events ++ more) = written events ++ written more := List.filterMap_append

theorem written_eq_nil {events : List Event} (h : ∀ event ∈ events, event.writtenPath? = none) :
    written events = [] := List.filterMap_eq_nil_iff.2 h

end Event

/-- Whether what is reported between two moments tells which files were written. -/
def Site.Tells (replaces : String → Prop) (site later : Site) : Prop :=
  ∃ new, later.events = site.events ++ new ∧
    Records replaces site.files (Event.written new) later.files

namespace Site.Tells

variable {replaces replaces' : String → Prop} {site middle later : Site}

theorem refl (replaces : String → Prop) (site : Site) : site.Tells replaces site :=
  ⟨[], (List.append_nil _).symm, .refl _ _⟩

theorem trans (h : site.Tells replaces middle) (h' : middle.Tells replaces later) :
    site.Tells replaces later := by
  obtain ⟨new, events, records⟩ := h
  obtain ⟨new', events', records'⟩ := h'
  refine ⟨new ++ new', by rw [events', events, List.append_assoc], ?_⟩
  rw [Event.written_append]
  exact records.append records'

theorem report {event : Event} (h : event.writtenPath? = none) (site : Site) :
    site.Tells replaces ⟨site.files, site.events ++ [event]⟩ := by
  refine ⟨[event], rfl, ?_⟩
  rw [Event.written_eq_nil (by simpa using h)]
  exact .refl _ _

theorem mono (weaker : ∀ path, replaces path → replaces' path) (h : site.Tells replaces later) :
    site.Tells replaces' later := by
  obtain ⟨new, events, records⟩ := h
  exact ⟨new, events, records.mono weaker⟩

end Site.Tells

namespace Action

variable {α β : Type} {replaces : String → Prop} {allowed : Event → Prop} {site : Site}

/-- Whether some work reports nothing but certain events, at any site and however it ends. -/
def Reports (allowed : Event → Prop) (action : Action α) : Prop :=
  ∀ site, ∃ new, (action.perform site).2.events = site.events ++ new ∧
    ∀ event ∈ new, allowed event

theorem reports_of_silent {action : Action α}
    (silent : ∀ site, (action.perform site).2.events = site.events) : action.Reports allowed :=
  fun site => ⟨[], by rw [silent, List.append_nil], by simp⟩

theorem reports_report {event : Event} (h : allowed event) : (report event).Reports allowed :=
  fun _ => ⟨[event], rfl, by simpa using h⟩

theorem Reports.bind {first : Action α} {second : α → Action β} (h : first.Reports allowed)
    (h' : ∀ a, (second a).Reports allowed) : (first >>= second).Reports allowed := by
  intro site
  obtain ⟨new, events, all⟩ := h site
  rw [perform_bind]
  rcases hf : first.perform site with ⟨outcome, middle⟩
  rw [hf] at events
  cases outcome with
  | error failure => exact ⟨new, events, all⟩
  | ok a =>
    obtain ⟨new', events', all'⟩ := h' a middle
    refine ⟨new ++ new', ?_, fun event isMember => ?_⟩
    · dsimp only at events ⊢
      rw [events', events, List.append_assoc]
    · exact (List.mem_append.1 isMember).elim (all event) (all' event)

theorem tells_of_keepsFiles {action : Action α} (keeps : action.KeepsFiles)
    (reports : action.Reports fun event => event.writtenPath? = none) (site : Site) :
    site.Tells replaces (action.perform site).2 := by
  obtain ⟨new, events, all⟩ := reports site
  refine ⟨new, events, ?_⟩
  rw [Event.written_eq_nil all, keeps site]
  exact .refl _ _

theorem tells_bind {first : Action α} {second : α → Action β}
    (h : site.Tells replaces (first.perform site).2)
    (h' : ∀ a middle, first.perform site = (.ok a, middle) →
      middle.Tells replaces ((second a).perform middle).2) :
    site.Tells replaces ((first >>= second).perform site).2 := by
  rw [perform_bind]
  rcases hf : first.perform site with ⟨outcome, middle⟩
  rw [hf] at h
  cases outcome with
  | error failure => exact h
  | ok a => exact h.trans (h' a middle hf)

end Action

end VpnAuthority
