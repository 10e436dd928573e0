import VpnAuthority.Event
import VpnAuthority.FileSystem

/-! The place where an authority works: a tree of files and a log. What is done there may
fail, and what was written and reported up to then stays. -/
namespace VpnAuthority

structure Site where
  files : FileSystem
  events : List Event

abbrev Action := ExceptT Failure (StateM Site)

namespace Action

/-- The outcome of some work, and the site behind it. -/
def perform (action : Action α) (site : Site) : Except Failure α × Site := action.run.run site

@[simp] theorem perform_pure (a : α) (site : Site) :
    (pure a : Action α).perform site = (.ok a, site) := rfl

@[simp] theorem perform_throw (failure : Failure) (site : Site) :
    (throw failure : Action α).perform site = (.error failure, site) := rfl

@[simp] theorem perform_get (site : Site) : (get : Action Site).perform site = (.ok site, site) :=
  rfl

theorem perform_bind (first : Action α) (second : α → Action β) (site : Site) :
    (first >>= second).perform site =
      match first.perform site with
      | (.ok a, site) => (second a).perform site
      | (.error failure, site) => (.error failure, site) := by
  show (ExceptT.bindCont second (first.run.run site).1).run (first.run.run site).2 = _
  unfold perform
  rcases first.run.run site with ⟨_ | _, _⟩ <;> rfl

def report (event : Event) : Action Unit :=
  modify fun site => { site with events := site.events ++ [event] }

def ofExcept (result : Except Failure α) : Action α := ExceptT.mk (pure result)

def inspect (look : FileSystem → Except Failure α) : Action α := do
  ofExcept (look (← get).files)

@[simp] theorem perform_report (event : Event) (site : Site) :
    (report event).perform site = (.ok (), { site with events := site.events ++ [event] }) := rfl

@[simp] theorem perform_ofExcept (result : Except Failure α) (site : Site) :
    (ofExcept result).perform site = (result, site) := rfl

@[simp] theorem perform_inspect (look : FileSystem → Except Failure α) (site : Site) :
    (inspect look).perform site = (look site.files, site) := rfl

def change (path : String) (alter : FileSystem → FileSystem × Except FileFault Unit) :
    Action Unit := do
  let (files, result) := alter (← get).files
  modify fun site => { site with files }
  ofExcept (result.mapError (.file path))

@[simp] theorem perform_change (path : String)
    (alter : FileSystem → FileSystem × Except FileFault Unit) (site : Site) :
    (change path alter).perform site =
      ((alter site.files).2.mapError (.file path), { site with files := (alter site.files).1 }) :=
  rfl

end Action
end VpnAuthority
