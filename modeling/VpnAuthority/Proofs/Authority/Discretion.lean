import VpnAuthority.Proofs.Authority.Availability
import VpnAuthority.Proofs.Authority.Failures
import VpnAuthority.Proofs.FileSystem.Twins
import VpnAuthority.Proofs.Rsa.Generation

/-! What an authority tells about itself and its work says nothing about its secrets: two that
differ in the passphrase only say the same. -/
namespace VpnAuthority

structure Site.Twins (place : Place) (site twin : Site) : Prop where
  files : site.files.Twins place twin.files
  events : twin.events = site.events

namespace Action

variable {α β : Type} {place : Place}

/-- Whether some work has the same outcome, and reports the same, whatever the file at a place
holds, and leaves the sites as much alike as they were. -/
def Overlooks (place : Place) (action : Action α) : Prop :=
  ∀ site twin : Site, site.Twins place twin →
    (action.perform twin).1 = (action.perform site).1 ∧
      (action.perform site).2.Twins place (action.perform twin).2

theorem overlooks_report (event : Event) : (report event).Overlooks place :=
  fun _ _ h => ⟨rfl, h.files, congrArg (· ++ [event]) h.events⟩

theorem overlooks_ofExcept (result : Except Failure α) : (ofExcept result).Overlooks place :=
  fun _ _ h => ⟨rfl, h⟩

theorem overlooks_change {path : String} {alter : FileSystem → FileSystem × Except FileFault Unit}
    (h : ∀ files twin : FileSystem, files.Twins place twin →
      (alter twin).2 = (alter files).2 ∧ (alter files).1.Twins place (alter twin).1) :
    (change path alter).Overlooks place := by
  intro site twin twins
  obtain ⟨same, twins'⟩ := h _ _ twins.files
  refine ⟨?_, twins', twins.events⟩
  rw [perform_change, perform_change, same]

theorem Overlooks.bind {first : Action α} {second : α → Action β} (h : first.Overlooks place)
    (h' : ∀ a, (second a).Overlooks place) : (first >>= second).Overlooks place := by
  intro site twin twins
  obtain ⟨same, twins'⟩ := h site twin twins
  rw [perform_bind, perform_bind]
  rcases hf : first.perform site with ⟨outcome, middle⟩
  rcases hf' : first.perform twin with ⟨outcome', middle'⟩
  rw [hf, hf'] at same twins'
  dsimp only at same twins'
  subst same
  cases outcome' with
  | ok a => exact h' a middle middle' twins'
  | error failure => exact ⟨rfl, twins'⟩

end Action

def Settings.withPassphrase (settings : Settings) (passphrase : Passphrase) : Settings :=
  { settings with authority := { settings.authority with passphrase } }

namespace Authority

variable {authority : Authority} {chance : Chance} {clock : Clock} {site : Site} {place : Place}

def withPassphrase (authority : Authority) (passphrase : Passphrase) : Authority where
  settings := authority.settings.withPassphrase passphrase
  isAccepted := authority.isAccepted

@[simp] theorem keyPath_withPassphrase (authority : Authority) (passphrase : Passphrase) :
    (authority.withPassphrase passphrase).keyPath = authority.keyPath := rfl

@[simp] theorem policy_withPassphrase (authority : Authority) (passphrase : Passphrase) :
    (authority.withPassphrase passphrase).policy = authority.policy := rfl

theorem overlooks_writeFile (path : String) (content : Bytes) :
    (writeFile path (·.write path content)).Overlooks place := by
  have parents : (Action.change path (·.createParents path)).Overlooks place :=
    Action.overlooks_change fun _ _ h => h.createParents path
  refine parents.bind fun _ => Action.Overlooks.bind ?_ fun _ => Action.overlooks_report _
  refine Action.overlooks_change fun files twin h => ?_
  have alike := h.write path content
  dsimp only
  generalize files.write path content = outcome at alike ⊢
  generalize twin.write path content = outcome' at alike ⊢
  cases alike with
  | error fault => exact ⟨rfl, h⟩
  | ok written => exact ⟨rfl, written⟩

theorem overlooks_ensureCertificate (authority : Authority) (key : Rsa.PrivateKey)
    (chance : Chance) (clock : Clock) :
    (authority.ensureCertificate key chance clock).Overlooks place := by
  have made : (do
      Action.report (.creatingCertificate authority.certificatePath authority.policy.authorityName)
      let certificate ← Action.ofExcept
        ((Certificate.root authority.policy (.rsa key) authority.policy.authorityName
          authority.policy.authorityDays chance.serial clock).mapError .certificate)
      writeFile authority.certificatePath
        (·.write authority.certificatePath certificate.toPem)).Overlooks place :=
    (Action.overlooks_report _).bind fun _ => (Action.overlooks_ofExcept _).bind fun _ =>
      overlooks_writeFile _ _
  intro site twin h
  unfold ensureCertificate
  simp only [Action.perform_bind (get : Action Site), Action.perform_get, Action.perform_ite,
    h.files.contains]
  split
  · exact Action.overlooks_report _ site twin h
  · exact made site twin h

theorem writeSecret_cases (site : Site) (path : String) :
    (∃ failure stopped, ∀ content, (writeFile path (·.createSecret path content)).perform site =
      (.error failure, stopped)) ∨
    ∃ (parents : FileSystem) (place : Place) (events : List Event), place ≠ [] ∧ ∀ content,
      (writeFile path (·.createSecret path content)).perform site =
        (.ok (), ⟨parents.insert place (.file content .owner), events⟩) ∧
      (parents.insert place (.file content .owner)).target path =
        .ok (.node place (.file content .owner)) := by
  unfold writeFile
  simp only [Action.perform_bind, Action.perform_change]
  rcases site.files.createParents path with ⟨parents, outcome⟩
  cases outcome with
  | error fault => exact .inl ⟨_, _, fun _ => rfl⟩
  | ok u =>
    rcases FileSystem.createSecret_cases parents path with ⟨fault, refused⟩ |
      ⟨place, isNamed, written⟩
    · refine .inl ⟨.file path fault, ⟨parents, site.events⟩, fun content => ?_⟩
      simp only [mapError_ok, refused content, mapError_error]
    · refine .inr ⟨parents, place, site.events ++ [.wroteFile path], isNamed,
        fun content => ⟨?_, (written content).2⟩⟩
      simp only [mapError_ok, (written content).1, Action.perform_report]

/-- Where there is no key, obtaining one fails for reasons which have nothing to do with the
passphrase, or gives a key and a new file of which only the text depends on it. -/
theorem obtainKey_cases (authority : Authority) (chance : Chance)
    (isNew : site.files.contains authority.keyPath = false) :
    (∃ failure stopped, ∀ passphrase,
      ((authority.withPassphrase passphrase).obtainKey chance).perform site =
        (.error failure, stopped)) ∨
    ∃ (key : Rsa.PrivateKey) (parents : FileSystem) (place : Place) (events : List Event),
      place ≠ [] ∧ ∀ passphrase, ∃ text,
        ((authority.withPassphrase passphrase).obtainKey chance).perform site =
          (.ok key, ⟨parents.insert place (.file text .owner), events⟩) ∧
        (parents.insert place (.file text .owner)).target authority.keyPath =
          .ok (.node place (.file text .owner)) := by
  have begins (passphrase : Passphrase) :=
    perform_obtainKey_of_new (authority.withPassphrase passphrase) chance isNew
  simp only [begins, keyPath_withPassphrase, policy_withPassphrase, newKey]
  cases chance.keyOfSize? authority.policy.keySize with
  | none => exact .inl ⟨.keyGeneration, _, fun _ => rfl⟩
  | some key =>
    simp only [Action.perform_bind, Action.perform_pure]
    rcases writeSecret_cases ⟨site.files, site.events ++
        [Event.generatingKey authority.keyPath authority.policy.keySize]⟩ authority.keyPath with
      ⟨failure, stopped, refused⟩ | ⟨parents, place, events, isNamed, written⟩
    · exact .inl ⟨failure, stopped, fun _ => by simp only [refused]⟩
    · refine .inr ⟨key, parents, place, events, isNamed, fun passphrase =>
        ⟨(authority.withPassphrase passphrase).keyText chance key, ?_, (written _).2⟩⟩
      simp only [(written _).1]

/-- Two runs with the same outcome and the same reports, which leave the same files but for what
the file at a path holds. -/
structure AlikeBut (path : String) (done done' : Except Failure Unit × Site) : Prop where
  outcome : done'.1 = done.1
  events : done'.2.events = done.2.events
  files : done'.2.files = done.2.files ∨ ∃ place content content' access,
    done.2.files.target path = .ok (.node place (.file content access)) ∧
    done'.2.files.target path = .ok (.node place (.file content' access)) ∧
    ∀ other, other ≠ place → done'.2.files.get? other = done.2.files.get? other

theorem bootstrap_withPassphrase (passphrase : Passphrase) (clock : Clock)
    (isNew : site.files.contains authority.keyPath = false) :
    AlikeBut authority.keyPath ((authority.bootstrap chance clock).perform site)
      (((authority.withPassphrase passphrase).bootstrap chance clock).perform site) := by
  rcases obtainKey_cases authority chance isNew with
    ⟨failure, stopped, failed⟩ | ⟨key, parents, place, events, isNamed, obtained⟩
  · have failed' : (authority.obtainKey chance).perform site = (.error failure, stopped) :=
      failed authority.passphrase
    rw [perform_bootstrap_of_error (failed passphrase), perform_bootstrap_of_error failed']
    exact ⟨rfl, rfl, .inl rfl⟩
  · obtain ⟨text, first, leads⟩ : ∃ text, (authority.obtainKey chance).perform site =
        (.ok key, ⟨parents.insert place (.file text .owner), events⟩) ∧ _ :=
      obtained authority.passphrase
    obtain ⟨text', first', leads'⟩ := obtained passphrase
    have twins : Site.Twins place ⟨parents.insert place (.file text .owner), events⟩
        ⟨parents.insert place (.file text' .owner), events⟩ :=
      ⟨FileSystem.twins_insert isNamed text text' .owner, rfl⟩
    obtain ⟨same, differ⟩ := overlooks_ensureCertificate authority key chance clock _ _ twins
    obtain ⟨node, now, -⟩ := (keeps_ensureCertificate authority key chance clock
      ⟨parents.insert place (.file text .owner), events⟩).target leads
    obtain ⟨node', now', -⟩ := (keeps_ensureCertificate authority key chance clock
      ⟨parents.insert place (.file text' .owner), events⟩).target leads'
    obtain ⟨content, content', access, there, there'⟩ := differ.files.isFile
    rw [FileSystem.get?_of_target now, Option.some.injEq] at there
    rw [FileSystem.get?_of_target now', Option.some.injEq] at there'
    subst there there'
    rw [perform_bootstrap_of_ok first', perform_bootstrap_of_ok first]
    exact ⟨same, differ.events,
      .inr ⟨place, content, content', access, now, now', differ.files.same⟩⟩

/-- Secrets do not reach what is told: the summaries of settings and of an authority, and what
is wrong with settings, are the same with another passphrase, and so are the outcome and the
reports of a bootstrap where there is no key; it leaves the same files but for what the key file
holds. The summary of a credential depends on the common name only, and that of an authority's
material on the certificate only. -/
theorem secrets_untold (passphrase : Passphrase) :
    (∀ settings : Settings,
      (settings.withPassphrase passphrase).summary = settings.summary ∧
      (settings.withPassphrase passphrase).check = settings.check) ∧
    (∀ authority : Authority, (authority.withPassphrase passphrase).summary = authority.summary) ∧
    (∀ (authority : Authority) (chance : Chance) (clock : Clock) (site : Site),
      site.files.contains authority.keyPath = false →
      AlikeBut authority.keyPath ((authority.bootstrap chance clock).perform site)
        (((authority.withPassphrase passphrase).bootstrap chance clock).perform site)) ∧
    (∀ credential other : Credential, other.commonName = credential.commonName →
      other.summary = credential.summary) ∧
    ∀ material other : Material, other.certificate = material.certificate →
      other.summary = material.summary := by
  refine ⟨fun settings => ⟨rfl, rfl⟩, fun authority => rfl, fun authority chance clock site =>
    bootstrap_withPassphrase passphrase clock, fun credential other same => ?_,
    fun material other same => ?_⟩
  · rw [Credential.summary, Credential.summary, same]
  · rw [Material.summary, Material.summary, same]

theorem secrets_untold_plain : ∃ certificate reported later,
    (plain.bootstrap (.ofSmallPrime 5) plainClock).perform ⟨.empty, []⟩ =
      (.ok (), ⟨plain.newFiles (.ofSmallPrime 5) certificate .empty, reported⟩) ∧
    ((plain.withPassphrase ⟨"another"⟩).bootstrap (.ofSmallPrime 5) plainClock).perform
      ⟨.empty, []⟩ = (.ok (), ⟨later, reported⟩) ∧
    later.get? [plain.certificatePath] = some (.file certificate.toPem .everyone) ∧
    (⟨"one key", "certificate", "name"⟩ : Credential).summary =
      (⟨"another key", "certificate", "name"⟩ : Credential).summary := by
  obtain ⟨certificate, reported, performed, -⟩ :=
    exists_bootstrap_plain Chance.isSound_ofSmallPrime_five.toIsRegular
  obtain ⟨-, -, runs, credentials, -⟩ := secrets_untold ⟨"another"⟩
  obtain ⟨same, events, files⟩ := runs plain (.ofSmallPrime 5) plainClock ⟨.empty, []⟩
    (FileSystem.contains_name_of_isFree isName_keyPath_plain rfl)
  rcases performed' : ((plain.withPassphrase ⟨"another"⟩).bootstrap (.ofSmallPrime 5)
    plainClock).perform ⟨.empty, []⟩ with ⟨outcome, later, reported'⟩
  rw [performed, performed'] at same events files
  dsimp only at same events files
  subst same events
  refine ⟨certificate, reported', later, performed, rfl, ?_, credentials _ _ rfl⟩
  have there : (plain.newFiles (.ofSmallPrime 5) certificate .empty).get?
      [plain.certificatePath] = some (.file certificate.toPem .everyone) :=
    get?_certificatePath_newFiles
  rcases files with same | ⟨place, content, content', access, leads, -, others⟩
  · rw [same, there]
  · rw [FileSystem.target_name_of_file isName_keyPath_plain
      (get?_keyPath_newFiles (by decide))] at leads
    cases leads
    rw [others _ (by decide), there]

end Authority

end VpnAuthority
