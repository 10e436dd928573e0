import VpnAuthority.Proofs.Authority.Naming
import VpnAuthority.Proofs.Authority.Operations
import VpnAuthority.Proofs.Certificate.CommonName
import VpnAuthority.Proofs.FileSystem.Descent
import VpnAuthority.Proofs.Reports

/-! What the log of an authority tells, and that it tells it neither without need nor twice. -/
namespace VpnAuthority

open FileSystem (Records)

def Endpoint.warnings (endpoint : Endpoint) (suffix : UniqueSuffix) : List Event :=
  if CommonName.maxLength < endpoint.subject.length then
    [.shortenedSubject endpoint.subject (CommonName.ofSubject suffix endpoint.subject)]
  else []

namespace Authority

variable {authority : Authority} {chance : Chance} {clock : Clock} {site : Site}
  {key : Rsa.PrivateKey} {replaces : String → Prop} {allowed : Event → Prop} {path : String}

theorem tells_writeFile {write : FileSystem → Except FileFault FileSystem}
    (isNew : site.files.contains path = false)
    (writes : ∀ parents later, site.files.createParents path = (parents, .ok ()) →
      write parents = .ok later → ∃ place content access,
        later = parents.insert place (.file content access) ∧
        (∀ before, parents.get? place = some before → before.Becomes (.file content access)) ∧
        (¬replaces path → parents.get? place = none) ∧
        later.target path = .ok (.node place (.file content access))) :
    site.Tells replaces ((writeFile path write).perform site).2 := by
  have made := FileSystem.createParents_addsDirectories site.files path
  rcases h : (writeFile path write).perform site with ⟨outcome, later⟩
  cases outcome with
  | error failure =>
    obtain ⟨-, rfl⟩ := perform_writeFile_eq_error h
    exact ⟨[], (List.append_nil _).symm, .done made⟩
  | ok u =>
    obtain ⟨parents, later, hp, hw, rfl⟩ := perform_writeFile_eq_ok.1 h
    obtain ⟨place, content, access, rfl, becomes, fresh, leads⟩ := writes parents later hp hw
    rw [hp] at made
    exact ⟨[.wroteFile path], rfl, .wrote isNew made becomes fresh leads (.refl _ _)⟩

theorem reports_writeFile {write : FileSystem → Except FileFault FileSystem}
    (h : allowed (.wroteFile path)) : (writeFile path write).Reports allowed :=
  (Action.reports_of_silent fun _ => rfl).bind fun _ =>
    (Action.reports_of_silent fun _ => rfl).bind fun _ => Action.reports_report h

theorem reports_newKey {bits : Nat} : (newKey bits chance).Reports allowed := by
  refine Action.reports_of_silent fun site => ?_
  unfold newKey
  split <;> rfl

theorem tells_obtainKey (authority : Authority) (chance : Chance) (site : Site) :
    site.Tells replaces ((authority.obtainKey chance).perform site).2 := by
  cases isThere : site.files.contains authority.keyPath with
  | true =>
    rw [perform_obtainKey_of_there authority chance isThere]
    exact .report rfl site
  | false =>
    rw [perform_obtainKey_of_new authority chance isThere]
    refine (Site.Tells.report (by rfl) site).trans (Action.tells_bind
      (Action.tells_of_keepsFiles keepsFiles_newKey reports_newKey _) fun key middle made => ?_)
    obtain ⟨-, rfl⟩ := perform_newKey_eq_ok.1 made
    refine Action.tells_bind (tells_writeFile isThere fun parents later _ hw => ?_)
      fun _ _ _ => .refl _ _
    obtain ⟨found, -, isFree, made, leads⟩ := FileSystem.createSecret_eq_ok hw
    exact ⟨found, _, _, made, by simp [isFree], fun _ => isFree, leads⟩

theorem tells_ensureCertificate (sound : ¬replaces authority.certificatePath →
      site.files.IsClosed ∧ ".." ∉ Path.steps authority.certificatePath) :
    site.Tells replaces ((authority.ensureCertificate key chance clock).perform site).2 := by
  cases isThere : site.files.contains authority.certificatePath with
  | true =>
    rw [perform_ensureCertificate_of_there authority key chance clock isThere]
    exact .report rfl site
  | false =>
    rw [perform_ensureCertificate_of_new authority key chance clock isThere]
    refine (Site.Tells.report (by rfl) site).trans (Action.tells_bind (.refl _ _)
      fun certificate middle made => ?_)
    obtain ⟨-, rfl⟩ := Prod.mk.inj made
    refine tells_writeFile isThere fun parents later hp hw => ?_
    by_cases may : replaces authority.certificatePath
    · obtain ⟨found, access, -, becomes, made, leads⟩ := FileSystem.write_eq_ok hw
      exact ⟨found, _, access, made, becomes, absurd may, leads⟩
    · obtain ⟨closed, downward⟩ := sound may
      have isNew := FileSystem.contains_of_createParents closed downward isThere hp
      obtain ⟨found, isFree, made, leads⟩ := FileSystem.write_eq_ok_of_new isNew hw
      exact ⟨found, _, _, made, by simp [isFree], fun _ => isFree, leads⟩

/-- A bootstrap tells which files it wrote. It replaces none where every node lies in a
directory, unless the way to the certificate leads upwards. -/
theorem tells_bootstrap (sound : ¬replaces authority.certificatePath →
      site.files.IsClosed ∧ ".." ∉ Path.steps authority.certificatePath) :
    site.Tells replaces ((authority.bootstrap chance clock).perform site).2 := by
  refine Action.tells_bind (tells_obtainKey authority chance site) fun key middle obtained => ?_
  refine tells_ensureCertificate fun may => ?_
  obtain ⟨closed, downward⟩ := sound may
  have obtains : authority.ObtainsKey chance site.files key middle.files :=
    obtainKey_eq_ok_iff.1 ⟨_, obtained⟩
  exact ⟨Leaves.isClosed closed fun place => (obtains.addsKey place).leaves clock, downward⟩

def firstEvent (authority : Authority) (files : FileSystem) : Event :=
  if files.contains authority.keyPath then .reusingKey authority.keyPath
  else .generatingKey authority.keyPath authority.policy.keySize

def laterEvents (authority : Authority) : List Event :=
  [.wroteFile authority.keyPath, .keepingCertificate authority.certificatePath,
    .creatingCertificate authority.certificatePath authority.policy.authorityName,
    .wroteFile authority.certificatePath]

theorem events_obtainKey (authority : Authority) (chance : Chance) (site : Site) :
    ∃ rest, ((authority.obtainKey chance).perform site).2.events =
        site.events ++ authority.firstEvent site.files :: rest ∧
      ∀ event ∈ rest, event ∈ authority.laterEvents := by
  unfold firstEvent
  cases isThere : site.files.contains authority.keyPath with
  | true =>
    rw [perform_obtainKey_of_there authority chance isThere]
    exact ⟨[], rfl, by simp⟩
  | false =>
    have rest : (do
        let key ← newKey authority.policy.keySize chance
        writeFile authority.keyPath
          (·.createSecret authority.keyPath (authority.keyText chance key))
        return key : Action Rsa.PrivateKey).Reports (· ∈ authority.laterEvents) :=
      reports_newKey.bind fun _ => (reports_writeFile (by simp [laterEvents])).bind fun _ =>
        Action.reports_of_silent fun _ => rfl
    obtain ⟨new, events, all⟩ := rest ⟨site.files, site.events ++
      [.generatingKey authority.keyPath authority.policy.keySize]⟩
    refine ⟨new, ?_, all⟩
    rw [perform_obtainKey_of_new authority chance isThere, events]
    simp

theorem reports_ensureCertificate :
    (authority.ensureCertificate key chance clock).Reports (· ∈ authority.laterEvents) := by
  unfold ensureCertificate
  refine (Action.reports_of_silent fun _ => rfl).bind fun site => ?_
  split
  · exact Action.reports_report (by simp [laterEvents])
  · exact (Action.reports_report (by simp [laterEvents])).bind fun _ =>
      (Action.reports_of_silent fun _ => rfl).bind fun _ =>
        reports_writeFile (by simp [laterEvents])

theorem events_bootstrap (authority : Authority) (chance : Chance) (clock : Clock) (site : Site) :
    ∃ rest, ((authority.bootstrap chance clock).perform site).2.events =
        site.events ++ authority.firstEvent site.files :: rest ∧
      ∀ event ∈ rest, event ∈ authority.laterEvents := by
  obtain ⟨first, events, all⟩ := authority.events_obtainKey chance site
  rcases h : (authority.obtainKey chance).perform site with ⟨outcome, middle⟩
  rw [h] at events
  cases outcome with
  | error failure => exact ⟨first, by rw [perform_bootstrap_of_error h]; exact events, all⟩
  | ok key =>
    have certifies : (authority.ensureCertificate key chance clock).Reports
      (· ∈ authority.laterEvents) := reports_ensureCertificate
    obtain ⟨second, events', all'⟩ := certifies middle
    refine ⟨first ++ second, ?_, fun event isMember =>
      (List.mem_append.1 isMember).elim (all event) (all' event)⟩
    dsimp only at events
    rw [perform_bootstrap_of_ok h, events', events]
    simp

theorem generatingKey_of_bootstrap (authority : Authority) (chance : Chance) (clock : Clock)
    (site : Site) : ∃ new,
      ((authority.bootstrap chance clock).perform site).2.events = site.events ++ new ∧
      ∀ path bits, Event.generatingKey path bits ∈ new ↔
        site.files.contains authority.keyPath = false ∧ path = authority.keyPath ∧
          bits = authority.policy.keySize := by
  obtain ⟨rest, events, all⟩ := authority.events_bootstrap chance clock site
  refine ⟨_, events, fun path bits => ?_⟩
  have notRest : Event.generatingKey path bits ∉ rest := fun isMember => by
    simpa [laterEvents] using all _ isMember
  rw [List.mem_cons, or_iff_left notRest, firstEvent]
  cases site.files.contains authority.keyPath <;> simp

/-- Whether an issuance gets as far as the making of a leaf. -/
def ReachesLeaf (authority : Authority) (chance : Chance) (files : FileSystem) : Prop :=
  (∃ material, authority.loadMaterial files = .ok material) ∧
    ∃ key, chance.keyOfSize? authority.policy.keySize = some key

/-- Whether an issuance signs a leaf, made with some common name. -/
def Signs (authority : Authority) (endpoint : Endpoint) (chance : Chance) (clock : Clock)
    (files : FileSystem) (leaf : Certificate) (name : String) : Prop :=
  ∃ material key, authority.loadMaterial files = .ok material ∧
    chance.keyOfSize? authority.policy.keySize = some key ∧
    Certificate.leaf (authority.leafRequest endpoint.subject endpoint.purpose key)
      material.certificate (.rsa material.key) chance.suffix chance.serial clock = .ok (leaf, name)

theorem Signs.reachesLeaf {endpoint : Endpoint} {files : FileSystem} {leaf : Certificate}
    {name : String} (h : authority.Signs endpoint chance clock files leaf name) :
    authority.ReachesLeaf chance files := by
  obtain ⟨material, key, loaded, made, -⟩ := h
  exact ⟨⟨material, loaded⟩, key, made⟩

theorem Signs.commonName {endpoint : Endpoint} {files : FileSystem} {leaf : Certificate}
    {name : String} (h : authority.Signs endpoint chance clock files leaf name) :
    name = CommonName.ofSubject chance.suffix endpoint.subject ∧
      leaf.commonNames.map (·.text?) = [some name] := by
  obtain ⟨material, key, -, -, made⟩ := h
  obtain ⟨rfl, -, validity, rsaKey, signature, -, -, -, rfl⟩ := Certificate.leaf_eq_ok_iff.1 made
  refine ⟨rfl, ?_⟩
  rw [Certificate.commonNames_leaf, List.map_singleton, Certificate.text?_commonName_entry]

theorem perform_issueFor (authority : Authority) (endpoint : Endpoint) (chance : Chance)
    (clock : Clock) (site : Site) :
    (authority.issueFor endpoint chance clock).perform site =
      match authority.loadMaterial site.files, chance.keyOfSize? authority.policy.keySize with
      | .error failure, _ => (.error failure, site)
      | .ok _, none => (.error .keyGeneration, site)
      | .ok material, some key =>
        let warned := endpoint.warnings chance.suffix
        match Certificate.leaf (authority.leafRequest endpoint.subject endpoint.purpose key)
          material.certificate (.rsa material.key) chance.suffix chance.serial clock with
        | .error fault => (.error (.certificate fault), ⟨site.files, site.events ++ warned⟩)
        | .ok (leaf, name) => (.ok ⟨Pem.text key.toPem, Pem.text leaf.toPem, name⟩,
          ⟨site.files, site.events ++ warned ++
            [.issued name endpoint.purpose leaf.body.serial.toNat]⟩) := by
  rw [issueFor_eq, issue, Action.perform_bind, Action.perform_inspect]
  cases authority.loadMaterial site.files with
  | error failure => rfl
  | ok material =>
    simp only [Action.perform_bind, newKey]
    cases chance.keyOfSize? authority.policy.keySize with
    | none => rfl
    | some key =>
      simp only [Action.perform_pure, Action.perform_ite, leafRequest, Endpoint.warnings]
      generalize Certificate.leaf _ _ _ _ _ _ = outcome
      split
      · simp only [Action.perform_bind, Action.perform_report, Action.perform_ofExcept]
        cases outcome with
        | error fault => rfl
        | ok made => rfl
      · simp only [Action.perform_bind, Action.perform_report, Action.perform_ofExcept]
        cases outcome with
        | error fault => simp [mapError_error]
        | ok made => simp [mapError_ok]

theorem reports_of_issueFor (authority : Authority) (endpoint : Endpoint) (chance : Chance)
    (clock : Clock) (site : Site) :
    let done := (authority.issueFor endpoint chance clock).perform site
    ∃ warned reported, done.2.events = site.events ++ warned ++ reported ∧
      (authority.ReachesLeaf chance site.files ∧ CommonName.maxLength < endpoint.subject.length →
        warned = [.shortenedSubject endpoint.subject
          (CommonName.ofSubject chance.suffix endpoint.subject)]) ∧
      (¬(authority.ReachesLeaf chance site.files ∧
        CommonName.maxLength < endpoint.subject.length) → warned = []) ∧
      ((∃ leaf name, authority.Signs endpoint chance clock site.files leaf name ∧
          name = CommonName.ofSubject chance.suffix endpoint.subject ∧
          leaf.commonNames.map (·.text?) = [some name] ∧
          reported = [.issued name endpoint.purpose leaf.body.serial.toNat] ∧
          ∃ keyPem, done.1 = .ok ⟨keyPem, Pem.text leaf.toPem, name⟩) ∨
        (∀ leaf name, ¬authority.Signs endpoint chance clock site.files leaf name) ∧
          reported = [] ∧ ∃ failure, done.1 = .error failure) := by
  intro done
  have steps : done = _ := perform_issueFor authority endpoint chance clock site
  by_cases reaches : authority.ReachesLeaf chance site.files
  · have warns (h : authority.ReachesLeaf chance site.files ∧
        CommonName.maxLength < endpoint.subject.length) : endpoint.warnings chance.suffix =
        [.shortenedSubject endpoint.subject
          (CommonName.ofSubject chance.suffix endpoint.subject)] := if_pos h.2
    have keepsQuiet (h : ¬(authority.ReachesLeaf chance site.files ∧
        CommonName.maxLength < endpoint.subject.length)) :
        endpoint.warnings chance.suffix = [] := if_neg fun long => h ⟨reaches, long⟩
    have ⟨⟨material, loaded⟩, key, made⟩ := reaches
    simp only [loaded, made] at steps
    cases hl : Certificate.leaf (authority.leafRequest endpoint.subject endpoint.purpose key)
      material.certificate (.rsa material.key) chance.suffix chance.serial clock with
    | error fault =>
      rw [hl] at steps
      refine ⟨_, [], by simp [steps], warns, keepsQuiet, .inr ⟨?_, rfl, _, by rw [steps]⟩⟩
      rintro leaf name ⟨material', key', loaded', made', hl'⟩
      cases loaded.symm.trans loaded'
      cases made.symm.trans made'
      cases hl.symm.trans hl'
    | ok result =>
      obtain ⟨leaf, name⟩ := result
      rw [hl] at steps
      have signs : authority.Signs endpoint chance clock site.files leaf name :=
        ⟨material, key, loaded, made, hl⟩
      exact ⟨_, _, by rw [steps], warns, keepsQuiet, .inl ⟨leaf, name, signs, signs.commonName.1,
        signs.commonName.2, rfl, _, by rw [steps]⟩⟩
  · have stops : done.2 = site ∧ ∃ failure, done.1 = .error failure := by
      cases loaded : authority.loadMaterial site.files with
      | error failure =>
        rw [loaded] at steps
        exact ⟨by rw [steps], failure, by rw [steps]⟩
      | ok material =>
        cases made : chance.keyOfSize? authority.policy.keySize with
        | none =>
          rw [loaded, made] at steps
          exact ⟨by rw [steps], .keyGeneration, by rw [steps]⟩
        | some key => exact absurd ⟨⟨material, loaded⟩, key, made⟩ reaches
    exact ⟨[], [], by simp [stops.1], fun h => absurd h.1 reaches, fun _ => rfl,
      .inr ⟨fun leaf name signs => reaches signs.reachesLeaf, rfl, stops.2⟩⟩

theorem reports_issueFor {endpoint : Endpoint}
    (shortened : ∀ subject name, allowed (.shortenedSubject subject name))
    (issued : ∀ name purpose serial, allowed (.issued name purpose serial)) :
    (authority.issueFor endpoint chance clock).Reports allowed := by
  rw [issueFor_eq]
  unfold issue
  have signed {α : Type} (outcome : Except Failure α) : (Action.ofExcept outcome).Reports allowed :=
    Action.reports_of_silent fun _ => rfl
  refine (Action.reports_of_silent fun _ => rfl).bind fun material =>
    reports_newKey.bind fun key => ?_
  split
  · exact (Action.reports_report (shortened _ _)).bind fun _ => (signed _).bind fun _ =>
      (Action.reports_report (issued _ _ _)).bind fun _ => Action.reports_of_silent fun _ => rfl
  · exact (signed _).bind fun _ =>
      (Action.reports_report (issued _ _ _)).bind fun _ => Action.reports_of_silent fun _ => rfl

end Authority

namespace Call

variable {call : Call} {calls more : List Call} {site : Site} {path : String}

/-- Whether a path is that of the certificate of an authority which is made among some uses, and
leads upwards. -/
def LeadUpwards (calls : List Call) (path : String) : Prop :=
  ∃ call ∈ calls, call.operation = .bootstrap ∧ path = call.authority.certificatePath ∧
    ".." ∈ Path.steps path

def IsMade (calls : List Call) (path : String) : Prop :=
  ∃ call ∈ calls, call.operation = .bootstrap ∧
    (path = call.authority.keyPath ∨ path = call.authority.certificatePath)

theorem LeadUpwards.mono (among : calls ⊆ more) (h : LeadUpwards calls path) :
    LeadUpwards more path := by
  obtain ⟨call, isMember, upward⟩ := h
  exact ⟨call, among isMember, upward⟩

theorem IsMade.mono (among : calls ⊆ more) (h : IsMade calls path) : IsMade more path := by
  obtain ⟨call, isMember, made⟩ := h
  exact ⟨call, among isMember, made⟩

theorem reports_action (call : Call) : call.action.Reports fun event =>
    ∀ path, event.writtenPath? = some path → IsMade [call] path := by
  have seen {α : Type} {allowed : Event → Prop} (look : FileSystem → Except Failure α)
      (answer : α → Answer) : (do return answer (← Action.inspect look)).Reports allowed :=
    (Action.reports_of_silent fun _ => rfl).bind fun _ => Action.reports_of_silent fun _ => rfl
  obtain ⟨authority, operation, chance, clock⟩ := call
  cases operation with
  | bootstrap =>
    refine Action.Reports.bind (fun site => ?_) fun _ => Action.reports_of_silent fun _ => rfl
    obtain ⟨rest, events, all⟩ := authority.events_bootstrap chance clock site
    refine ⟨_, events, fun event isMember path isWritten => ?_⟩
    refine ⟨_, List.mem_singleton_self _, rfl, ?_⟩
    rcases List.mem_cons.1 isMember with rfl | isMember
    · rw [Authority.firstEvent] at isWritten
      split at isWritten <;> cases isWritten
    · have := all _ isMember
      simp only [Authority.laterEvents, List.mem_cons, List.not_mem_nil, or_false] at this
      rcases this with rfl | rfl | rfl | rfl <;> cases isWritten
      · exact .inl rfl
      · exact .inr rfl
  | state =>
    exact (Action.reports_of_silent fun _ => rfl).bind fun _ =>
      Action.reports_of_silent fun _ => rfl
  | loadKey | loadCertificate | loadMaterial | certificatePem | configureClient
  | configureServer => exact seen _ _
  | issue endpoint =>
    refine Action.Reports.bind ?_ fun _ => Action.reports_of_silent fun _ => rfl
    exact Authority.reports_issueFor (by simp [Event.writtenPath?]) (by simp [Event.writtenPath?])

/-- Whatever an authority is used for, it is reported which files were written. -/
theorem tells_after (call : Call) (site : Site) :
    site.Tells (fun path => site.files.IsClosed → LeadUpwards [call] path) (call.after site) := by
  by_cases h : call.operation = .bootstrap
  · rw [after_bootstrap h]
    refine Authority.tells_bootstrap fun may => ?_
    obtain ⟨closed, downward⟩ := Classical.not_imp.1 may
    exact ⟨closed, fun isUpward => downward ⟨call, by simp, h, rfl, isUpward⟩⟩
  · obtain ⟨new, events, all⟩ := call.reports_action site
    refine ⟨new, events, ?_⟩
    have none : Event.written new = [] := Event.written_eq_nil fun event isMember =>
      Option.eq_none_iff_forall_ne_some.2 fun path isWritten => by
        obtain ⟨other, isCall, isBootstrap, -⟩ := all event isMember path isWritten
        rw [List.mem_singleton.1 isCall] at isBootstrap
        exact h isBootstrap
    rw [none, files_after h]
    exact .refl _ _

theorem isClosed_after (closed : site.files.IsClosed) (call : Call) :
    (call.after site).files.IsClosed :=
  Authority.Leaves.isClosed closed (call.leaves_after site)

theorem tells_run (calls : List Call) (site : Site) :
    site.Tells (fun path => site.files.IsClosed → LeadUpwards calls path) (run calls site) := by
  induction calls generalizing site with
  | nil => exact .refl _ _
  | cons call rest ih =>
    refine ((call.tells_after site).mono fun path upward closed => ?_).trans
      ((ih (call.after site)).mono fun path upward closed => ?_)
    · exact (upward closed).mono (by simp)
    · exact (upward (isClosed_after closed call)).mono (List.subset_cons_self _ _)

theorem reports_run (calls : List Call) (site : Site) :
    ∃ new, (run calls site).events = site.events ++ new ∧
      ∀ path ∈ Event.written new, IsMade calls path := by
  induction calls generalizing site with
  | nil => exact ⟨[], (List.append_nil _).symm, by simp [Event.written]⟩
  | cons call rest ih =>
    obtain ⟨first, events, own⟩ := call.reports_action site
    obtain ⟨second, events', own'⟩ := ih (call.after site)
    refine ⟨first ++ second, ?_, fun path isWritten => ?_⟩
    · rw [run, events', after, events, List.append_assoc]
    · rw [Event.written_append, List.mem_append] at isWritten
      rcases isWritten with isWritten | isWritten
      · obtain ⟨event, isMember, isPath⟩ := List.mem_filterMap.1 isWritten
        exact (own event isMember path isPath).mono (by simp)
      · exact (own' path isWritten).mono (List.subset_cons_self _ _)

/-- The log of any number of uses tells what they did. The files that are reported as written are
files of the authorities, each reported once; they were written in that order, where the path led
nowhere, and all that is now a file and was not, or not with this content, is one of them. They
are new and each another one, unless the way to a certificate leads upwards. A bootstrap reports
that it generates a key exactly if it has none. An issuance reports that the subject is shortened
exactly if it is too long and a leaf is to be made, with the name in the leaf; and the leaf exactly
if it is signed, with its name and its serial number. -/
theorem log_of_run (calls : List Call) (site : Site) :
    (∃ new, (run calls site).events = site.events ++ new ∧
      Records (fun path => site.files.IsClosed → LeadUpwards calls path) site.files
        (Event.written new) (run calls site).files ∧
      (Event.written new).Nodup ∧
      (∀ path ∈ Event.written new, IsMade calls path ∧ site.files.contains path = false ∧
        ∃ place content access,
          (run calls site).files.target path = .ok (.node place (.file content access))) ∧
      (∀ place content access,
        (run calls site).files.get? place = some (.file content access) →
        site.files.get? place = some (.file content access) ∨ ∃ path ∈ Event.written new,
          ∃ node, (run calls site).files.target path = .ok (.node place node)) ∧
      (∀ place, site.files.get? place = none →
        ((∃ content access, (run calls site).files.get? place = some (.file content access)) ↔
          ∃ path ∈ Event.written new, ∃ node,
            (run calls site).files.target path = .ok (.node place node))) ∧
      (site.files.IsClosed → (∀ call ∈ calls, call.operation = .bootstrap →
          ".." ∉ Path.steps call.authority.certificatePath) →
        (∀ path ∈ Event.written new, ∀ place node,
          (run calls site).files.target path = .ok (.node place node) →
          site.files.get? place = none) ∧
        (Event.written new).Pairwise fun path other =>
          ¬(run calls site).files.Meets path other)) ∧
    (∀ (authority : Authority) (chance : Chance) (clock : Clock) (site : Site), ∃ new,
      ((authority.bootstrap chance clock).perform site).2.events = site.events ++ new ∧
      ∀ path bits, Event.generatingKey path bits ∈ new ↔
        site.files.contains authority.keyPath = false ∧ path = authority.keyPath ∧
          bits = authority.policy.keySize) ∧
    ∀ (authority : Authority) (endpoint : Endpoint) (chance : Chance) (clock : Clock) (site : Site),
      let done := (authority.issueFor endpoint chance clock).perform site
      ∃ warned reported, done.2.events = site.events ++ warned ++ reported ∧
        (authority.ReachesLeaf chance site.files ∧
            CommonName.maxLength < endpoint.subject.length →
          warned = [.shortenedSubject endpoint.subject
            (CommonName.ofSubject chance.suffix endpoint.subject)]) ∧
        (¬(authority.ReachesLeaf chance site.files ∧
            CommonName.maxLength < endpoint.subject.length) → warned = []) ∧
        ((∃ leaf name, authority.Signs endpoint chance clock site.files leaf name ∧
            name = CommonName.ofSubject chance.suffix endpoint.subject ∧
            leaf.commonNames.map (·.text?) = [some name] ∧
            reported = [.issued name endpoint.purpose leaf.body.serial.toNat] ∧
            ∃ keyPem, done.1 = .ok ⟨keyPem, Pem.text leaf.toPem, name⟩) ∨
          (∀ leaf name, ¬authority.Signs endpoint chance clock site.files leaf name) ∧
            reported = [] ∧ ∃ failure, done.1 = .error failure) := by
  refine ⟨?_, Authority.generatingKey_of_bootstrap, Authority.reports_of_issueFor⟩
  obtain ⟨new, events, records⟩ := tells_run calls site
  obtain ⟨new', events', own⟩ := reports_run calls site
  rw [List.append_cancel_left (events'.symm.trans events)] at own
  refine ⟨new, events, records, records.nodup,
    fun path isWritten => ⟨own path isWritten, records.contains isWritten,
      records.leads isWritten⟩,
    fun place content access => records.file_cases, fun place => records.isFile_iff,
    fun closed downward => ?_⟩
  have isFresh (path : String) (_ : path ∈ Event.written new) :
      ¬(site.files.IsClosed → LeadUpwards calls path) := by
    intro upward
    obtain ⟨call, isMember, isBootstrap, rfl, isUpward⟩ := upward closed
    exact downward call isMember isBootstrap isUpward
  exact ⟨fun path isWritten place node => records.get?_of_fresh isFresh isWritten,
    records.not_meets isFresh⟩

end Call

namespace Authority

def longNamed : Endpoint :=
  .client ⟨"office", .user "somebody.with.a.very.long.name.and.many.others@mail.example.org"⟩

private theorem exists_run_longNamed : ∃ certificate made credential reported,
    (plain.bootstrap (.ofSmallPrime 5) plainClock).perform ⟨.empty, []⟩ =
      (.ok (), ⟨plain.newFiles (.ofSmallPrime 5) certificate .empty, made⟩) ∧
    (plain.issueFor longNamed (.ofSmallPrime 7) plainClock).perform
        ⟨plain.newFiles (.ofSmallPrime 5) certificate .empty, made⟩ =
      (.ok credential, ⟨plain.newFiles (.ofSmallPrime 5) certificate .empty, reported⟩) := by
  have sound := Chance.isSound_ofSmallPrime_five
  have fits := CommonName.length_ofSubject (Chance.ofSmallPrime 7).suffix
    longNamed.one_le_length_subject
  obtain ⟨certificate, made, bootstrapped, loaded, -⟩ := exists_bootstrap_plain sound.toIsRegular
  obtain ⟨credential, reported, issued⟩ := exists_issueFor_eq_ok longNamed (.ofSmallPrime 7)
    plainClock made loaded sound.key (by decide) (by decide)
    (accepts_default 2206 fits.1 fits.2) dates_plainClock
  exact ⟨certificate, made, credential, reported, bootstrapped, issued⟩

private theorem target_newFiles_plain {chance : Chance} {certificate : Certificate}
    {path : String} (isOwn : path = plain.keyPath ∨ path = plain.certificatePath) :
    ∃ content access, (plain.newFiles chance certificate .empty).target path =
      .ok (.node [path] (.file content access)) := by
  rcases isOwn with rfl | rfl
  · exact ⟨_, _, FileSystem.target_name_of_file isName_keyPath_plain
      (get?_keyPath_newFiles (by decide))⟩
  · exact ⟨_, _, FileSystem.target_name_of_file isName_certificatePath_plain
      get?_certificatePath_newFiles⟩

/-- Each of the two files is new, so some path that is reported leads to it. -/
private theorem mem_written_iff_of_own {certificate : Certificate} {events : List Event}
    (own : ∀ path ∈ Event.written events, path = plain.keyPath ∨ path = plain.certificatePath)
    (isFile : ∀ place, FileSystem.empty.get? place = none →
      ((∃ content access, (plain.newFiles chance certificate .empty).get? place =
          some (.file content access)) ↔
        ∃ path ∈ Event.written events, ∃ node,
          (plain.newFiles chance certificate .empty).target path = .ok (.node place node)))
    (path : String) :
    path ∈ Event.written events ↔ path = plain.keyPath ∨ path = plain.certificatePath := by
  refine ⟨own path, fun isOwn => ?_⟩
  obtain ⟨content, access, there⟩ := target_newFiles_plain isOwn
  obtain ⟨other, isWritten, node, leads⟩ :=
    (isFile [path] rfl).1 ⟨content, access, FileSystem.get?_of_target there⟩
  obtain ⟨_, _, there'⟩ := target_newFiles_plain (own other isWritten)
  rw [leads, Except.ok.injEq, FileSystem.Target.node.injEq, List.singleton_inj] at there'
  rwa [there'.1]

private theorem reports_longNamed {files : FileSystem} {made reported : List Event}
    {credential : Credential}
    (bootstrapped : (plain.bootstrap (.ofSmallPrime 5) plainClock).perform ⟨.empty, []⟩ =
      (.ok (), ⟨files, made⟩))
    (issued : (plain.issueFor longNamed (.ofSmallPrime 7) plainClock).perform ⟨files, made⟩ =
      (.ok credential, ⟨files, reported⟩)) :
    (∃ name serial, reported = made ++
      [.shortenedSubject longNamed.subject name, .issued name .client serial]) ∧
      .generatingKey plain.keyPath 2206 ∈ made := by
  obtain ⟨new, events, isGenerated⟩ :=
    generatingKey_of_bootstrap plain (.ofSmallPrime 5) plainClock ⟨.empty, []⟩
  rw [bootstrapped, List.nil_append] at events
  dsimp only at events
  obtain ⟨warned, told, events', warns, -, outcome⟩ :=
    reports_of_issueFor plain longNamed (.ofSmallPrime 7) plainClock ⟨files, made⟩
  rw [issued] at events' outcome
  rcases outcome with ⟨leaf, name, signs, isName, -, isTold, -⟩ | ⟨-, -, failure, failed⟩
  · refine ⟨⟨name, leaf.body.serial.toNat, ?_⟩, ?_⟩
    · dsimp only at events'
      rw [events', warns ⟨signs.reachesLeaf, by decide⟩, isTold, isName]
      simp [longNamed, Endpoint.purpose]
    · rw [events]
      exact (isGenerated _ _).2
        ⟨FileSystem.contains_name_of_isFree isName_keyPath_plain rfl, rfl, rfl⟩
  · cases failed

/-- What the plain authority reports meanwhile. Where the way to the certificate leads upwards, a
file is reported as written that was there before. -/
theorem log_of_run_plain :
    let calls : List Call := [⟨plain, .bootstrap, .ofSmallPrime 5, plainClock⟩,
      ⟨plain, .issue longNamed, .ofSmallPrime 7, plainClock⟩]
    (∀ path, path ∈ Event.written (Call.run calls ⟨.empty, []⟩).events ↔
      path = plain.keyPath ∨ path = plain.certificatePath) ∧
    (∃ made name serial, (Call.run calls ⟨.empty, []⟩).events = made ++
        [.shortenedSubject longNamed.subject name, .issued name .client serial] ∧
      .generatingKey plain.keyPath 2206 ∈ made) ∧
    ∃ later, (upward.bootstrap (.ofSmallPrime 5) plainClock).perform ⟨precious, []⟩ =
        (.ok (), later) ∧
      precious.get? ["precious.txt"] = some (.file [107, 101, 112, 116] .everyone) ∧
      ∃ path ∈ Event.written later.events, ∃ node,
        later.files.target path = .ok (.node ["precious.txt"] node) := by
  intro calls
  obtain ⟨certificate, made, credential, reported, bootstrapped, issued⟩ := exists_run_longNamed
  have behind : Call.run calls ⟨.empty, []⟩ =
      ⟨plain.newFiles (.ofSmallPrime 5) certificate .empty, reported⟩ := by
    rw [Call.run, Call.run, Call.run, Call.after_issue rfl, Call.after_bootstrap rfl]
    dsimp only
    rw [bootstrapped, issued]
  refine ⟨?_, ?_, ?_⟩
  · obtain ⟨⟨new, events, -, -, ours, -, isFile, -⟩, -⟩ := Call.log_of_run calls ⟨.empty, []⟩
    rw [behind] at events ours isFile ⊢
    rw [List.nil_append] at events
    subst events
    refine mem_written_iff_of_own (fun path isWritten => ?_) isFile
    obtain ⟨⟨call, isMember, isBootstrap, isOwn⟩, -⟩ := ours path isWritten
    simp only [calls, List.mem_cons, List.not_mem_nil, or_false] at isMember
    rcases isMember with rfl | rfl
    · exact isOwn
    · cases isBootstrap
  · obtain ⟨⟨name, serial, isReported⟩, isGenerated⟩ := reports_longNamed bootstrapped issued
    exact ⟨made, name, serial, by rw [behind, isReported], isGenerated⟩
  · obtain ⟨ca, later, performed, replaced⟩ :=
      exists_bootstrap_upward Chance.isSound_ofSmallPrime_five.toIsRegular
    obtain ⟨⟨new, events, -, -, -, changed, -⟩, -⟩ :=
      Call.log_of_run [⟨upward, .bootstrap, .ofSmallPrime 5, plainClock⟩] ⟨precious, []⟩
    rw [Call.run, Call.run, Call.after_bootstrap rfl, performed] at events changed
    rw [List.nil_append] at events
    have there : precious.get? ["precious.txt"] = some (.file [107, 101, 112, 116] .everyone) := rfl
    have isDash : ca.toPem.head? = some 45 := rfl
    refine ⟨later, performed, there, ?_⟩
    rw [events]
    refine (changed _ _ _ replaced).resolve_left fun kept => ?_
    rw [there, Option.some.injEq, Node.file.injEq] at kept
    rw [← kept.1] at isDash
    cases isDash

end Authority

end VpnAuthority
