import VpnAuthority.Authority.Rendering
import VpnAuthority.Proofs.Authority.Availability
import VpnAuthority.Proofs.Authority.Growth
import VpnAuthority.Proofs.FileSystem.Tree
import VpnAuthority.Proofs.Rsa.Generation

/-! What authorities do to the files in the course of time: every use of every one of them,
in any order and however it ends. -/
namespace VpnAuthority

inductive Operation where
  | bootstrap
  | state
  | loadKey
  | loadCertificate
  | loadMaterial
  | certificatePem
  | issue (endpoint : Endpoint)
  | configureClient (parameters : ClientParameters)
  | configureServer (parameters : ServerParameters)

inductive Answer where
  | done
  | state (state : AuthorityState)
  | key (key : Rsa.PrivateKey)
  | certificate (certificate : Certificate)
  | material (material : Material)
  | text (text : String)
  | credential (credential : Credential)

/-- A use of an authority, with what chance and the clock bring about in it. -/
structure Call where
  authority : Authority
  operation : Operation
  chance : Chance
  clock : Clock

namespace Call

def action (call : Call) : Action Answer :=
  match call.operation with
  | .bootstrap => do
    call.authority.bootstrap call.chance call.clock
    return .done
  | .state => return .state (call.authority.state (← get).files)
  | .loadKey => return .key (← Action.inspect call.authority.loadKey)
  | .loadCertificate => return .certificate (← Action.inspect call.authority.loadCertificate)
  | .loadMaterial => return .material (← Action.inspect call.authority.loadMaterial)
  | .certificatePem => return .text (← Action.inspect call.authority.certificatePem)
  | .issue endpoint =>
    return .credential (← call.authority.issueFor endpoint call.chance call.clock)
  | .configureClient parameters =>
    return .text (← Action.inspect (call.authority.clientConfiguration · parameters))
  | .configureServer parameters =>
    return .text (← Action.inspect (call.authority.serverConfiguration · parameters))

def after (call : Call) (site : Site) : Site := (call.action.perform site).2

def run : List Call → Site → Site
  | [], site => site
  | call :: rest, site => run rest (call.after site)

variable {call : Call} {calls : List Call} {site : Site} {files later last : FileSystem}
  {place : Place} {node : Node} {content : Bytes} {access : Access}

theorem keepsFiles_action (h : call.operation ≠ .bootstrap) : call.action.KeepsFiles := by
  have seen {α : Type} (look : FileSystem → Except Failure α) (answer : α → Answer) :
      (do return answer (← Action.inspect look)).KeepsFiles :=
    (Action.keepsFiles_inspect look).bind fun _ => Action.keepsFiles_pure _
  obtain ⟨authority, operation, chance, clock⟩ := call
  cases operation with
  | bootstrap => exact absurd rfl h
  | state => exact Action.keepsFiles_get.bind fun _ => Action.keepsFiles_pure _
  | loadKey | loadCertificate | loadMaterial | certificatePem | configureClient
  | configureServer => exact seen _ _
  | issue endpoint =>
    refine Action.KeepsFiles.bind ?_ fun _ => Action.keepsFiles_pure _
    rw [Authority.issueFor_eq]
    exact authority.keepsFiles_issue _ _ _ _

theorem files_after (h : call.operation ≠ .bootstrap) (site : Site) :
    (call.after site).files = site.files :=
  keepsFiles_action h site

theorem after_bootstrap (h : call.operation = .bootstrap) (site : Site) :
    call.after site = ((call.authority.bootstrap call.chance call.clock).perform site).2 := by
  unfold after action
  rw [h]
  simp only [Action.perform_bind]
  split <;> simp_all

theorem after_issue {endpoint : Endpoint} (h : call.operation = .issue endpoint) (site : Site) :
    call.after site =
      ((call.authority.issueFor endpoint call.chance call.clock).perform site).2 := by
  unfold after action
  rw [h]
  simp only [Action.perform_bind]
  split <;> simp_all

theorem files_after_bootstrap (h : call.operation = .bootstrap) (site : Site) :
    (call.after site).files =
      ((call.authority.bootstrap call.chance call.clock).perform site).2.files := by
  rw [after_bootstrap h]

theorem leaves_after (call : Call) (site : Site) (place : Place) :
    call.authority.Leaves call.chance call.clock site.files (call.after site).files place := by
  by_cases h : call.operation = .bootstrap
  · rw [files_after_bootstrap h]
    exact Authority.leaves_bootstrap _ _ _ _ _
  · rw [files_after h]
    exact .same rfl

/-- A file that was there before a bootstrap may get the certificate for its content, if the
way to the certificate leads upwards and led nowhere before. -/
structure Overwrites (call : Call) (files later : FileSystem) (place : Place) (content : Bytes) :
    Prop where
  isBootstrap : call.operation = .bootstrap
  isUpward : ".." ∈ Path.steps call.authority.certificatePath
  isNew : files.contains call.authority.certificatePath = false
  isCertificate : ∃ key certificate, Certificate.root call.authority.policy (.rsa key)
    call.authority.policy.authorityName call.authority.policy.authorityDays call.chance.serial
    call.clock = .ok certificate ∧ content = certificate.toPem
  leads : ∃ access, later.target call.authority.certificatePath =
    .ok (.node place (.file content access))

theorem file_after (call : Call) (tree : site.files.IsTree)
    (there : site.files.get? place = some (.file content access)) :
    ∃ content' access', (call.after site).files.get? place = some (.file content' access') ∧
      (content' = content ∧ access' = access ∨
        call.Overwrites site.files (call.after site).files place content') := by
  have leaves := call.leaves_after site
  cases leaves place with
  | same isSame => exact ⟨content, access, isSame.trans there, .inl ⟨rfl, rfl⟩⟩
  | directory isFree | key isFree =>
    rw [isFree] at there
    cases there
  | @certificate key certificate access' isNew hasKey isMade becomes leads =>
    refine ⟨_, access', FileSystem.get?_of_target leads, ?_⟩
    by_cases h : call.operation = .bootstrap
    · exact .inr ⟨h, FileSystem.upward_of_target tree (Authority.Leaves.isTree tree leaves)
        (Authority.Leaves.keeps leaves) isNew leads there, isNew, ⟨key, certificate, isMade, rfl⟩,
        access', leads⟩
    · have same := FileSystem.get?_of_target leads
      rw [files_after h, there] at same
      cases same
      exact .inl ⟨rfl, rfl⟩

theorem adds_after (call : Call) (isFree : site.files.get? place = none)
    (there : (call.after site).files.get? place = some node) :
    call.operation = .bootstrap ∧ call.authority.Adds (call.after site).files place node := by
  refine ⟨?_, ?_⟩
  · by_contra h
    rw [files_after h, isFree] at there
    cases there
  · cases call.leaves_after site place with
    | same isSame =>
      rw [isSame, isFree] at there
      cases there
    | directory isFree isNew way =>
      rw [isNew, Option.some.injEq] at there
      exact .inl ⟨there.symm, way⟩
    | key isFree isNew isMade leads =>
      rw [FileSystem.get?_of_target leads, Option.some.injEq] at there
      subst there
      exact .inr ⟨_, _, _, .inl rfl, rfl, leads⟩
    | certificate isNew hasKey isMade becomes leads =>
      rw [FileSystem.get?_of_target leads, Option.some.injEq] at there
      subst there
      exact .inr ⟨_, _, _, .inr rfl, rfl, leads⟩

theorem run_append (done rest : List Call) (site : Site) :
    run (done ++ rest) site = run rest (run done site) := by
  induction done generalizing site with
  | nil => rfl
  | cons call done ih => exact ih (call.after site)

theorem files_run (h : ∀ call ∈ calls, call.operation ≠ .bootstrap) (site : Site) :
    (run calls site).files = site.files := by
  induction calls generalizing site with
  | nil => rfl
  | cons call rest ih =>
    rw [List.forall_mem_cons] at h
    rw [run, ih h.2, files_after h.1]

theorem keeps_run (calls : List Call) (site : Site) : site.files.Keeps (run calls site).files := by
  induction calls generalizing site with
  | nil => exact .refl _
  | cons call rest ih =>
    exact (Authority.Leaves.keeps (call.leaves_after site)).trans (ih (call.after site))

theorem file_run (calls : List Call) (tree : site.files.IsTree)
    (there : site.files.get? place = some (.file content access)) :
    ∃ content' access', (run calls site).files.get? place = some (.file content' access') ∧
      (content' = content ∧ access' = access ∨
        ∃ done call rest, calls = done ++ call :: rest ∧
          call.Overwrites (run done site).files (call.after (run done site)).files place
            content') := by
  induction calls generalizing site content access with
  | nil => exact ⟨content, access, there, .inl ⟨rfl, rfl⟩⟩
  | cons call rest ih =>
    have tree' := Authority.Leaves.isTree tree (call.leaves_after site)
    obtain ⟨middle, access', there', first⟩ := call.file_after tree there
    obtain ⟨content', access'', there'', ⟨rfl, rfl⟩ | ⟨done, last, rest', rfl, overwrites⟩⟩ :=
      ih tree' there'
    · refine ⟨_, _, there'', first.imp_right fun overwrites => ?_⟩
      exact ⟨[], call, rest, rfl, overwrites⟩
    · exact ⟨content', access'', there'', .inr ⟨call :: done, last, rest', rfl, overwrites⟩⟩

theorem adds_run (calls : List Call) (isFree : site.files.get? place = none)
    (there : (run calls site).files.get? place = some node) :
    ∃ call ∈ calls, call.operation = .bootstrap ∧
      call.authority.Adds (run calls site).files place node := by
  induction calls generalizing site with
  | nil =>
    rw [run, isFree] at there
    cases there
  | cons call rest ih =>
    cases h : (call.after site).files.get? place with
    | none =>
      obtain ⟨adding, isMember, isBootstrap, adds⟩ := ih h there
      exact ⟨adding, List.mem_cons_of_mem _ isMember, isBootstrap, adds⟩
    | some first =>
      obtain ⟨isBootstrap, adds⟩ := call.adds_after isFree h
      exact ⟨call, List.mem_cons_self, isBootstrap,
        adds.of_keeps (keeps_run rest (call.after site)) there⟩

/-- Whatever authorities are used for, and however it ends, every node stays where it is and
only a bootstrap changes any. What is new is the files of the authorities and directories on
the way to them. A file that was there before keeps its content, unless a bootstrap puts its
certificate there; it can do so only if the way to the certificate leads upwards. -/
theorem files_of_run (calls : List Call) (site : Site) (tree : site.files.IsTree) :
    (∀ place content access, site.files.get? place = some (.file content access) →
      (∀ call ∈ calls, call.operation = .bootstrap →
        ".." ∉ Path.steps call.authority.certificatePath) →
      (run calls site).files.get? place = some (.file content access)) ∧
    (∀ place content access, site.files.get? place = some (.file content access) →
      ∃ content' access', (run calls site).files.get? place = some (.file content' access') ∧
        (content' = content ∧ access' = access ∨
          ∃ done call rest, calls = done ++ call :: rest ∧
            call.Overwrites (run done site).files (run (done ++ [call]) site).files place
              content')) ∧
    (∀ place, site.files.get? place = some .directory →
      (run calls site).files.get? place = some .directory) ∧
    (∀ place node, site.files.get? place = none →
      (run calls site).files.get? place = some node →
        ∃ call ∈ calls, call.operation = .bootstrap ∧
          call.authority.Adds (run calls site).files place node) ∧
    ∀ (call : Call) (site : Site), call.operation ≠ .bootstrap →
      (call.after site).files = site.files := by
  have kept {place content access} (there : site.files.get? place = some (.file content access)) :
      ∃ content' access', (run calls site).files.get? place = some (.file content' access') ∧
        (content' = content ∧ access' = access ∨
          ∃ done call rest, calls = done ++ call :: rest ∧
            call.Overwrites (run done site).files (run (done ++ [call]) site).files place
              content') := by
    simp only [run_append, run]
    exact file_run calls tree there
  refine ⟨?_, fun place content access => kept, ?_, ?_, fun call site h => files_after h site⟩
  · intro place content access there downward
    obtain ⟨_, _, there', ⟨rfl, rfl⟩ | ⟨done, call, rest, rfl, overwrites⟩⟩ := kept there
    · exact there'
    · exact absurd overwrites.isUpward (downward call (by simp) overwrites.isBootstrap)
  · intro place there
    obtain ⟨_, there', ⟨⟩⟩ := keeps_run calls site _ _ there
    exact there'
  · intro place node isFree there
    exact adds_run calls isFree there

end Call

namespace Authority

/-- Where the way to the certificate leads out of a directory that is not there, and so to a
file, the certificate is written over that file. -/
theorem EnsuresCertificate.of_upward {authority : Authority} {chance : Chance} {clock : Clock}
    {files : FileSystem} {key : Rsa.PrivateKey} {certificate : Certificate} {content : Bytes}
    {access : Access} {directory name : String} (isDirectory : Path.IsName directory)
    (isName : Path.IsName name)
    (steps : Path.steps authority.certificatePath = [directory, "..", name])
    (checked : Path.check [directory, "..", name] = .ok () ∧ Path.check [directory, ".."] = .ok ())
    (parents : Path.parentSteps [directory, "..", name] = [directory, ".."])
    (isFree : files.get? [directory] = none)
    (there : files.get? [name] = some (.file content access))
    (isMade : Certificate.root authority.policy (.rsa key) authority.policy.authorityName
      authority.policy.authorityDays chance.serial clock = .ok certificate) :
    authority.EnsuresCertificate key chance clock files ((files.insert [directory] .directory).insert
      [name] (.file certificate.toPem access)) := by
  have isNew : files.contains authority.certificatePath = false := by
    have missing : files.walk true Path.maxLinks [] [directory, "..", name] = .error .notFound :=
      FileSystem.walk_name_of_isFree isDirectory isFree
    rw [FileSystem.contains, FileSystem.target_of_checked (by rw [steps, checked.1]), steps, missing]
  have leads : (files.insert [directory] .directory).target authority.certificatePath =
      .ok (.node [name] (.file content access)) := by
    rw [FileSystem.target, steps, FileSystem.locate_up isDirectory
      (FileSystem.get?_insert_self (by simp)) checked.1]
    exact FileSystem.walk_name_of_file isName (FileSystem.get?_insert_free isFree there)
  have hasParents : files.createParents authority.certificatePath =
      (files.insert [directory] .directory, .ok ()) := by
    rw [FileSystem.createParents, steps, parents]
    exact FileSystem.ensureAll_up_of_isFree isDirectory checked.2 isFree
  exact .made isNew isMade hasParents (FileSystem.write_file leads _)

/-- An authority whose way to its certificate leads out of a directory that is not there. -/
def upward : Authority where
  settings := { plain.settings with
    authority := ⟨"key.pem", "new/../precious.txt", ⟨"secret"⟩⟩ }
  isAccepted := by decide

def precious : FileSystem :=
  FileSystem.empty.insert ["precious.txt"] (.file [107, 101, 112, 116] .everyone)

theorem isTree_precious : precious.IsTree :=
  FileSystem.isTree_empty.insert (rfl : FileSystem.empty.get? [] = _) rfl (by simp)

private theorem isName_precious : Path.IsName "precious.txt" :=
  ⟨by decide, by decide, by decide, by decide⟩

theorem exists_bootstrap_upward {chance : Chance} (regular : chance.IsRegular 2206) :
    ∃ (ca : Certificate) (later : Site),
      (upward.bootstrap chance plainClock).perform ⟨precious, []⟩ = (.ok (), later) ∧
      later.files.get? ["precious.txt"] = some (.file ca.toPem .everyone) := by
  obtain ⟨ca, -, -, -, own⟩ := exists_bootstrap_plain regular
  have obtains : upward.ObtainsKey chance precious (chance.key 2206) (precious.insert ["key.pem"]
      (.file (upward.keyText chance (chance.key 2206)) .owner)) :=
    .made (FileSystem.contains_name_of_isFree isName_keyPath_plain (by decide))
      (if_pos (by decide)) (FileSystem.createParents_name isName_keyPath_plain _)
      (FileSystem.createSecret_name isName_keyPath_plain (by decide) _)
  have isFree : (precious.insert ["key.pem"] (.file (upward.keyText chance (chance.key 2206))
      .owner)).get? ["new"] = none :=
    (FileSystem.get?_insert_of_ne (by decide)).trans rfl
  have there : (precious.insert ["key.pem"] (.file (upward.keyText chance (chance.key 2206))
      .owner)).get? ["precious.txt"] = some (.file [107, 101, 112, 116] .everyone) :=
    (FileSystem.get?_insert_of_ne (by decide)).trans rfl
  obtain ⟨reported, performed⟩ : ∃ reported, (upward.bootstrap chance plainClock).perform
      ⟨precious, []⟩ = (.ok (), ⟨_, reported⟩) :=
    bootstrap_eq_ok_iff.2 ⟨_, _, obtains, .of_upward isName_new isName_precious (by decide)
      ⟨by decide, by decide⟩ (by decide) isFree there own.certificate⟩
  exact ⟨ca, _, performed, FileSystem.get?_insert_self (by simp)⟩

/-- A file next to the plain authority keeps its content. Where the way to the certificate
leads upwards it does not, though the bootstrap reports a success. -/
theorem files_of_run_precious :
    (Call.run [⟨plain, .bootstrap, .ofSmallPrime 5, plainClock⟩,
        ⟨plain, .loadMaterial, .ofSmallPrime 7, plainClock⟩] ⟨precious, []⟩).files.get?
      ["precious.txt"] = some (.file [107, 101, 112, 116] .everyone) ∧
    ∃ ca : Certificate, ca.toPem ≠ [107, 101, 112, 116] ∧
      ((upward.bootstrap (.ofSmallPrime 5) plainClock).perform ⟨precious, []⟩).1 = .ok () ∧
      (Call.run [⟨upward, .bootstrap, .ofSmallPrime 5, plainClock⟩] ⟨precious, []⟩).files.get?
        ["precious.txt"] = some (.file ca.toPem .everyone) := by
  have there : precious.get? ["precious.txt"] = some (.file [107, 101, 112, 116] .everyone) := rfl
  constructor
  · refine (Call.files_of_run _ ⟨precious, []⟩ isTree_precious).1 _ _ _ there ?_
    intro call isMember isBootstrap
    simp only [List.mem_cons, List.not_mem_nil, or_false] at isMember
    rcases isMember with rfl | rfl
    · decide
    · cases isBootstrap
  · obtain ⟨ca, later, performed, replaced⟩ := exists_bootstrap_upward
      Chance.isSound_ofSmallPrime_five.toIsRegular
    have isDash : ca.toPem.head? = some 45 := rfl
    have differs : ca.toPem ≠ [107, 101, 112, 116] := by
      intro same
      rw [same] at isDash
      exact absurd isDash (by decide)
    refine ⟨ca, differs, by rw [performed], ?_⟩
    rw [Call.run, Call.run, Call.files_after_bootstrap rfl, performed]
    exact replaced

end Authority

end VpnAuthority
