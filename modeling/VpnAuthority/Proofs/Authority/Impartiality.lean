import VpnAuthority.Proofs.Authority.Naming
import VpnAuthority.Proofs.Certificate.Subject

/-! Whether a credential is made, and of what the attempt fails, follows from the files, the
clock and the new key. Whom the credential is for plays no part in it. -/
namespace VpnAuthority

theorem Endpoint.accepts_commonName (endpoint : Endpoint) (suffix : UniqueSuffix) :
    SubjectField.commonName.accepts (CommonName.ofSubject suffix endpoint.subject) = true :=
  have ⟨isSome, short⟩ := CommonName.length_ofSubject suffix endpoint.one_le_length_subject
  SubjectField.accepts_iff.2 ⟨isSome, short, fun _ _ => rfl⟩

/-- The first field of a policy that no name may have, whatever the common name in it is. -/
def Policy.refused? (policy : Policy) : Option SubjectField :=
  SubjectField.all.find? fun field =>
    field != .commonName && !field.accepts (field.value policy "")

theorem DistinguishedName.refused?_of_accepts {policy : Policy} {commonName : String}
    (h : SubjectField.commonName.accepts commonName = true) :
    refused? policy commonName = policy.refused? := by
  refine congrArg (SubjectField.all.find? ·) (funext fun field => ?_)
  cases field with
  | commonName =>
    rw [SubjectField.value, h]
    rfl
  | country | province | locality | organization | unit | name | email => rfl

theorem Policy.refused?_ne_commonName (policy : Policy) : policy.refused? ≠ some .commonName := by
  intro h
  have := List.find?_some h
  simp at this

theorem CertificateFault.eq_of_message {fault : CertificateFault}
    (h : fault.message = "Failed to set CN") : fault = .subject .commonName :=
  message_injective h

def Policy.tryLeaf (policy : Policy) (clock : Clock) (key : Rsa.PrivateKey) :
    Except CertificateFault Unit :=
  match policy.refused? with
  | some field => .error (.subject field)
  | none => do
    let _ ← Certificate.validityBy clock policy.leafDays
    if 62 ≤ key.toPublic.size then .ok () else .error .signing

/-- What becomes of a credential, as far as the authority, its files, the clock and the new key
decide it. -/
def Authority.tryIssue (authority : Authority) (chance : Chance) (clock : Clock)
    (files : FileSystem) : Except Failure Unit := do
  let material ← authority.loadMaterial files
  match chance.keyOfSize? authority.policy.keySize with
  | none => .error .keyGeneration
  | some _ => (authority.policy.tryLeaf clock material.key).mapError .certificate

def forget {ε α : Type} (outcome : Except ε α) : Except ε Unit := outcome.map fun _ => ()

section
variable {ε ε' α β : Type} {outcome : Except ε α}

theorem forget_eq_error_iff {e : ε} : forget outcome = .error e ↔ outcome = .error e := by
  cases outcome <;> simp [forget, Except.map]

theorem forget_eq_ok_iff : forget outcome = .ok () ↔ ∃ a, outcome = .ok a := by
  cases outcome <;> simp [forget, Except.map]

theorem forget_bind_ok (outcome : Except ε α) (f : α → β) :
    forget (outcome >>= fun a => .ok (f a)) = forget outcome := by
  cases outcome <;> rfl

theorem forget_mapError (outcome : Except ε α) (f : ε → ε') :
    forget (outcome.mapError f) = (forget outcome).mapError f := by
  cases outcome <;> rfl

end

namespace Certificate

theorem forget_sign (body : CertificateBody) (key : Rsa.PrivateKey) :
    forget (sign body (PrivateKey.rsa key).signer) =
      if 62 ≤ key.toPublic.size then .ok () else .error .signing := by
  have decided : (Rsa.sign? key .sha256
      { body with algorithm := standardAlgorithm }.encode).isSome = true ↔
        62 ≤ key.toPublic.size := Rsa.isSome_sign?_iff _
  unfold sign PrivateKey.signer
  dsimp only
  cases made : Rsa.sign? key .sha256 { body with algorithm := standardAlgorithm }.encode with
  | none =>
    rw [made] at decided
    rw [if_neg fun enough => nomatch decided.2 enough]
    rfl
  | some signature =>
    rw [made] at decided
    rw [if_pos (decided.1 rfl)]
    rfl

theorem forget_leaf (request : LeafRequest) {suffix : UniqueSuffix}
    (h : SubjectField.commonName.accepts (CommonName.ofSubject suffix request.subject) = true)
    (days : request.days = request.policy.leafDays) (issuer : Certificate) (key : Rsa.PrivateKey)
    (serial : Nat) (clock : Clock) :
    forget (leaf request issuer (.rsa key) suffix serial clock) =
      request.policy.tryLeaf clock key := by
  simp only [leaf, leafBy, Policy.tryLeaf, subject, DistinguishedName.ofSubject_eq,
    DistinguishedName.refused?_of_accepts h, days]
  cases request.policy.refused? with
  | some field => rfl
  | none =>
    cases validityBy clock request.policy.leafDays with
    | error fault => rfl
    | ok validity => exact (forget_bind_ok _ _).trans (forget_sign _ key)

end Certificate

namespace Authority

variable (authority : Authority)

theorem forget_issueFor (endpoint : Endpoint) (chance : Chance) (clock : Clock) (site : Site) :
    forget ((authority.issueFor endpoint chance clock).perform site).1 =
      authority.tryIssue chance clock site.files := by
  rw [issueFor_eq, issue, tryIssue, Action.perform_bind, Action.perform_inspect]
  cases authority.loadMaterial site.files with
  | error failure => rfl
  | ok material =>
    simp only [Action.perform_bind, newKey]
    cases chance.keyOfSize? authority.policy.keySize with
    | none => rfl
    | some key =>
      have made := Certificate.forget_leaf
        (authority.leafRequest endpoint.subject endpoint.purpose key)
        (endpoint.accepts_commonName chance.suffix) rfl material.certificate material.key
        chance.serial clock
      have failing := forget_mapError (Certificate.leaf
        (authority.leafRequest endpoint.subject endpoint.purpose key) material.certificate
        (.rsa material.key) chance.suffix chance.serial clock) Failure.certificate
      rw [made] at failing
      refine Eq.trans ?_ failing
      unfold leafRequest
      simp only [Action.perform_pure]
      generalize (Certificate.leaf _ _ _ _ _ _).mapError Failure.certificate = outcome
      -- A subject that has to be shortened is reported on the way, which fails for none.
      split <;> cases outcome <;> rfl

theorem tryIssue_ne_commonName (chance : Chance) (clock : Clock) (files : FileSystem) :
    authority.tryIssue chance clock files ≠ .error (.certificate (.subject .commonName)) := by
  intro h
  unfold tryIssue at h
  rcases bind_eq_error.1 h with unloaded | ⟨material, -, h⟩
  · exact loadMaterial_ne_certificate _ unloaded
  · split at h
    · cases h
    · obtain ⟨fault, h, same⟩ := mapError_eq_error.1 h
      cases same
      unfold Policy.tryLeaf at h
      split at h
      · next refused =>
        cases h
        exact authority.policy.refused?_ne_commonName refused
      · rcases bind_eq_error.1 h with undated | ⟨validity, -, h⟩
        · unfold Certificate.validityBy at undated
          repeat' split at undated
          all_goals cases undated
        · split at h <;> cases h

/-- Whomever two credentials are for, servers or clients and whatever they are called: from the
same files, with the same new key and serial number and by the same clock both are made or
neither is, and of the same failure. No failure is that of the common name, since a subject
is never empty and the name made of it has at most 64 characters. -/
theorem issueFor_impartial (a b : Endpoint) (chance : Chance) (suffix : UniqueSuffix)
    (clock : Clock) (files : FileSystem) (events events' : List Event) :
    let first := ((authority.issueFor a chance clock).perform ⟨files, events⟩).1
    let second := ((authority.issueFor b { chance with suffix } clock).perform ⟨files, events'⟩).1
    ((∃ credential, first = .ok credential) ↔ ∃ credential, second = .ok credential) ∧
    (∀ failure, first = .error failure ↔ second = .error failure) ∧
    (∀ fault, first = .error (.certificate fault) → fault.message ≠ "Failed to set CN") ∧
    1 ≤ a.subject.length ∧
    1 ≤ (CommonName.ofSubject chance.suffix a.subject).length ∧
    (CommonName.ofSubject chance.suffix a.subject).length ≤ 64 := by
  intro first second
  have outcome : forget first = authority.tryIssue chance clock files :=
    authority.forget_issueFor a chance clock ⟨files, events⟩
  have same : forget first = forget second :=
    outcome.trans (authority.forget_issueFor b { chance with suffix } clock ⟨files, events'⟩).symm
  refine ⟨?_, fun failure => ?_, fun fault fails told => ?_, a.one_le_length_subject,
    CommonName.length_ofSubject chance.suffix a.one_le_length_subject⟩
  · rw [← forget_eq_ok_iff, same, forget_eq_ok_iff]
  · rw [← forget_eq_error_iff, same, forget_eq_error_iff]
  · rw [← forget_eq_error_iff, outcome, CertificateFault.eq_of_message told] at fails
    exact authority.tryIssue_ne_commonName chance clock files fails

end Authority

end VpnAuthority
