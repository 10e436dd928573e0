import VpnAuthority.Proofs.Address
import VpnAuthority.Proofs.Authority.Availability
import VpnAuthority.Proofs.Rsa.Generation
import VpnAuthority.Proofs.Text.Span

/-! Subjects as names: the endpoint that one was written for can be read back from it, as long
as network paths, hosts and addresses keep to the characters that are meant for them. -/
namespace VpnAuthority

namespace Endpoint

/-- Endpoints whose parts can be told apart: a network path has neither of the two separating
characters, an owner's address has an at sign, and a host has none and does not start with the
separator. -/
def IsProper : Endpoint → Prop
  | server s => ('_' ∉ s.networkPath.toList ∧ '@' ∉ s.networkPath.toList) ∧
      s.publicAddress.toList.all isAddressChar = true
  | client ⟨path, .infrastructure hostId⟩ => ('_' ∉ path.toList ∧ '@' ∉ path.toList) ∧
      '@' ∉ hostId.toList ∧ hostId.toList.head? ≠ some '_'
  | client ⟨path, .user email⟩ => ('_' ∉ path.toList ∧ '@' ∉ path.toList) ∧ '@' ∈ email.toList

instance : DecidablePred IsProper
  | server s => inferInstanceAs (Decidable ((_ ∧ _) ∧ s.publicAddress.toList.all _ = true))
  | client ⟨_, .infrastructure _⟩ => inferInstanceAs (Decidable ((_ ∧ _) ∧ _ ∧ _))
  | client ⟨_, .user _⟩ => inferInstanceAs (Decidable ((_ ∧ _) ∧ _))

def isPathChar (c : Char) : Bool := c != '_'

def userOf (subject : List Char) : Endpoint :=
  client ⟨.ofList (subject.reverse.takeWhile isPathChar).reverse,
    .user (.ofList ((subject.reverse.dropWhile isPathChar).drop 1).reverse)⟩

def machineOf (subject : List Char) : Endpoint :=
  let path := String.ofList (subject.takeWhile isPathChar)
  match (subject.dropWhile isPathChar).drop 1 with
  | '_' :: address => server ⟨path, .ofList (address.map fun c => if c = '_' then ':' else c)⟩
  | hostId => client ⟨path, .infrastructure (.ofList hostId)⟩

/-- The endpoint of a subject. Only the address of an owner has an at sign. -/
def ofSubject (subject : String) : Endpoint :=
  if '@' ∈ subject.toList then userOf subject.toList else machineOf subject.toList

theorem isPathChar_of_mem {path : String} (h : '_' ∉ path.toList) :
    ∀ c ∈ path.toList, isPathChar c = true := by
  intro c hc
  have other : c ≠ '_' := fun same => h (same ▸ hc)
  simpa [isPathChar] using other

theorem userOf_append {email path : String} (h : '_' ∉ path.toList) :
    userOf (email.toList ++ '_' :: path.toList) = client ⟨path, .user email⟩ := by
  have turned : (email.toList ++ '_' :: path.toList).reverse =
      path.toList.reverse ++ '_' :: email.toList.reverse := by simp
  have front : ∀ c ∈ path.toList.reverse, isPathChar c = true := by
    intro c hc
    exact isPathChar_of_mem h c (List.mem_reverse.1 hc)
  have stop : ∀ c ∈ ('_' :: email.toList.reverse).head?, ¬isPathChar c = true := by
    simp [isPathChar]
  unfold userOf
  rw [turned, takeWhile_append_of_stop front stop, dropWhile_append_of_stop front stop]
  simp

private theorem parts_of_machine {path : String} (h : '_' ∉ path.toList) (rest : List Char) :
    (path.toList ++ '_' :: rest).takeWhile isPathChar = path.toList ∧
      (path.toList ++ '_' :: rest).dropWhile isPathChar = '_' :: rest := by
  have stop : ∀ c ∈ ('_' :: rest).head?, ¬isPathChar c = true := by simp [isPathChar]
  exact ⟨takeWhile_append_of_stop (isPathChar_of_mem h) stop,
    dropWhile_append_of_stop (isPathChar_of_mem h) stop⟩

theorem machineOf_server {path : String} (h : '_' ∉ path.toList) (address : List Char) :
    machineOf (path.toList ++ '_' :: '_' :: address) =
      server ⟨path, .ofList (address.map fun c => if c = '_' then ':' else c)⟩ := by
  obtain ⟨front, back⟩ := parts_of_machine h ('_' :: address)
  rw [machineOf, front, back, String.ofList_toList]
  rfl

theorem machineOf_host {path hostId : String} (h : '_' ∉ path.toList)
    (start : hostId.toList.head? ≠ some '_') :
    machineOf (path.toList ++ '_' :: hostId.toList) = client ⟨path, .infrastructure hostId⟩ := by
  obtain ⟨front, back⟩ := parts_of_machine h hostId.toList
  rw [machineOf, front, back, String.ofList_toList, List.drop_succ_cons, List.drop_zero]
  split
  · next address starts =>
    rw [starts] at start
    exact absurd rfl start
  · rw [String.ofList_toList]

theorem restored_address {address : List Char} (h : ∀ c ∈ address, isAddressChar c = true) :
    (address.map fun c => if c = ':' then '_' else c).map (fun c => if c = '_' then ':' else c) =
      address := by
  have others : isAddressChar '_' = false := by decide
  rw [List.map_map]
  refine (List.map_congr_left fun c hc => ?_).trans (List.map_id address)
  have other : c ≠ '_' := by
    rintro rfl
    rw [h '_' hc] at others
    cases others
  by_cases colon : c = ':' <;> simp [colon, other]

theorem ofSubject_subject {endpoint : Endpoint} (h : endpoint.IsProper) :
    ofSubject endpoint.subject = endpoint := by
  match endpoint, h with
  | server ⟨path, address⟩, ⟨⟨single, noAt⟩, isAddress⟩ =>
    have text : (Server.subject ⟨path, address⟩).toList = path.toList ++ '_' :: '_' ::
        address.toList.map fun c => if c = ':' then '_' else c := by
      simp [Server.subject]
    have machine : '@' ∉ (Server.subject ⟨path, address⟩).toList := by
      rw [text]
      simp only [List.mem_append, List.mem_cons, List.mem_map, not_or]
      refine ⟨noAt, by decide, by decide, ?_⟩
      rintro ⟨c, hc, written⟩
      split at written
      · cases written
      · rw [written] at hc
        have other : isAddressChar '@' = false := by decide
        rw [List.all_eq_true.1 isAddress '@' hc] at other
        cases other
    rw [subject, ofSubject, if_neg machine, text, machineOf_server single,
      restored_address (List.all_eq_true.1 isAddress), String.ofList_toList]
  | client ⟨path, .infrastructure hostId⟩, ⟨⟨single, noAt⟩, hostNoAt, start⟩ =>
    have text : (Client.subject ⟨path, .infrastructure hostId⟩).toList =
        path.toList ++ '_' :: hostId.toList := by
      simp [Client.subject]
    have machine : '@' ∉ (Client.subject ⟨path, .infrastructure hostId⟩).toList := by
      rw [text]
      simp [noAt, hostNoAt]
    rw [subject, ofSubject, if_neg machine, text, machineOf_host single start]
  | client ⟨path, .user email⟩, ⟨⟨single, _⟩, hasAt⟩ =>
    have text : (Client.subject ⟨path, .user email⟩).toList =
        email.toList ++ '_' :: path.toList := by
      simp [Client.subject]
    have user : '@' ∈ (Client.subject ⟨path, .user email⟩).toList := by
      rw [text]
      exact List.mem_append_left _ hasAt
    rw [subject, ofSubject, if_pos user, text, userOf_append single]

end Endpoint

namespace Authority

/-- The names of proper endpoints tell who is meant: equal subjects are those of one endpoint,
of one kind and with the same parts, and so are equal names in two credentials, whichever
authorities issued them and whatever chance had in it, if no subject was shortened for them. -/
theorem endpoint_of_commonName {a b : Endpoint} (ha : a.IsProper) (hb : b.IsProper) :
    (a.subject = b.subject → a = b) ∧
    ∀ (authority authority' : Authority) (chance chance' : Chance) (clock clock' : Clock)
      (first first' last last' : Site) (credential credential' : Credential),
      (authority.issueFor a chance clock).perform first = (.ok credential, last) →
      (authority'.issueFor b chance' clock').perform first' = (.ok credential', last') →
      a.subject.length ≤ 64 → b.subject.length ≤ 64 →
      credential.commonName = credential'.commonName → a = b := by
  have injective (same : a.subject = b.subject) : a = b := by
    rw [← Endpoint.ofSubject_subject ha, same, Endpoint.ofSubject_subject hb]
  refine ⟨injective, ?_⟩
  intro authority authority' chance chance' clock clock' first first' last last' credential
    credential' h h' short short' same
  obtain ⟨issued⟩ := nonempty_issued h
  obtain ⟨issued'⟩ := nonempty_issued h'
  apply injective
  calc a.subject = CommonName.ofSubject chance.suffix a.subject := (if_pos short).symm
    _ = credential.commonName := issued.commonName.symm
    _ = credential'.commonName := same
    _ = CommonName.ofSubject chance'.suffix b.subject := issued'.commonName
    _ = b.subject := if_pos short'

theorem endpoint_of_commonName_plain :
    ∃ server host : Credential, ∃ site first last : Site,
      (plain.issueFor (.server ⟨"office", "::1"⟩) (.ofSmallPrime 7) plainClock).perform site =
        (.ok server, first) ∧
      (plain.issueFor (.client ⟨"office", .infrastructure "1__"⟩) (.ofSmallPrime 7)
        plainClock).perform site = (.ok host, last) ∧
      server.commonName = "office____1" ∧ server.commonName ≠ host.commonName := by
  have caRegular := Chance.isSound_ofSmallPrime_five.toIsRegular
  have regular := Chance.isSound_ofSmallPrime_seven.toIsRegular
  obtain ⟨certificate, reported, -, loaded, made⟩ := exists_bootstrap_plain caRegular
  have serves := fun endpoint => exists_issueFor_plain endpoint reported dates_plainClock caRegular
    regular loaded made
  obtain ⟨server, _, h, name, -⟩ := serves (.server ⟨"office", "::1"⟩) (by decide) (by decide)
  obtain ⟨host, _, h', -⟩ :=
    serves (.client ⟨"office", .infrastructure "1__"⟩) (by decide) (by decide)
  refine ⟨server, host, _, _, _, h, h', name.trans (by decide), fun same => ?_⟩
  cases (endpoint_of_commonName (by decide) (by decide)).2 _ _ _ _ _ _ _ _ _ _ _ _ h h'
    (by decide) (by decide) same

end Authority

end VpnAuthority
