import VpnAuthority.Proofs.Authority.Availability
import VpnAuthority.Proofs.Certificate.CommonName
import VpnAuthority.Proofs.Rsa.Generation

/-! The entries under which a server finds the clients that certificates were issued
to. -/
namespace VpnAuthority.Authority

variable {authority : Authority} {endpoint : Endpoint} {chance : Chance} {clock : Clock}
  {site site' : Site} {credential : Credential}

private theorem extractCommonName_of_issued
    (h : (authority.issueFor endpoint chance clock).perform site = (.ok credential, site'))
    (size : credential.certificatePem.utf8ByteSize < 2 ^ 63) :
    extractCommonName (Utf8.encode credential.certificatePem) =
      .ok (CommonName.front credential.commonName) := by
  obtain ⟨issued⟩ := nonempty_issued h
  have read := issued.ofPem?_certificatePem (issued.fits_of_size size)
  have name := Certificate.commonName_leaf issued.request issued.material.certificate
    credential.commonName chance.serial issued.validity issued.signature
  rw [extractCommonName, Certificate.commonNameOfPem, read]
  exact congrArg (Except.mapError _) name

/-- The entry of an issued certificate is found under its common name up to a first NUL,
which is all of the common name exactly if the kept part of the subject has none. Two
certificates have their entries under one key exactly if their names agree up to there. -/
theorem clientEntry_of_issued {authority' : Authority} {endpoint' : Endpoint} {chance' : Chance}
    {clock' : Clock} {first first' : Site} {credential' : Credential}
    (h : (authority.issueFor endpoint chance clock).perform site = (.ok credential, site'))
    (size : credential.certificatePem.utf8ByteSize < 2 ^ 63)
    (h' : (authority'.issueFor endpoint' chance' clock').perform first = (.ok credential', first'))
    (size' : credential'.certificatePem.utf8ByteSize < 2 ^ 63)
    (address address' netmask netmask' : Address) :
    extractCommonName (Utf8.encode credential.certificatePem) =
        .ok (CommonName.front credential.commonName) ∧
      renderClientEntry credential.certificatePem address netmask =
        .ok (CommonName.front credential.commonName,
          "ifconfig-push " ++ address.text ++ " " ++ netmask.text) ∧
      (extractCommonName (Utf8.encode credential.certificatePem) = .ok credential.commonName ↔
        '\x00' ∉ CommonName.kept endpoint.subject) ∧
      ((∃ key line line',
          renderClientEntry credential.certificatePem address netmask = .ok (key, line) ∧
          renderClientEntry credential'.certificatePem address' netmask' = .ok (key, line')) ↔
        CommonName.front credential.commonName = CommonName.front credential'.commonName) := by
  have name := extractCommonName_of_issued h size
  have name' := extractCommonName_of_issued h' size'
  have entry : renderClientEntry credential.certificatePem address netmask =
      .ok (CommonName.front credential.commonName,
        "ifconfig-push " ++ address.text ++ " " ++ netmask.text) := by
    rw [renderClientEntry, name]
    rfl
  have entry' : renderClientEntry credential'.certificatePem address' netmask' =
      .ok (CommonName.front credential'.commonName,
        "ifconfig-push " ++ address'.text ++ " " ++ netmask'.text) := by
    rw [renderClientEntry, name']
    rfl
  obtain ⟨issued⟩ := nonempty_issued h
  refine ⟨name, entry, ?_, ?_⟩
  · rw [name, Except.ok.injEq, CommonName.front_eq_self_iff, issued.commonName,
      CommonName.nul_mem_ofSubject_iff]
  · rw [entry, entry']
    simpa using eq_comm

theorem clientEntry_of_issued_plain :
    ∃ alice bob : Credential, ∃ site first last : Site,
      (plain.issueFor (.client ⟨"office", .user "alice@example.org"⟩) (.ofSmallPrime 7)
        plainClock).perform site = (.ok alice, first) ∧
      (plain.issueFor (.client ⟨"office", .user "bob@example.org"⟩) (.ofSmallPrime 7)
        plainClock).perform site = (.ok bob, last) ∧
      extractCommonName (Utf8.encode alice.certificatePem) = .ok "alice@example.org_office" ∧
      ¬∃ key line line',
        renderClientEntry alice.certificatePem (.v4 0x0a080002) (.v4 0xffffff00) =
          .ok (key, line) ∧
        renderClientEntry bob.certificatePem (.v4 0x0a080003) (.v4 0xffffff00) =
          .ok (key, line') := by
  have caRegular := Chance.isSound_ofSmallPrime_five.toIsRegular
  have regular := Chance.isSound_ofSmallPrime_seven.toIsRegular
  obtain ⟨certificate, reported, -, loaded, made⟩ := exists_bootstrap_plain caRegular
  have serves := fun user => exists_issueFor_plain (.client ⟨"office", .user user⟩) reported
    dates_plainClock caRegular regular loaded made
  obtain ⟨alice, _, h, aliceName, size⟩ := serves "alice@example.org" (by decide) (by decide)
  obtain ⟨bob, _, h', bobName, size'⟩ := serves "bob@example.org" (by decide) (by decide)
  obtain ⟨read, -, -, shared⟩ := clientEntry_of_issued h size h' size' (.v4 0x0a080002)
    (.v4 0x0a080003) (.v4 0xffffff00) (.v4 0xffffff00)
  refine ⟨alice, bob, _, _, _, h, h', ?_, ?_⟩
  · rw [read, aliceName]
    rfl
  · rw [shared, aliceName, bobName]
    decide

end VpnAuthority.Authority
