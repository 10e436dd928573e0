import VpnAuthority.Proofs.Authority.Bootstrap

/-! A bootstrap that fails: at which step, why, and what it leaves in the files. -/
namespace VpnAuthority.Authority

variable {authority : Authority} {chance : Chance} {clock : Clock} {site site' : Site}
  {key : Rsa.PrivateKey} {failure : Failure}

theorem perform_writeFile_eq_error {path : String}
    {write : FileSystem → Except FileFault FileSystem}
    (h : (writeFile path write).perform site = (.error failure, site')) :
    (∃ fault, failure = .file path fault) ∧
      site' = ⟨(site.files.createParents path).1, site.events⟩ := by
  unfold writeFile at h
  simp only [Action.perform_bind_eq_error, Action.perform_change, Action.perform_report,
    Prod.mk.injEq, mapError_eq_error, reduceCtorEq, false_and, exists_false, and_false,
    or_false] at h
  rcases h with ⟨⟨fault, -, rfl⟩, rfl⟩ | ⟨_, _, ⟨-, rfl⟩, ⟨fault, unwritten, rfl⟩, rfl⟩
  · exact ⟨⟨fault, rfl⟩, rfl⟩
  · refine ⟨⟨fault, rfl⟩, ?_⟩
    dsimp only at unwritten ⊢
    cases hw : write (site.files.createParents path).1 with
    | error fault' => rfl
    | ok later =>
      rw [hw] at unwritten
      cases unwritten

private theorem readMaterial_ne_certificate {files : FileSystem} {path : String}
    (fault : CertificateFault) : readMaterial files path ≠ .error (.certificate fault) := by
  unfold readMaterial
  split <;> exact nofun

theorem loadKey_ne_certificate {files : FileSystem} (fault : CertificateFault) :
    authority.loadKey files ≠ .error (.certificate fault) := by
  unfold loadKey loadKeyBy
  intro h
  rw [bind_eq_error] at h
  rcases h with unread | ⟨text, -, unusable⟩
  · exact readMaterial_ne_certificate fault unread
  · unfold keyOfText at unusable
    split at unusable
    · cases unusable
    · split at unusable <;> cases unusable

theorem loadMaterial_ne_certificate {files : FileSystem} (fault : CertificateFault) :
    authority.loadMaterial files ≠ .error (.certificate fault) := by
  unfold loadMaterial
  intro h
  rw [bind_eq_error] at h
  rcases h with unloaded | ⟨certificate, -, h⟩
  · unfold loadCertificate at unloaded
    rw [bind_eq_error] at unloaded
    rcases unloaded with unread | ⟨text, -, unusable⟩
    · exact readMaterial_ne_certificate fault unread
    · split at unusable <;> cases unusable
  · rw [bind_eq_error] at h
    rcases h with unloaded | ⟨key, -, ⟨⟩⟩
    exact loadKey_ne_certificate fault unloaded

/-- Without a key no certificate was tried. The files are as they were, or there are
directories for a key file that was not written. -/
theorem obtainKey_eq_error
    (h : (authority.obtainKey chance).perform site = (.error failure, site')) :
    (∀ fault, failure ≠ .certificate fault) ∧
      (site'.files = site.files ∨ site.files.contains authority.keyPath = false ∧
        site'.files = (site.files.createParents authority.keyPath).1) := by
  cases isThere : site.files.contains authority.keyPath with
  | true =>
    rw [perform_obtainKey_of_there authority chance isThere, Prod.mk.injEq] at h
    obtain ⟨unloaded, rfl⟩ := h
    refine ⟨?_, .inl rfl⟩
    rintro fault rfl
    exact loadKey_ne_certificate fault unloaded
  | false =>
    rw [perform_obtainKey_of_new authority chance isThere] at h
    simp only [Action.perform_bind_eq_error, Action.perform_pure, Prod.mk.injEq, reduceCtorEq,
      false_and, and_false, exists_false, or_false, perform_newKey_eq_ok] at h
    obtain unmade | ⟨made, _, ⟨-, rfl⟩, unwritten⟩ := h
    · unfold newKey at unmade
      split at unmade <;> cases unmade
      exact ⟨by simp, .inl rfl⟩
    · obtain ⟨⟨fault, rfl⟩, rfl⟩ := perform_writeFile_eq_error unwritten
      exact ⟨by simp, .inr ⟨rfl, rfl⟩⟩

theorem ensureCertificate_eq_error
    (h : (authority.ensureCertificate key chance clock).perform site = (.error failure, site')) :
    site.files.contains authority.certificatePath = false ∧
      ((∃ fault, Certificate.root authority.policy (.rsa key) authority.policy.authorityName
          authority.policy.authorityDays chance.serial clock = .error fault ∧
          failure = .certificate fault ∧ site'.files = site.files) ∨
        ∃ certificate fault,
          Certificate.root authority.policy (.rsa key) authority.policy.authorityName
            authority.policy.authorityDays chance.serial clock = .ok certificate ∧
          failure = .file authority.certificatePath fault ∧
          site'.files = (site.files.createParents authority.certificatePath).1) := by
  cases isThere : site.files.contains authority.certificatePath with
  | true =>
    rw [perform_ensureCertificate_of_there authority key chance clock isThere] at h
    cases h
  | false =>
    rw [perform_ensureCertificate_of_new authority key chance clock isThere] at h
    simp only [Action.perform_bind_eq_error, Action.perform_ofExcept, Prod.mk.injEq,
      mapError_eq_error, mapError_eq_ok] at h
    refine ⟨rfl, ?_⟩
    obtain ⟨⟨fault, unmade, rfl⟩, rfl⟩ | ⟨certificate, _, ⟨isMade, rfl⟩, unwritten⟩ := h
    · exact .inl ⟨fault, unmade, rfl, rfl⟩
    · obtain ⟨⟨fault, rfl⟩, rfl⟩ := perform_writeFile_eq_error unwritten
      exact .inr ⟨certificate, fault, isMade, rfl, rfl⟩

theorem keeps_ensureCertificate (authority : Authority) (key : Rsa.PrivateKey) (chance : Chance)
    (clock : Clock) (site : Site) : site.files.Keeps
      ((authority.ensureCertificate key chance clock).perform site).2.files := by
  rcases h : (authority.ensureCertificate key chance clock).perform site with ⟨outcome, later⟩
  cases outcome with
  | ok u => exact (ensureCertificate_eq_ok_iff.1 ⟨later.events, h⟩).keeps
  | error failure =>
    rcases (ensureCertificate_eq_error h).2 with ⟨_, -, -, same⟩ | ⟨_, _, -, -, same⟩
    · rw [same]
      exact .refl _
    · rw [same]
      exact (FileSystem.createParents_addsDirectories _ _).keeps

theorem exists_ensureCertificate_eq_error {files : FileSystem}
    {fault : CertificateFault} (isNew : files.contains authority.certificatePath = false)
    (unmade : Certificate.root authority.policy (.rsa key) authority.policy.authorityName
      authority.policy.authorityDays chance.serial clock = .error fault) (events : List Event) :
    ∃ reported, (authority.ensureCertificate key chance clock).perform ⟨files, events⟩ =
      (.error (.certificate fault), ⟨files, reported⟩) := by
  simp only [ensureCertificate, Action.perform_bind, Action.perform_get, isNew,
    Bool.false_eq_true, if_false, Action.perform_report, Action.perform_ofExcept, unmade,
    mapError_error]
  exact ⟨_, rfl⟩

theorem bootstrap_eq_error
    (h : (authority.bootstrap chance clock).perform site = (.error failure, site')) :
    (authority.obtainKey chance).perform site = (.error failure, site') ∨
      ∃ key middle, authority.ObtainsKey chance site.files key middle.files ∧
        (authority.ensureCertificate key chance clock).perform middle = (.error failure, site') := by
  unfold bootstrap at h
  rw [Action.perform_bind_eq_error] at h
  rcases h with unobtained | ⟨key, middle, obtained, unensured⟩
  · exact .inl unobtained
  · exact .inr ⟨key, middle, obtainKey_eq_ok_iff.1 ⟨middle.events, obtained⟩, unensured⟩

end VpnAuthority.Authority
