import VpnAuthority.Proofs.Authority.Availability
import VpnAuthority.Proofs.Rsa.Generation

/-! A bootstrap where one was before: it finds both files and changes nothing, but it
ends well only if it can read the key. -/
namespace VpnAuthority.Authority

variable {authority : Authority} {chance chance' : Chance} {clock clock' : Clock}
  {site site' : Site} {files : FileSystem} {key : Rsa.PrivateKey}

private theorem perform_bootstrap_of_contains (chance : Chance) (clock : Clock)
    (events : List Event) (isKeyThere : files.contains authority.keyPath = true)
    (isCertificateThere : files.contains authority.certificatePath = true) :
    ∃ outcome reported, (authority.bootstrap chance clock).perform ⟨files, events⟩ =
        (outcome, ⟨files, reported⟩) ∧
      (outcome = .ok () ↔ ∃ key, authority.loadKey files = .ok key) := by
  have obtains : (authority.obtainKey chance).perform ⟨files, events⟩ = (authority.loadKey files, _) :=
    perform_obtainKey_of_there authority chance isKeyThere
  cases isLoaded : authority.loadKey files with
  | error failure =>
    rw [isLoaded] at obtains
    exact ⟨_, _, perform_bootstrap_of_error obtains, by simp⟩
  | ok key =>
    rw [isLoaded] at obtains
    rw [perform_bootstrap_of_ok obtains,
      perform_ensureCertificate_of_there authority key chance clock isCertificateThere]
    exact ⟨_, _, rfl, by simp⟩

/-- A passphrase under which a new key can be read again: it has no NUL, and it is not too
long to be used in full, unless by chance its front serves as well. -/
def IsReadable (authority : Authority) (chance : Chance) (key : Rsa.PrivateKey) : Prop :=
  '\x00' ∉ authority.passphrase.text.toList ∧
    (authority.passphrase.octets.length ≤ PrivateKey.maxPassphraseLength ∨
      ∃ other, PrivateKey.ofPem? authority.passphrase.octets (authority.keyText chance key) =
        some (.rsa other))

private theorem exists_ofPem?_keyText_iff {bits : Nat} (sized : key.IsOfSize bits)
    (hb : bits ≤ Rsa.maxBits) (hi : chance.iv.length = 16) :
    (authority.passphrase.octets.contains 0 = false ∧ ∃ other,
      PrivateKey.ofPem? authority.passphrase.octets (authority.keyText chance key) =
        some (.rsa other)) ↔ authority.IsReadable chance key := by
  have noNul : authority.passphrase.octets.contains 0 = false ↔
      '\x00' ∉ authority.passphrase.text.toList := by
    rw [← Bool.not_eq_true, List.contains_iff_mem, Passphrase.octets, Utf8.zero_mem_encode_iff]
  refine and_congr noNul ⟨.inr, ?_⟩
  rintro (short | read)
  · exact ⟨key, Rsa.PrivateKey.ofPem?_toEncryptedPem (sized.fits hb) hi short⟩
  · exact read

/-- After a bootstrap that ended well the authority is ready, and a second one leaves every
file as it is. It ends well exactly if the first did not write the certificate over the
key file and, where the first made the key, the passphrase serves to read it. -/
theorem bootstrap_again (chance' : Chance) (clock' : Clock) (events : List Event)
    (h : (authority.bootstrap chance clock).perform site = (.ok (), site'))
    (regular : chance.IsRegular authority.policy.keySize) :
    authority.state site'.files = .ready ∧
      ∃ outcome reported,
        (authority.bootstrap chance' clock').perform ⟨site'.files, events⟩ =
          (outcome, ⟨site'.files, reported⟩) ∧
        (outcome = .ok () ↔
          if site.files.contains authority.keyPath then
            site'.files.read authority.keyPath = site.files.read authority.keyPath
          else
            site'.files.read authority.keyPath = .ok (authority.keyText chance
              (chance.key authority.policy.keySize)) ∧
            authority.IsReadable chance (chance.key authority.policy.keySize)) := by
  obtain ⟨later, log⟩ := site'
  obtain ⟨key, middle, obtains, ensures⟩ := bootstrap_eq_ok_iff.1 ⟨log, h⟩
  obtain ⟨found, text, access, ht, origin⟩ := obtains.exists_target
  have isKeyThere := ensures.keeps.contains (FileSystem.contains_iff.2 ⟨found, _, ht⟩)
  have isCertificateThere := ensures.contains
  obtain ⟨outcome, reported, performed, ends⟩ :=
    perform_bootstrap_of_contains chance' clock' events isKeyThere isCertificateThere
  refine ⟨by simp [state, isKeyThere, isCertificateThere], outcome, reported, performed, ?_⟩
  -- a certificate in the key file is no key, so a key is read from what was there before
  have isKept {other : Rsa.PrivateKey} (hl : authority.loadKey later = .ok other) :
      later.read authority.keyPath = .ok text := by
    obtain ⟨text', hr, -, hp⟩ := loadKey_eq_ok_iff.1 hl
    rcases ensures.read_of_target ht with same | ⟨-, certificate, replaced⟩
    · exact same
    · rw [replaced] at hr
      cases hr
      rw [PrivateKey.ofPem?_certificate] at hp
      cases hp
  rw [ends]
  rcases origin with ⟨isThere, before, isLoaded⟩ | ⟨isNew, rfl, isMade⟩
  · rw [if_pos isThere, before]
    refine ⟨fun ⟨other, hl⟩ => isKept hl, fun same => ?_⟩
    obtain ⟨text', hr, noNul, hp⟩ := loadKey_eq_ok_iff.1 isLoaded
    rw [before] at hr
    cases hr
    exact ⟨key, loadKey_eq_ok_iff.2 ⟨text, same, noNul, hp⟩⟩
  · obtain ⟨rfl, hb⟩ := Chance.eq_of_keyOfSize? isMade
    rw [if_neg (by simp [isNew]), ← exists_ofPem?_keyText_iff regular.key hb regular.iv]
    constructor
    · rintro ⟨other, hl⟩
      have same := isKept hl
      obtain ⟨text', hr, noNul, hp⟩ := loadKey_eq_ok_iff.1 hl
      rw [same] at hr
      cases hr
      exact ⟨same, noNul, other, hp⟩
    · rintro ⟨same, noNul, other, hp⟩
      exact ⟨other, loadKey_eq_ok_iff.2 ⟨_, same, noNul, hp⟩⟩

theorem bootstrap_again_plain :
    ∃ site' : Site,
      (plain.bootstrap (.ofSmallPrime 5) plainClock).perform ⟨.empty, []⟩ = (.ok (), site') ∧
      plain.state site'.files = .ready ∧
      ∃ reported, (plain.bootstrap (.ofSmallPrime 7) plainClock).perform ⟨site'.files, []⟩ =
        (.ok (), ⟨site'.files, reported⟩) := by
  have regular := Chance.isSound_ofSmallPrime_five.toIsRegular
  obtain ⟨certificate, reported, performed, -⟩ := exists_bootstrap_plain regular
  obtain ⟨ready, outcome, reported', again, ends⟩ := bootstrap_again (.ofSmallPrime 7)
    plainClock [] performed regular
  have isKeyNew : FileSystem.empty.contains plain.keyPath = false :=
    FileSystem.contains_name_of_isFree isName_keyPath_plain rfl
  rw [isKeyNew, if_neg Bool.false_ne_true] at ends
  obtain rfl := ends.2 ⟨read_keyPath_newFiles isName_keyPath_plain (by decide), by decide,
    .inl (by decide)⟩
  exact ⟨_, performed, ready, reported', again⟩

end VpnAuthority.Authority
