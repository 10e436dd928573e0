import VpnAuthority.Proofs.Authority.Restart
import VpnAuthority.Proofs.PrivateKey.Encryption
import VpnAuthority.Proofs.Text.Lossy

/-! Why a key is not loaded: the reasons that are given, and the key files that they are given
for. -/
namespace VpnAuthority.Authority

open PrivateKey (IsEncrypted HasEncryptionMark)

variable {authority : Authority} {files : FileSystem} {key : Rsa.PrivateKey} {text : Bytes}

/-- The octets of the word by which encrypted keys are told. -/
def encryptionMark : Bytes := Utf8.encode encryptionWord

theorem mentions_iff {word chars : List Char} : mentions word chars = true ↔ word <:+: chars := by
  induction chars with
  | nil => rw [mentions, List.isEmpty_iff, List.infix_nil]
  | cons c rest ih =>
    rw [mentions, Bool.or_eq_true, List.isPrefixOf_iff_prefix, ih, List.infix_cons_iff]

/-- What is no text in a file does not hide the word, and does not make it up. -/
theorem mentions_decodeLossy_iff :
    mentions encryptionWord.toList (Utf8.decodeLossy text) = true ↔ encryptionMark <:+: text := by
  have isAscii : ∀ c ∈ encryptionWord.toList, c.toNat < 0x80 := by simp [encryptionWord]
  have octets := Utf8.encode_ofList_ascii isAscii
  rw [String.ofList_toList] at octets
  rw [mentions_iff, Utf8.infix_decodeLossy_iff isAscii, encryptionMark, octets]

theorem keyFault_eq_invalidPassphrase_iff :
    keyFault text = .invalidPassphrase ↔ encryptionMark <:+: text := by
  rw [keyFault, ← mentions_decodeLossy_iff]
  split <;> simp_all

theorem keyFault_eq_malformed_iff : keyFault text = .malformed ↔ ¬encryptionMark <:+: text := by
  rw [keyFault, ← mentions_decodeLossy_iff]
  split <;> simp_all

theorem keyFault_ne_notRsa : keyFault text ≠ .notRsa := by
  rw [keyFault]
  split <;> simp

theorem infix_of_hasEncryptionMark (h : HasEncryptionMark text) : encryptionMark <:+: text := by
  rcases h with label | ⟨_, ⟨front, back, -, rfl⟩, header⟩
  · refine .trans ⟨Pem.beginMark, Utf8.encode " PRIVATE KEY", ?_⟩ label
    decide
  · exact (List.suffix_append _ _).isInfix.trans header

theorem loadKeyBy_of_read (reader : PrivateKey.Reader) (read : files.read authority.keyPath = .ok text)
    (noNul : '\x00' ∉ authority.passphrase.text.toList) :
    authority.loadKeyBy reader files = match reader authority.passphrase.octets text with
      | some (.rsa key) => .ok key
      | some (.other _) => .error (.unavailable authority.keyPath .notRsa)
      | none => .error (.unavailable authority.keyPath (keyFault text)) := by
  have usable : ¬authority.passphrase.octets.contains 0 = true := by
    rwa [List.contains_iff_mem, Passphrase.octets, Utf8.zero_mem_encode_iff]
  have found : readMaterial files authority.keyPath = .ok text := readMaterial_eq_ok_iff.2 read
  rw [loadKeyBy, found]
  exact if_neg usable

theorem loadKeyBy_eq_malformed_iff (reader : PrivateKey.Reader)
    (read : files.read authority.keyPath = .ok text)
    (noNul : '\x00' ∉ authority.passphrase.text.toList) :
    authority.loadKeyBy reader files = .error (.unavailable authority.keyPath .malformed) ↔
      reader authority.passphrase.octets text = none ∧ ¬encryptionMark <:+: text := by
  rw [loadKeyBy_of_read reader read noNul, ← keyFault_eq_malformed_iff]
  split <;> simp_all

/-- The reasons for which a key is not loaded, whatever is in its file and whoever reads keys.
What is read as a key is loaded, or refused because it is of another system. Where none is read,
the passphrase is blamed exactly if the file has the word for encryption anywhere in it. So a file
with an encrypted block is never called malformed; but the passphrase is blamed for files too that
have none. -/
theorem loadKeyBy_outcomes (reader : PrivateKey.Reader)
    (read : files.read authority.keyPath = .ok text)
    (noNul : '\x00' ∉ authority.passphrase.text.toList) :
    (∀ key, authority.loadKeyBy reader files = .ok key ↔
      reader authority.passphrase.octets text = some (.rsa key)) ∧
    (authority.loadKeyBy reader files = .error (.unavailable authority.keyPath .notRsa) ↔
      ∃ system, reader authority.passphrase.octets text = some (.other system)) ∧
    (authority.loadKeyBy reader files = .error (.unavailable authority.keyPath .invalidPassphrase) ↔
      reader authority.passphrase.octets text = none ∧ encryptionMark <:+: text) ∧
    (authority.loadKeyBy reader files = .error (.unavailable authority.keyPath .malformed) ↔
      reader authority.passphrase.octets text = none ∧ ¬encryptionMark <:+: text) ∧
    (HasEncryptionMark text →
      authority.loadKeyBy reader files ≠ .error (.unavailable authority.keyPath .malformed)) := by
  have loaded := loadKeyBy_of_read reader read noNul
  have isMalformed := loadKeyBy_eq_malformed_iff reader read noNul
  refine ⟨fun key => ?_, ?_, ?_, isMalformed, fun marked malformed => ?_⟩
  · rw [loaded]
    split <;> simp_all
  · rw [loaded]
    split <;> simp_all [keyFault_ne_notRsa]
  · rw [loaded, ← keyFault_eq_invalidPassphrase_iff]
    split <;> simp_all
  · exact (isMalformed.1 malformed).2 (infix_of_hasEncryptionMark marked)

def noted : List Bytes := [Utf8.encode "not ENCRYPTED"]

private theorem isNote_of_mem_noted : ∀ line ∈ noted, Pem.IsNote line := by
  simp only [noted, List.forall_mem_singleton]
  exact ⟨⟨by decide, by decide, by decide +kernel⟩, by decide, by decide⟩

private theorem ofPem?_noted (passphrase : Bytes) :
    PrivateKey.ofPem? passphrase (Pem.joined noted) = none := by
  have unmarked : ¬Pem.byteOrderMark <+: ([] : Bytes) := by decide
  rw [PrivateKey.ofPem?, ← List.append_nil (Pem.joined noted),
    Pem.find?_notes_append isNote_of_mem_noted unmarked, Pem.find?, Pem.readLines_nil, Pem.findFrom]
  rfl

private theorem ofPem?_noted_append (passphrase : Bytes) :
    PrivateKey.ofPem? passphrase (Pem.joined noted ++ ((Chance.ofSmallPrime 5).key 2206).toPem) =
      some (.rsa ((Chance.ofSmallPrime 5).key 2206)) := by
  have fits := Chance.isSound_ofSmallPrime_five.key.fits (by decide)
  have unmarked : ¬Pem.byteOrderMark <+: ((Chance.ofSmallPrime 5).key 2206).toPem := by
    rintro ⟨rest, same⟩
    have dash : (((Chance.ofSmallPrime 5).key 2206).toPem).head? = some 45 := rfl
    have mark : (Pem.byteOrderMark ++ rest).head? = some 0xef := rfl
    rw [← same, mark] at dash
    exact absurd dash (by decide)
  have apart : (((Chance.ofSmallPrime 5).key 2206).toPem).getLast? = some Pem.lineFeed ∨
      ([] : Bytes).head? = some Pem.lineFeed := .inl (Pem.getLast?_encode _ _)
  rw [← List.append_nil (_ ++ Rsa.PrivateKey.toPem _)]
  exact PrivateKey.ofPem?_amid (Rsa.PrivateKey.ofPem?_toPem fits passphrase) isNote_of_mem_noted
    unmarked apart

private theorem not_hasEncryptionMark_noted : ¬HasEncryptionMark (Pem.joined noted) := by
  have length : (Pem.joined noted).length = 14 := by decide
  rintro (label | ⟨mark, isMark, within⟩)
  · exact absurd label.length_le (by decide)
  · have := isMark.length_ge
    have := within.length_le
    omega

theorem loadKeyBy_outcomes_noted :
    plain.loadKeyBy PrivateKey.ofPem? (FileSystem.empty.insert [plain.keyPath] (.file
        (Pem.joined noted ++ ((Chance.ofSmallPrime 5).key 2206).toPem) .owner)) =
      .ok ((Chance.ofSmallPrime 5).key 2206) ∧
    plain.loadKeyBy PrivateKey.ofPem? (FileSystem.empty.insert [plain.keyPath]
        (.file (Pem.joined noted) .owner)) =
      .error (.unavailable plain.keyPath .invalidPassphrase) ∧
    ¬HasEncryptionMark (Pem.joined noted) := by
  have read (text : Bytes) : (FileSystem.empty.insert [plain.keyPath] (.file text .owner)).read
      plain.keyPath = .ok text :=
    FileSystem.read_eq_ok_iff.2 ⟨_, _, FileSystem.target_name_of_file isName_keyPath_plain
      (FileSystem.get?_insert_self (by simp))⟩
  have noNul : '\x00' ∉ plain.passphrase.text.toList := by decide
  refine ⟨?_, ?_, not_hasEncryptionMark_noted⟩
  · obtain ⟨loaded, -⟩ := loadKeyBy_outcomes PrivateKey.ofPem? (read (Pem.joined noted ++ _)) noNul
    exact (loaded _).2 (ofPem?_noted_append _)
  · obtain ⟨-, -, blamed, -⟩ := loadKeyBy_outcomes PrivateKey.ofPem? (read (Pem.joined noted)) noNul
    exact blamed.2 ⟨ofPem?_noted _, Utf8.encode "not ", [Pem.lineFeed], by decide⟩

/-- A file whose block is encrypted is never called malformed, nor is one whose key depends on the
passphrase. -/
theorem loadKey_ne_malformed (read : files.read authority.keyPath = .ok text)
    (noNul : '\x00' ∉ authority.passphrase.text.toList) (clean : 0 ∉ text) {block : Pem.Block}
    (found : Pem.find? PrivateKey.labels.contains text = some block)
    (encrypted : IsEncrypted block ∨ block.label ≠ PrivateKey.wrappedLabel ∧ ∃ other,
      PrivateKey.ofPem? other text ≠ PrivateKey.ofPem? authority.passphrase.octets text) :
    authority.loadKey files ≠ .error (.unavailable authority.keyPath .malformed) := by
  have isEncrypted : IsEncrypted block := by
    rcases encrypted with isEncrypted | ⟨notWrapped, other, differs⟩
    · exact isEncrypted
    · exact (PrivateKey.isEncrypted_of_ofPem?_ne found differs).resolve_right notWrapped
  intro malformed
  obtain ⟨-, unmarked⟩ := (loadKeyBy_eq_malformed_iff PrivateKey.ofPem? read noNul).1 malformed
  exact unmarked (infix_of_hasEncryptionMark
    (PrivateKey.hasEncryptionMark_of_find? found clean isEncrypted))

theorem loadKey_amid {notes : List Bytes} {inner behind : Bytes}
    (read : files.read authority.keyPath = .ok (Pem.joined notes ++ inner ++ behind))
    (noNul : '\x00' ∉ authority.passphrase.text.toList)
    (areNotes : ∀ line ∈ notes, Pem.IsNote line) (unmarked : ¬Pem.byteOrderMark <+: inner)
    (apart : inner.getLast? = some Pem.lineFeed ∨ behind.head? = some Pem.lineFeed)
    (isKey : PrivateKey.ofPem? authority.passphrase.octets inner = some (.rsa key)) :
    authority.loadKey files = .ok key := by
  rw [loadKey, loadKeyBy_of_read PrivateKey.ofPem? read noNul,
    PrivateKey.ofPem?_amid isKey areNotes unmarked apart]

end VpnAuthority.Authority
