import VpnAuthority.PrivateKey
import VpnAuthority.Proofs.Cipher.Chaining
import VpnAuthority.Proofs.Pem
import VpnAuthority.Proofs.Rsa.Key
import VpnAuthority.Proofs.Text.Span

/-! A key that was written to a file is read from it, with the passphrase under which it
was written. -/
namespace VpnAuthority

open Asn1 (Fits)

namespace PrivateKey

private def hexDigit (n : UInt8) : UInt8 := if n < 10 then 48 + n else 55 + n

private def hexText (bytes : Bytes) : Bytes :=
  bytes.flatMap fun b => [hexDigit (b / 16), hexDigit (b % 16)]

private theorem value?_hexDigit {n : UInt8} (h : n < 16) :
    Digits.value? (Char.ofNat (hexDigit n).toNat) = some n.toNat := by
  have all : ∀ n : Fin 16, Digits.value? (Char.ofNat (hexDigit (UInt8.ofNat n.val)).toNat) =
      some n.val := by decide
  have := all ⟨n.toNat, h⟩
  rwa [UInt8.ofNat_toNat] at this

private theorem hexDigit_bounds {n : UInt8} (h : n < 16) : 48 ≤ hexDigit n ∧ hexDigit n ≤ 70 := by
  have all : ∀ n : Fin 16, 48 ≤ hexDigit (UInt8.ofNat n.val) ∧
      hexDigit (UInt8.ofNat n.val) ≤ 70 := by
    decide
  have := all ⟨n.toNat, h⟩
  rwa [UInt8.ofNat_toNat] at this

private theorem halves_lt (b : UInt8) : b / 16 < 16 ∧ b % 16 < 16 := by
  have := b.toNat_lt
  constructor <;> rw [UInt8.lt_iff_toNat_lt] <;> simp <;> omega

private theorem readHex?_hexText (bytes rest : Bytes) :
    readHex? bytes.length (hexText bytes ++ rest) = some bytes := by
  induction bytes with
  | nil => rfl
  | cons b more ih =>
    obtain ⟨high, low⟩ := halves_lt b
    have octet : UInt8.ofNat ((b / 16).toNat * 16 + (b % 16).toNat) = b := by
      have := b.toNat_lt
      rw [UInt8.toNat_div, UInt8.toNat_mod, ← UInt8.toNat_inj, UInt8.toNat_ofNat',
        show (16 : UInt8).toNat = 16 from rfl]
      omega
    have split : hexText (b :: more) ++ rest =
        hexDigit (b / 16) :: hexDigit (b % 16) :: (hexText more ++ rest) := rfl
    rw [split, List.length_cons, readHex?]
    simp only [value?_hexDigit high, value?_hexDigit low, Option.bind_eq_bind, Option.bind_some, ih,
      octet]

private theorem mem_hexText {bytes : Bytes} : ∀ b ∈ hexText bytes, 48 ≤ b ∧ b ≤ 70 := by
  intro b hb
  obtain ⟨octet, -, hb⟩ := List.mem_flatMap.1 hb
  obtain ⟨high, low⟩ := halves_lt octet
  simp only [List.mem_cons, List.not_mem_nil, or_false] at hb
  rcases hb with rfl | rfl
  · exact hexDigit_bounds high
  · exact hexDigit_bounds low

private theorem length_hexText (bytes : Bytes) : (hexText bytes).length = 2 * bytes.length := by
  induction bytes with
  | nil => rfl
  | cons b rest ih =>
    have : (hexText (b :: rest)).length = (hexText rest).length + 2 := rfl
    rw [this, ih, List.length_cons]
    omega

def headerLines (kind : Cipher.Kind) (iv : Bytes) : List Bytes := [
  Utf8.encode "Proc-Type: 4,ENCRYPTED",
  Utf8.encode "DEK-Info: " ++ Utf8.encode kind.name ++ 0x2c :: hexText iv]

theorem encryptionHeader_eq (kind : Cipher.Kind) (iv : Bytes) :
    encryptionHeader kind iv = Pem.joined (headerLines kind iv) := by
  have mark : processMark = Utf8.encode "Proc-Type: 4,ENCRYPTED" ++ Pem.lineFeed ::
      Utf8.encode "DEK-Info: " := by decide
  have digits : (iv.flatMap fun b => [b / 16, b % 16].map fun n =>
      if n < 10 then 48 + n else 55 + n) = hexText iv := rfl
  rw [encryptionHeader, mark, digits]
  simp [headerLines]

private theorem headed (kind : Cipher.Kind) (iv : Bytes) :
    ∀ line ∈ (headerLines kind iv).head?, line.contains 58 = true := by
  rintro _ ⟨⟩
  decide

private def infoFront (kind : Cipher.Kind) : Bytes :=
  Utf8.encode "DEK-Info: " ++ Utf8.encode kind.name ++ [0x2c]

private theorem isHeaderLine_info (kind : Cipher.Kind) {iv : Bytes} (fits : iv.length ≤ 64) :
    Pem.IsHeaderLine (infoFront kind ++ hexText iv) := by
  have front : (∀ b ∈ infoFront kind, 32 ≤ b) ∧ (infoFront kind).length ≤ 32 ∧
      (infoFront kind).getLast? = some 0x2c ∧ infoFront kind ≠ [] ∧
      ∀ rest, Pem.endMark.isPrefixOf (infoFront kind ++ rest) = false := by
    cases kind <;> exact ⟨by decide +kernel, by decide, by decide, by decide, fun _ => rfl⟩
  obtain ⟨frontOctets, frontLength, frontLast, isSome, goesOn⟩ := front
  have octets : ∀ b ∈ infoFront kind ++ hexText iv, 32 ≤ b := List.forall_mem_append.2
    ⟨frontOctets, fun b hb => UInt8.le_trans (by decide) (mem_hexText b hb).1⟩
  refine ⟨⟨fun hm => absurd (octets _ hm) (by decide), ?_, ?_⟩, by simp [isSome], goesOn _, ?_⟩
  · have := length_hexText iv
    rw [List.length_append, this, Pem.maxLineLength]
    omega
  · intro b hb
    rw [List.getLast?_append, frontLast] at hb
    cases hl : (hexText iv).getLast? with
    | none =>
      rw [hl] at hb
      cases hb
      decide
    | some last =>
      rw [hl] at hb
      cases hb
      obtain ⟨low, high⟩ := mem_hexText b (List.mem_of_getLast? hl)
      have low : ¬b ≤ 32 := fun h => absurd (UInt8.le_trans low h) (by decide)
      have high : ¬128 ≤ b := fun h => absurd (UInt8.le_trans h high) (by decide)
      simp [Pem.isTrailing, low, high]
  · rw [← Bool.not_eq_true, List.contains_iff_mem]
    exact fun hm => absurd (octets _ hm) (by decide)

private theorem isHeaderLine_of_mem {kind : Cipher.Kind} {iv : Bytes} (fits : iv.length ≤ 64) :
    ∀ line ∈ headerLines kind iv, Pem.IsHeaderLine line := by
  have info : infoFront kind ++ hexText iv =
      Utf8.encode "DEK-Info: " ++ Utf8.encode kind.name ++ 0x2c :: hexText iv := by
    simp [infoFront]
  simp only [headerLines, List.forall_mem_cons, ← info]
  exact ⟨⟨⟨by decide, by decide, by decide +kernel⟩, by decide, by decide, by decide⟩,
    isHeaderLine_info kind fits, by simp⟩

private theorem skip?_append (mark rest : Bytes) : skip? mark (mark ++ rest) = some rest := by
  have : mark.isPrefixOf (mark ++ rest) = true :=
    List.isPrefixOf_iff_prefix.2 (List.prefix_append _ _)
  rw [skip?, if_pos this, List.drop_left]

private theorem cipherNamed?_name (kind : Cipher.Kind) :
    cipherNamed? (Utf8.encode kind.name) = some kind := by
  cases kind <;> decide

theorem readEncryption?_encryptionHeader {kind : Cipher.Kind} {iv : Bytes}
    (hi : iv.length = kind.blockSize) :
    readEncryption? (encryptionHeader kind iv) = some (kind, iv) := by
  have parts : encryptionHeader kind iv = Utf8.encode "Proc-Type:" ++ 32 :: (Utf8.encode "4," ++
      (Utf8.encode "ENCRYPTED" ++ ([Pem.lineFeed] ++ (Utf8.encode "DEK-Info:" ++ 32 ::
        (Utf8.encode kind.name ++ ([0x2c] ++ (hexText iv ++ [Pem.lineFeed]))))))) := by
    have mark : processMark = Utf8.encode "Proc-Type:" ++ 32 :: (Utf8.encode "4," ++
        (Utf8.encode "ENCRYPTED" ++ ([Pem.lineFeed] ++ (Utf8.encode "DEK-Info:" ++ [32])))) := by
      decide
    have digits : (iv.flatMap fun b => [b / 16, b % 16].map fun n =>
        if n < 10 then 48 + n else 55 + n) = hexText iv := rfl
    rw [encryptionHeader, mark, digits]
    simp
  have name : ∀ b ∈ Utf8.encode kind.name, (!isBlank b && b != 0x2c) = true := by
    cases kind <;> decide +kernel
  have begins (rest : Bytes) :
      skipBlanks (32 :: (Utf8.encode kind.name ++ rest)) = Utf8.encode kind.name ++ rest := by
    cases kind <;> rfl
  have four (rest : Bytes) :
      skipBlanks (32 :: (Utf8.encode "4," ++ rest)) = Utf8.encode "4," ++ rest := rfl
  have encrypted (rest : Bytes) :
      skipBlanks (Utf8.encode "ENCRYPTED" ++ rest) = Utf8.encode "ENCRYPTED" ++ rest := rfl
  have feed (rest : Bytes) :
      ([Pem.lineFeed] ++ rest).dropWhile (fun b => isBlank b || b == 13) =
        [Pem.lineFeed] ++ rest := rfl
  have comma (rest : Bytes) : ∀ b ∈ ([(0x2c : UInt8)] ++ rest).head?,
      ¬(!isBlank b && b != 0x2c) = true := by
    rintro _ ⟨⟩
    decide
  have behind (rest : Bytes) : skipBlanks ([0x2c] ++ rest) = [0x2c] ++ rest := rfl
  rw [parts, readEncryption?]
  simp only [skip?_append, Option.bind_eq_bind, Option.bind_some, four, encrypted, feed, begins,
    takeWhile_append_of_stop name (comma _), dropWhile_append_of_stop name (comma _), behind,
    cipherNamed?_name, ← hi, readHex?_hexText]

theorem isLabel_bareLabel : Pem.IsLabel bareLabel where
  isPlain := by decide +kernel
  noColon := by decide
  fits := by decide

theorem clearContent?_encrypted {kind : Cipher.Kind} (hk : kind ≠ .tripleDes) {iv : Bytes}
    (hi : iv.length = kind.blockSize) (label passphrase content : Bytes) :
    clearContent? passphrase ⟨label, encryptionHeader kind iv, Cipher.encrypt kind
      (Cipher.keyOfPassphrase kind passphrase (iv.take saltLength)) iv content⟩ = some content := by
  have long : ¬(encryptionHeader kind iv).length ≤ ignoredHeaderLength := by
    have : ¬processMark.length ≤ ignoredHeaderLength := by decide
    simp only [encryptionHeader, List.length_append]
    omega
  rw [clearContent?, if_neg long]
  simp only [readEncryption?_encryptionHeader hi, Option.bind_eq_bind, Option.bind_some,
    Cipher.decrypt?_encrypt hk hi]

/-- The private key of the first block with the label of one, under a passphrase of any
length. -/
def openPem? (passphrase text : Bytes) : Option PrivateKey := do
  let block ← Pem.find? labels.contains text
  ofContent? block.label passphrase (← clearContent? passphrase block)

theorem ofPem?_eq_openPem? (passphrase text : Bytes) :
    ofPem? passphrase text = openPem? (passphrase.take maxPassphraseLength) text :=
  rfl

end PrivateKey

namespace Rsa.PrivateKey

open VpnAuthority.PrivateKey

variable {key : PrivateKey} {passphrase iv : Bytes}

private theorem encode_ne_nil (key : PrivateKey) : key.encode ≠ [] := by
  simp [encode, Asn1.sequence, Asn1.encode]

private theorem ofContent?_encode (fits : Fits key.encode) (passphrase : Bytes) :
    ofContent? bareLabel passphrase key.encode = some (.rsa key) := by
  have notWrapped : ¬(bareLabel = wrappedLabel ∨ bareLabel = encryptedLabel) := by decide
  rw [ofContent?, if_neg notWrapped, if_pos rfl, decode?_encode fits]
  rfl

theorem ofPem?_toPem (fits : Fits key.encode) (passphrase : Bytes) :
    ofPem? passphrase key.toPem = some (.rsa key) := by
  have isWanted : labels.contains bareLabel = true := by decide
  rw [ofPem?, toPem, Pem.find?_encode isLabel_bareLabel key.encode_ne_nil, if_pos isWanted]
  simp only [Option.bind_eq_bind, Option.bind_some]
  exact ofContent?_encode fits _

theorem find?_toEncryptedPem (hi : iv.length = 16) (wanted : Bytes → Bool) :
    Pem.find? wanted (key.toEncryptedPem passphrase iv) =
      if wanted bareLabel then
        some ⟨bareLabel, encryptionHeader .aes256 iv, Cipher.encrypt .aes256
          (Cipher.keyOfPassphrase .aes256 passphrase (iv.take saltLength)) iv key.encode⟩
      else none := by
  have isSome := Cipher.encrypt_ne_nil (by decide : Cipher.Kind.aes256 ≠ .tripleDes) hi
    (Cipher.keyOfPassphrase .aes256 passphrase (iv.take saltLength)) key.encode
  rw [toEncryptedPem, encryptedPem, encryptionHeader_eq,
    Pem.find?_encodeWith _ isLabel_bareLabel (isHeaderLine_of_mem (by omega)) (headed _ _) isSome]

theorem openPem?_toEncryptedPem (fits : Fits key.encode) (hi : iv.length = 16) :
    openPem? passphrase (key.toEncryptedPem passphrase iv) = some (.rsa key) := by
  have isWanted : labels.contains bareLabel = true := by decide
  rw [openPem?, find?_toEncryptedPem hi, if_pos isWanted]
  simp only [Option.bind_eq_bind, Option.bind_some,
    clearContent?_encrypted (by decide : Cipher.Kind.aes256 ≠ .tripleDes) hi]
  exact ofContent?_encode fits _

theorem ofPem?_toEncryptedPem (fits : Fits key.encode) (hi : iv.length = 16)
    (short : passphrase.length ≤ maxPassphraseLength) :
    ofPem? passphrase (key.toEncryptedPem passphrase iv) = some (.rsa key) := by
  rw [ofPem?_eq_openPem?, List.take_of_length_le short, openPem?_toEncryptedPem fits hi]

end Rsa.PrivateKey
end VpnAuthority
