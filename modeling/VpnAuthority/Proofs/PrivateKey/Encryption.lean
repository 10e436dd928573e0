import VpnAuthority.Proofs.PrivateKey
import VpnAuthority.Proofs.Pem.Surroundings

/-! Blocks that are encrypted, and what a text says that has one. -/
namespace VpnAuthority.PrivateKey

variable {text mark header passphrase other : Bytes} {wanted : Bytes → Bool} {block : Pem.Block}

/-- How the header of an encrypted block begins. -/
def IsEncryptionMark (mark : Bytes) : Prop :=
  ∃ front back, (∀ b ∈ front ++ back, isBlank b = true) ∧
    mark = Utf8.encode "Proc-Type:" ++ front ++ Utf8.encode "4," ++ back ++ Utf8.encode "ENCRYPTED"

def IsEncrypted (block : Pem.Block) : Prop :=
  block.label = encryptedLabel ∨ ∃ mark, IsEncryptionMark mark ∧ mark <+: block.header

/-- A text with the beginning of an encrypted block, or with a header line of one. -/
def HasEncryptionMark (text : Bytes) : Prop :=
  Pem.beginMark ++ encryptedLabel <:+: text ∨ ∃ mark, IsEncryptionMark mark ∧ mark <:+: text

namespace IsEncryptionMark

variable (h : IsEncryptionMark mark)
include h

theorem length_ge : 21 ≤ mark.length := by
  obtain ⟨front, back, -, rfl⟩ := h
  have parts : (Utf8.encode "Proc-Type:").length = 10 ∧ (Utf8.encode "4,").length = 2 ∧
      (Utf8.encode "ENCRYPTED").length = 9 := by decide
  simp only [List.length_append]
  omega

theorem lineFeed_not_mem : Pem.lineFeed ∉ mark := by
  obtain ⟨front, back, blanks, rfl⟩ := h
  have notIn (part : Bytes) (blanks : ∀ b ∈ part, isBlank b = true) : Pem.lineFeed ∉ part :=
    fun hm => absurd (blanks _ hm) (by decide)
  obtain ⟨first, second⟩ := List.forall_mem_append.1 blanks
  simp only [List.mem_append, not_or]
  exact ⟨⟨⟨⟨by decide, notIn _ first⟩, by decide⟩, notIn _ second⟩, by decide⟩

end IsEncryptionMark

theorem prefix_of_beginLabel? {line label : Bytes} (h : Pem.beginLabel? line = some label) :
    Pem.beginMark ++ label <+: line := by
  unfold Pem.beginLabel? at h
  split at h
  · next begins =>
    rw [Option.some.injEq] at h
    obtain ⟨rest, rfl⟩ := List.isPrefixOf_iff_prefix.1 begins.1
    rw [List.prefix_append_right_inj, ← h, List.drop_take, List.drop_left]
    exact (List.takeWhile_prefix _).trans (List.take_prefix _ _)
  · cases h

private theorem prefix_of_lineFeed_not_mem {line rest : Bytes} (unbroken : Pem.lineFeed ∉ mark)
    (h : mark <+: line ++ Pem.lineFeed :: rest) : mark <+: line := by
  obtain within | ⟨more, -, rfl⟩ := prefix_append_cons h
  · exact within
  · exact absurd (by simp) unbroken

/-- An encrypted block is not found in a text that does not say so, unless the word for it is cut
at a NUL. -/
theorem hasEncryptionMark_of_find? (found : Pem.find? wanted text = some block)
    (noNul : 0 ∉ text) (h : IsEncrypted block) : HasEncryptionMark text := by
  obtain ⟨⟨line, isLine, octets, isEnd, begins⟩, headed⟩ := Pem.isFrom_of_find? found
  rcases h with isLabel | ⟨mark, isMark, isFront⟩
  · rw [isLabel] at begins
    exact .inl (((prefix_of_beginLabel? begins).isInfix.trans isEnd.isInfix).trans
      (Pem.infix_of_mem_readLines isLine))
  · refine .inr ⟨mark, isMark, ?_⟩
    have length := isMark.length_ge
    rcases headed with isNil | ⟨lines, isMember, same⟩
    · rw [isNil, List.prefix_nil] at isFront
      rw [isFront] at length
      simp at length
    · cases lines with
      | nil =>
        rw [same, List.map_nil, List.flatten_nil, List.append_nil, List.prefix_nil] at isFront
        rw [isFront] at length
        simp at length
      | cons first lines =>
        have within := Pem.infix_of_mem_readLines (isMember List.mem_cons_self)
        have written : Pem.written first.octets = first.octets ++ [Pem.lineFeed] := by
          have noNul : ¬first.octets.contains 0 = true := by
            rw [List.contains_iff_mem]
            exact fun hm => noNul (within.subset hm)
          rw [Pem.written, if_neg noNul]
        rw [same, List.map_cons, List.flatten_cons, written, List.nil_append, List.append_assoc,
          List.singleton_append] at isFront
        exact (prefix_of_lineFeed_not_mem isMark.lineFeed_not_mem isFront).isInfix.trans within

theorem ofPem?_amid {passphrase inner behind : Bytes} {notes : List Bytes} {found : PrivateKey}
    (isKey : ofPem? passphrase inner = some found)
    (areNotes : ∀ line ∈ notes, Pem.IsNote line) (unmarked : ¬Pem.byteOrderMark <+: inner)
    (apart : inner.getLast? = some Pem.lineFeed ∨ behind.head? = some Pem.lineFeed) :
    ofPem? passphrase (Pem.joined notes ++ inner ++ behind) = some found := by
  simp only [ofPem?, Option.bind_eq_bind, Option.bind_eq_some_iff] at isKey ⊢
  obtain ⟨block, isFound, isOpened⟩ := isKey
  refine ⟨block, Pem.find?_append ?_ ?_, isOpened⟩
  · rw [Pem.find?_notes_append areNotes unmarked, isFound]
  · exact apart.imp_left fun isEnded => by rw [List.getLast?_append, isEnded, Option.some_or]

private theorem eq_append_of_skip? {mark text rest : Bytes} (h : skip? mark text = some rest) :
    text = mark ++ rest := by
  unfold skip? at h
  split at h
  · next isFront =>
    cases h
    exact (List.prefix_iff_eq_append.1 (List.isPrefixOf_iff_prefix.1 isFront)).symm
  · cases h

private theorem exists_eq_append_skipBlanks (text : Bytes) :
    ∃ front, (∀ b ∈ front, isBlank b = true) ∧ text = front ++ skipBlanks text :=
  ⟨text.takeWhile isBlank, fun _ hb => List.mem_takeWhile_imp hb,
    List.takeWhile_append_dropWhile.symm⟩

theorem exists_mark_of_readEncryption? {told : Cipher.Kind × Bytes}
    (h : readEncryption? header = some told) : ∃ mark, IsEncryptionMark mark ∧ mark <+: header := by
  simp only [readEncryption?, Option.bind_eq_bind, Option.bind_eq_some_iff] at h
  obtain ⟨first, process, second, version, third, encrypted, -⟩ := h
  obtain ⟨front, isFront, split⟩ := exists_eq_append_skipBlanks first
  obtain ⟨back, isBack, split'⟩ := exists_eq_append_skipBlanks second
  refine ⟨_, ⟨front, back, List.forall_mem_append.2 ⟨isFront, isBack⟩, rfl⟩, third, ?_⟩
  rw [eq_append_of_skip? process, split, eq_append_of_skip? version, split',
    eq_append_of_skip? encrypted]
  simp

/-- The passphrase matters for encrypted blocks only, and for keys in a wrapping that may be
encrypted under either label. -/
theorem isEncrypted_of_ofPem?_ne (found : Pem.find? labels.contains text = some block)
    (differs : ofPem? passphrase text ≠ ofPem? other text) :
    IsEncrypted block ∨ block.label = wrappedLabel := by
  by_contra clear
  rw [not_or, IsEncrypted, not_or] at clear
  obtain ⟨⟨notLabelled, notHeaded⟩, notWrapped⟩ := clear
  have notEither : ¬(block.label = wrappedLabel ∨ block.label = encryptedLabel) :=
    not_or.2 ⟨notWrapped, notLabelled⟩
  have content (passphrase : Bytes) : clearContent? passphrase block =
      if block.header.length ≤ ignoredHeaderLength then some block.content else none := by
    rw [clearContent?]
    refine if_congr Iff.rfl rfl ?_
    cases told : readEncryption? block.header with
    | none => rfl
    | some told' => exact absurd (exists_mark_of_readEncryption? told) notHeaded
  refine differs ?_
  simp only [ofPem?, found, content, Option.bind_eq_bind, Option.bind_some, ofContent?,
    if_neg notEither]

end VpnAuthority.PrivateKey
