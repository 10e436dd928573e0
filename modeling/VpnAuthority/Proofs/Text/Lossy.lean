import Mathlib.Algebra.Order.Ring.Int
import VpnAuthority.Proofs.Text.Utf8

/-! Text that is read although it need not be any: what is text is read as it is, and the words
of ASCII in the rest are those of its octets. -/
namespace VpnAuthority.Utf8

theorem continuing_zero (low high : Nat) (rest : Bytes) : continuing 0 low high rest = [] := by
  rw [continuing]
  simp

theorem continuing_cons {due low high : Nat} {b : UInt8} {tail rest : Bytes}
    (within : low ≤ b.toNat ∧ b.toNat ≤ high)
    (isTail : continuing due 0x80 0xbf (tail ++ rest) = tail) :
    continuing (due + 1) low high (b :: tail ++ rest) = b :: tail := by
  rw [List.cons_append, continuing, if_pos within, isTail]

theorem continuing_isPrefix (due low high : Nat) (bytes : Bytes) :
    continuing due low high bytes <+: bytes := by
  fun_induction continuing due low high bytes with
  | case1 due low high b rest _ ih => exact (List.prefix_cons_inj b).2 ih
  | case2 | case3 => exact List.nil_prefix

theorem continuing_append_drop (due low high : Nat) (bytes : Bytes) :
    continuing due low high bytes ++ bytes.drop (continuing due low high bytes).length = bytes :=
  List.prefix_iff_eq_append.1 (continuing_isPrefix due low high bytes)

theorem within_of_mem_continuing {due low high : Nat} {bytes : Bytes} (above : 0x80 ≤ low)
    (below : high ≤ 0xbf) :
    ∀ b ∈ continuing due low high bytes, 0x80 ≤ b.toNat ∧ b.toNat ≤ 0xbf := by
  fun_induction continuing due low high bytes with
  | case1 due low high b rest within ih =>
    rintro c (_ | ⟨_, isTail⟩)
    · omega
    · exact ih (Nat.le_refl _) (Nat.le_refl _) c isTail
  | case2 | case3 => simp

theorem joined_nil (share : Nat) : joined share [] = share := by
  rw [joined, List.foldl_nil]

theorem joined_cons (share : Nat) (b : UInt8) (rest : Bytes) :
    joined share (b :: rest) = joined (share * 64 + (b.toNat - 0x80)) rest := by
  rw [joined, joined, List.foldl_cons]

theorem joined_bounds {octets : Bytes} (within : ∀ b ∈ octets, 0x80 ≤ b.toNat ∧ b.toNat ≤ 0xbf)
    (share : Nat) : share * 64 ^ octets.length ≤ joined share octets ∧
      joined share octets < (share + 1) * 64 ^ octets.length := by
  induction octets generalizing share with
  | nil => simp [joined]
  | cons b rest ih =>
    have isWithin := within b List.mem_cons_self
    obtain ⟨least, most⟩ := ih (fun c isTail => within c (List.mem_cons_of_mem b isTail))
      (share * 64 + (b.toNat - 0x80))
    have first : share * 64 ≤ share * 64 + (b.toNat - 0x80) := by omega
    have last : share * 64 + (b.toNat - 0x80) + 1 ≤ (share + 1) * 64 := by omega
    rw [joined_cons, List.length_cons, Nat.pow_succ', ← Nat.mul_assoc, ← Nat.mul_assoc]
    exact ⟨Nat.le_trans (Nat.mul_le_mul_right _ first) least,
      Nat.lt_of_lt_of_le most (Nat.mul_le_mul_right _ last)⟩

/-- Between which bounds a character lies that starts as told, if it is continued: above the
characters of one octet, and clear of the surrogates. -/
theorem lead?_bounds {b : UInt8} {lead : Lead} (above : 0x80 ≤ b.toNat)
    (isLead : lead? b = some lead) : ∃ more, lead.due = more + 1 ∧
      0x80 ≤ lead.low ∧ lead.high ≤ 0xbf ∧
      0x80 ≤ (lead.share * 64 + (lead.low - 0x80)) * 64 ^ more ∧
      ((lead.share * 64 + (lead.high - 0x80) + 1) * 64 ^ more ≤ 0xd800 ∨
        0xe000 ≤ (lead.share * 64 + (lead.low - 0x80)) * 64 ^ more ∧
          (lead.share * 64 + (lead.high - 0x80) + 1) * 64 ^ more ≤ 0x110000) := by
  rw [lead?, if_neg (by omega)] at isLead
  split at isLead
  · obtain rfl := Option.some.inj isLead
    refine ⟨0, rfl, ?_⟩
    simp only
    omega
  split at isLead
  · obtain rfl := Option.some.inj isLead
    refine ⟨1, rfl, ?_⟩
    simp only
    split_ifs <;> omega
  split at isLead
  · obtain rfl := Option.some.inj isLead
    refine ⟨2, rfl, ?_⟩
    simp only
    split_ifs <;> omega
  · cases isLead

theorem decodeLossy_cons_of_lt {b : UInt8} (isShort : b.toNat < 0x80) (rest : Bytes) :
    decodeLossy (b :: rest) = Char.ofNat b.toNat :: decodeLossy rest := by
  rw [decodeLossy, lead?]
  simp [isShort, continuing, joined]

theorem continuing_succ_of_ne_nil {more low high : Nat} {bytes : Bytes}
    (h : continuing (more + 1) low high bytes ≠ []) : ∃ b rest, low ≤ b.toNat ∧ b.toNat ≤ high ∧
      continuing (more + 1) low high bytes = b :: continuing more 0x80 0xbf rest := by
  cases bytes with
  | nil => exact absurd rfl h
  | cons b rest =>
    rw [continuing] at h ⊢
    split at h
    · next within => exact ⟨b, rest, within.1, within.2, by rw [if_pos within]⟩
    · exact absurd rfl h

/-- A whole character of more octets than one is no character of one octet, nor a surrogate. -/
theorem isValidChar_joined {b : UInt8} {lead : Lead} {rest : Bytes} (above : 0x80 ≤ b.toNat)
    (isLead : lead? b = some lead)
    (whole : (continuing lead.due lead.low lead.high rest).length = lead.due) :
    0x80 ≤ joined lead.share (continuing lead.due lead.low lead.high rest) ∧
      (joined lead.share (continuing lead.due lead.low lead.high rest)).isValidChar := by
  obtain ⟨more, due, low, high, least, most⟩ := lead?_bounds above isLead
  rw [due] at whole ⊢
  have notNil : continuing (more + 1) lead.low lead.high rest ≠ [] := by
    intro h
    rw [h] at whole
    cases whole
  obtain ⟨c, rest, fromLow, upToHigh, shape⟩ := continuing_succ_of_ne_nil notNil
  rw [shape] at whole ⊢
  have areWithin : ∀ b ∈ continuing more 0x80 0xbf rest, 0x80 ≤ b.toNat ∧ b.toNat ≤ 0xbf :=
    within_of_mem_continuing (Nat.le_refl _) (Nat.le_refl _)
  obtain ⟨above', below⟩ := joined_bounds areWithin (lead.share * 64 + (c.toNat - 0x80))
  rw [Nat.add_right_cancel whole] at above' below
  have first := Nat.mul_le_mul_right (64 ^ more)
    (show lead.share * 64 + (lead.low - 0x80) ≤ lead.share * 64 + (c.toNat - 0x80) by omega)
  have last := Nat.mul_le_mul_right (64 ^ more)
    (show lead.share * 64 + (c.toNat - 0x80) + 1 ≤ lead.share * 64 + (lead.high - 0x80) + 1 by
      omega)
  rw [joined_cons, Nat.isValidChar]
  omega

theorem decodeLossy_cons_of_le {b : UInt8} (above : 0x80 ≤ b.toNat) (rest : Bytes) :
    ∃ c tail behind, rest = tail ++ behind ∧ (∀ octet ∈ tail, 0x80 ≤ octet.toNat) ∧
      decodeLossy (b :: rest) = c :: decodeLossy behind ∧ 0x80 ≤ c.toNat := by
  have isReplaced : 0x80 ≤ replacement.toNat := by decide
  rw [decodeLossy]
  split
  · exact ⟨_, [], rest, rfl, by simp, rfl, isReplaced⟩
  · next lead isLead =>
    obtain ⟨more, -, low, high, -⟩ := lead?_bounds above isLead
    refine ⟨_, _, _, (continuing_append_drop lead.due lead.low lead.high rest).symm,
      fun octet isTail => (within_of_mem_continuing low high octet isTail).1, rfl, ?_⟩
    split
    · next whole =>
      obtain ⟨least, isValid⟩ := isValidChar_joined above isLead whole
      rwa [toNat_ofNat isValid]
    · exact isReplaced

theorem infix_append_iff {α : Type} {mark front behind : List α} (p : α → Prop)
    (isMark : ∀ a ∈ mark, p a) (apart : ∀ a ∈ front, ¬p a) :
    mark <:+: front ++ behind ↔ mark <:+: behind := by
  induction front with
  | nil => rfl
  | cons a front ih =>
    rw [List.cons_append, List.infix_cons_iff, ih fun c isFront => apart c (.tail a isFront)]
    refine or_iff_right_of_imp fun isPrefix => ?_
    cases mark with
    | nil => exact List.nil_infix
    | cons c mark =>
      rw [(List.cons_prefix_cons.1 isPrefix).1] at isMark
      exact absurd (isMark a List.mem_cons_self) (apart a List.mem_cons_self)

section
variable {mark : List Char} (isAscii : ∀ c ∈ mark, c.toNat < 0x80)
include isAscii

theorem toNat_lt_of_mem_map : ∀ b ∈ mark.map fun c => UInt8.ofNat c.toNat, b.toNat < 0x80 := by
  simp only [List.mem_map]
  rintro _ ⟨c, isMark, rfl⟩
  have := isAscii c isMark
  rw [UInt8.toNat_ofNat']
  omega

theorem prefix_decodeLossy_iff (bytes : Bytes) :
    mark <+: decodeLossy bytes ↔ (mark.map fun c => UInt8.ofNat c.toNat) <+: bytes := by
  induction mark generalizing bytes with
  | nil => simp
  | cons c mark ih =>
    have isLow := isAscii c List.mem_cons_self
    cases bytes with
    | nil => simp [decodeLossy]
    | cons b rest =>
      rw [List.map_cons, List.cons_prefix_cons]
      by_cases isShort : b.toNat < 0x80
      · have same : c = Char.ofNat b.toNat ↔ UInt8.ofNat c.toNat = b := by
          rw [← Char.toNat_inj, toNat_ofNat_octet, ← UInt8.toNat_inj, UInt8.toNat_ofNat',
            Nat.mod_eq_of_lt (by omega)]
        rw [decodeLossy_cons_of_lt isShort, List.cons_prefix_cons, same,
          ih fun a isMark => isAscii a (.tail c isMark)]
      · obtain ⟨d, tail, behind, -, -, decoded, isLong⟩ :=
          decodeLossy_cons_of_le (Nat.le_of_not_lt isShort) rest
        rw [decoded, List.cons_prefix_cons]
        refine iff_of_false ?_ ?_
        · rintro ⟨rfl, -⟩
          omega
        · rintro ⟨rfl, -⟩
          rw [UInt8.toNat_ofNat'] at isShort
          omega

/-- Text in which what is no character was replaced has the same ASCII words in it as its octets
have. -/
theorem infix_decodeLossy_iff (bytes : Bytes) :
    mark <:+: decodeLossy bytes ↔ (mark.map fun c => UInt8.ofNat c.toNat) <:+: bytes := by
  -- The induction is on the length, since a character may take several octets.
  induction length : bytes.length using Nat.strongRecOn generalizing bytes with
  | _ n ih =>
    cases bytes with
    | nil => simp [decodeLossy]
    | cons b rest =>
      rw [List.length_cons] at length
      by_cases isShort : b.toNat < 0x80
      · rw [decodeLossy_cons_of_lt isShort, List.infix_cons_iff, ← decodeLossy_cons_of_lt isShort,
          prefix_decodeLossy_iff isAscii, ih rest.length (by omega) rest rfl, List.infix_cons_iff]
      · obtain ⟨d, tail, behind, rfl, areLong, decoded, isLong⟩ :=
          decodeLossy_cons_of_le (Nat.le_of_not_lt isShort) rest
        rw [List.length_append] at length
        have text : mark <:+: [d] ++ decodeLossy behind ↔ mark <:+: decodeLossy behind :=
          infix_append_iff (fun c => c.toNat < 0x80) isAscii (by simpa using isLong)
        have octets : (mark.map fun c => UInt8.ofNat c.toNat) <:+: b :: tail ++ behind ↔
            (mark.map fun c => UInt8.ofNat c.toNat) <:+: behind :=
          infix_append_iff (fun b => b.toNat < 0x80) (toNat_lt_of_mem_map isAscii)
            (by simpa using ⟨by omega, areLong⟩)
        rw [decoded, ← List.singleton_append, text, ← List.cons_append, octets,
          ih behind.length (by omega) behind rfl]

end

theorem decodeLossy_cons_append {b : UInt8} {lead : Lead} {tail rest : Bytes}
    (isLead : lead? b = some lead)
    (isTail : continuing lead.due lead.low lead.high (tail ++ rest) = tail)
    (whole : tail.length = lead.due) :
    decodeLossy (b :: tail ++ rest) = Char.ofNat (joined lead.share tail) :: decodeLossy rest := by
  rw [List.cons_append, decodeLossy, isLead]
  dsimp only
  rw [isTail, if_pos whole, List.drop_left]

theorem toNat_ofNat_add {m : Nat} (k : Nat) (small : m + k < 256) :
    (UInt8.ofNat (m + k)).toNat = m + k := UInt8.toNat_ofNat_of_lt small

theorem lead?_two {m : Nat} (h : 2 ≤ m ∧ m < 0x20) :
    lead? (UInt8.ofNat (m + 0xc0)) = some ⟨1, 0x80, 0xbf, m⟩ := by
  rw [lead?, toNat_ofNat_add _ (by omega), if_neg (by omega), if_pos (by omega),
    Nat.add_sub_cancel]

theorem lead?_three {m : Nat} (h : m < 0x10) : lead? (UInt8.ofNat (m + 0xe0)) =
    some ⟨2, if m = 0 then 0xa0 else 0x80, if m = 0xd then 0x9f else 0xbf, m⟩ := by
  rw [lead?, toNat_ofNat_add _ (by omega), if_neg (by omega), if_neg (by omega),
    if_pos (by omega), Nat.add_sub_cancel]
  simp

theorem lead?_four {m : Nat} (h : m < 5) : lead? (UInt8.ofNat (m + 0xf0)) =
    some ⟨3, if m = 0 then 0x90 else 0x80, if m = 4 then 0x8f else 0xbf, m⟩ := by
  rw [lead?, toNat_ofNat_add _ (by omega), if_neg (by omega), if_neg (by omega),
    if_neg (by omega), if_pos (by omega), Nat.add_sub_cancel]
  simp

theorem within_continuation (m : Nat) : 0x80 ≤ (UInt8.ofNat (m % 64 + 0x80)).toNat ∧
    (UInt8.ofNat (m % 64 + 0x80)).toNat ≤ 0xbf := by
  rw [toNat_ofNat_add _ (by omega)]
  omega

theorem joined_cons_ofNat (share m : Nat) (rest : Bytes) :
    joined share (UInt8.ofNat (m % 64 + 0x80) :: rest) = joined (share * 64 + m % 64) rest := by
  rw [joined_cons, toNat_ofNat_add _ (by omega), Nat.add_sub_cancel]

theorem decodeLossy_two {n : Nat} (h : 0x80 ≤ n ∧ n < 0x800) (rest : Bytes) :
    decodeLossy ([UInt8.ofNat (n / 64 % 32 + 0xc0), UInt8.ofNat (n % 64 + 0x80)] ++ rest) =
      Char.ofNat n :: decodeLossy rest := by
  have value : joined (n / 64) [UInt8.ofNat (n % 64 + 0x80)] = n := by
    rw [joined_cons_ofNat, joined_nil]
    omega
  have isTail : continuing 1 0x80 0xbf ([UInt8.ofNat (n % 64 + 0x80)] ++ rest) =
      [UInt8.ofNat (n % 64 + 0x80)] :=
    continuing_cons (within_continuation n) (continuing_zero _ _ _)
  rw [Nat.mod_eq_of_lt (show n / 64 < 32 by omega),
    decodeLossy_cons_append (lead?_two (by omega)) isTail rfl, value]

theorem decodeLossy_three {n : Nat} (h : 0x800 ≤ n ∧ n < 0x10000) (isValid : n.isValidChar)
    (rest : Bytes) : decodeLossy ([UInt8.ofNat (n / 4096 % 16 + 0xe0),
      UInt8.ofNat (n / 64 % 64 + 0x80), UInt8.ofNat (n % 64 + 0x80)] ++ rest) =
        Char.ofNat n :: decodeLossy rest := by
  have value : joined (n / 4096) [UInt8.ofNat (n / 64 % 64 + 0x80),
      UInt8.ofNat (n % 64 + 0x80)] = n := by
    rw [joined_cons_ofNat, joined_cons_ofNat, joined_nil]
    omega
  rw [Nat.mod_eq_of_lt (show n / 4096 < 16 by omega),
    decodeLossy_cons_append (lead?_three (by omega)) (continuing_cons ?_
      (continuing_cons (within_continuation n) (continuing_zero _ _ _))) rfl, value]
  rw [Nat.isValidChar] at isValid
  rw [toNat_ofNat_add _ (by omega)]
  dsimp only
  split_ifs <;> omega

theorem decodeLossy_four {n : Nat} (h : 0x10000 ≤ n) (isValid : n.isValidChar) (rest : Bytes) :
    decodeLossy ([UInt8.ofNat (n / 262144 % 8 + 0xf0), UInt8.ofNat (n / 4096 % 64 + 0x80),
      UInt8.ofNat (n / 64 % 64 + 0x80), UInt8.ofNat (n % 64 + 0x80)] ++ rest) =
        Char.ofNat n :: decodeLossy rest := by
  have value : joined (n / 262144) [UInt8.ofNat (n / 4096 % 64 + 0x80),
      UInt8.ofNat (n / 64 % 64 + 0x80), UInt8.ofNat (n % 64 + 0x80)] = n := by
    rw [joined_cons_ofNat, joined_cons_ofNat, joined_cons_ofNat, joined_nil]
    omega
  rw [Nat.isValidChar] at isValid
  rw [Nat.mod_eq_of_lt (show n / 262144 < 8 by omega),
    decodeLossy_cons_append (lead?_four (by omega)) (continuing_cons ?_ (continuing_cons
      (within_continuation (n / 64)) (continuing_cons (within_continuation n)
        (continuing_zero _ _ _)))) rfl, value]
  rw [toNat_ofNat_add _ (by omega)]
  dsimp only
  split_ifs <;> omega

theorem decodeLossy_utf8EncodeChar_append (c : Char) (rest : Bytes) :
    decodeLossy (String.utf8EncodeChar c ++ rest) = c :: decodeLossy rest := by
  have isValid : c.val.toNat.isValidChar := c.valid
  have same : Char.ofNat c.val.toNat = c := Char.ofNat_toNat c
  unfold String.utf8EncodeChar
  revert isValid same
  generalize c.val.toNat = n
  rintro isValid rfl
  dsimp only
  split
  · have octet : (UInt8.ofNat n).toNat = n := UInt8.toNat_ofNat_of_lt (show n < 256 by omega)
    rw [List.singleton_append, decodeLossy_cons_of_lt (by omega), octet]
  split
  · exact decodeLossy_two (by omega) rest
  split
  · exact decodeLossy_three (by omega) isValid rest
  · exact decodeLossy_four (by omega) isValid rest

/-- What is text is decoded as it is. -/
theorem decodeLossy_encode (text : String) : decodeLossy (encode text) = text.toList := by
  rw [encode_eq_flatMap]
  induction text.toList with
  | nil => rw [List.flatMap_nil, decodeLossy]
  | cons c rest ih => rw [List.flatMap_cons, decodeLossy_utf8EncodeChar_append, ih]

end VpnAuthority.Utf8
