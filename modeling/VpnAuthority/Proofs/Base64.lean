import Mathlib.Data.List.TakeWhile
import VpnAuthority.Base64

/-! Octets are read back from their digits, wherever the text is broken into lines. -/
namespace VpnAuthority.Base64

def IsPlain (b : UInt8) : Prop := 43 ≤ b ∧ b ≤ 122 ∧ b ≠ 45 ∧ b ≠ 58

private theorem isPlain_digit {n : Nat} (h : n < 64) : IsPlain (digit n) ∧ digit n ≠ pad :=
  (by unfold IsPlain; decide : ∀ n : Fin 64, IsPlain (digit n.val) ∧ digit n.val ≠ pad) ⟨n, h⟩

private theorem isPlain_pad : IsPlain pad := by
  unfold IsPlain
  decide

theorem isPlain_of_mem_encode (bytes : Bytes) : ∀ b ∈ encode bytes, IsPlain b := by
  fun_induction encode bytes with
  | case1 x y z rest word ih =>
    have := x.toNat_lt
    have := y.toNat_lt
    have := z.toNat_lt
    intro b hb
    simp only [List.mem_cons] at hb
    rcases hb with rfl | rfl | rfl | rfl | hb
    · exact (isPlain_digit (by omega)).1
    · exact (isPlain_digit (by omega)).1
    · exact (isPlain_digit (by omega)).1
    · exact (isPlain_digit (by omega)).1
    · exact ih b hb
  | case2 x y word =>
    have := x.toNat_lt
    have := y.toNat_lt
    intro b hb
    simp only [List.mem_cons, List.not_mem_nil, or_false] at hb
    rcases hb with rfl | rfl | rfl | rfl
    · exact (isPlain_digit (by omega)).1
    · exact (isPlain_digit (by omega)).1
    · exact (isPlain_digit (by omega)).1
    · exact isPlain_pad
  | case3 x word =>
    have := x.toNat_lt
    intro b hb
    simp only [List.mem_cons, List.not_mem_nil, or_false] at hb
    rcases hb with rfl | rfl | rfl | rfl
    · exact (isPlain_digit (by omega)).1
    · exact (isPlain_digit (by omega)).1
    · exact isPlain_pad
    · exact isPlain_pad
  | case4 => simp

theorem length_encode (bytes : Bytes) : (encode bytes).length = (bytes.length + 2) / 3 * 4 := by
  fun_induction encode bytes with
  | case1 x y z rest word ih =>
    simp only [List.length_cons]
    omega
  | case2 => simp
  | case3 => simp
  | case4 => simp

private theorem ofNat_of_eq {n : Nat} {b : UInt8} (h : n = b.toNat) : UInt8.ofNat n = b := by
  rw [h, UInt8.ofNat_toNat]

theorem decodeDigits_encode (bytes : Bytes) : decodeDigits (encode bytes) = some bytes := by
  fun_induction encode bytes with
  | case1 x y z rest word ih =>
    have := x.toNat_lt
    have := y.toNat_lt
    have := z.toNat_lt
    have third := isPlain_digit (show word / 64 % 64 < 64 by omega)
    have fourth := isPlain_digit (show word % 64 < 64 by omega)
    simp only [decodeDigits, digit?_digit _ (show word / 262144 < 64 by omega),
      digit?_digit _ (show word / 4096 % 64 < 64 by omega),
      digit?_digit _ (show word / 64 % 64 < 64 by omega),
      digit?_digit _ (show word % 64 < 64 by omega), third.2, fourth.2, and_false, if_false, ih,
      Option.bind_eq_bind, Option.bind_some]
    rw [ofNat_of_eq (b := x) (by omega), ofNat_of_eq (b := y) (by omega),
      ofNat_of_eq (b := z) (by omega)]
  | case2 x y word =>
    have := x.toNat_lt
    have := y.toNat_lt
    have third := isPlain_digit (show word / 64 % 64 < 64 by omega)
    simp only [decodeDigits, digit?_digit _ (show word / 262144 < 64 by omega),
      digit?_digit _ (show word / 4096 % 64 < 64 by omega),
      digit?_digit _ (show word / 64 % 64 < 64 by omega), third.2, false_and, and_false, if_false,
      List.isEmpty_nil, and_self, if_true, Option.bind_eq_bind, Option.bind_some]
    rw [ofNat_of_eq (b := x) (by omega), ofNat_of_eq (b := y) (by omega)]
  | case3 x word =>
    have := x.toNat_lt
    simp only [decodeDigits, digit?_digit _ (show word / 262144 < 64 by omega),
      digit?_digit _ (show word / 4096 % 64 < 64 by omega), List.isEmpty_nil, and_self, if_true,
      Option.bind_eq_bind, Option.bind_some]
    rw [ofNat_of_eq (b := x) (by omega)]
  | case4 => rfl

private theorem not_isSpace_of_isPlain {b : UInt8} (h : IsPlain b) : isSpace b = false := by
  obtain ⟨low, -⟩ := h
  simp only [isSpace, Bool.or_eq_false_iff, beq_eq_false_iff_ne]
  refine ⟨⟨⟨?_, ?_⟩, ?_⟩, ?_⟩ <;> rintro rfl <;> exact absurd low (by decide)

theorem decode?_of_filter {text bytes : Bytes} (h : text.filter (· ≠ 10) = encode bytes) :
    decode? text = some bytes := by
  have plain : ∀ b ∈ text, b ≠ 10 → IsPlain b := fun b hb hne =>
    isPlain_of_mem_encode bytes b (h ▸ List.mem_filter.2 ⟨hb, by simpa using hne⟩)
  have whole : text.takeWhile (· ≠ 45) = text := List.takeWhile_eq_self_iff.2 fun b hb => by
    rw [decide_eq_true_eq]
    by_cases hne : b = 10
    · rw [hne]
      decide
    · exact (plain b hb hne).2.2.1
  have spaces : text.filter (fun b => !isSpace b) = text.filter (· ≠ 10) :=
    List.filter_congr fun b hb => by
      by_cases hne : b = 10
      · rw [hne]
        rfl
      · rw [not_isSpace_of_isPlain (plain b hb hne)]
        simp [hne]
  rw [decode?, whole, spaces, h, decodeDigits_encode]

end VpnAuthority.Base64
