import Mathlib.Algebra.Order.Ring.Int
import VpnAuthority.Proofs.Asn1.Values

/-! Which octets are the content of an integer, and how many it takes: those of which none
can be left out are the fewest that denote their number. -/
namespace VpnAuthority.Asn1

def signBit : Bytes → Bool
  | [] => false
  | b :: _ => decide (0x80 ≤ b)

/-- The number that octets denote in two's complement, however many they are. -/
def twosComplement (content : Bytes) : Int :=
  BigEndian.toNat content - if signBit content then 256 ^ content.length else 0

/-- Octets of which none can be left out: there is one at least, and the first nine bits of
several are not all alike. -/
def IsMinimal : Bytes → Prop
  | [] => False
  | [_] => True
  | b :: c :: _ => ¬(b = 0 ∧ c < 0x80) ∧ ¬(b = 0xff ∧ 0x80 ≤ c)

def signedDigit (b : UInt8) : Int := if 0x80 ≤ b then b.toNat - 256 else b.toNat

theorem signedDigit_bounds (b : UInt8) : -128 ≤ signedDigit b ∧ signedDigit b < 128 := by
  have := b.toNat_lt
  have hb : 0x80 ≤ b ↔ 128 ≤ b.toNat := UInt8.le_iff_toNat_le
  simp only [signedDigit, hb]
  split <;> omega

theorem twosComplement_cons (b : UInt8) (rest : Bytes) : twosComplement (b :: rest) =
    signedDigit b * 256 ^ rest.length + BigEndian.toNat rest := by
  by_cases h : 0x80 ≤ b
  · simp only [twosComplement, signedDigit, signBit, BigEndian.toNat_cons, h, decide_true, if_true,
      List.length_cons, pow_succ]
    push_cast
    ring
  · simp only [twosComplement, signedDigit, signBit, BigEndian.toNat_cons, h, decide_false,
      if_false, Bool.false_eq_true]
    push_cast
    ring

private theorem toNat_lt_pow (bytes : Bytes) :
    (BigEndian.toNat bytes : Int) < 256 ^ bytes.length := by
  exact_mod_cast BigEndian.toNat_lt bytes

theorem twosComplement_bounds (b : UInt8) (rest : Bytes) :
    -(128 * 256 ^ rest.length) ≤ twosComplement (b :: rest) ∧
      twosComplement (b :: rest) < 128 * 256 ^ rest.length := by
  have below := toNat_lt_pow rest
  have isPositive : (0 : Int) ≤ 256 ^ rest.length := pow_nonneg (by decide) _
  obtain ⟨least, most⟩ := signedDigit_bounds b
  have low := Int.mul_le_mul_of_nonneg_right least isPositive
  have high := Int.mul_le_mul_of_nonneg_right (Int.le_sub_one_of_lt most) isPositive
  rw [twosComplement_cons]
  omega

theorem twosComplement_neg_iff {content : Bytes} :
    twosComplement content < 0 ↔ signBit content = true := by
  have := toNat_lt_pow content
  unfold twosComplement
  split <;> simp [*]

theorem isMinimal_cons_cons_iff {b c : UInt8} {rest : Bytes} : IsMinimal (b :: c :: rest) ↔
    signedDigit b * 256 + c.toNat < -128 ∨ 128 ≤ signedDigit b * 256 + c.toNat := by
  have := b.toNat_lt
  have := c.toNat_lt
  have hb : 0x80 ≤ b ↔ 128 ≤ b.toNat := UInt8.le_iff_toNat_le
  have hc : 0x80 ≤ c ↔ 128 ≤ c.toNat := UInt8.le_iff_toNat_le
  have hc' : c < 0x80 ↔ c.toNat < 128 := UInt8.lt_iff_toNat_lt
  have zero : b = 0 ↔ b.toNat = 0 := UInt8.toNat_inj.symm
  have full : b = 0xff ↔ b.toNat = 255 := UInt8.toNat_inj.symm
  simp only [IsMinimal, signedDigit, hb, hc, hc', zero, full]
  split <;> omega

theorem twosComplement_of_isMinimal {b c : UInt8} {rest : Bytes}
    (minimal : IsMinimal (b :: c :: rest)) :
    twosComplement (b :: c :: rest) < -(128 * 256 ^ rest.length) ∨
      128 * 256 ^ rest.length ≤ twosComplement (b :: c :: rest) := by
  have below := toNat_lt_pow rest
  have isPositive : (0 : Int) ≤ 256 ^ rest.length := pow_nonneg (by decide) _
  have whole : twosComplement (b :: c :: rest) =
      (signedDigit b * 256 + c.toNat) * 256 ^ rest.length + BigEndian.toNat rest := by
    rw [twosComplement_cons, BigEndian.toNat_cons, List.length_cons, pow_succ]
    push_cast
    ring
  rw [whole]
  rcases isMinimal_cons_cons_iff.1 minimal with low | high
  · have := Int.mul_le_mul_of_nonneg_right (Int.le_sub_one_of_lt low) isPositive
    omega
  · have := Int.mul_le_mul_of_nonneg_right high isPositive
    omega

theorem length_le_of_isMinimal {content : Bytes} {k : Nat} (minimal : IsMinimal content)
    (low : -(128 * 256 ^ k) ≤ twosComplement content)
    (high : twosComplement content < 128 * 256 ^ k) : content.length ≤ k + 1 := by
  match content with
  | [] => simp
  | [_] => simp
  | b :: c :: rest =>
    by_contra long
    have wide : (256 : Int) ^ k ≤ 256 ^ rest.length := by
      refine pow_le_pow_right₀ (by decide) ?_
      simp only [List.length_cons] at long
      omega
    have := twosComplement_of_isMinimal minimal
    omega

theorem length_le_of_twosComplement_eq {content other : Bytes} (minimal : IsMinimal content)
    (isSome : other ≠ []) (same : twosComplement other = twosComplement content) :
    content.length ≤ other.length := by
  obtain ⟨b, rest, rfl⟩ := List.exists_cons_of_ne_nil isSome
  obtain ⟨low, high⟩ := twosComplement_bounds b rest
  rw [same] at low high
  exact length_le_of_isMinimal minimal low high

/-- The octets that are read as a number are those that denote it and of which none can be left
out. -/
theorem integerOfOctets?_eq_some_iff {content : Bytes} {n : Int} :
    integerOfOctets? content = some n ↔ IsMinimal content ∧ twosComplement content = n := by
  match content with
  | [] => simp [integerOfOctets?, IsMinimal]
  | [b] =>
    have digit : twosComplement [b] = if b < 0x80 then (b.toNat : Int) else b.toNat - 256 := by
      simp [twosComplement_cons, signedDigit, ← UInt8.not_lt, ite_not]
    rw [integerOfOctets?, digit]
    simp [IsMinimal]
  | b :: c :: rest =>
    have value : twosComplement (b :: c :: rest) =
        if b < 0x80 then (BigEndian.toNat (b :: c :: rest) : Int)
        else BigEndian.toNat (b :: c :: rest) - Nat.pow 256 (b :: c :: rest).length := by
      by_cases h : b < 0x80
      · simp [twosComplement, signBit, h, UInt8.not_le.2 h]
      · simp [twosComplement, signBit, h, UInt8.not_lt.1 h]
    rw [integerOfOctets?, value, IsMinimal, ← not_or]
    split
    · next alike => simp [alike]
    · next unlike => simp [unlike]

theorem isMinimal_naturalOctets (n : Nat) : IsMinimal (naturalOctets n) :=
  (integerOfOctets?_eq_some_iff.1 (integerOfOctets?_naturalOctets n)).1

@[simp] theorem twosComplement_naturalOctets (n : Nat) : twosComplement (naturalOctets n) = n :=
  (integerOfOctets?_eq_some_iff.1 (integerOfOctets?_naturalOctets n)).2

theorem signBit_naturalOctets (n : Nat) : signBit (naturalOctets n) = false := by
  rw [← Bool.not_eq_true, ← twosComplement_neg_iff, twosComplement_naturalOctets]
  omega

theorem length_naturalOctets_le {n k : Nat} (h : n < 128 * 256 ^ k) :
    (naturalOctets n).length ≤ k + 1 := by
  have isPositive : (0 : Int) ≤ 256 ^ k := pow_nonneg (by decide) _
  refine length_le_of_isMinimal (isMinimal_naturalOctets n) ?_ ?_
  · rw [twosComplement_naturalOctets]
    omega
  · rw [twosComplement_naturalOctets]
    exact_mod_cast h

end VpnAuthority.Asn1
