import Mathlib.Algebra.Order.Ring.Nat
import Mathlib.Data.List.Induction
import Mathlib.Tactic.Ring
import VpnAuthority.Number.BigEndian

/-! How many octets a number takes, and that octets of a known count are determined by
their number. -/
namespace VpnAuthority.BigEndian

theorem toNat_append (a b : Bytes) : toNat (a ++ b) = toNat a * 256 ^ b.length + toNat b := by
  induction b using List.reverseRecOn with
  | nil => simp
  | append_singleton front last ih =>
    rw [← List.append_assoc, toNat_append_singleton, toNat_append_singleton, ih,
      List.length_append, List.length_singleton, pow_succ]
    ring

theorem toNat_cons (b : UInt8) (rest : Bytes) :
    toNat (b :: rest) = b.toNat * 256 ^ rest.length + toNat rest := by
  rw [← List.singleton_append, toNat_append]
  simp [toNat]

theorem toNat_lt (bytes : Bytes) : toNat bytes < 256 ^ bytes.length := by
  induction bytes with
  | nil => simp
  | cons b rest ih =>
    have : b.toNat + 1 ≤ 256 := b.toNat_lt
    calc toNat (b :: rest) = b.toNat * 256 ^ rest.length + toNat rest := toNat_cons b rest
      _ < (b.toNat + 1) * 256 ^ rest.length := by rw [add_mul, one_mul]; omega
      _ ≤ 256 * 256 ^ rest.length := Nat.mul_le_mul_right _ this
      _ = 256 ^ (b :: rest).length := by rw [List.length_cons, pow_succ, mul_comm]

theorem eq_of_toNat_eq {a b : Bytes} (hl : a.length = b.length) (h : toNat a = toNat b) :
    a = b := by
  induction a generalizing b with
  | nil => exact (List.eq_nil_of_length_eq_zero hl.symm).symm
  | cons x a ih =>
    cases b with
    | nil => cases hl
    | cons y b =>
      have hl : a.length = b.length := by simpa using hl
      rw [toNat_cons, toNat_cons, hl] at h
      have ha := toNat_lt a
      have hb := toNat_lt b
      rw [hl] at ha
      have low : toNat a = toNat b := by
        have := congrArg (· % 256 ^ b.length) h
        simpa [Nat.mul_add_mod', Nat.mod_eq_of_lt ha, Nat.mod_eq_of_lt hb] using this
      have high : x.toNat = y.toNat := by
        rw [low] at h
        exact Nat.eq_of_mul_eq_mul_right (Nat.pow_pos (by decide)) (Nat.add_right_cancel h)
      rw [UInt8.toNat_inj.1 high, ih hl low]

theorem length_ofNat_le {n width : Nat} (h : n < 256 ^ width) : (ofNat n).length ≤ width := by
  induction width generalizing n with
  | zero =>
    have : n = 0 := by simpa using h
    simp [this, ofNat]
  | succ width ih =>
    rw [ofNat]
    split
    · simp
    · have : n / 256 < 256 ^ width := by
        rw [Nat.div_lt_iff_lt_mul (by decide)]
        rwa [pow_succ] at h
      have := ih this
      simpa using this

theorem ofNat_ne_nil {n : Nat} (h : n ≠ 0) : ofNat n ≠ [] := by
  rw [ofNat, if_neg h]
  simp

theorem head_ofNat_ne_zero (n : Nat) : ∀ b ∈ (ofNat n).head?, b ≠ 0 := by
  fun_induction ofNat n with
  | case1 => simp
  | case2 n h ih =>
    intro b hb
    by_cases hs : n / 256 = 0
    · rw [hs, ofNat, if_pos rfl, List.nil_append] at hb
      cases hb
      intro h0
      have := congrArg UInt8.toNat h0
      simp only [UInt8.toNat_ofNat', UInt8.toNat_zero] at this
      omega
    · obtain ⟨c, rest, hc⟩ := List.exists_cons_of_ne_nil (ofNat_ne_nil hs)
      rw [hc] at hb ih
      exact ih b hb

theorem length_padded {n width : Nat} (h : n < 256 ^ width) : (padded width n).length = width := by
  have := length_ofNat_le h
  simp only [padded, List.length_append, List.length_replicate]
  omega

@[simp] theorem padded_toNat (bytes : Bytes) : padded bytes.length (toNat bytes) = bytes :=
  eq_of_toNat_eq (length_padded (toNat_lt bytes)) (toNat_padded _ _)

end VpnAuthority.BigEndian
