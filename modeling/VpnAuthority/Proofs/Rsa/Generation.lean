import Mathlib.FieldTheory.Finite.Basic
import Mathlib.NumberTheory.LucasLehmer
import VpnAuthority.Proofs.Chance

/-! A key of two primes does what a key has to: its exponents undo each other. -/
namespace VpnAuthority

namespace Rsa

/-- The coefficients are kept such that they give the two numbers that are divided. -/
private theorem mul_inverseFrom {a : Int} {m previous current : Nat} {x y : Int}
    (hx : a * x ≡ previous [ZMOD m]) (hy : a * y ≡ current [ZMOD m]) :
    a * inverseFrom previous current x y ≡ Nat.gcd previous current [ZMOD m] := by
  fun_induction inverseFrom previous current x y with
  | case1 previous x y => simpa using hx
  | case2 previous current x y h ih =>
    have rest : a * (x - (previous / current : Nat) * y) ≡ (previous % current : Nat) [ZMOD m] := by
      have split : ((previous % current : Nat) : Int) =
          previous - (previous / current : Nat) * current := by
        have := Nat.div_add_mod previous current
        zify at this
        push_cast
        linarith
      have : a * (x - (previous / current : Nat) * y) =
          a * x - (previous / current : Nat) * (a * y) := by ring
      rw [this, split]
      exact hx.sub (hy.mul_left _)
    rw [Nat.gcd_comm, Nat.gcd_rec, Nat.gcd_comm]
    exact ih hy rest

theorem inverseMod_lt {m : Nat} (hm : 0 < m) (a : Nat) : inverseMod a m < m := by
  have := Int.emod_lt_of_pos (inverseFrom (a % m) m 1 0) (Int.natCast_pos.2 hm)
  have := Int.emod_nonneg (inverseFrom (a % m) m 1 0) (Int.natCast_pos.2 hm).ne'
  unfold inverseMod
  omega

theorem mul_inverseMod {a m : Nat} (hm : 0 < m) (coprime : a.Coprime m) :
    a * inverseMod a m ≡ 1 [MOD m] := by
  have hx : (a : Int) * 1 ≡ (a % m : Nat) [ZMOD m] := by
    rw [mul_one, Int.natCast_mod]
    exact (Int.mod_modEq _ _).symm
  have hy : (a : Int) * 0 ≡ (m : Nat) [ZMOD m] := by
    rw [mul_zero]
    exact (Int.modEq_zero_iff_dvd.2 (dvd_refl _)).symm
  have whole := mul_inverseFrom hx hy
  rw [← Nat.gcd_rec, Nat.gcd_comm, coprime] at whole
  have nonneg := Int.emod_nonneg (inverseFrom (a % m) m 1 0) (Int.natCast_pos.2 hm).ne'
  rw [← Int.natCast_modEq_iff]
  push_cast [inverseMod]
  rw [Int.toNat_of_nonneg nonneg]
  exact ((Int.mod_modEq _ _).mul_left _).trans whole

private theorem pow_modEq_self {p k : Nat} (hp : p.Prime) (h1 : 1 ≤ k) (h : k ≡ 1 [MOD p - 1])
    (m : Nat) : m ^ k ≡ m [MOD p] := by
  have := Fact.mk hp
  rw [← ZMod.natCast_eq_natCast_iff]
  push_cast
  obtain ⟨t, ht⟩ := (Nat.modEq_iff_dvd' h1).1 h.symm
  have whole : k = (p - 1) * t + 1 := by omega
  by_cases zero : (m : ZMod p) = 0
  · rw [zero, zero_pow (by omega)]
  · rw [whole, pow_succ, pow_mul, ZMod.pow_card_sub_one_eq_one zero, one_pow, one_mul]

theorem PrivateKey.undoes_ofPrimes {p q : Nat} (hp : p.Prime) (hq : q.Prime) (apart : p ≠ q)
    (coprime : standardExponent.Coprime (Nat.lcm (p - 1) (q - 1))) :
    ∀ m < p * q, powMod (powMod m (ofPrimes p q).privateExponent (p * q)) standardExponent (p * q) =
      m := by
  intro m below
  have hp1 := hp.one_lt
  have hq1 := hq.one_lt
  have cycle : 1 < Nat.lcm (p - 1) (q - 1) := by
    have hl := Nat.le_of_dvd (Nat.lcm_pos (by omega) (by omega)) (Nat.dvd_lcm_left (p - 1) (q - 1))
    have hr := Nat.le_of_dvd (Nat.lcm_pos (by omega) (by omega)) (Nat.dvd_lcm_right (p - 1) (q - 1))
    omega
  have inverse := mul_inverseMod (by omega) coprime
  generalize hd : inverseMod standardExponent (Nat.lcm (p - 1) (q - 1)) = d at inverse
  have private' : (ofPrimes p q).privateExponent = d := hd
  have some' : 1 ≤ standardExponent * d := by
    by_contra none
    rw [Nat.lt_one_iff.1 (not_le.1 none)] at inverse
    have := (Nat.modEq_iff_dvd' (Nat.zero_le 1)).1 inverse
    exact absurd (Nat.le_of_dvd Nat.one_pos this) (not_le.2 cycle)
  have power : (m ^ d) ^ standardExponent ≡ m [MOD p * q] := by
    rw [← pow_mul, mul_comm d]
    have coprimes : p.Coprime q := (Nat.coprime_primes hp hq).2 apart
    rw [← Nat.modEq_and_modEq_iff_modEq_mul coprimes]
    exact ⟨pow_modEq_self hp some' (inverse.of_dvd (Nat.dvd_lcm_left _ _)) m,
      pow_modEq_self hq some' (inverse.of_dvd (Nat.dvd_lcm_right _ _)) m⟩
  rw [private', powMod_eq, powMod_eq]
  have : (m ^ d % (p * q)) ^ standardExponent ≡ m [MOD p * q] :=
    ((Nat.mod_modEq _ _).pow _).trans power
  exact Eq.trans this (Nat.mod_eq_of_lt below)

theorem PrivateKey.isOfSize_ofPrimes {p q bits : Nat} (hp : p.Prime) (hq : q.Prime)
    (size : bits ≤ bitLength (p * q) + 1 ∧ bitLength (p * q) ≤ bits) :
    (ofPrimes p q).IsOfSize bits where
  modulus := size
  publicExponent := rfl
  isBelow := by
    have hp1 := hp.one_lt
    have hq1 := hq.one_lt
    have left : p < p * q := lt_mul_of_one_lt_right hp.pos hq1
    have right : q < p * q := lt_mul_of_one_lt_left hq.pos hp1
    have cycle : Nat.lcm (p - 1) (q - 1) < p * q := by
      refine (Nat.le_of_dvd (Nat.mul_pos (by omega) (by omega)) (Nat.lcm_dvd_mul _ _)).trans_lt ?_
      exact Nat.mul_lt_mul'' (by omega) (by omega)
    have d := inverseMod_lt (Nat.lcm_pos (by omega : 0 < p - 1) (by omega : 0 < q - 1))
      standardExponent
    have dp := Nat.mod_lt (inverseMod standardExponent (Nat.lcm (p - 1) (q - 1)))
      (by omega : 0 < p - 1)
    have dq := Nat.mod_lt (inverseMod standardExponent (Nat.lcm (p - 1) (q - 1)))
      (by omega : 0 < q - 1)
    have c := inverseMod_lt hp.pos q
    simp only [List.forall_mem_cons, ofPrimes]
    exact ⟨d.trans cycle, left, right, by omega, by omega, c.trans left, by simp⟩

end Rsa

theorem prime_mersenne_2203 : (mersenne 2203).Prime :=
  lucas_lehmer_sufficiency _ (by norm_num) (by norm_num)

/-- Outcomes with a key of a small prime, and with nothing else of chance in them. -/
def Chance.ofSmallPrime (p : Nat) : Chance where
  key := fun _ => .ofPrimes p (mersenne 2203)
  serial := ⟨1, by decide +kernel⟩
  iv := List.replicate 16 0
  suffix := .ofBits 0

theorem Chance.isSound_ofSmallPrime {p bits : Nat} (hp : p.Prime) (small : p < mersenne 2203)
    (coprime : Rsa.standardExponent.Coprime (Nat.lcm (p - 1) (mersenne 2203 - 1)))
    (usable : (Rsa.PrivateKey.ofPrimes p (mersenne 2203)).toPublic.isUsable = true)
    (size : bits ≤ Rsa.bitLength (p * mersenne 2203) + 1 ∧
      Rsa.bitLength (p * mersenne 2203) ≤ bits) : (ofSmallPrime p).IsSound bits where
  key := Rsa.PrivateKey.isOfSize_ofPrimes hp prime_mersenne_2203 size
  iv := rfl
  sound := ⟨usable, Rsa.PrivateKey.undoes_ofPrimes hp prime_mersenne_2203 small.ne coprime⟩

theorem Chance.isSound_ofSmallPrime_five : (ofSmallPrime 5).IsSound 2206 :=
  isSound_ofSmallPrime (by decide) (by decide +kernel) (by decide +kernel) (by decide +kernel)
    (by decide +kernel)

theorem Chance.isSound_ofSmallPrime_seven : (ofSmallPrime 7).IsSound 2206 :=
  isSound_ofSmallPrime (by decide) (by decide +kernel) (by decide +kernel) (by decide +kernel)
    (by decide +kernel)

theorem Chance.keyId_ofSmallPrime_ne :
    (ofSmallPrime 5).keyId 2206 ≠ (ofSmallPrime 7).keyId 2206 := by
  decide +kernel

theorem Chance.isSound_ofSmallPrime_sixtySeven : (ofSmallPrime 67).IsSound 2210 :=
  isSound_ofSmallPrime (by decide) (by decide +kernel) (by decide +kernel) (by decide +kernel)
    (by decide +kernel)

theorem Chance.isSound_ofSmallPrime_seventyOne : (ofSmallPrime 71).IsSound 2210 :=
  isSound_ofSmallPrime (by decide) (by decide +kernel) (by decide +kernel) (by decide +kernel)
    (by decide +kernel)

theorem Chance.keyId_ofSmallPrime_five_ne :
    (ofSmallPrime 5).keyId 2206 ≠ (ofSmallPrime 67).keyId 2210 := by
  decide +kernel

end VpnAuthority
