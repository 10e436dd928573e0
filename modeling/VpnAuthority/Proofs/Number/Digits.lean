import Mathlib.Data.Nat.Digits.Lemmas
import VpnAuthority.Number.BigEndian
import VpnAuthority.Number.Digits

/-! Numbers are read back from their digits, in every base up to sixteen, and from the pairs
of digits that stand for their octets. -/
namespace VpnAuthority.Digits

section
variable {base : Nat}

theorem read?_singleton (c : Char) :
    read? base [c] = (value? c).bind fun digit => if digit < base then some digit else none := by
  simp [read?]

theorem read?_concat {text : List Char} (isSome : text ≠ []) (c : Char) :
    read? base (text ++ [c]) = (read? base text).bind fun number =>
      (value? c).bind fun digit =>
        if digit < base then some (number * base + digit) else none := by
  simp [read?, isSome]

theorem isSome_value?_of_read? {text : List Char} {n : Nat} (h : read? base text = some n) :
    ∀ c ∈ text, (value? c).isSome := by
  induction text using List.reverseRecOn generalizing n with
  | nil => simp
  | append_singleton text c ih =>
    have last : (value? c).isSome ∧ ∀ d ∈ text, (value? d).isSome := by
      by_cases isSome : text = []
      · subst isSome
        rw [List.nil_append, read?_singleton, Option.bind_eq_some_iff] at h
        obtain ⟨digit, read, -⟩ := h
        exact ⟨read ▸ rfl, by simp⟩
      · simp only [read?_concat isSome, Option.bind_eq_some_iff] at h
        obtain ⟨number, front, digit, read, -⟩ := h
        exact ⟨read ▸ rfl, ih front⟩
    intro d hd
    obtain hd | hd := List.mem_append.1 hd
    · exact last.2 d hd
    · rw [List.mem_singleton.1 hd]
      exact last.1

end

theorem ne_of_isSome_value? {c d : Char} (h : (value? c).isSome) (hd : value? d = none) :
    c ≠ d := by
  rintro rfl
  rw [hd] at h
  cases h

section
variable {base : Nat} (isBase : 1 < base) (small : base ≤ 16)

theorem value?_digitChar {digit : Nat} (h : digit < 16) :
    value? digit.digitChar = some digit :=
  (by decide : ∀ digit : Fin 16, value? (Nat.digitChar digit) = some digit.val) ⟨digit, h⟩

include isBase small

theorem read?_toDigits (n : Nat) : read? base (Nat.toDigits base n) = some n := by
  -- the induction is on the number; its last digit is read last
  induction n using Nat.strong_induction_on with
  | _ n ih =>
    rw [Nat.toDigits_eq_if isBase]
    split
    · next h =>
      rw [read?_singleton, value?_digitChar (by omega), Option.bind_some, if_pos h]
    · next h =>
      have digit : n % base < base := Nat.mod_lt _ (by omega)
      have fewer : n / base < n := Nat.div_lt_self (by omega) isBase
      rw [read?_concat Nat.toDigits_ne_nil, ih _ fewer, value?_digitChar (by omega),
        Option.bind_some, Option.bind_some, if_pos digit, Nat.div_add_mod']

theorem eq_zero_of_head?_toDigits {n : Nat} (h : (Nat.toDigits base n).head? = some '0') :
    n = 0 := by
  induction n using Nat.strong_induction_on with
  | _ n ih =>
    rw [Nat.toDigits_eq_if isBase] at h
    split at h
    · next hn =>
      have := congrArg value? (Option.some.inj h)
      rw [value?_digitChar (by omega)] at this
      exact Option.some.inj this
    · next hn =>
      rw [List.head?_append_of_ne_nil _ Nat.toDigits_ne_nil] at h
      have := ih _ (Nat.div_lt_self (by omega) isBase) h
      rw [Nat.div_eq_zero_iff] at this
      omega

theorem isSome_value?_of_mem_toDigits {n : Nat} : ∀ c ∈ Nat.toDigits base n, (value? c).isSome :=
  isSome_value?_of_read? (read?_toDigits isBase small n)

end

theorem read?_decimal (n : Nat) : read? 10 (decimal n) = some n :=
  read?_toDigits (by decide) (by decide) n

theorem read?_lowerHex (n : Nat) : read? 16 (lowerHex n) = some n :=
  read?_toDigits (by decide) (by decide) n

theorem isSome_value?_of_mem_decimal {n : Nat} : ∀ c ∈ decimal n, (value? c).isSome :=
  isSome_value?_of_mem_toDigits (by decide) (by decide)

theorem isSome_value?_of_mem_lowerHex {n : Nat} : ∀ c ∈ lowerHex n, (value? c).isSome :=
  isSome_value?_of_mem_toDigits (by decide) (by decide)

theorem decimal_ne_nil (n : Nat) : decimal n ≠ [] := Nat.toDigits_ne_nil

theorem lowerHex_ne_nil (n : Nat) : lowerHex n ≠ [] := Nat.toDigits_ne_nil

theorem length_decimal_le {n width : Nat} (isWidth : 0 < width) (h : n < 10 ^ width) :
    (decimal n).length ≤ width :=
  (Nat.length_toDigits_le_iff (by decide) isWidth).2 h

theorem length_lowerHex_le {n width : Nat} (isWidth : 0 < width) (h : n < 16 ^ width) :
    (lowerHex n).length ≤ width :=
  (Nat.length_toDigits_le_iff (by decide) isWidth).2 h

theorem decimal_eq_of_head? {n : Nat} (h : (decimal n).head? = some '0') : decimal n = ['0'] := by
  rw [eq_zero_of_head?_toDigits (by decide) (by decide) h]
  rfl

theorem value?_toUpper_digitChar {digit : Nat} (h : digit < 16) :
    value? digit.digitChar.toUpper = some digit :=
  (by decide : ∀ digit : Fin 16, value? (Nat.digitChar digit).toUpper = some digit.val) ⟨digit, h⟩

theorem paddedUpperHex_two {n : Nat} (h : n < 256) :
    paddedUpperHex 2 n = [(n / 16).digitChar.toUpper, (n % 16).digitChar.toUpper] := by
  unfold paddedUpperHex paddedHex lowerHex
  rw [Nat.toDigits_eq_if (by decide)]
  split
  · next small =>
    rw [Nat.div_eq_of_lt small, Nat.mod_eq_of_lt small]
    rfl
  · next large =>
    rw [Nat.toDigits_of_lt_base (by omega)]
    rfl

theorem read?_append_paddedUpperHex {text : List Char} {number : Nat}
    (before : text = [] ∧ number = 0 ∨ read? 16 text = some number) (b : UInt8) :
    read? 16 (text ++ paddedUpperHex 2 b.toNat) = some (number * 256 + b.toNat) := by
  have := b.toNat_lt
  have high : b.toNat / 16 < 16 := by omega
  have low : b.toNat % 16 < 16 := by omega
  have first : read? 16 (text ++ [(b.toNat / 16).digitChar.toUpper]) =
      some (number * 16 + b.toNat / 16) := by
    rcases before with ⟨rfl, rfl⟩ | before
    · rw [List.nil_append, read?_singleton, value?_toUpper_digitChar high, Option.bind_some,
        if_pos high, Nat.zero_mul, Nat.zero_add]
    · have isSome : text ≠ [] := by
        rintro rfl
        cases before
      rw [read?_concat isSome, before, value?_toUpper_digitChar high, Option.bind_some,
        Option.bind_some, if_pos high]
  rw [paddedUpperHex_two b.toNat_lt, List.append_cons, read?_concat (by simp), first,
    value?_toUpper_digitChar low, Option.bind_some, Option.bind_some, if_pos low,
    Option.some.injEq]
  omega

theorem read?_flatMap_paddedUpperHex {bytes : Bytes} (isSome : bytes ≠ []) :
    read? 16 (bytes.flatMap fun b => paddedUpperHex 2 b.toNat) =
      some (BigEndian.toNat bytes) := by
  induction bytes using List.reverseRecOn with
  | nil => exact absurd rfl isSome
  | append_singleton front last ih =>
    rw [List.flatMap_append, List.flatMap_singleton, BigEndian.toNat_append_singleton]
    refine read?_append_paddedUpperHex ?_ last
    by_cases isFirst : front = []
    · exact .inl (by simp [isFirst])
    · exact .inr (ih isFirst)

end VpnAuthority.Digits
