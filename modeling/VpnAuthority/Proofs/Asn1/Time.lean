import VpnAuthority.Asn1.Time
import VpnAuthority.Proofs.Asn1.Values
import VpnAuthority.Proofs.Calendar
import VpnAuthority.Proofs.Text.Utf8

/-! The time of an instant is read as that instant. -/
namespace VpnAuthority.Asn1

private def readDigit (number : Option Nat) (c : Char) : Option Nat := do
  let number ← number
  let digit ← Digits.value? c
  if digit < 10 then some (number * 10 + digit) else none

private theorem value?_digit (n : Nat) (h : n < 10) :
    Digits.value? (Char.ofNat (UInt8.ofNat (48 + n)).toNat) = some n :=
  (by decide : ∀ n : Fin 10,
    Digits.value? (Char.ofNat (UInt8.ofNat (48 + n.val)).toNat) = some n.val) ⟨n, h⟩

private theorem readDigit_digit (number n : Nat) (h : n < 10) :
    readDigit (some number) (Char.ofNat (UInt8.ofNat (48 + n)).toNat) = some (number * 10 + n) := by
  simp only [readDigit, value?_digit n h, Option.bind_eq_bind, Option.bind_some, if_pos h]

private theorem foldl_readDigit (width n number : Nat) :
    ((List.range width).reverse.map fun place =>
        Char.ofNat (UInt8.ofNat (48 + n / Nat.pow 10 place % 10)).toNat).foldl readDigit
          (some number) = some (number * 10 ^ width + n % 10 ^ width) := by
  induction width generalizing number with
  | zero => simp [Nat.mod_one]
  | succ width ih =>
    rw [List.range_succ, List.reverse_append, List.reverse_singleton, List.singleton_append,
      List.map_cons, List.foldl_cons, readDigit_digit _ _ (Nat.mod_lt _ (by decide)), ih,
      Nat.mod_pow_succ, pow_succ]
    simp only [Nat.pow_eq]
    congr 1
    ring

theorem length_digitOctets (width : Nat) (n : Int) : (digitOctets width n).length = width := by
  simp [digitOctets]

theorem Time.number?_digitOctets (width : Nat) {n : Int} (hw : width ≠ 0) (h0 : 0 ≤ n)
    (h : n < 10 ^ width) : number? (digitOctets width n) = some n := by
  obtain ⟨m, rfl⟩ := Int.eq_ofNat_of_zero_le h0
  have small : m < 10 ^ width := by exact_mod_cast h
  have isSome : (List.map (fun b : UInt8 => Char.ofNat b.toNat)
      (digitOctets width m)).isEmpty = false := by
    rw [List.isEmpty_eq_false_iff, ne_eq, List.map_eq_nil_iff, ← List.length_eq_zero_iff,
      length_digitOctets]
    exact hw
  have digits := foldl_readDigit width m 0
  rw [zero_mul, zero_add, Nat.mod_eq_of_lt small] at digits
  rw [number?, Digits.read?, isSome, if_neg (by decide), digitOctets, List.map_map]
  exact congrArg (Option.map Int.ofNat) digits

private theorem exists_two_digits {n : Int} (h0 : 0 ≤ n) (h : n < 100) :
    ∃ a b, digitOctets 2 n = [a, b] ∧ Time.number? [a, b] = some n := by
  obtain ⟨a, b, hab⟩ := List.length_eq_two.1 (length_digitOctets 2 n)
  refine ⟨a, b, hab, ?_⟩
  rw [← hab]
  exact Time.number?_digitOctets 2 (by decide) h0 h

namespace Time

private theorem lastDayOfMonth_le (year month : Int) : lastDayOfMonth year month ≤ 31 := by
  unfold lastDayOfMonth
  repeat' split
  all_goals decide

private theorem dateTime?_digits (date : DateTime) (h : date.isValid = true) :
    dateTime? date.year ([date.month, date.day, date.hour, date.minute, date.second].flatMap
      (digitOctets 2) ++ [0x5a]) = some date := by
  obtain ⟨year, month, day, hour, minute, second⟩ := date
  have valid := h
  simp only [DateTime.isValid, Bool.and_eq_true, decide_eq_true_eq] at valid
  obtain ⟨⟨⟨⟨⟨⟨⟨⟨⟨_, _⟩, _⟩, _⟩, _⟩, _⟩, _⟩, _⟩, _⟩, _⟩ := valid
  have := lastDayOfMonth_le year month
  obtain ⟨a, b, hab, month'⟩ := exists_two_digits (n := month) (by omega) (by omega)
  obtain ⟨c, d, hcd, day'⟩ := exists_two_digits (n := day) (by omega) (by omega)
  obtain ⟨e, f, hef, hour'⟩ := exists_two_digits (n := hour) (by omega) (by omega)
  obtain ⟨i, j, hij, minute'⟩ := exists_two_digits (n := minute) (by omega) (by omega)
  obtain ⟨k, l, hkl, second'⟩ := exists_two_digits (n := second) (by omega) (by omega)
  have digits : [month, day, hour, minute, second].flatMap (digitOctets 2) ++ [0x5a] =
      [a, b, c, d, e, f, i, j, k, l, 0x5a] := by
    simp [hab, hcd, hef, hij, hkl]
  rw [digits, dateTime?, if_pos ⟨rfl, rfl⟩]
  simp only [List.drop, List.take, month', day', hour', minute', second', Option.bind_eq_bind,
    Option.bind_some, h, if_true]

theorem instant?_of_ofInstant? {t : Instant} {time : Time} (h : ofInstant? t = some time) :
    time.instant? = some t := by
  have valid := t.isValid_toDateTime
  have same := t.toInstant_toDateTime
  unfold ofInstant? at h
  generalize t.toDateTime = date at h valid same
  have read := dateTime?_digits date valid
  dsimp only at h
  split at h
  · cases h
  · next inRange =>
    split at h
    · next isShort =>
      cases h
      have split : (digitOctets 2 (date.year % 100) ++
          ([date.month, date.day, date.hour, date.minute, date.second].flatMap (digitOctets 2)
            ++ [0x5a])).take 2 = digitOctets 2 (date.year % 100) :=
        List.take_left' (length_digitOctets 2 _)
      have behind (rest : Bytes) : (digitOctets 2 (date.year % 100) ++ rest).drop 2 = rest :=
        List.drop_left' (length_digitOctets 2 _)
      have year : (if date.year % 100 < 50 then 2000 + date.year % 100
          else 1900 + date.year % 100) = date.year := by
        split <;> omega
      simp only [instant?, if_true, split, behind, Option.bind_eq_bind, Option.bind_some,
        number?_digitOctets 2 (n := date.year % 100) (by decide) (by omega) (by omega),
        year, read, same]
    · next isLong =>
      cases h
      have split : (digitOctets 4 date.year ++
          ([date.month, date.day, date.hour, date.minute, date.second].flatMap (digitOctets 2)
            ++ [0x5a])).take 4 = digitOctets 4 date.year :=
        List.take_left' (length_digitOctets 4 _)
      have behind (rest : Bytes) : (digitOctets 4 date.year ++ rest).drop 4 = rest :=
        List.drop_left' (length_digitOctets 4 _)
      have kind : (longTimeTag = shortTimeTag) = False := by decide
      simp only [instant?, kind, if_false, split, behind, Option.bind_eq_bind, Option.bind_some,
        number?_digitOctets 4 (n := date.year) (by decide) (by omega) (by omega),
        read, same]

theorem form_of_ofInstant? {t : Instant} {time : Time} (h : ofInstant? t = some time) :
    time.tag = shortTimeTag ∧ time.octets.length = 13 ∨
      time.tag = longTimeTag ∧ time.octets.length = 15 := by
  unfold ofInstant? at h
  generalize t.toDateTime = date at h
  dsimp only at h
  split at h
  · cases h
  · split at h
    · cases h
      exact .inl ⟨rfl, by simp [length_digitOctets]⟩
    · cases h
      exact .inr ⟨rfl, by simp [length_digitOctets]⟩

theorem time?_written {t : Instant} {time : Time} (h : ofInstant? t = some time) :
    (written (UInt8.ofNat time.tag) time.octets).time? = some time := by
  obtain ⟨tag, octets⟩ := time
  rcases form_of_ofInstant? h with ⟨rfl, hl⟩ | ⟨rfl, hl⟩
  · have isTime : (written (UInt8.ofNat shortTimeTag) octets).isUniversal shortTimeTag = true := rfl
    change (written (UInt8.ofNat shortTimeTag) octets).time? = _
    rw [Element.time?, octets?_written (by decide), Option.bind_eq_bind, Option.bind_some,
      if_pos (.inl ⟨isTime, hl.ge⟩)]
    rfl
  · have isTime : (written (UInt8.ofNat longTimeTag) octets).isUniversal longTimeTag = true := rfl
    change (written (UInt8.ofNat longTimeTag) octets).time? = _
    rw [Element.time?, octets?_written (by decide), Option.bind_eq_bind, Option.bind_some,
      if_pos (.inr ⟨isTime, hl.ge⟩)]
    rfl

theorem reads_encode {t : Instant} {time : Time} (h : ofInstant? t = some time) (rest : Bytes) :
    Reads time.encode (written (UInt8.ofNat time.tag) time.octets) rest := by
  have fits : Fits time.octets := by
    unfold Fits
    rcases form_of_ofInstant? h with ⟨-, hl⟩ | ⟨-, hl⟩ <;> rw [hl] <;> decide
  rcases form_of_ofInstant? h with ⟨ht, -⟩ | ⟨ht, -⟩
  · rw [encode, ht]
    exact Asn1.reads_encode (by decide) (by decide) fits rest
  · rw [encode, ht]
    exact Asn1.reads_encode (by decide) (by decide) fits rest

end Time

end VpnAuthority.Asn1
