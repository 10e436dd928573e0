import VpnAuthority.Proofs.Asn1.Element

/-! An element that was read, in whatever form, is read again from the octets it was
read from. A zero length in the long form is the reason why something has to follow
them. -/
namespace VpnAuthority.Asn1

private theorem readHighTag_front {n tag : Nat} {bytes rest : Bytes}
    (h : readHighTag n bytes = some (tag, rest)) :
    ∃ front, front ≠ [] ∧ bytes = front ++ rest ∧
      ∀ more, readHighTag n (front ++ more) = some (tag, more) := by
  induction bytes generalizing n with
  | nil => cases h
  | cons b tail ih =>
    rw [readHighTag] at h
    split at h
    · cases h
    · next small =>
      split at h
      · next last =>
        cases h
        refine ⟨[b], by simp, rfl, fun more => ?_⟩
        rw [List.singleton_append, readHighTag, if_neg small, if_pos last]
      · next notLast =>
        obtain ⟨front, -, rfl, again⟩ := ih h
        refine ⟨b :: front, by simp, rfl, fun more => ?_⟩
        rw [List.cons_append, readHighTag, if_neg small, if_neg notLast, again]

private theorem readLength_front {length : Option Nat} {bytes rest : Bytes}
    (h : readLength bytes = some (length, rest)) :
    ∃ front, front ≠ [] ∧ bytes = front ++ rest ∧
      ∀ more, more ≠ [] → readLength (front ++ more) = some (length, more) := by
  cases bytes with
  | nil => cases h
  | cons b tail =>
    rw [readLength] at h
    split at h
    · next isOpen =>
      cases h
      refine ⟨[b], by simp, rfl, fun more _ => ?_⟩
      rw [List.singleton_append, readLength, if_pos isOpen]
    · next notOpen =>
      split at h
      · next isShort =>
        cases h
        refine ⟨[b], by simp, rfl, fun more _ => ?_⟩
        rw [List.singleton_append, readLength, if_neg notOpen, if_pos isShort]
      · next isLong =>
        dsimp only at h
        split at h
        · next isFollowed =>
          cases h
          have taken : (tail.take (b.toNat - 0x80)).length = b.toNat - 0x80 :=
            List.length_take_of_le isFollowed.le
          refine ⟨b :: tail.take (b.toNat - 0x80), by simp, by simp, fun more hm => ?_⟩
          have := List.length_pos_iff.2 hm
          rw [List.cons_append, readLength, if_neg notOpen, if_neg isLong]
          dsimp only
          rw [if_pos (by rw [List.length_append]; omega), List.take_left' taken,
            List.drop_left' taken]
        · cases h

private def readTag (b : UInt8) (tail : Bytes) : Option (Nat × Bytes) :=
  if b.toNat &&& 0x1f = 0x1f then readHighTag 0 tail else some (b.toNat &&& 0x1f, tail)

private def finishHeader (b : UInt8) (tag : Nat) (length : Option Nat) (rest : Bytes) :
    Option (Header × Bytes) :=
  match length with
  | none => if b &&& 0x20 != 0 then some (⟨.ofOctet b, tag, b &&& 0x20 != 0, none⟩, rest) else none
  | some n => if n ≤ rest.length then some (⟨.ofOctet b, tag, b &&& 0x20 != 0, some n⟩, rest)
    else none

private theorem readHeader_cons (b : UInt8) (tail : Bytes) :
    readHeader (b :: tail) = (readTag b tail).bind fun (tag, rest) =>
      (readLength rest).bind fun (length, rest) => finishHeader b tag length rest := by
  rw [readHeader, readTag]
  split <;> rfl

private theorem readTag_front {b : UInt8} {tag : Nat} {bytes rest : Bytes}
    (h : readTag b bytes = some (tag, rest)) :
    ∃ front, bytes = front ++ rest ∧ ∀ more, readTag b (front ++ more) = some (tag, more) := by
  unfold readTag at h ⊢
  split at h
  · next isLong =>
    obtain ⟨front, -, whole, again⟩ := readHighTag_front h
    refine ⟨front, whole, fun more => ?_⟩
    rw [if_pos isLong, again]
  · next isShort =>
    cases h
    refine ⟨[], rfl, fun more => ?_⟩
    rw [if_neg isShort, List.nil_append]

private theorem finishHeader_again {b : UInt8} {tag : Nat} {length : Option Nat}
    {header : Header} {rest behind : Bytes}
    (h : finishHeader b tag length rest = some (header, behind)) :
    behind = rest ∧ header.length = length ∧ (∀ n ∈ length, n ≤ rest.length) ∧
      ∀ more : Bytes, (∀ n ∈ length, n ≤ more.length) →
        finishHeader b tag length more = some (header, more) := by
  unfold finishHeader at h ⊢
  cases length with
  | none =>
    dsimp only at h ⊢
    split at h
    · next isConstructed =>
      cases h
      exact ⟨rfl, rfl, by simp, fun more _ => if_pos isConstructed⟩
    · cases h
  | some n =>
    dsimp only at h ⊢
    split at h
    · next fits =>
      cases h
      exact ⟨rfl, rfl, by simpa using fits, fun more hm => if_pos (hm n rfl)⟩
    · cases h

theorem readHeader_front {header : Header} {bytes rest : Bytes}
    (h : readHeader bytes = some (header, rest)) :
    ∃ front, 2 ≤ front.length ∧ bytes = front ++ rest ∧
      (∀ n ∈ header.length, n ≤ rest.length) ∧
      ∀ more, more ≠ [] → (∀ n ∈ header.length, n ≤ more.length) →
        readHeader (front ++ more) = some (header, more) := by
  cases bytes with
  | nil => cases h
  | cons b tail =>
    rw [readHeader_cons] at h
    simp only [Option.bind_eq_some_iff, Prod.exists] at h
    obtain ⟨tag, behindTag, ht, length, behindLength, hl, h⟩ := h
    obtain ⟨tagFront, rfl, againTag⟩ := readTag_front ht
    obtain ⟨lengthFront, isSome, rfl, againLength⟩ := readLength_front hl
    obtain ⟨rfl, rfl, fits, again⟩ := finishHeader_again h
    refine ⟨b :: (tagFront ++ lengthFront), ?_, by simp, fits, fun more hm hf => ?_⟩
    · have := List.length_pos_iff.2 isSome
      simp only [List.length_cons, List.length_append]
      omega
    · simp only [List.cons_append, readHeader_cons, List.append_assoc, againTag, Option.bind_some,
        againLength more hm, again more hf]

private theorem afterOpenEnd?_zero (bytes : Bytes) : afterOpenEnd? 0 bytes = some bytes := by
  rw [afterOpenEnd?]

private theorem afterOpenEnd?_mark (depth : Nat) (rest : Bytes) :
    afterOpenEnd? (depth + 1) (0 :: 0 :: rest) = afterOpenEnd? depth rest := by
  rw [afterOpenEnd?]

private theorem afterOpenEnd?_header {bytes : Bytes} (depth : Nat)
    (h : ∀ rest, bytes ≠ 0 :: 0 :: rest) :
    afterOpenEnd? (depth + 1) bytes = (readHeader bytes).bind fun (header, rest) =>
      if (rest.drop (header.length.getD 0)).length < bytes.length then
        afterOpenEnd? (if header.length.isNone then depth + 2 else depth + 1)
          (rest.drop (header.length.getD 0))
      else none := by
  rw [afterOpenEnd?]
  · cases readHeader bytes with
    | none => rfl
    | some found => simp only [continueWith, Option.bind_some, dite_eq_ite]
  · exact h

/-- Where an element of open length ends does not depend on what follows it. -/
private theorem afterOpenEnd?_front {depth : Nat} {bytes rest : Bytes}
    (h : afterOpenEnd? depth bytes = some rest) :
    ∃ front, bytes = front ++ rest ∧ (depth ≠ 0 → front ≠ []) ∧
      ∀ more, afterOpenEnd? depth (front ++ more) = some more := by
  induction hn : bytes.length using Nat.strong_induction_on generalizing depth bytes with
  | _ n ih =>
    subst hn
    cases depth with
    | zero =>
      rw [afterOpenEnd?_zero] at h
      cases h
      exact ⟨[], rfl, by simp, afterOpenEnd?_zero⟩
    | succ depth =>
      by_cases isMark : ∃ tail, bytes = 0 :: 0 :: tail
      · obtain ⟨tail, rfl⟩ := isMark
        rw [afterOpenEnd?_mark] at h
        obtain ⟨front, rfl, -, again⟩ :=
          ih tail.length (by simp only [List.length_cons]; omega) h rfl
        refine ⟨0 :: 0 :: front, rfl, by simp, fun more => ?_⟩
        rw [List.cons_append, List.cons_append, afterOpenEnd?_mark, again]
      · push Not at isMark
        rw [afterOpenEnd?_header depth isMark] at h
        simp only [Option.bind_eq_some_iff, Prod.exists] at h
        obtain ⟨header, behind, hr, h⟩ := h
        split at h
        · next shorter =>
          obtain ⟨front, whole, hf, again⟩ := ih _ shorter h rfl
          have isSome : front ≠ [] := hf (by split <;> simp)
          obtain ⟨start, two, rfl, fits, againHeader⟩ := readHeader_front hr
          have size : header.length.getD 0 ≤ behind.length := by
            cases hl : header.length with
            | none => simp
            | some n => exact fits n hl
          generalize hk : header.length.getD 0 = k at *
          have taken : (behind.take k).length = k := List.length_take_of_le size
          have split : behind = behind.take k ++ front ++ rest := by
            rw [List.append_assoc, ← whole, List.take_append_drop]
          refine ⟨start ++ behind.take k ++ front, ?_, by simp [isSome], fun more => ?_⟩
          · rw [List.append_assoc, List.append_assoc, ← List.append_assoc _ front, ← split]
          · have notMark : ∀ tail, start ++ behind.take k ++ front ++ more ≠ 0 :: 0 :: tail := by
              match start, two with
              | a :: b :: start, _ =>
                intro tail ht
                simp only [List.cons_append, List.cons.injEq] at ht
                exact isMark (start ++ behind) (by simp [ht.1, ht.2.1])
            have follows : behind.take k ++ (front ++ more) ≠ [] := by simp [isSome]
            have long : ∀ n ∈ header.length, n ≤ (behind.take k ++ (front ++ more)).length := by
              intro n hm
              rw [Option.mem_def.1 hm, Option.getD_some] at hk
              rw [List.length_append, taken, hk]
              exact Nat.le_add_right _ _
            rw [afterOpenEnd?_header depth notMark, List.append_assoc, List.append_assoc,
              againHeader _ follows long]
            simp only [Option.bind_some, hk, List.drop_left' taken, again]
            rw [if_pos]
            simp only [List.length_append, taken]
            omega
        · cases h

/-- An element and what followed it, and that it is the same in front of anything else. -/
theorem read?_raw {element : Element} {bytes rest : Bytes}
    (h : read? bytes = some (element, rest)) :
    bytes = element.raw ++ rest ∧
      ∀ more, more ≠ [] → read? (element.raw ++ more) = some (element, more) := by
  simp only [read?, Option.bind_eq_bind, Option.bind_eq_some_iff, Prod.exists] at h
  obtain ⟨header, behind, hr, h⟩ := h
  obtain ⟨start, -, rfl, fits, again⟩ := readHeader_front hr
  have upTo (front more : Bytes) (n : Nat) (hn : n = start.length + front.length) :
      (start ++ (front ++ more)).take n = start ++ front := by
    rw [← List.append_assoc, List.take_left' (by rw [hn, List.length_append])]
  cases hl : header.length with
  | some n =>
    rw [hl] at h fits again
    cases h
    have long : n ≤ behind.length := fits n rfl
    have taken : (behind.take n).length = n := List.length_take_of_le long
    have whole := List.take_append_drop n behind
    have raw : (start ++ behind).take ((start ++ behind).length - behind.length + n) =
        start ++ behind.take n := by
      have := upTo (behind.take n) (behind.drop n) (start.length + n) (by rw [taken])
      rwa [whole, ← Nat.add_sub_cancel (n := start.length) (m := behind.length),
        ← List.length_append] at this
    dsimp only
    rw [raw]
    refine ⟨by rw [List.append_assoc, whole], fun more hm => ?_⟩
    have reread := again (behind.take n ++ more) (by simp [hm])
      (by rintro _ ⟨⟩; rw [List.length_append, taken]; omega)
    rw [List.append_assoc, read?, reread]
    simp only [Option.bind_eq_bind, Option.bind_some, hl, List.take_left' taken,
      List.drop_left' taken]
    rw [upTo (behind.take n) more _ (by simp only [List.length_append, taken]; omega)]
  | none =>
    rw [hl] at h again
    obtain ⟨_, hb, h⟩ := Option.bind_eq_some_iff.1 h
    cases h
    obtain ⟨front, rfl, isSome, againEnd⟩ := afterOpenEnd?_front hb
    have reread (more : Bytes) : readHeader (start ++ (front ++ more)) =
        some (header, front ++ more) := again _ (by simp [isSome]) (by simp)
    have inside (more : Bytes) : (front ++ more).take ((front ++ more).length - more.length - 2) =
        front.take (front.length - 2) := by
      rw [List.length_append, Nat.add_sub_cancel, List.take_append_of_le_length (by omega)]
    dsimp only
    rw [inside, upTo front rest _ (by simp only [List.length_append]; omega)]
    refine ⟨by rw [List.append_assoc], fun more hm => ?_⟩
    rw [List.append_assoc, read?, reread]
    simp only [Option.bind_eq_bind, Option.bind_some, hl, againEnd, inside]
    rw [upTo front more _ (by simp only [List.length_append]; omega)]

private theorem readHighTag_lt {n tag : Nat} {bytes rest : Bytes}
    (h : readHighTag n bytes = some (tag, rest)) : tag < 2 ^ 31 := by
  induction bytes generalizing n with
  | nil => cases h
  | cons b tail ih =>
    rw [readHighTag] at h
    split at h
    · cases h
    · next small =>
      split at h
      · cases h
        exact Nat.lt_of_not_le small
      · exact ih h

private theorem tag_of_read? {element : Element} {b : UInt8} {tail rest : Bytes}
    (h : read? (b :: tail) = some (element, rest)) :
    ∃ behind, readTag b tail = some (element.tag, behind) := by
  simp only [read?, Option.bind_eq_bind, Option.bind_eq_some_iff, Prod.exists] at h
  obtain ⟨header, behind, hr, h⟩ := h
  have ht : ∃ behind, readTag b tail = some (header.tag, behind) := by
    rw [readHeader_cons] at hr
    simp only [Option.bind_eq_some_iff, Prod.exists] at hr
    obtain ⟨tag, behindTag, ht, length, _, _, hr⟩ := hr
    refine ⟨behindTag, ht.trans ?_⟩
    unfold finishHeader at hr
    split at hr <;> split at hr <;> cases hr <;> rfl
  split at h
  · cases h
    exact ht
  · obtain ⟨_, -, h⟩ := Option.bind_eq_some_iff.1 h
    cases h
    exact ht

private theorem tag_lt_of_read? {element : Element} {bytes rest : Bytes}
    (h : read? bytes = some (element, rest)) : element.tag < 2 ^ 31 := by
  cases bytes with
  | nil => cases h
  | cons b tail =>
    obtain ⟨behind, ht⟩ := tag_of_read? h
    unfold readTag at ht
    split at ht
    · exact readHighTag_lt ht
    · simp only [Option.some.injEq, Prod.mk.injEq] at ht
      rw [← ht.1]
      exact Nat.lt_of_le_of_lt Nat.and_le_right (by decide)

private theorem tag_of_read?_zero {element : Element} {tail rest : Bytes}
    (h : read? (0 :: tail) = some (element, rest)) : element.tag = 0 := by
  obtain ⟨behind, ht⟩ := tag_of_read? h
  have short : readTag 0 tail = some (0, tail) := rfl
  rw [short, Option.some.injEq, Prod.mk.injEq] at ht
  exact ht.1.symm

theorem reads_raw {element : Element} {bytes rest more : Bytes}
    (h : read? bytes = some (element, rest)) (ht : element.tag ≠ 0) (hm : more ≠ []) :
    Reads element.raw element more := by
  obtain ⟨-, again⟩ := read?_raw h
  refine ⟨again more hm, ?_⟩
  cases hr : element.raw with
  | nil =>
    have := again [0] (by simp)
    rw [hr] at this
    exact absurd (tag_of_read?_zero this) ht
  | cons b tail =>
    refine ⟨b, tail, rfl, fun h0 => ht ?_⟩
    have := again more hm
    rw [hr, h0] at this
    exact tag_of_read?_zero this

theorem readAll?_eq_cons {bytes : Bytes} {element : Element} {more : List Element}
    (h : readAll? bytes = some (element :: more)) :
    ∃ rest, read? bytes = some (element, rest) ∧ readAll? rest = some more := by
  rw [readAll?.eq_def] at h
  split at h
  · cases h
  · cases h
  · simp only [Option.bind_eq_bind, Option.bind_eq_some_iff, Prod.exists] at h
    obtain ⟨first, rest, hr, h⟩ := h
    unfold continueWith at h
    split at h
    · obtain ⟨others, hm, same⟩ := Option.map_eq_some_iff.1 h
      cases same
      exact ⟨rest, hr, hm⟩
    · cases h

theorem eq_nil_of_readAll? {bytes : Bytes} (h : readAll? bytes = some []) : bytes = [] := by
  rw [readAll?.eq_def] at h
  split at h
  · rfl
  · cases h
  · simp only [Option.bind_eq_bind, Option.bind_eq_some_iff, Prod.exists] at h
    obtain ⟨first, rest, -, h⟩ := h
    unfold continueWith at h
    split at h
    · obtain ⟨others, -, same⟩ := Option.map_eq_some_iff.1 h
      cases same
    · cases h

theorem readAll?_raw_last {bytes : Bytes} {front : List Element} {element : Element}
    (h : readAll? bytes = some (front ++ [element])) : readAll? element.raw = some [element] := by
  induction front generalizing bytes with
  | nil =>
    obtain ⟨rest, hr, he⟩ := readAll?_eq_cons h
    obtain rfl := eq_nil_of_readAll? he
    obtain ⟨whole, -⟩ := read?_raw hr
    rw [List.append_nil] at whole
    rw [← whole]
    exact h
  | cons first front ih =>
    obtain ⟨rest, -, he⟩ := readAll?_eq_cons h
    exact ih he

theorem read?_of_mem_readAll? {bytes : Bytes} {elements : List Element}
    (h : readAll? bytes = some elements) :
    ∀ element ∈ elements, ∃ front rest, read? front = some (element, rest) := by
  induction elements generalizing bytes with
  | nil => simp
  | cons element more ih =>
    obtain ⟨rest, hr, hm⟩ := readAll?_eq_cons h
    exact List.forall_mem_cons.2 ⟨⟨_, rest, hr⟩, ih hm⟩

theorem tag_lt_of_readAll? {bytes : Bytes} {elements : List Element}
    (h : readAll? bytes = some elements) : ∀ element ∈ elements, element.tag < 2 ^ 31 := by
  intro element isMember
  obtain ⟨front, rest, hr⟩ := read?_of_mem_readAll? h element isMember
  exact tag_lt_of_read? hr

end VpnAuthority.Asn1
