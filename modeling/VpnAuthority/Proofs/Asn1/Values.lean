import VpnAuthority.Asn1.ObjectId
import VpnAuthority.Proofs.Asn1.Element

/-! Sequences, numbers, strings and object identifiers are read back as what was
written. -/
namespace VpnAuthority.Asn1

@[simp] theorem members?_written_sequence (content : Bytes) :
    (written sequenceTag content).members? = readAll? content := rfl

@[simp] theorem items?_written_sequence (content : Bytes) :
    (written sequenceTag content).items? 16 = readAll? content := rfl

@[simp] theorem items?_written_set (content : Bytes) :
    (written setTag content).items? 17 = readAll? content := rfl

theorem explicit?_written {tag : UInt8} {content : Bytes} {inner : Element}
    (hc : tag &&& 0x20 != 0) (h : readAll? content = some [inner]) :
    (written tag content).explicit? = some inner := by
  simp [Element.explicit?, written, hc, h]

theorem octets?_written {tag : UInt8} (hp : (tag &&& 0x20 != 0) = false) (content : Bytes) :
    (written tag content).octets? = some content := by
  simp [Element.octets?, Element.joined?, written, hp]

@[simp] theorem octetString?_written (content : Bytes) :
    (written octetStringTag content).octetString? = some content := by
  have : (written octetStringTag content).isUniversal 4 = true := rfl
  rw [Element.octetString?, if_pos this, octets?_written (by decide)]

private theorem and_full (b : UInt8) : b &&& ((0xff : UInt8) <<< (0 : UInt8)) = b := by
  rw [← UInt8.toNat_inj]
  have whole : ((0xff : UInt8) <<< (0 : UInt8)).toNat = 2 ^ 8 - 1 := by decide
  rw [UInt8.toNat_and, whole, Nat.and_two_pow_sub_one_eq_mod, Nat.mod_eq_of_lt b.toNat_lt]

@[simp] theorem bitStringOfOctets?_zero (content : Bytes) :
    bitStringOfOctets? (0 :: content) = some (0, content) := by
  rw [bitStringOfOctets?, if_neg (by decide)]
  cases h : content.getLast? with
  | none => simp [List.getLast?_eq_none_iff.1 h]
  | some last =>
    obtain ⟨front, rfl⟩ := List.getLast?_eq_some_iff.1 h
    simp only [and_full, List.dropLast_concat, ite_self]

theorem bitStringOfOctets?_again {bytes octets : Bytes} {unused : UInt8}
    (h : bitStringOfOctets? bytes = some (unused, octets)) :
    bitStringOfOctets? (unused :: octets) = some (unused, octets) := by
  cases bytes with
  | nil => cases h
  | cons first bytes =>
    rw [bitStringOfOctets?] at h
    split at h
    · cases h
    · next few =>
      simp only [Option.some.injEq, Prod.mk.injEq] at h
      obtain ⟨hu, ho⟩ := h
      cases hl : bytes.getLast? with
      | none =>
        obtain rfl := List.getLast?_eq_none_iff.1 hl
        cases hu
        cases ho
        rfl
      | some last =>
        obtain ⟨front, rfl⟩ := List.getLast?_eq_some_iff.1 hl
        have isSome : (front ++ [last]).isEmpty = false := by simp
        rw [isSome, if_neg Bool.false_ne_true] at hu
        subst hu
        simp only [List.getLast?_append, List.getLast?_singleton, Option.some_or,
          List.dropLast_concat] at ho
        subst ho
        rw [bitStringOfOctets?, if_neg few]
        simp [UInt8.and_assoc]

theorem bitString?_written (octets : Bytes) :
    (written bitStringTag octets).bitString? = bitStringOfOctets? octets := by
  have : (written bitStringTag octets).isUniversal 3 = true := rfl
  rw [Element.bitString?, if_pos this, octets?_written (by decide), Option.bind_some]

@[simp] theorem primitive?_written_integer (content : Bytes) :
    (written integerTag content).primitive? 2 = some content := rfl

theorem integerOfOctets?_naturalOctets (n : Nat) :
    integerOfOctets? (naturalOctets n) = some (n : Int) := by
  have whole := BigEndian.toNat_ofNat n
  have isMinimal := BigEndian.head_ofNat_ne_zero n
  unfold naturalOctets
  cases h : BigEndian.ofNat n with
  | nil =>
    rw [h] at whole
    subst whole
    rfl
  | cons b rest =>
    rw [h] at whole isMinimal
    have isSome : b ≠ 0 := isMinimal b rfl
    dsimp only
    split
    · next small =>
      cases rest with
      | nil =>
        rw [integerOfOctets?, if_pos small]
        rw [← whole]
        simp [BigEndian.toNat]
      | cons c rest =>
        have notSign : ¬((b = 0 ∧ c < 0x80) ∨ (b = 0xff ∧ 0x80 ≤ c)) := by
          rintro (⟨rfl, -⟩ | ⟨rfl, -⟩)
          · exact isSome rfl
          · exact absurd small (by decide)
        rw [integerOfOctets?, if_neg notSign]
        dsimp only
        rw [if_pos small, whole]
    · next large =>
      have notSign : ¬(((0 : UInt8) = 0 ∧ b < 0x80) ∨ ((0 : UInt8) = 0xff ∧ 0x80 ≤ b)) := by
        rintro (⟨-, hb⟩ | ⟨h0, -⟩)
        · exact large hb
        · exact absurd h0 (by decide)
      rw [integerOfOctets?, if_neg notSign]
      dsimp only
      rw [if_pos (by decide), BigEndian.toNat_cons, whole]
      simp

theorem toNat_naturalOctets (n : Nat) : BigEndian.toNat (naturalOctets n) = n := by
  have whole := BigEndian.toNat_ofNat n
  unfold naturalOctets
  cases h : BigEndian.ofNat n with
  | nil =>
    rw [h] at whole
    subst whole
    rfl
  | cons b rest =>
    rw [h] at whole
    dsimp only
    split
    · exact whole
    · rw [BigEndian.toNat_cons, whole]
      simp

@[simp] theorem integer?_written_natural (n : Nat) :
    (written integerTag (naturalOctets n)).integer? = some (n : Int) := by
  rw [Element.integer?, primitive?_written_integer, Option.bind_some,
    integerOfOctets?_naturalOctets]

theorem shortInteger?_written_natural {n : Nat} (small : n < 0x80000000) :
    (written integerTag (naturalOctets n)).shortInteger? = some (n : Int) := by
  have whole := integerOfOctets?_naturalOctets n
  rw [Element.shortInteger?, primitive?_written_integer, Option.bind_eq_bind, Option.bind_some]
  split
  · next isEmpty =>
    rw [isEmpty] at whole
    cases whole
  · rw [whole, Option.bind_eq_bind, Option.bind_some, if_pos (by omega)]

@[simp] theorem magnitude?_written_natural (n : Nat) :
    (written integerTag (naturalOctets n)).magnitude? = some n := by
  rw [Element.magnitude?, primitive?_written_integer, Option.map_some, toNat_naturalOctets]

namespace ObjectId

/-- Identifiers that can be written: the second number is below forty unless the first
is two. -/
def IsWritable (id : ObjectId) : Bool :=
  match id.arcs with
  | first :: second :: _ => first == 2 || (first < 2 && second < 40)
  | _ => false

private theorem getD_some_or_none (n : Nat) : (if n = 0 then none else some n).getD 0 = n := by
  split
  · next h => exact h.symm
  · rfl

private theorem marked_octet (n : Nat) :
    (UInt8.ofNat (n % 128 + 128)).toNat = n % 128 + 128 ∧ ¬UInt8.ofNat (n % 128 + 128) < 0x80 := by
  have octet : (UInt8.ofNat (n % 128 + 128)).toNat = n % 128 + 128 := by
    rw [UInt8.toNat_ofNat']
    omega
  rw [UInt8.lt_iff_toNat_lt, octet]
  exact ⟨rfl, by simp⟩

private theorem last_octet (n : Nat) :
    (UInt8.ofNat (n % 128)).toNat = n % 128 ∧ UInt8.ofNat (n % 128) < 0x80 := by
  have octet : (UInt8.ofNat (n % 128)).toNat = n % 128 := by
    rw [UInt8.toNat_ofNat']
    omega
  rw [UInt8.lt_iff_toNat_lt, octet]
  exact ⟨rfl, Nat.mod_lt _ (by decide)⟩

private theorem readArcs_go (n : Nat) (rest : Bytes) :
    readArcs none (encodeArc.go n ++ rest) = readArcs (if n = 0 then none else some n) rest := by
  fun_induction encodeArc.go n generalizing rest with
  | case1 => rfl
  | case2 n h ih =>
    obtain ⟨octet, marked⟩ := marked_octet n
    have begins : ¬((if n / 128 = 0 then none else some (n / 128)).isNone = true ∧
        UInt8.ofNat (n % 128 + 128) = 0x80) := by
      rintro ⟨isFirst, he⟩
      rw [he, show (0x80 : UInt8).toNat = 128 by decide] at octet
      split at isFirst
      · omega
      · cases isFirst
    rw [List.append_assoc, ih, List.singleton_append, readArcs, if_neg begins]
    dsimp only
    rw [if_neg marked, getD_some_or_none, octet, if_neg h]
    congr 2
    omega

theorem readArcs_encodeArc (n : Nat) (rest : Bytes) :
    readArcs none (encodeArc n ++ rest) = (readArcs none rest).map (n :: ·) := by
  obtain ⟨octet, isLast⟩ := last_octet n
  have begins (p : Prop) : ¬(p ∧ UInt8.ofNat (n % 128) = 0x80) := by
    rintro ⟨-, he⟩
    rw [he] at isLast
    exact absurd isLast (by decide)
  rw [encodeArc, List.append_assoc, readArcs_go, List.singleton_append, readArcs, if_neg (begins _)]
  dsimp only
  have whole : n / 128 * 128 + n % 128 % 128 = n := by omega
  rw [if_pos isLast, getD_some_or_none, octet, whole]

private theorem readHighTag_go (n : Nat) (small : n < 2 ^ 31) (rest : Bytes) :
    readHighTag 0 (encodeArc.go n ++ rest) = readHighTag n rest := by
  fun_induction encodeArc.go n generalizing rest with
  | case1 => rfl
  | case2 n h ih =>
    obtain ⟨octet, marked⟩ := marked_octet n
    have digit : n / 128 * 128 + ((n % 128 + 128) &&& 0x7f) = n := by
      rw [show 0x7f = 2 ^ 7 - 1 by decide, Nat.and_two_pow_sub_one_eq_mod]
      omega
    rw [List.append_assoc, ih (by omega), List.singleton_append, readHighTag,
      octet, digit]
    exact (if_neg (Nat.not_le.2 small)).trans (if_neg marked)

theorem readHighTag_encodeArc {n : Nat} (small : n < 2 ^ 31) (rest : Bytes) :
    readHighTag 0 (encodeArc n ++ rest) = some (n, rest) := by
  obtain ⟨octet, isLast⟩ := last_octet n
  have digit : n / 128 * 128 + (n % 128 &&& 0x7f) = n := by
    rw [show 0x7f = 2 ^ 7 - 1 by decide, Nat.and_two_pow_sub_one_eq_mod]
    omega
  rw [encodeArc, List.append_assoc, readHighTag_go _ (by omega), List.singleton_append, readHighTag,
    octet, digit]
  exact (if_neg (Nat.not_le.2 small)).trans (if_pos isLast)

theorem readArcs_flatMap (arcs : List Nat) :
    readArcs none (arcs.flatMap encodeArc) = some arcs := by
  induction arcs with
  | nil => rfl
  | cons n rest ih => rw [List.flatMap_cons, readArcs_encodeArc, ih, Option.map_some]

theorem ofOctets?_octets {id : ObjectId} (h : id.IsWritable) : ofOctets? id.octets = some id := by
  obtain ⟨arcs⟩ := id
  match arcs, h with
  | first :: second :: rest, h =>
    simp only [IsWritable, Bool.or_eq_true, Bool.and_eq_true, beq_iff_eq, decide_eq_true_eq] at h
    have top : min ((first * 40 + second) / 40) 2 = first := by omega
    have below : first * 40 + second - first * 40 = second := by omega
    simp only [octets, ofOctets?, readArcs_flatMap, Option.bind_eq_bind, Option.bind_some, top,
      below]

theorem isWritable_of_ofOctets? {bytes : Bytes} {id : ObjectId} (h : ofOctets? bytes = some id) :
    id.IsWritable = true := by
  simp only [ofOctets?, Option.bind_eq_bind, Option.bind_eq_some_iff] at h
  obtain ⟨arcs, -, h⟩ := h
  cases arcs with
  | nil => cases h
  | cons first rest =>
    cases h
    simp only [IsWritable, Bool.or_eq_true, Bool.and_eq_true, beq_iff_eq, decide_eq_true_eq]
    omega

end ObjectId

theorem objectId?_written {id : ObjectId} (h : id.IsWritable) :
    (written objectIdTag id.octets).objectId? = some id := by
  have : (written objectIdTag id.octets).primitive? 6 = some id.octets := rfl
  rw [Element.objectId?, this, Option.bind_some, ObjectId.ofOctets?_octets h]

end VpnAuthority.Asn1
