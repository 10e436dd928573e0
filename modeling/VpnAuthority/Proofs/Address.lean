import VpnAuthority.Address
import VpnAuthority.Proofs.Number.Digits
import VpnAuthority.Proofs.Outcome
import VpnAuthority.Proofs.Text.Fields
import VpnAuthority.Proofs.Text.Span

/-! Addresses of both families are read back from their texts, however freely addresses may be
written. -/
namespace VpnAuthority

def isAddressChar (c : Char) : Bool := (Digits.value? c).isSome || c == '.' || c == ':'

theorem isAddressChar_iff {c : Char} :
    isAddressChar c = true ↔ (Digits.value? c).isSome ∨ c = '.' ∨ c = ':' := by
  simp [isAddressChar, or_assoc]

namespace Address

section
variable (style : Style)

theorem readOctet?_decimal (octet : BitVec 8) :
    readOctet? style (Digits.decimal octet.toNat) = some octet := by
  have small : octet.toNat < 256 := octet.isLt
  have short : (Digits.decimal octet.toNat).length ≤ 3 :=
    Digits.length_decimal_le (by decide) (by omega)
  have allowed : ¬(3 < (Digits.decimal octet.toNat).length ∨ (!style.leadingZeros) = true ∧
      (Digits.decimal octet.toNat).head? = some '0' ∧ Digits.decimal octet.toNat ≠ ['0']) := by
    rintro (long | ⟨-, zero, more⟩)
    · omega
    · exact more (Digits.decimal_eq_of_head? zero)
  rw [readOctet?, if_neg allowed, Digits.read?_decimal]
  simp [small]

theorem ofOctets?_octets (bits : BitVec 32) : ofOctets? (octets bits) = some bits := by
  simp (disch := decide) only [octets, ofOctets?,
    BitVec.extractLsb'_append_extractLsb'_eq_extractLsb']
  exact congrArg some BitVec.extractLsb'_eq_self

theorem readDotted?_dotted (bits : BitVec 32) : readDotted? style (dotted bits) = some bits := by
  have parts : fields (· == '.') (dotted bits) =
      (octets bits).map fun octet => Digits.decimal octet.toNat := by
    refine fields_intercalate (List.cons_ne_nil _ _) (fun part hp c hc => ?_) rfl
    obtain ⟨octet, -, rfl⟩ := List.mem_map.1 hp
    have other := Digits.ne_of_isSome_value? (Digits.isSome_value?_of_mem_decimal c hc)
      (d := '.') (by decide)
    simpa using other
  rw [readDotted?, parts, mapM_map_eq_some fun octet _ => readOctet?_decimal style octet]
  exact ofOctets?_octets bits

end

variable {style : Style}

theorem isSome_value?_of_readOctet? {text : List Char} {octet : BitVec 8}
    (h : readOctet? style text = some octet) : ∀ c ∈ text, (Digits.value? c).isSome := by
  unfold readOctet? at h
  split at h
  · cases h
  · obtain ⟨n, read, -⟩ := Option.bind_eq_some_iff.1 h
    exact Digits.isSome_value?_of_read? read

theorem isSome_value?_or_eq_of_readDotted? {text : List Char} {bits : BitVec 32}
    (h : readDotted? style text = some bits) :
    ∀ c ∈ text, (Digits.value? c).isSome ∨ c = '.' := by
  intro c hc
  obtain ⟨octets, read, -⟩ := Option.bind_eq_some_iff.1 h
  obtain point | ⟨part, hp, hc⟩ := separates_or_mem_fields (· == '.') _ c hc
  · exact .inr (by simpa using point)
  · obtain ⟨octet, readPart⟩ := Option.isSome_iff_exists.1 (isSome_of_mapM read part hp)
    exact .inl (isSome_value?_of_readOctet? readPart c hc)

theorem readGroup?_lowerHex (group : BitVec 16) :
    readGroup? (Digits.lowerHex group.toNat) = some group := by
  have short : (Digits.lowerHex group.toNat).length ≤ 4 :=
    Digits.length_lowerHex_le (by decide) group.isLt
  rw [readGroup?, if_neg (by omega), Digits.read?_lowerHex]
  simp

theorem ofGroups?_groups (bits : BitVec 128) : ofGroups? (groups bits) = some bits := by
  simp (disch := decide) only [groups, ofGroups?,
    BitVec.extractLsb'_append_extractLsb'_eq_extractLsb']
  exact congrArg some BitVec.extractLsb'_eq_self

theorem ne_colon_of_mem_lowerHex {n : Nat} : ∀ c ∈ Digits.lowerHex n, c ≠ ':' := fun c hc =>
  Digits.ne_of_isSome_value? (Digits.isSome_value?_of_mem_lowerHex c hc) (by decide)

@[simp] theorem colons_nil : colons [] = [] := rfl

theorem colons_singleton (group : BitVec 16) : colons [group] = Digits.lowerHex group.toNat :=
  List.intercalate_singleton

theorem colons_cons (group : BitVec 16) {more : List (BitVec 16)} (isMore : more ≠ []) :
    colons (group :: more) = Digits.lowerHex group.toNat ++ ':' :: colons more := by
  have isMore : more.map (fun group => Digits.lowerHex group.toNat) ≠ [] := by simpa using isMore
  rw [colons, List.map_cons, List.intercalate_cons_of_ne_nil isMore, List.append_assoc]
  rfl

theorem exists_colons_eq_cons {all : List (BitVec 16)} (isSome : all ≠ []) :
    ∃ c rest, colons all = c :: rest ∧ c ≠ ':' := by
  obtain ⟨group, more, rfl⟩ := List.exists_cons_of_ne_nil isSome
  obtain ⟨c, rest, digits⟩ := List.exists_cons_of_ne_nil (Digits.lowerHex_ne_nil group.toNat)
  have first : c ≠ ':' := ne_colon_of_mem_lowerHex c (by rw [digits]; exact List.mem_cons_self)
  by_cases isMore : more = []
  · subst isMore
    exact ⟨c, rest, by rw [colons_singleton, digits], first⟩
  · exact ⟨c, rest ++ ':' :: colons more, by rw [colons_cons group isMore, digits]; rfl, first⟩

theorem fields_colons {all : List (BitVec 16)} (isSome : all ≠ []) :
    fields (· == ':') (colons all) = all.map fun group => Digits.lowerHex group.toNat := by
  refine fields_intercalate (by simpa using isSome) (fun part hp c hc => ?_) rfl
  obtain ⟨group, -, rfl⟩ := List.mem_map.1 hp
  simpa using ne_colon_of_mem_lowerHex c hc

theorem readGroups?_colons (tail : Bool) (all : List (BitVec 16)) :
    readGroups? style tail (colons all) = some all := by
  by_cases isSome : all = []
  · subst isSome
    rfl
  · obtain ⟨c, rest, text, -⟩ := exists_colons_eq_cons isSome
    have isText : (colons all).isEmpty = false := by rw [text]; rfl
    rw [readGroups?, isText, fields_colons isSome]
    simp only [mapM_map_eq_some fun group _ => readGroup?_lowerHex group, Bool.false_eq_true,
      if_false]

theorem cutAtGap?_append_of_plain {part : List Char} (plain : ∀ c ∈ part, c ≠ ':')
    (rest : List Char) :
    cutAtGap? (part ++ rest) =
      (cutAtGap? rest).map fun (before, behind) => (part ++ before, behind) := by
  induction part with
  | nil => simp
  | cons c part ih =>
    obtain ⟨first, others⟩ := List.forall_mem_cons.1 plain
    rw [List.cons_append, cutAtGap?.eq_2 _ _ fun _ colon _ => first colon, ih others,
      Option.map_map]
    rfl

theorem cutAtGap?_colon {text : List Char} (next : ∀ c ∈ text.head?, c ≠ ':') :
    cutAtGap? (':' :: text) =
      (cutAtGap? text).map fun (before, behind) => (':' :: before, behind) := by
  refine cutAtGap?.eq_2 _ _ fun rest _ colon => ?_
  subst colon
  exact next ':' rfl rfl

theorem cutAtGap?_colons_append (all : List (BitVec 16)) (tail : List Char) :
    cutAtGap? (colons all ++ tail) =
      (cutAtGap? tail).map fun (before, behind) => (colons all ++ before, behind) := by
  induction all with
  | nil => simp
  | cons group more ih =>
    by_cases isMore : more = []
    · subst isMore
      rw [colons_singleton]
      exact cutAtGap?_append_of_plain ne_colon_of_mem_lowerHex tail
    · obtain ⟨c, rest, text, first⟩ := exists_colons_eq_cons isMore
      have next : ∀ d ∈ (colons more ++ tail).head?, d ≠ ':' := by
        rw [text]
        rintro d ⟨⟩
        exact first
      rw [colons_cons group isMore, List.append_assoc, List.cons_append,
        cutAtGap?_append_of_plain ne_colon_of_mem_lowerHex, cutAtGap?_colon next, ih,
        Option.map_map, Option.map_map]
      refine congrArg (Option.map · (cutAtGap? tail)) (funext fun _ => ?_)
      simp

def IsZeroRun (all : List (BitVec 16)) (run : Nat × Nat) : Prop :=
  (all.drop run.1).take run.2 = List.replicate run.2 0

theorem isZeroRun_longestZeroRun (all : List (BitVec 16)) :
    IsZeroRun all (longestZeroRun all) := by
  refine List.foldlRecOn _ _ rfl fun best run first _ => ?_
  dsimp only
  split
  · have isFront := List.takeWhile_prefix (l := all.drop first) (· == 0)
    rw [IsZeroRun, ← List.prefix_iff_eq_take.1 isFront, List.eq_replicate_iff]
    exact ⟨rfl, fun group hg => by simpa using of_mem_takeWhile group hg⟩
  · exact run

theorem IsZeroRun.split {all : List (BitVec 16)} {first length : Nat}
    (run : IsZeroRun all (first, length)) :
    all.take first ++ List.replicate length 0 ++ all.drop (first + length) = all := by
  rw [← run, List.append_assoc, ← List.drop_drop, List.take_append_drop, List.take_append_drop]

theorem length_groups (bits : BitVec 128) : (groups bits).length = 8 := rfl

theorem readColons?_of_run {bits : BitVec 128} {first length : Nat}
    (run : IsZeroRun (groups bits) (first, length)) (long : 1 < length) :
    readColons? style (colons ((groups bits).take first) ++ [':', ':'] ++
      colons ((groups bits).drop (first + length))) = some bits := by
  have whole := run.split
  have eight := congrArg List.length whole
  simp only [List.length_append, List.length_replicate, length_groups] at eight
  have cut : cutAtGap? (colons ((groups bits).take first) ++ [':', ':'] ++
      colons ((groups bits).drop (first + length))) =
      some (colons ((groups bits).take first), colons ((groups bits).drop (first + length))) := by
    rw [List.append_assoc, cutAtGap?_colons_append]
    simp [cutAtGap?]
  rw [readColons?, cut]
  simp only [readGroups?_colons, Option.bind_eq_bind, Option.bind_some]
  rw [if_pos (by omega), show 8 - _ = length by omega, whole]
  exact ofGroups?_groups bits

theorem extractLsb'_extractLsb' {width start length start' length' : Nat} (bits : BitVec width)
    (h : start' + length' ≤ length) :
    (bits.extractLsb' start length).extractLsb' start' length' =
      bits.extractLsb' (start + start') length' := by
  refine BitVec.eq_of_getLsbD_eq fun i hi => ?_
  have inside : start' + i < length := by omega
  simp only [BitVec.getLsbD_extractLsb', hi, inside, decide_true, Bool.true_and, Nat.add_assoc]

theorem groups_of_mapped {bits : BitVec 128} (isMapped : bits.extractLsb' 32 96 = 0xffff) :
    groups bits = List.replicate 5 0 ++ [0xffff, (bits.extractLsb' 0 32).extractLsb' 16 16,
      (bits.extractLsb' 0 32).extractLsb' 0 16] := by
  have front (start : Nat) (h : start + 16 ≤ 96) :
      bits.extractLsb' (32 + start) 16 = (0xffff : BitVec 96).extractLsb' start 16 := by
    rw [← extractLsb'_extractLsb' bits h, isMapped]
  rw [extractLsb'_extractLsb' bits (by decide), extractLsb'_extractLsb' bits (by decide), groups,
    front 80 (by decide), front 64 (by decide), front 48 (by decide), front 32 (by decide),
    front 16 (by decide), front 0 (by decide)]
  rfl

theorem seven_le_length_dotted (bits : BitVec 32) : 7 ≤ (dotted bits).length := by
  have isSome (octet : BitVec 8) : 0 < (Digits.decimal octet.toNat).length :=
    List.length_pos_iff.2 (Digits.decimal_ne_nil _)
  have h1 := isSome (bits.extractLsb' 24 8)
  have h2 := isSome (bits.extractLsb' 16 8)
  have h3 := isSome (bits.extractLsb' 8 8)
  have h4 := isSome (bits.extractLsb' 0 8)
  simp only [dotted, octets, List.map_cons, List.map_nil, List.intercalate_cons_cons,
    List.intercalate_singleton, List.length_append, List.length_cons, List.length_nil]
  omega

theorem ne_colon_of_mem_dotted {bits : BitVec 32} : ∀ c ∈ dotted bits, c ≠ ':' := by
  intro c hc
  obtain digit | rfl :=
    isSome_value?_or_eq_of_readDotted? (readDotted?_dotted .strict bits) c hc
  · exact Digits.ne_of_isSome_value? digit (by decide)
  · decide

theorem readGroups?_of_mapped (bits : BitVec 32) :
    readGroups? style true ("ffff:".toList ++ dotted bits) =
      some [0xffff, bits.extractLsb' 16 16, bits.extractLsb' 0 16] := by
  have parts : fields (· == ':') ("ffff:".toList ++ dotted bits) =
      [['f', 'f', 'f', 'f'], dotted bits] := by
    have plain : ∀ c ∈ dotted bits, ¬(c == ':') = true := fun c hc => by
      simpa using ne_colon_of_mem_dotted c hc
    rw [show "ffff:".toList = ['f', 'f', 'f', 'f'] ++ [':'] from rfl, List.append_assoc,
      List.singleton_append, fields_append_cons (by simp) rfl, fields_of_plain plain]
  have noGroup : readGroup? (dotted bits) = none := by
    have := seven_le_length_dotted bits
    rw [readGroup?, if_pos (by omega)]
  have group : readGroup? ['f', 'f', 'f', 'f'] = some 0xffff := by decide
  rw [readGroups?, if_neg (by simp), parts]
  simp [group, noGroup, readDotted?_dotted]

theorem readColons?_of_mapped {bits : BitVec 128} (isMapped : bits.extractLsb' 32 96 = 0xffff) :
    readColons? style ("::ffff:".toList ++ dotted (bits.extractLsb' 0 32)) = some bits := by
  have cut : cutAtGap? ("::ffff:".toList ++ dotted (bits.extractLsb' 0 32)) =
      some ([], "ffff:".toList ++ dotted (bits.extractLsb' 0 32)) := rfl
  have noneInFront : readGroups? style false [] = some [] := rfl
  have five : 5 = 8 - (0 + 3) := rfl
  have whole := ofGroups?_groups bits
  rw [groups_of_mapped isMapped, five] at whole
  rw [readColons?, cut]
  simp only [noneInFront, readGroups?_of_mapped, Option.bind_eq_bind, Option.bind_some]
  rw [if_pos (.inl (by simp))]
  exact whole

theorem readColons?_writeColons (bits : BitVec 128) :
    readColons? style (writeColons bits) = some bits := by
  have run := isZeroRun_longestZeroRun (groups bits)
  unfold writeColons
  split
  · next isMapped => exact readColons?_of_mapped isMapped
  · obtain ⟨first, length⟩ := longestZeroRun (groups bits)
    dsimp only
    split
    · next long => exact readColons?_of_run run long
    · have noGap := cutAtGap?_colons_append (groups bits) []
      rw [List.append_nil] at noGap
      rw [readColons?, noGap]
      simp [cutAtGap?, readGroups?_colons, ofGroups?_groups]

theorem readDotted?_writeColons (bits : BitVec 128) :
    readDotted? style (writeColons bits) = none := by
  have colon : ':' ∈ writeColons bits := by
    unfold writeColons
    split
    · simp
    · dsimp only
      split
      · simp
      · rw [groups, colons_cons _ (List.cons_ne_nil _ _)]
        simp
  cases read : readDotted? style (writeColons bits) with
  | none => rfl
  | some short => exact absurd (isSome_value?_or_eq_of_readDotted? read ':' colon) (by decide)

theorem isAddressChar_of_mem_dotted {bits : BitVec 32} :
    ∀ c ∈ dotted bits, isAddressChar c = true := fun c hc => isAddressChar_iff.2 <|
  (isSome_value?_or_eq_of_readDotted? (readDotted?_dotted .strict bits) c hc).imp_right .inl

theorem isAddressChar_of_mem_colons {all : List (BitVec 16)} :
    ∀ c ∈ colons all, isAddressChar c = true := by
  intro c hc
  rw [isAddressChar_iff]
  by_cases isSome : all = []
  · subst isSome
    cases hc
  · obtain colon | ⟨part, hp, hc⟩ := separates_or_mem_fields (· == ':') _ c hc
    · exact .inr (.inr (by simpa using colon))
    · rw [fields_colons isSome] at hp
      obtain ⟨group, -, rfl⟩ := List.mem_map.1 hp
      exact .inl (Digits.isSome_value?_of_mem_lowerHex c hc)

theorem isAddressChar_of_mem_chars {address : Address} :
    ∀ c ∈ address.chars, isAddressChar c = true := by
  cases address with
  | v4 bits => exact isAddressChar_of_mem_dotted
  | v6 bits =>
    rw [chars, writeColons]
    split
    · exact List.forall_mem_append.2 ⟨List.all_eq_true.1 rfl, isAddressChar_of_mem_dotted⟩
    · dsimp only
      split
      · exact List.forall_mem_append.2 ⟨List.forall_mem_append.2
          ⟨isAddressChar_of_mem_colons, List.all_eq_true.1 rfl⟩, isAddressChar_of_mem_colons⟩
      · exact isAddressChar_of_mem_colons

theorem ofText?_text (address : Address) : ofText? address.text = some address := by
  rw [ofText?, text, String.toList_ofList]
  cases address with
  | v4 bits => simp only [chars, readDotted?_dotted]
  | v6 bits => simp only [chars, readDotted?_writeColons, readColons?_writeColons, Option.map_some]

end Address
end VpnAuthority
