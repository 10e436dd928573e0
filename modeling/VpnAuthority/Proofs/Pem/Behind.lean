import VpnAuthority.Proofs.Pem

/-! A block that is found in a text is found in every text that goes on behind it: reading
ends where the block does. -/
namespace VpnAuthority.Pem

theorem lineLength_append_of_le {text : Bytes} (h : lineLength text ≤ text.length)
    (behind : Bytes) : lineLength (text ++ behind) = lineLength text := by
  unfold lineLength at h ⊢
  rw [List.takeWhile_append]
  split
  · next isUnbroken =>
    rw [List.length_append]
    omega
  · rfl

theorem lineLength_append_lineFeed {text : Bytes} (h : text.length < lineLength text)
    (behind : Bytes) : lineLength (text ++ lineFeed :: behind) = text.length + 1 := by
  have front := (List.takeWhile_sublist (· ≠ lineFeed) (l := text)).length_le
  unfold lineLength at h ⊢
  rw [List.takeWhile_append, if_pos (by omega), List.takeWhile_cons_of_neg (by simp),
    List.append_nil]
  omega

theorem not_mem_of_lt_lineLength {text : Bytes} (h : text.length < lineLength text) :
    lineFeed ∉ text := by
  have front := (List.takeWhile_sublist (· ≠ lineFeed) (l := text)).length_le
  have whole : (text.takeWhile (· ≠ lineFeed)).length = text.length := by
    unfold lineLength at h
    omega
  intro member
  have := List.mem_takeWhile_imp
    ((List.takeWhile_sublist _).eq_of_length whole ▸ member : lineFeed ∈ text.takeWhile _)
  simp at this

theorem trimEnd_append_singleton {b : UInt8} (h : isTrailing b = true) (text : Bytes) :
    trimEnd (text ++ [b]) = trimEnd text := by
  rw [trimEnd, List.reverse_append, List.reverse_singleton, List.singleton_append,
    List.dropWhile_cons_of_pos h, trimEnd]

@[simp] theorem readLines_nil : readLines [] = [] := by rw [readLines, if_pos List.isEmpty_nil]

theorem exists_readLines_append {text behind : Bytes}
    (h : text = [] ∨ text.getLast? = some lineFeed ∨ behind.head? = some lineFeed) :
    ∃ more, readLines (text ++ behind) = readLines text ++ more := by
  induction text using readLines.induct with
  | case1 text isNil =>
    rw [List.isEmpty_iff.1 isNil, readLines_nil]
    exact ⟨readLines behind, rfl⟩
  | case2 text isSome ih =>
    have isSome' : ¬(text ++ behind).isEmpty = true := by
      simpa using fun he => absurd (List.isEmpty_iff.2 he) isSome
    rw [readLines, if_neg isSome', readLines.eq_def text, if_neg isSome]
    by_cases whole : lineLength text ≤ text.length
    · have isEnded : text.drop (lineLength text) = [] ∨
          (text.drop (lineLength text)).getLast? = some lineFeed ∨
            behind.head? = some lineFeed := by
        rw [List.getLast?_drop]
        split
        · next none => exact .inl (List.drop_eq_nil_of_le none)
        · exact h.imp_left fun he => absurd (List.isEmpty_iff.2 he) isSome
      obtain ⟨more, same⟩ := ih isEnded
      refine ⟨more, ?_⟩
      rw [lineLength_append_of_le whole, List.take_append_of_le_length whole,
        List.drop_append_of_le_length whole, same]
      rfl
    · rw [not_le] at whole
      obtain ⟨rest, rfl⟩ : ∃ rest, behind = lineFeed :: rest := by
        rcases h with isNil | ended | begins
        · exact absurd (List.isEmpty_iff.2 isNil) isSome
        · exact absurd (List.mem_of_getLast? ended) (not_mem_of_lt_lineLength whole)
        · exact List.head?_eq_some_iff.1 begins
      have short : text.length < maxLineLength := by
        have : lineLength text ≤ maxLineLength := Nat.min_le_left _ _
        omega
      have single : text ++ lineFeed :: rest = (text ++ [lineFeed]) ++ rest := by simp
      refine ⟨readLines rest, ?_⟩
      dsimp only
      rw [lineLength_append_lineFeed whole, single, List.take_left' (by simp),
        List.drop_left' (by simp), trimEnd_append_singleton (by decide),
        List.take_of_length_le whole.le, List.drop_eq_nil_of_le whole.le, readLines_nil,
        List.getLast?_concat, bne_self_eq_false, Bool.and_false, beq_eq_false_iff_ne.2 short.ne,
        Bool.false_and]
      rfl

theorem readBody_append {label : Bytes} {progress : Progress} {lines rest : List Line}
    {block : Block} (h : readBody label progress lines = some (block, rest)) (more : List Line) :
    readBody label progress (lines ++ more) = some (block, rest ++ more) := by
  induction lines generalizing progress with
  | nil => simp [readBody] at h
  | cons line others ih =>
    rw [List.cons_append]
    simp only [readBody] at h ⊢
    -- What the line says about the part that it is in is the same with more lines behind it.
    generalize (if progress.part = .unknown ∧ line.octets.contains 58 = true then Part.header
      else progress.part) = part at h ⊢
    split_ifs at h ⊢
    · exact ih h
    · exact ih h
    · obtain ⟨found, finished, same⟩ := Option.map_eq_some_iff.1 h
      cases same
      rw [finished, Option.map_some]
    · exact ih h
    · exact ih h

theorem findFrom_cons (wanted : Bytes → Bool) (atStart : Bool) (line : Line) (rest : List Line) :
    findFrom wanted atStart (line :: rest) =
      match beginLabel? (if atStart ∧ byteOrderMark.isPrefixOf line.octets then line.octets.drop 3
        else line.octets) with
      | none => findFrom wanted false rest
      | some label => (readBody label .start rest).bind fun (block, rest) =>
          if wanted block.label then some block else findFrom wanted true rest := by
  rw [findFrom]
  dsimp only
  split
  · next isNone => rw [isNone]
  · next label isSome =>
    rw [isSome]
    dsimp only
    split
    · next unread => rw [unread, Option.bind_none]
    · next read => rw [read, Option.bind_some]

theorem findFrom_append {wanted : Bytes → Bool} {atStart : Bool} {lines : List Line}
    {block : Block} (h : findFrom wanted atStart lines = some block) (more : List Line) :
    findFrom wanted atStart (lines ++ more) = some block := by
  -- A block that is passed over takes several lines at once, so the induction is on their number.
  induction hn : lines.length using Nat.strong_induction_on generalizing atStart lines with
  | _ n ih =>
    cases lines with
    | nil => simp [findFrom] at h
    | cons line others =>
      rw [List.length_cons] at hn
      rw [findFrom_cons] at h
      rw [List.cons_append, findFrom_cons]
      split at h
      · exact ih others.length (by omega) h rfl
      · obtain ⟨⟨found, rest⟩, read, h⟩ := Option.bind_eq_some_iff.1 h
        have shorter := length_le_of_readBody read
        dsimp only at h ⊢
        rw [readBody_append read more, Option.bind_some]
        split at h
        · next isWanted =>
          rw [if_pos isWanted]
          exact h
        · next isOther =>
          rw [if_neg isOther]
          exact ih rest.length (by omega) h rfl

/-- Behind the end of its last line, a text may go on as it likes. -/
theorem find?_append {wanted : Bytes → Bool} {text behind : Bytes} {block : Block}
    (h : find? wanted text = some block)
    (apart : text.getLast? = some lineFeed ∨ behind.head? = some lineFeed) :
    find? wanted (text ++ behind) = some block := by
  obtain ⟨more, same⟩ := exists_readLines_append (.inr apart)
  rw [find?, same]
  exact findFrom_append h more

theorem getLast?_encode (label content : Bytes) :
    (encode label content).getLast? = some lineFeed := by
  simp [encode, encodeWith, List.getLast?_append, List.getLast?_cons]

end VpnAuthority.Pem
