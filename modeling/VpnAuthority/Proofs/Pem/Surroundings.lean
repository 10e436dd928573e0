import VpnAuthority.Proofs.Pem.Behind

/-! What the text around a block has to do with it: the label and the header of a block are
lines of the text, and lines in front of it that begin no block are passed over. -/
namespace VpnAuthority.Pem

variable {text : Bytes} {wanted : Bytes → Bool} {block : Block}

theorem isPrefix_trimEnd (text : Bytes) : trimEnd text <+: text := by
  have := List.reverse_prefix.2 (List.dropWhile_suffix isTrailing (l := text.reverse))
  rwa [List.reverse_reverse] at this

theorem infix_of_mem_readLines {line : Line} (h : line ∈ readLines text) :
    line.octets <:+: text := by
  induction text using readLines.induct with
  | case1 text isNil =>
    rw [readLines, if_pos isNil] at h
    cases h
  | case2 text isSome ih =>
    rw [readLines, if_neg isSome] at h
    rcases List.mem_cons.1 h with rfl | h
    · exact ((isPrefix_trimEnd _).trans (List.take_prefix _ _)).isInfix
    · exact (ih h).trans (List.drop_suffix _ _).isInfix

theorem suffix_of_readBody {label : Bytes} {progress : Progress} {lines rest : List Line}
    (h : readBody label progress lines = some (block, rest)) : rest <:+ lines := by
  induction lines generalizing progress with
  | nil => simp [readBody] at h
  | cons line others ih =>
    have onward {next : Progress} (h : readBody label next others = some (block, rest)) :
        rest <:+ line :: others :=
      (ih h).trans (List.suffix_cons _ _)
    simp only [readBody] at h
    generalize (if progress.part = .unknown ∧ line.octets.contains 58 = true then Part.header
      else progress.part) = part at h
    split_ifs at h
    · exact onward h
    · exact onward h
    · obtain ⟨found, -, same⟩ := Option.map_eq_some_iff.1 h
      cases same
      exact List.suffix_cons _ _
    · exact onward h
    · exact onward h

/-- What a header may be that was read from some lines: nothing, or some of them behind what
was read before. -/
def IsHeaderFrom (front : Bytes) (lines : List Line) (header : Bytes) : Prop :=
  header = [] ∨ ∃ headed : List Line, headed ⊆ lines ∧
    header = front ++ (headed.map fun line => written line.octets).flatten

theorem IsHeaderFrom.mono {front header : Bytes} {lines others : List Line}
    (h : IsHeaderFrom front lines header) (within : lines ⊆ others) :
    IsHeaderFrom front others header :=
  h.imp_right fun ⟨headed, isMember, same⟩ => ⟨headed, List.Subset.trans isMember within, same⟩

theorem header_of_readBody {label : Bytes} {progress : Progress} {lines rest : List Line}
    (h : readBody label progress lines = some (block, rest)) :
    block.label = label ∧ IsHeaderFrom progress.front.reverse.flatten lines block.header := by
  induction lines generalizing progress with
  | nil => simp [readBody] at h
  | cons line others ih =>
    have onward {next : Progress} (same : next.front = progress.front)
        (h : readBody label next others = some (block, rest)) :
        block.label = label ∧
          IsHeaderFrom progress.front.reverse.flatten (line :: others) block.header :=
      (ih h).imp_right fun header => same ▸ header.mono (List.subset_cons_self _ _)
    simp only [readBody] at h
    generalize (if progress.part = .unknown ∧ line.octets.contains 58 = true then Part.header
      else progress.part) = part at h
    split_ifs at h
    · exact onward (by exact rfl) h
    · exact onward (by exact rfl) h
    · obtain ⟨found, finished, same⟩ := Option.map_eq_some_iff.1 h
      cases same
      simp only [Progress.finish?] at finished
      split at finished
      · cases finished
      · cases finished
      · cases finished
        refine ⟨rfl, ?_⟩
        dsimp only
        split_ifs
        · exact .inl rfl
        · exact .inr ⟨[], List.nil_subset _, by simp⟩
    · exact onward (by exact rfl) h
    · refine (ih h).imp_right (.imp_right ?_)
      rintro ⟨headed, isBehind, header⟩
      exact ⟨line :: headed, List.cons_subset_cons _ isBehind, by simp [header]⟩

/-- The lines that a block is read from: one of them has its label, perhaps behind a byte order
mark, and its header is made of others. -/
structure Block.IsFrom (block : Block) (lines : List Line) : Prop where
  label : ∃ line ∈ lines, ∃ octets, octets <:+ line.octets ∧
    beginLabel? octets = some block.label
  header : IsHeaderFrom [] lines block.header

theorem Block.IsFrom.mono {lines others : List Line} (h : block.IsFrom lines)
    (within : lines ⊆ others) : block.IsFrom others := by
  obtain ⟨⟨line, isMember, begins⟩, header⟩ := h
  exact ⟨⟨line, within isMember, begins⟩, header.mono within⟩

theorem isFrom_of_findFrom {atStart : Bool} {lines : List Line}
    (h : findFrom wanted atStart lines = some block) : block.IsFrom lines := by
  fun_induction findFrom wanted atStart lines with
  | case1 => cases h
  | case2 atStart line rest octets noLabel ih => exact (ih h).mono (List.subset_cons_self _ _)
  | case3 => cases h
  | case4 atStart line rest octets label begins found behind read isWanted =>
    cases h
    obtain ⟨rfl, header⟩ := header_of_readBody read
    have isEnd : octets <:+ line.octets := by
      unfold octets
      split
      · exact List.drop_suffix _ _
      · exact List.suffix_rfl
    exact ⟨⟨line, List.mem_cons_self, octets, isEnd, begins⟩,
      header.mono (List.subset_cons_self _ _)⟩
  | case5 atStart line rest octets label begins found behind read isOther ih =>
    exact (ih h).mono
      (List.Subset.trans (suffix_of_readBody read).subset (List.subset_cons_self _ _))

theorem isFrom_of_find? (h : find? wanted text = some block) : block.IsFrom (readLines text) :=
  isFrom_of_findFrom h

theorem findFrom_of_unmarked {lines : List Line}
    (unmarked : ∀ line ∈ lines.head?, ¬byteOrderMark <+: line.octets) (atStart : Bool) :
    findFrom wanted atStart lines = findFrom wanted true lines := by
  cases lines with
  | nil => rw [findFrom, findFrom]
  | cons line rest =>
    have plain : ¬byteOrderMark.isPrefixOf line.octets = true := by
      rw [List.isPrefixOf_iff_prefix]
      exact unmarked line rfl
    rw [findFrom_cons, findFrom_cons, if_neg (fun h => plain h.2), if_neg (fun h => plain h.2)]

/-- What is found in a text is found behind notes, unless the text begins with a mark that only
stands at the start. -/
theorem find?_notes_append {notes : List Bytes} (h : ∀ line ∈ notes, IsNote line)
    (unmarked : ¬byteOrderMark <+: text) :
    find? wanted (joined notes ++ text) = find? wanted text := by
  have first : ∀ line ∈ (readLines text).head?, ¬byteOrderMark <+: line.octets := by
    intro line isFirst isMarked
    rw [readLines] at isFirst
    split at isFirst
    · cases isFirst
    · cases isFirst
      exact unmarked ((isMarked.trans (isPrefix_trimEnd _)).trans (List.take_prefix _ _))
  obtain ⟨atStart, same⟩ := findFrom_notes h (readLines text) true
  rw [find?, readLines_joined_append (fun line hm => (h line hm).toIsLine), same,
    findFrom_of_unmarked first, find?]

end VpnAuthority.Pem
