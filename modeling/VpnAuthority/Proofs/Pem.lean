import VpnAuthority.Pem
import VpnAuthority.Proofs.Base64
import VpnAuthority.Proofs.Text.Span
import VpnAuthority.Proofs.Text.Utf8

/-! A block that was written is found again, with its header and its octets. -/
namespace VpnAuthority.Pem

structure IsLine (line : Bytes) : Prop where
  isUnbroken : lineFeed ∉ line
  fits : line.length < maxLineLength
  isTrimmed : ∀ b ∈ line.getLast?, isTrailing b = false

def joined (lines : List Bytes) : Bytes := lines.flatMap (· ++ [lineFeed])

@[simp] theorem joined_nil : joined [] = [] := rfl

@[simp] theorem joined_cons (line : Bytes) (lines : List Bytes) :
    joined (line :: lines) = line ++ lineFeed :: joined lines := by
  simp [joined]

theorem joined_append (a b : List Bytes) : joined (a ++ b) = joined a ++ joined b :=
  List.flatMap_append

private theorem trimEnd_append_lineFeed {line : Bytes} (h : IsLine line) :
    trimEnd (line ++ [lineFeed]) = line := by
  have stops : ∀ b ∈ line.reverse.head?, ¬isTrailing b = true := fun b hb => by
    rw [List.head?_reverse] at hb
    simp [h.isTrimmed b hb]
  have isEnd : ∀ b ∈ [lineFeed], isTrailing b = true := by decide +kernel
  have := dropWhile_append_of_stop isEnd stops
  rw [List.singleton_append] at this
  rw [trimEnd, List.reverse_append, List.reverse_singleton, List.singleton_append, this,
    List.reverse_reverse]

private theorem lineLength_append {line rest : Bytes} (h : IsLine line) :
    lineLength (line ++ lineFeed :: rest) = line.length + 1 := by
  have holds : ∀ b ∈ line, decide (b ≠ lineFeed) = true := fun b hb => by
    rw [decide_eq_true_eq]
    rintro rfl
    exact h.isUnbroken hb
  have := h.fits
  rw [lineLength, takeWhile_append_of_stop holds (by simp)]
  omega

theorem readLines_joined_append {lines : List Bytes} (h : ∀ line ∈ lines, IsLine line)
    (behind : Bytes) :
    readLines (joined lines ++ behind) = lines.map (⟨·, false⟩) ++ readLines behind := by
  induction lines with
  | nil => rfl
  | cons line rest ih =>
    have isLine := h line List.mem_cons_self
    have split : joined (line :: rest) ++ behind =
        line ++ lineFeed :: (joined rest ++ behind) := by simp
    have single : line ++ lineFeed :: (joined rest ++ behind) =
        (line ++ [lineFeed]) ++ (joined rest ++ behind) := by simp
    have taken : (line ++ lineFeed :: (joined rest ++ behind)).take (line.length + 1) =
        line ++ [lineFeed] := by
      rw [single, List.take_left' (by simp)]
    have dropped : (line ++ lineFeed :: (joined rest ++ behind)).drop (line.length + 1) =
        joined rest ++ behind := by
      rw [single, List.drop_left' (by simp)]
    rw [split, readLines, if_neg (by simp), lineLength_append isLine]
    dsimp only
    rw [taken, dropped, trimEnd_append_lineFeed isLine,
      ih fun line hl => h line (List.mem_cons_of_mem _ hl)]
    simp

inductive IsWrapped : List Bytes → Prop
  | nil : IsWrapped []
  | last {row : Bytes} (isSome : row ≠ []) (fits : row.length ≤ columns) : IsWrapped [row]
  | full {row : Bytes} {rows : List Bytes} (isFull : row.length = columns)
      (more : IsWrapped rows) : IsWrapped (row :: rows)

theorem exists_wrap_eq (text : Bytes) :
    ∃ rows, wrap text = joined rows ∧ rows.flatten = text ∧ IsWrapped rows := by
  fun_induction wrap text with
  | case1 text h => exact ⟨[], rfl, (List.isEmpty_iff.1 h).symm, .nil⟩
  | case2 text h ih =>
    obtain ⟨rows, same, whole, wrapped⟩ := ih
    refine ⟨text.take columns :: rows, ?_, ?_, ?_⟩
    · rw [joined_cons, same]
    · rw [List.flatten_cons, whole, List.take_append_drop]
    · by_cases long : columns ≤ text.length
      · exact .full (List.length_take_of_le long) wrapped
      · have : text.drop columns = [] := List.drop_eq_nil_of_le (by omega)
        rw [this] at whole
        have isNil : rows = [] := by
          cases wrapped with
          | nil => rfl
          | last isSome => simp_all
          | full isFull =>
            simp only [List.flatten_cons, List.append_eq_nil_iff] at whole
            rw [whole.1] at isFull
            cases isFull
        rw [isNil]
        refine .last ?_ (List.length_take_le _ _)
        rw [List.take_of_length_le (by omega)]
        exact fun he => h (by simp [he])

theorem IsWrapped.mem {rows : List Bytes} (h : IsWrapped rows) :
    ∀ row ∈ rows, row ≠ [] ∧ row.length ≤ columns := by
  induction h with
  | nil => simp
  | last isSome fits => simpa using ⟨isSome, fits⟩
  | full isFull more ih =>
    refine List.forall_mem_cons.2 ⟨⟨?_, isFull.le⟩, ih⟩
    rintro rfl
    cases isFull

/-- What stands in the header of a block: neither an empty line nor one that ends it. -/
structure IsHeaderLine (line : Bytes) : Prop extends IsLine line where
  isSome : line ≠ []
  goesOn : endMark.isPrefixOf line = false
  hasText : line.contains 0 = false

def IsPlainRow (row : Bytes) : Prop := ∀ b ∈ row, Base64.IsPlain b

private theorem isPlainRow_iff_contains {row : Bytes} {b : UInt8} (h : IsPlainRow row)
    (hb : ¬Base64.IsPlain b) : row.contains b = false := by
  rw [← Bool.not_eq_true, List.contains_iff_mem]
  exact fun hm => hb (h b hm)

theorem IsPlainRow.isHeaderLine {row : Bytes} (h : IsPlainRow row) (isSome : row ≠ [])
    (fits : row.length ≤ columns) : IsHeaderLine row where
  isUnbroken := fun hm => by
    obtain ⟨low, -⟩ := h _ hm
    exact absurd low (by decide)
  fits := by
    have : columns < maxLineLength := by decide
    omega
  isTrimmed := fun b hb => by
    obtain ⟨low, high, -⟩ := h b (List.mem_of_mem_getLast? hb)
    simp only [isTrailing, Bool.or_eq_false_iff, decide_eq_false_iff_not, UInt8.not_le]
    exact ⟨UInt8.lt_of_lt_of_le (by decide) low, UInt8.lt_of_le_of_lt high (by decide)⟩
  isSome := isSome
  goesOn := by
    obtain ⟨b, rest, rfl⟩ := List.exists_cons_of_ne_nil isSome
    obtain ⟨-, -, noHyphen, -⟩ := h b List.mem_cons_self
    have : endMark = 45 :: endMark.tail := by decide
    rw [this, List.isPrefixOf_cons_cons, beq_eq_false_iff_ne.2 noHyphen.symm, Bool.false_and]
  hasText := isPlainRow_iff_contains h (by unfold Base64.IsPlain; decide)

private theorem written_of_hasText {line : Bytes} (h : line.contains 0 = false) :
    written line = line ++ [lineFeed] := by
  rw [written, if_neg (by rw [h]; decide)]

/-- The text of some lines, the last first, as `Progress` keeps them. -/
private def kept (lines : List Bytes) : List Bytes := (lines.map (· ++ [lineFeed])).reverse

private theorem kept_cons_append (line : Bytes) (more before : List Bytes) :
    kept more ++ (line ++ [lineFeed]) :: before = kept (line :: more) ++ before := by
  simp [kept]

private theorem flatten_reverse_kept (lines : List Bytes) :
    (kept lines).reverse.flatten = joined lines := by
  simp [kept, joined, List.flatMap]

/-- Lines in front of an empty one are kept; without a colon it stays open what they are. -/
private theorem readBody_front {label : Bytes} {part : Part} {lines : List Bytes}
    {rest : List Line} (h : ∀ line ∈ lines, IsHeaderLine line) (hp : part ≠ .body)
    (hc : part = .unknown → ∀ line ∈ lines, line.contains 58 = false) (front : List Bytes) :
    readBody label ⟨part, front, [], false, false⟩ (lines.map (⟨·, false⟩) ++ rest) =
      readBody label ⟨part, kept lines ++ front, [], false, false⟩ rest := by
  induction lines generalizing front with
  | nil => rfl
  | cons line more ih =>
    obtain ⟨-, isSome, goesOn, hasText⟩ := h line List.mem_cons_self
    have stays : (part = .unknown ∧ line.contains 58 = true) = False := by
      refine eq_false fun ⟨hu, hm⟩ => ?_
      rw [hc hu line List.mem_cons_self] at hm
      cases hm
    rw [List.map_cons, List.cons_append, readBody]
    simp only [List.isEmpty_iff, isSome, goesOn, if_false, Bool.false_eq_true, stays, hp,
      written_of_hasText hasText]
    rw [ih (fun line hl => h line (List.mem_cons_of_mem _ hl))
      fun hu line hl => hc hu line (List.mem_cons_of_mem _ hl), kept_cons_append]

private theorem readBody_colon {label line : Bytes} {rest : List Line} (h : IsHeaderLine line)
    (hc : line.contains 58 = true) :
    readBody label .start (⟨line, false⟩ :: rest) =
      readBody label ⟨.header, kept [line], [], false, false⟩ rest := by
  obtain ⟨-, isSome, goesOn, hasText⟩ := h
  rw [readBody]
  simp only [Progress.start, List.isEmpty_iff, isSome, goesOn, if_false, Bool.false_eq_true, hc,
    and_self, if_true, reduceCtorEq, written_of_hasText hasText]
  rfl

private theorem readBody_empty {label : Bytes} {rest : List Line} (front : List Bytes) :
    readBody label ⟨.header, front, [], false, false⟩ (⟨[], false⟩ :: rest) =
      readBody label ⟨.body, front, [], false, false⟩ rest := by
  rw [readBody]
  rfl

private theorem readBody_back (label : Bytes) {rows : List Bytes} (rest : List Line)
    (h : ∀ row ∈ rows, IsHeaderLine row) (wrapped : IsWrapped rows) (front back : List Bytes) :
    ∃ wasShort, readBody label ⟨.body, front, back, false, false⟩ (rows.map (⟨·, false⟩) ++ rest) =
      readBody label ⟨.body, front, kept rows ++ back, false, wasShort⟩ rest := by
  induction wrapped generalizing back with
  | nil => exact ⟨false, rfl⟩
  | last isSome fits =>
    next row =>
    obtain ⟨-, isSome, goesOn, hasText⟩ := h row List.mem_cons_self
    refine ⟨row.length < columns, ?_⟩
    rw [List.map_cons, List.cons_append, readBody]
    simp only [List.isEmpty_iff, isSome, goesOn, if_false, Bool.false_eq_true, reduceCtorEq,
      false_and, if_true, Nat.not_lt.2 fits, written_of_hasText hasText]
    rfl
  | full isFull more ih =>
    next row rows =>
    obtain ⟨-, isSome, goesOn, hasText⟩ := h row List.mem_cons_self
    obtain ⟨wasShort, same⟩ := ih (fun row hr => h row (List.mem_cons_of_mem _ hr))
      ((row ++ [lineFeed]) :: back)
    refine ⟨wasShort, ?_⟩
    rw [List.map_cons, List.cons_append, readBody]
    simp only [List.isEmpty_iff, isSome, goesOn, if_false, Bool.false_eq_true, reduceCtorEq,
      false_and, if_true, isFull, lt_irrefl, decide_false, written_of_hasText hasText]
    rw [same, kept_cons_append]

private theorem readBody_end {label : Bytes} {part : Part} {front back : List Bytes}
    {wasCut wasShort : Bool} {rest : List Line} (hp : part ≠ .unknown ∨ label.contains 58 = false) :
    readBody label ⟨part, front, back, wasCut, wasShort⟩
        (⟨endMark ++ label ++ tailMark, false⟩ :: rest) =
      (Progress.finish? ⟨part, front, back, false, wasShort⟩ label).map fun block =>
        (block, rest) := by
  have isEnd : endMark.isPrefixOf (endMark ++ label ++ tailMark) = true := by
    rw [List.isPrefixOf_iff_prefix, List.append_assoc]
    exact List.prefix_append _ _
  have dropped : (endMark ++ label ++ tailMark).drop endMark.length = label ++ tailMark := by
    rw [List.append_assoc, List.drop_left]
  have noColon : (part = .unknown ∧ (endMark ++ label ++ tailMark).contains 58 = true) = False := by
    refine eq_false fun ⟨hu, hm⟩ => ?_
    rcases hp with hp | hp
    · exact hp hu
    · rw [← Bool.not_eq_true, List.contains_iff_mem] at hp
      rw [List.contains_iff_mem, List.append_assoc, List.mem_append, List.mem_append] at hm
      rcases hm with hm | hm | hm
      · exact absurd hm (by decide)
      · exact hp hm
      · exact absurd hm (by decide)
  have isSome : (endMark ++ label ++ tailMark).isEmpty = false := rfl
  rw [readBody]
  simp only [isSome, Bool.false_eq_true, if_false, isEnd, if_true, dropped, noColon]

/-- A label that fits on its lines and is not taken for anything else. -/
structure IsLabel (label : Bytes) : Prop where
  isPlain : ∀ b ∈ label, 32 < b ∧ b < 128 ∨ b = 32
  noColon : label.contains 58 = false
  fits : label.length ≤ 100

private theorem IsLabel.isLine_between {label : Bytes} (h : IsLabel label) (mark : Bytes)
    (fits : mark.length ≤ 100) (isUnbroken : lineFeed ∉ mark) :
    IsLine (mark ++ label ++ tailMark) where
  isUnbroken := by
    simp only [List.mem_append, not_or]
    refine ⟨⟨isUnbroken, fun hm => ?_⟩, by decide⟩
    rcases h.isPlain _ hm with ⟨low, -⟩ | he
    · exact absurd low (by decide)
    · exact absurd he (by decide)
  fits := by
    have : tailMark.length = 5 := by decide
    have := h.fits
    simp only [List.length_append, maxLineLength]
    omega
  isTrimmed := by
    have : tailMark.getLast? = some 45 := by decide
    rw [List.getLast?_append, this]
    rintro b ⟨⟩
    decide

private theorem beginLabel?_of_isLabel {label : Bytes} (h : IsLabel label) :
    beginLabel? (beginMark ++ label ++ tailMark) = some label := by
  have begins : beginMark.isPrefixOf (beginMark ++ label ++ tailMark) = true := by
    rw [List.isPrefixOf_iff_prefix, List.append_assoc]
    exact List.prefix_append _ _
  have ends : tailMark.isSuffixOf (beginMark ++ label ++ tailMark) = true := by
    rw [List.isSuffixOf_iff_suffix]
    exact List.suffix_append _ _
  have noNul : untilNul label = label := List.takeWhile_eq_self_iff.2 fun b hb => by
    rw [decide_eq_true_eq]
    rcases h.isPlain b hb with ⟨low, -⟩ | he
    · rintro rfl
      exact absurd low (by decide)
    · rw [he]
      decide
  have taken : (beginMark ++ label ++ tailMark).take
      ((beginMark ++ label ++ tailMark).length - tailMark.length) = beginMark ++ label :=
    List.take_left' (by simp only [List.length_append]; omega)
  rw [beginLabel?, if_pos ⟨begins, ends⟩, taken, List.drop_left, noNul]

private theorem not_byteOrderMark {label : Bytes} :
    byteOrderMark.isPrefixOf (beginMark ++ label ++ tailMark) = false := by
  have : beginMark = 45 :: beginMark.tail := by decide
  rw [this]
  rfl

section
variable {label content : Bytes} {rows : List Bytes}

private theorem isPlainRow_of_rows (whole : rows.flatten = Base64.encode content) :
    ∀ row ∈ rows, IsPlainRow row := fun row hr b hb =>
  Base64.isPlain_of_mem_encode content b (whole ▸ List.mem_flatten.2 ⟨row, hr, hb⟩)

private theorem decode?_joined (whole : rows.flatten = Base64.encode content) :
    Base64.decode? (joined rows) = some content := by
  refine Base64.decode?_of_filter ?_
  rw [← whole]
  have plain := isPlainRow_of_rows whole
  clear whole
  induction rows with
  | nil => rfl
  | cons row more ih =>
    have same : row.filter (· ≠ 10) = row := List.filter_eq_self.2 fun b hb => by
      rw [decide_eq_true_eq]
      rintro rfl
      obtain ⟨low, -⟩ := plain row List.mem_cons_self _ hb
      exact absurd low (by decide)
    rw [joined_cons, List.filter_append, same, List.filter_cons_of_neg (by decide),
      ih fun row hr => plain row (List.mem_cons_of_mem _ hr), List.flatten_cons]

private theorem readBody_written {lines : List Bytes} (rest : List Line) (hl : IsLabel label)
    (headers : ∀ line ∈ lines, IsHeaderLine line)
    (headed : ∀ line ∈ lines.head?, line.contains 58 = true)
    (whole : rows.flatten = Base64.encode content) (wrapped : IsWrapped rows)
    (isSome : content ≠ []) :
    readBody label .start (((if lines = [] then [] else lines ++ [[]]) ++ rows
        ++ [endMark ++ label ++ tailMark]).map (⟨·, false⟩) ++ rest) =
      some (⟨label, joined lines, content⟩, rest) := by
  have rowLines : ∀ row ∈ rows, IsHeaderLine row := fun row hr =>
    (isPlainRow_of_rows whole row hr).isHeaderLine (wrapped.mem row hr).1 (wrapped.mem row hr).2
  obtain ⟨b, more, rfl⟩ := List.exists_cons_of_ne_nil isSome
  cases lines with
  | nil =>
    have noColon : ∀ row ∈ rows, row.contains 58 = false := fun row hr =>
      isPlainRow_iff_contains (isPlainRow_of_rows whole row hr) (by unfold Base64.IsPlain; decide)
    rw [if_pos rfl, List.nil_append, List.map_append, List.append_assoc, Progress.start,
      readBody_front rowLines (by decide) fun _ => noColon, List.append_nil, List.map_singleton,
      List.singleton_append, readBody_end (.inr hl.noColon)]
    simp only [Progress.finish?, flatten_reverse_kept, if_true, decode?_joined whole]
    rfl
  | cons line others =>
    have isHeader := headers line List.mem_cons_self
    rw [if_neg (by simp)]
    simp only [List.map_append, List.cons_append, List.map_cons, List.append_assoc, List.map_nil,
      List.nil_append]
    rw [readBody_colon isHeader (headed line rfl),
      readBody_front (fun line hl => headers line (List.mem_cons_of_mem _ hl)) (by decide)
        (fun h => by cases h), readBody_empty]
    obtain ⟨wasShort, same⟩ := readBody_back label
      (⟨endMark ++ (label ++ tailMark), false⟩ :: rest) rowLines wrapped
      (kept others ++ kept [line]) []
    rw [same, List.append_nil, ← List.append_assoc, readBody_end (.inl (by decide))]
    have front : kept others ++ kept [line] = kept (line :: others) := by simp [kept]
    simp only [Progress.finish?, front, flatten_reverse_kept, reduceCtorEq, if_false,
      decode?_joined whole]
    rfl

private def blockLines (label : Bytes) (lines rows : List Bytes) : List Bytes :=
  (beginMark ++ label ++ tailMark) :: ((if lines = [] then [] else lines ++ [[]]) ++ rows
    ++ [endMark ++ label ++ tailMark])

private theorem encodeWith_eq_joined (label : Bytes) (lines : List Bytes) (content : Bytes) :
    ∃ rows, encodeWith label (joined lines) content = joined (blockLines label lines rows) ∧
      rows.flatten = Base64.encode content ∧ IsWrapped rows := by
  obtain ⟨rows, same, whole, wrapped⟩ := exists_wrap_eq (Base64.encode content)
  refine ⟨rows, ?_, whole, wrapped⟩
  have isEmpty : (joined lines).isEmpty = lines.isEmpty := by cases lines <;> simp
  rw [encodeWith, same, isEmpty, blockLines]
  cases lines <;> simp [joined_append]

private theorem isLine_of_mem_blockLines {lines : List Bytes} (hl : IsLabel label)
    (headers : ∀ line ∈ lines, IsHeaderLine line) (whole : rows.flatten = Base64.encode content)
    (wrapped : IsWrapped rows) : ∀ line ∈ blockLines label lines rows, IsLine line := by
  have begins := hl.isLine_between beginMark (by decide) (by decide)
  have ends := hl.isLine_between endMark (by decide) (by decide)
  have isEmptyLine : IsLine [] := ⟨by simp, by decide, by simp⟩
  have rowLines : ∀ row ∈ rows, IsLine row := fun row hr =>
    ((isPlainRow_of_rows whole row hr).isHeaderLine (wrapped.mem row hr).1
      (wrapped.mem row hr).2).toIsLine
  refine List.forall_mem_cons.2 ⟨begins, ?_⟩
  intro line hm
  rw [List.mem_append, List.mem_append, List.mem_singleton] at hm
  rcases hm with (hm | hm) | rfl
  · split at hm
    · cases hm
    · rcases List.mem_append.1 hm with hm | hm
      · exact (headers line hm).toIsLine
      · rw [List.mem_singleton.1 hm]
        exact isEmptyLine
  · exact rowLines line hm
  · exact ends

/-- A block in front of other lines is found if its label is wanted, and passed over if not. -/
private theorem findFrom_blockLines {lines : List Bytes} {wanted : Bytes → Bool}
    (atStart : Bool) (rest : List Line) (hl : IsLabel label)
    (headers : ∀ line ∈ lines, IsHeaderLine line)
    (headed : ∀ line ∈ lines.head?, line.contains 58 = true)
    (whole : rows.flatten = Base64.encode content) (wrapped : IsWrapped rows)
    (isSome : content ≠ []) :
    findFrom wanted atStart ((blockLines label lines rows).map (⟨·, false⟩) ++ rest) =
      if wanted label then some ⟨label, joined lines, content⟩ else findFrom wanted true rest := by
  rw [blockLines, List.map_cons, List.cons_append, findFrom]
  simp only [not_byteOrderMark, Bool.false_eq_true, and_false, if_false, beginLabel?_of_isLabel hl]
  have := readBody_written rest hl headers headed whole wrapped isSome
  split
  · next h =>
    rw [this] at h
    cases h
  · next h =>
    rw [this] at h
    cases h
    rfl

end

theorem find?_encodeWith (lines : List Bytes) {wanted : Bytes → Bool} {label content : Bytes}
    (hl : IsLabel label) (headers : ∀ line ∈ lines, IsHeaderLine line)
    (headed : ∀ line ∈ lines.head?, line.contains 58 = true) (isSome : content ≠ []) :
    find? wanted (encodeWith label (joined lines) content) =
      if wanted label then some ⟨label, joined lines, content⟩ else none := by
  obtain ⟨rows, same, whole, wrapped⟩ := encodeWith_eq_joined label lines content
  have isLines := isLine_of_mem_blockLines hl headers whole wrapped
  have read := readLines_joined_append isLines []
  rw [List.append_nil, ← same] at read
  rw [find?, read, findFrom_blockLines true _ hl headers headed whole wrapped isSome, readLines]
  simp [findFrom]

theorem find?_encode {wanted : Bytes → Bool} {label content : Bytes} (hl : IsLabel label)
    (isSome : content ≠ []) :
    find? wanted (encode label content) =
      if wanted label then some ⟨label, [], content⟩ else none :=
  find?_encodeWith [] hl (by simp) (by simp) isSome

/-- A line of text that begins no block, not even behind a byte order mark. -/
structure IsNote (line : Bytes) : Prop extends IsLine line where
  isUnlabelled : beginLabel? line = none
  isUnmarked : byteOrderMark.isPrefixOf line = false

theorem findFrom_notes {notes : List Bytes} {wanted : Bytes → Bool}
    (h : ∀ line ∈ notes, IsNote line) (rest : List Line) (atStart : Bool) :
    ∃ atStart', findFrom wanted atStart (notes.map (⟨·, false⟩) ++ rest) =
      findFrom wanted atStart' rest := by
  induction notes generalizing atStart with
  | nil => exact ⟨atStart, rfl⟩
  | cons line notes ih =>
    obtain ⟨atStart', same⟩ := ih (fun line hl => h line (List.mem_cons_of_mem _ hl)) false
    obtain ⟨-, isUnlabelled, isUnmarked⟩ := h line List.mem_cons_self
    refine ⟨atStart', ?_⟩
    rw [List.map_cons, List.cons_append, findFrom]
    simp only [isUnmarked, Bool.false_eq_true, and_false, if_false, isUnlabelled]
    exact same

theorem find?_amid {notes : List Bytes} {wanted : Bytes → Bool} {label content : Bytes}
    (h : ∀ line ∈ notes, IsNote line) (hl : IsLabel label) (isWanted : wanted label = true)
    (isSome : content ≠ []) (behind : Bytes) :
    find? wanted (joined notes ++ encode label content ++ behind) = some ⟨label, [], content⟩ := by
  obtain ⟨rows, same, whole, wrapped⟩ := encodeWith_eq_joined label [] content
  have isLines : ∀ line ∈ notes ++ blockLines label [] rows, IsLine line :=
    List.forall_mem_append.2 ⟨fun line hm => (h line hm).toIsLine,
      isLine_of_mem_blockLines hl (by simp) whole wrapped⟩
  have read := readLines_joined_append isLines behind
  rw [joined_append, ← same, List.map_append, List.append_assoc (List.map _ notes)] at read
  obtain ⟨atStart, skipped⟩ := findFrom_notes h
    ((blockLines label [] rows).map (⟨·, false⟩) ++ readLines behind) true
  rw [find?, encode, ← joined_nil, read, skipped,
    findFrom_blockLines atStart _ hl (by simp) (by simp) whole wrapped isSome, if_pos isWanted]

theorem exists_encode_eq (label content : Bytes) :
    ∃ rows, encode label content =
        joined ((beginMark ++ label ++ tailMark) :: (rows ++ [endMark ++ label ++ tailMark])) ∧
      rows.flatten = Base64.encode content ∧ IsWrapped rows ∧ ∀ row ∈ rows, IsPlainRow row := by
  obtain ⟨rows, same, whole, wrapped⟩ := encodeWith_eq_joined label [] content
  exact ⟨rows, same, whole, wrapped, isPlainRow_of_rows whole⟩

private theorem length_wrap (text : Bytes) :
    (wrap text).length = text.length + (text.length + 63) / 64 := by
  fun_induction wrap text with
  | case1 text h => simp [List.isEmpty_iff.1 h]
  | case2 text h ih =>
    have isSome := List.length_pos_iff.2 fun he => h (List.isEmpty_iff.2 he)
    rw [List.length_append, List.length_cons, ih, List.length_take, List.length_drop, columns]
    omega

theorem length_encode_bounds (label content : Bytes) :
    content.length ≤ (encode label content).length ∧
      (encode label content).length ≤ 2 * content.length + 2 * label.length + 100 := by
  have digits := Base64.length_encode content
  have marks : beginMark.length = 11 ∧ endMark.length = 9 ∧ tailMark.length = 5 := by decide
  have rows := length_wrap (Base64.encode content)
  simp only [encode, encodeWith, List.isEmpty_nil, if_true, List.length_append, List.length_cons,
    List.length_nil]
  omega

theorem encode_text {pem : Bytes} (h : ∀ b ∈ pem, b < 128) : Utf8.encode (text pem) = pem := by
  rw [text, Utf8.encode_ofList_ascii, List.map_map]
  · refine List.map_congr_left (fun b _ => ?_) |>.trans (List.map_id _)
    simp only [Function.comp_apply, Utf8.toNat_ofNat_octet, UInt8.ofNat_toNat, id]
  · intro c hc
    obtain ⟨b, hb, rfl⟩ := List.mem_map.1 hc
    rw [Utf8.toNat_ofNat_octet]
    exact h b hb

theorem isAscii_of_mem_encode {label content : Bytes} (hl : IsLabel label) :
    ∀ b ∈ encode label content, b < 128 := by
  obtain ⟨rows, same, whole, -⟩ := exists_wrap_eq (Base64.encode content)
  have labelAscii : ∀ b ∈ label, b < 128 := fun b hb => by
    rcases hl.isPlain b hb with ⟨-, high⟩ | rfl
    · exact high
    · decide
  have rowsAscii : ∀ b ∈ joined rows, b < 128 := fun b hb => by
    obtain ⟨row, hr, hb⟩ := List.mem_flatMap.1 hb
    rcases List.mem_append.1 hb with hb | hb
    · exact UInt8.lt_of_le_of_lt (isPlainRow_of_rows whole row hr b hb).2.1 (by decide)
    · rw [List.mem_singleton.1 hb]
      decide
  have marks : ∀ b ∈ beginMark ++ endMark ++ tailMark ++ [lineFeed], b < 128 := by decide +kernel
  simp only [List.forall_mem_append, List.forall_mem_cons] at marks
  simp only [encode, encodeWith, List.isEmpty_nil, if_true, List.nil_append, same,
    List.forall_mem_append, List.forall_mem_cons]
  obtain ⟨⟨⟨begins, ends⟩, tail⟩, feed⟩ := marks
  exact ⟨⟨⟨begins, labelAscii⟩, tail⟩, feed.1, ⟨⟨⟨rowsAscii, ends⟩, labelAscii⟩, tail⟩,
    feed⟩

end VpnAuthority.Pem
