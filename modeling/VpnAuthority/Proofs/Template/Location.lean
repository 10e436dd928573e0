import VpnAuthority.Proofs.Template.Composition
import VpnAuthority.Proofs.Template.Dependence

/-! Where the fault of a template is. Its line and column lead to one dollar sign. What stands in
front of it is rendered, and what stands behind it is of no account: the template has the same
fault wherever it is cut off behind the dollar sign. -/
namespace VpnAuthority.Template

namespace Position

/-- Whether the character at an index of a text is at a place: as many line feeds are in front of
it as there are lines above, and as many characters are between it and the last of them as there
are columns to the left. -/
def IsOf (place : Position) (text : List Char) (i : Nat) : Prop :=
  i < text.length ∧ place.line = (text.take i).count '\n' + 1 ∧
    place.column = ((text.take i).rtakeWhile (· ≠ '\n')).length + 1

theorem isOf_iff {place : Position} {text : List Char} {i : Nat} :
    place.IsOf text i ↔ i < text.length ∧ place = start.after (text.take i) := by
  obtain ⟨line, column⟩ := place
  rw [IsOf, start_after, lastWidth, Position.mk.injEq, Nat.add_comm 1]

theorem eq_nil_of_after_eq {position : Position} {text : List Char}
    (h : position.after text = position) : text = [] := by
  by_contra isSome
  have long := List.length_pos_iff.2 isSome
  rw [after_eq] at h
  have sameLine : position.line + text.count '\n' = position.line := congrArg line h
  have oneLine : '\n' ∉ text := List.count_eq_zero.1 (by omega)
  rw [if_neg oneLine] at h
  have sameColumn : position.column + text.length = position.column := congrArg column h
  omega

private theorem eq_of_isOf_of_le {place : Position} {text : List Char} {i j : Nat} (hij : i ≤ j)
    (hi : place.IsOf text i) (hj : place.IsOf text j) : i = j := by
  obtain ⟨-, atI⟩ := isOf_iff.1 hi
  obtain ⟨inText, atJ⟩ := isOf_iff.1 hj
  have split : text.take j = text.take i ++ (text.drop i).take (j - i) := by
    rw [← List.take_add, Nat.add_sub_cancel' hij]
  rw [split, after_append, ← atI] at atJ
  have between := congrArg List.length (eq_nil_of_after_eq atJ.symm)
  rw [List.length_take, List.length_drop, List.length_nil] at between
  omega

theorem IsOf.unique {place : Position} {text : List Char} {i j : Nat} (hi : place.IsOf text i)
    (hj : place.IsOf text j) : i = j := by
  obtain hij | hji := Nat.le_total i j
  · exact eq_of_isOf_of_le hij hi hj
  · exact (eq_of_isOf_of_le hji hj hi).symm

end Position

/-- What makes a token impossible is not mended by less text: a brace that is never closed, or
closed behind something that is no name, is not closed at all if the text ends before. -/
theorem Unreadable.of_prefix {behind more : List Char} (h : Unreadable ('$' :: behind))
    (front : more <+: behind) : Unreadable ('$' :: more) := by
  cases more with
  | nil => exact .atEnd
  | cons c more =>
    cases h with
    | atEnd => exact absurd front (by simp)
    | noName noDollar noBrace noName =>
      obtain ⟨rfl, -⟩ := List.cons_prefix_cons.1 front
      exact .noName noDollar noBrace noName
    | unclosed isOpen =>
      obtain ⟨rfl, inside⟩ := List.cons_prefix_cons.1 front
      exact .unclosed fun closing => isOpen (inside.subset closing)
    | @notAName name rest isUpToBrace noName =>
      obtain ⟨rfl, inside⟩ := List.cons_prefix_cons.1 front
      obtain inName | ⟨tail, -, rfl⟩ := prefix_append_cons inside
      · exact .unclosed fun closing => isUpToBrace (inName.subset closing)
      · exact .notAName isUpToBrace noName

theorem Starts.written_ne_nil {text rest : List Char} {token : Token} (h : Starts text token rest) :
    token.written ≠ [] := by
  cases h with
  | text isSome => exact isSome
  | dollar | plain | braced => simp [Token.written, Reference.written]

theorem Starts.of_head {text rest rest' : List Char} {token : Token}
    (h : Starts text token rest) (head : rest'.head? = rest.head? ∨ ∀ c ∈ rest'.head?, c = '$') :
    Starts (token.written ++ rest') token rest' := by
  cases h with
  | text isSome isPlain isWhole =>
    refine .text isSome isPlain ?_
    obtain same | dollar := head
    · rwa [same]
    · exact dollar
  | dollar => exact .dollar
  | plain isName isWhole =>
    refine .plain isName fun c hc => ?_
    obtain same | dollar := head
    · exact isWhole c (same ▸ hc)
    · exact not_continuesName_of_eq (.inl (dollar c hc))
  | @braced name _ isName =>
    have := @Starts.braced name rest' isName
    simpa [Token.written, Reference.written] using this

theorem Scans.of_left {template left left' : List Char} {tokens : List Token}
    (h : Scans template tokens left) (new : left' = [] ∨ Unreadable left') :
    Scans (tokens.flatMap Token.written ++ left') tokens left' := by
  have dollar : ∀ c ∈ left'.head?, c = '$' := by
    obtain rfl | unread := new
    · simp
    · obtain ⟨behind, rfl, -⟩ := unread.eq_cons
      simp
  have last : Scans left' [] left' := by
    obtain rfl | unread := new
    · exact .finished
    · exact .stuck unread
  induction h with
  | finished | stuck => exact last
  | @token text rest _ token tokens first more ih =>
    rw [List.flatMap_cons, List.append_assoc]
    refine .token (first.of_head ?_) ih
    cases more with
    | finished | stuck => exact .inr dollar
    | token second =>
      -- What is behind the token begins as before, with the next token.
      left
      rw [List.flatMap_cons, List.append_assoc, Token.written_append_of_starts second,
        List.head?_append_of_ne_nil _ second.written_ne_nil,
        List.head?_append_of_ne_nil _ second.written_ne_nil]

theorem Scans.written {template left : List Char} {tokens : List Token}
    (h : Scans template tokens left) : Scans (tokens.flatMap Token.written) tokens [] := by
  have alone := h.of_left (.inl rfl)
  rwa [List.append_nil] at alone

/-- A template that is cut off behind the dollar sign at which it cannot be read is cut off in what
cannot be read. -/
theorem Scans.of_cut {template front behind : List Char} {tokens : List Token}
    (h : Scans template tokens ('$' :: behind)) (isFront : front <+: template)
    (long : (tokens.flatMap Token.written).length < front.length) :
    ∃ more, Scans front tokens ('$' :: more) := by
  have unread := unreadable_of_scans h (List.cons_ne_nil _ _)
  rw [written_append_of_scans h] at isFront
  obtain short | ⟨more, isMore, rfl⟩ := prefix_append_cons isFront
  · have := short.length_le
    omega
  · exact ⟨more, h.of_left (.inr (unread.of_prefix isMore))⟩

/-- A fault at a line and a column is the fault of one dollar sign, the only character there. What
is in front of it is rendered by itself, and if the template is cut off anywhere behind it, the
fault is the same and in the same place. -/
theorem location_of_invalid {template : String} {values : Values} {line column : Nat}
    (refused : render template values = .error (.invalid ⟨line, column⟩)) :
    ∃ i, (∀ j, Position.IsOf ⟨line, column⟩ template.toList j ↔ j = i) ∧
      template.toList[i]? = some '$' ∧
      (∃ text, render (String.ofList (template.toList.take i)) values = .ok text) ∧
      ∀ front : String, front.toList <+: template.toList → i < front.length →
        render front values = .error (.invalid ⟨line, column⟩) := by
  obtain ⟨tokens, left, scans, -⟩ := exists_scans template.toList
  have faulty : fill values .start tokens left = .error (.invalid ⟨line, column⟩) := by
    rw [scans.render_eq] at refused
    exact map_eq_error.1 refused
  obtain ⟨isLeft, supplied, place⟩ := fill_eq_invalid_iff.1 faulty
  have unread := unreadable_of_scans scans isLeft
  obtain ⟨behind, rfl, -⟩ := unread.eq_cons
  have whole := written_append_of_scans scans
  have inFront : template.toList.take (tokens.flatMap Token.written).length =
      tokens.flatMap Token.written := by
    rw [whole, List.take_left]
  have isThere : Position.IsOf ⟨line, column⟩ template.toList
      (tokens.flatMap Token.written).length := by
    rw [Position.isOf_iff, inFront]
    exact ⟨by simp [whole], place⟩
  refine ⟨(tokens.flatMap Token.written).length,
    fun j => ⟨fun h => h.unique isThere, fun h => h ▸ isThere⟩, ?_, ?_,
    fun front isFront long => ?_⟩
  · rw [whole, List.getElem?_append_right (Nat.le_refl _), Nat.sub_self]
    rfl
  · have done : Scans (String.ofList (tokens.flatMap Token.written)).toList tokens [] := by
      rw [String.toList_ofList]
      exact scans.written
    rw [inFront]
    exact ⟨_, done.render_of_supplied supplied⟩
  · obtain ⟨more, cut⟩ := scans.of_cut isFront (by rwa [String.length_toList])
    rw [cut.render_eq, fill_eq_invalid_iff.2 ⟨List.cons_ne_nil _ _, supplied, place⟩]
    rfl

theorem location_of_invalid_braced :
    let values := Values.empty.set "Host" "first\nsecond"
    render "ü ${Host}\r\n\té $$ ${a-b} $Port" values = .error (.invalid ⟨2, 7⟩) ∧
      render "ü ${Host}\r\n\té $$ $\x7ba" values = .error (.invalid ⟨2, 7⟩) := by
  intro values
  have refused : render "ü ${Host}\r\n\té $$ ${a-b} $Port" values = .error (.invalid ⟨2, 7⟩) := by
    decide +kernel
  refine ⟨refused, ?_⟩
  obtain ⟨i, isPlace, -, -, cut⟩ := location_of_invalid refused
  obtain rfl : 17 = i := (isPlace 17).1 (by unfold Position.IsOf; decide +kernel)
  exact cut "ü ${Host}\r\n\té $$ $\x7ba" (by decide) (by decide)

end VpnAuthority.Template
