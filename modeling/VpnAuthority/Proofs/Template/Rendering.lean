import VpnAuthority.Proofs.Template.Tokens
import VpnAuthority.Proofs.Text.Span

/-! Rendering is filling in the tokens of a template, which are the same whatever the
values are. -/
namespace VpnAuthority.Template

private theorem ne_dollar_iff {l : List Char} :
    (∀ c ∈ l, decide (c ≠ '$') = true) ↔ '$' ∉ l := by
  simp only [decide_eq_true_eq, ne_eq]
  exact ⟨fun h hc => h _ hc rfl, fun h c hc he => h (he ▸ hc)⟩

private theorem ne_brace_iff {l : List Char} :
    (∀ c ∈ l, decide (c ≠ '}') = true) ↔ '}' ∉ l := by
  simp only [decide_eq_true_eq, ne_eq]
  exact ⟨fun h hc => h _ hc rfl, fun h c hc he => h (he ▸ hc)⟩

theorem IsIdentifier.not_brace_mem {name : List Char} (h : IsIdentifier name) : '}' ∉ name :=
  fun hc => not_continuesName_of_eq (.inr (.inr rfl)) (h.continuesName _ hc)

private theorem eq_brace_of_dropWhile {text tail : List Char} {closing : Char}
    (h : text.dropWhile (· ≠ '}') = closing :: tail) : closing = '}' := by
  have := not_of_mem_head?_dropWhile (p := fun c : Char => decide (c ≠ '}')) text closing
    (by rw [h]; rfl)
  simpa using this

private theorem upToBrace {name : List Char} (rest : List Char) (h : '}' ∉ name) :
    (name ++ '}' :: rest).takeWhile (· ≠ '}') = name ∧
      (name ++ '}' :: rest).dropWhile (· ≠ '}') = '}' :: rest := by
  have stops : ∀ c ∈ ('}' :: rest).head?, ¬decide (c ≠ '}') = true := by simp
  exact ⟨takeWhile_append_of_stop (ne_brace_iff.2 h) stops,
    dropWhile_append_of_stop (ne_brace_iff.2 h) stops⟩

private theorem upToNameEnd {name rest : List Char} (h : ∀ c ∈ name, ContinuesName c)
    (stops : ∀ c ∈ rest.head?, ¬ContinuesName c) :
    (name ++ rest).takeWhile isNameChar = name ∧ (name ++ rest).dropWhile isNameChar = rest := by
  have holds : ∀ c ∈ name, isNameChar c = true := fun c hc => (isNameChar_iff c).2 (h c hc)
  have stops : ∀ c ∈ rest.head?, ¬isNameChar c = true := fun c hc => by
    rw [isNameChar_iff]
    exact stops c hc
  exact ⟨takeWhile_append_of_stop holds stops, dropWhile_append_of_stop holds stops⟩

namespace Reference

private theorem read?_of_plain {text : List Char}
    (h : ∀ c ∈ text.head?, c ≠ '$' ∧ c ≠ '{') :
    read? text = if isName (text.takeWhile isNameChar) then
      some (.plain (text.takeWhile isNameChar), text.dropWhile isNameChar) else none := by
  unfold read?
  split
  · exact absurd rfl (h '$' rfl).1
  · exact absurd rfl (h '{' rfl).2
  · rfl

theorem starts_of_read? {text rest : List Char} {reference : Reference}
    (h : read? text = some (reference, rest)) :
    Starts ('$' :: text) (.reference reference) rest := by
  unfold read? at h
  split at h
  · cases h
    exact .dollar
  · next text =>
    dsimp only at h
    split at h
    · next closing tail ht =>
      split at h
      · next hn =>
        cases h
        have hc := eq_brace_of_dropWhile ht
        have whole := List.takeWhile_append_dropWhile (p := fun c : Char => decide (c ≠ '}'))
          (l := text)
        rw [ht, hc] at whole
        have := @Starts.braced _ rest ((isName_iff _).1 hn)
        rwa [whole] at this
      · cases h
    · cases h
  · dsimp only at h
    split at h
    · next hn =>
      cases h
      have := @Starts.plain _ (text.dropWhile isNameChar) ((isName_iff _).1 hn)
        fun c hc => by
          rw [← isNameChar_iff]
          exact not_of_mem_head?_dropWhile text c hc
      rwa [List.takeWhile_append_dropWhile] at this
    · cases h

theorem read?_of_starts {whole text rest : List Char} {reference : Reference}
    (h : Starts whole (.reference reference) rest) (hw : whole = '$' :: text) :
    read? text = some (reference, rest) := by
  cases h with
  | dollar =>
    cases hw
    rfl
  | plain isName' isWhole =>
    next name =>
    cases hw
    obtain ⟨taken, dropped⟩ := upToNameEnd isName'.continuesName isWhole
    rw [read?_of_plain, taken, dropped, if_pos ((isName_iff _).2 isName')]
    obtain ⟨c, more, rfl, hc, -⟩ := isName'
    intro d hd
    cases hd
    exact ⟨fun h => not_continuesName_of_eq (.inl h) (.inl hc),
      fun h => not_continuesName_of_eq (.inr (.inl h)) (.inl hc)⟩
  | braced isName' =>
    next name =>
    cases hw
    obtain ⟨taken, dropped⟩ := upToBrace rest isName'.not_brace_mem
    simp only [read?, taken, dropped, (isName_iff name).2 isName', if_true]

theorem unreadable_of_read? {text : List Char} (h : read? text = none) :
    Unreadable ('$' :: text) := by
  unfold read? at h
  split at h
  · cases h
  · next text =>
    dsimp only at h
    have whole := List.takeWhile_append_dropWhile (p := fun c : Char => decide (c ≠ '}'))
      (l := text)
    split at h
    · next closing tail ht =>
      split at h
      · cases h
      · next hn =>
        have hc := eq_brace_of_dropWhile ht
        rw [ht, hc] at whole
        have := @Unreadable.notAName _ tail (ne_brace_iff.1 (of_mem_takeWhile (l := text)))
          fun h => hn ((isName_iff _).2 h)
        rwa [whole] at this
    · next ht =>
      rw [ht, List.append_nil] at whole
      have := Unreadable.unclosed (ne_brace_iff.1 (of_mem_takeWhile (l := text)))
      rwa [whole] at this
  · next hd hb =>
    dsimp only at h
    split at h
    · cases h
    · next hn =>
      cases text with
      | nil => exact .atEnd
      | cons c rest =>
        refine .noName (fun h => hd rest (h ▸ rfl)) (fun h => hb rest (h ▸ rfl)) fun hc => hn ?_
        have hc' : isNameChar c = true := (isNameChar_iff c).2 (.inl hc)
        rw [List.takeWhile_cons_of_pos hc']
        exact (isName_iff _).2 ⟨c, _, rfl, hc, fun d hd =>
          (isNameChar_iff d).1 (of_mem_takeWhile d hd)⟩

theorem read?_of_unreadable {text : List Char} (h : Unreadable ('$' :: text)) :
    read? text = none := by
  cases h with
  | atEnd => rfl
  | noName noDollar noBrace noName =>
    next c rest =>
    rw [read?_of_plain (by simp [noDollar, noBrace]), if_neg]
    rw [isName_iff]
    rintro ⟨d, more, hd, hb, -⟩
    by_cases hc : isNameChar c = true
    · rw [List.takeWhile_cons_of_pos hc] at hd
      cases hd
      exact noName hb
    · rw [List.takeWhile_cons_of_neg hc] at hd
      cases hd
  | unclosed isOpen =>
    next rest =>
    have dropped : rest.dropWhile (· ≠ '}') = [] :=
      List.dropWhile_eq_nil_iff.2 (ne_brace_iff.2 isOpen)
    simp only [read?, dropped]
  | notAName isUpToBrace noName =>
    next name rest =>
    obtain ⟨taken, dropped⟩ := upToBrace rest isUpToBrace
    have : isName name = false := by
      rw [← Bool.not_eq_true, isName_iff]
      exact noName
    simp only [read?, taken, dropped, this, Bool.false_eq_true, if_false]

end Reference

theorem Token.written_append_of_starts {text rest : List Char} {token : Token}
    (h : Starts text token rest) : text = token.written ++ rest := by
  cases h <;> simp [Token.written, Reference.written]

theorem Starts.ne_nil {text rest : List Char} {token : Token} (h : Starts text token rest) :
    text ≠ [] := by
  cases h with
  | text isSome => simp [isSome]
  | dollar => simp
  | plain => simp
  | braced => simp

theorem Unreadable.ne_nil {text : List Char} (h : Unreadable text) : text ≠ [] := by
  cases h <;> simp

private theorem starts_dollar {text rest : List Char} {token : Token}
    (h : Starts ('$' :: text) token rest) :
    ∃ r, token = .reference r ∧ Reference.read? text = some (r, rest) := by
  cases token with
  | text content =>
    generalize hw : '$' :: text = whole at h
    cases h with
    | text isSome isPlain isWhole =>
      obtain ⟨c, more, rfl⟩ := List.exists_cons_of_ne_nil isSome
      cases hw
      exact absurd (List.mem_cons_self) isPlain
  | reference r => exact ⟨r, rfl, Reference.read?_of_starts h rfl⟩

private theorem starts_plain {text rest : List Char} {token : Token}
    (h : Starts text token rest) (hd : ∀ c ∈ text.head?, c ≠ '$') :
    token = .text (text.takeWhile (· ≠ '$')) ∧ rest = text.dropWhile (· ≠ '$') := by
  cases h with
  | text isSome isPlain isWhole =>
    have holds := ne_dollar_iff.2 isPlain
    have stops : ∀ c ∈ rest.head?, ¬decide (c ≠ '$') = true := fun c hc => by
      simpa using isWhole c hc
    rw [takeWhile_append_of_stop holds stops, dropWhile_append_of_stop holds stops]
    exact ⟨rfl, rfl⟩
  | dollar => exact absurd rfl (hd _ rfl)
  | plain => exact absurd rfl (hd _ rfl)
  | braced => exact absurd rfl (hd _ rfl)

theorem Unreadable.eq_cons {text : List Char} (h : Unreadable text) :
    ∃ behind, text = '$' :: behind ∧ Reference.read? behind = none := by
  cases h with
  | atEnd => exact ⟨_, rfl, Reference.read?_of_unreadable .atEnd⟩
  | noName hd hb hn => exact ⟨_, rfl, Reference.read?_of_unreadable (.noName hd hb hn)⟩
  | unclosed ho => exact ⟨_, rfl, Reference.read?_of_unreadable (.unclosed ho)⟩
  | notAName hu hn => exact ⟨_, rfl, Reference.read?_of_unreadable (.notAName hu hn)⟩

theorem Unreadable.not_starts {text rest : List Char} {token : Token} (h : Unreadable text) :
    ¬Starts text token rest := by
  obtain ⟨behind, rfl, unread⟩ := h.eq_cons
  intro starts
  obtain ⟨r, -, read⟩ := starts_dollar starts
  rw [unread] at read
  cases read

theorem starts_unique {text rest rest' : List Char} {token token' : Token}
    (h : Starts text token rest) (h' : Starts text token' rest') :
    token' = token ∧ rest' = rest := by
  by_cases hd : ∀ c ∈ text.head?, c ≠ '$'
  · obtain ⟨rfl, rfl⟩ := starts_plain h hd
    exact starts_plain h' hd
  · push Not at hd
    obtain ⟨c, hc, rfl⟩ := hd
    obtain ⟨behind, rfl⟩ := List.head?_eq_some_iff.1 hc
    obtain ⟨r, rfl, read⟩ := starts_dollar h
    obtain ⟨r', rfl, read'⟩ := starts_dollar h'
    rw [read] at read'
    cases read'
    exact ⟨rfl, rfl⟩

/-- A template has one reading: at each place at most one rule applies. -/
theorem scans_unique {template left left' : List Char} {tokens tokens' : List Token}
    (h : Scans template tokens left) (h' : Scans template tokens' left') :
    tokens' = tokens ∧ left' = left := by
  induction h generalizing tokens' left' with
  | finished =>
    cases h' with
    | finished => exact ⟨rfl, rfl⟩
    | stuck hu => exact absurd rfl hu.ne_nil
    | token first => exact absurd rfl first.ne_nil
  | stuck hu =>
    cases h' with
    | finished => exact absurd rfl hu.ne_nil
    | stuck => exact ⟨rfl, rfl⟩
    | token first => exact absurd first hu.not_starts
  | token first more ih =>
    cases h' with
    | finished => exact absurd rfl first.ne_nil
    | stuck hu => exact absurd first hu.not_starts
    | token first' more' =>
      obtain ⟨rfl, rfl⟩ := starts_unique first first'
      obtain ⟨rfl, rfl⟩ := ih more'
      exact ⟨rfl, rfl⟩

theorem written_append_of_scans {template left : List Char} {tokens : List Token}
    (h : Scans template tokens left) : template = tokens.flatMap Token.written ++ left := by
  induction h with
  | finished => rfl
  | stuck => rfl
  | token first more ih =>
    rw [List.flatMap_cons, List.append_assoc, ← ih]
    exact Token.written_append_of_starts first

theorem unreadable_of_scans {template left : List Char} {tokens : List Token}
    (h : Scans template tokens left) (hl : left ≠ []) : Unreadable left := by
  induction h with
  | finished => exact absurd rfl hl
  | stuck hu => exact hu
  | token first more ih => exact ih hl

@[simp] theorem Token.missing?_text (values : Values) (content : List Char) :
    missing? values (.text content) = none := rfl

theorem Reference.value_eq (values : Values) (r : Reference) :
    r.value values = match Token.missing? values (.reference r) with
      | some name => .error (.missing name)
      | none => .ok (Token.value values (.reference r)) := by
  cases r with
  | dollar => rfl
  | plain name =>
    cases h : values.get? (String.ofList name) <;>
      simp [Reference.value, Token.missing?, Token.name?, Token.value, Option.filter_some, h]
  | braced name =>
    cases h : values.get? (String.ofList name) <;>
      simp [Reference.value, Token.missing?, Token.name?, Token.value, Option.filter_some, h]

theorem fill_cons (values : Values) (position : Position) (token : Token) (tokens : List Token)
    (left : List Char) :
    fill values position (token :: tokens) left =
      match Token.missing? values token with
      | some name => .error (.missing name)
      | none => (fill values (position.after token.written) tokens left).map
          (Token.value values token ++ ·) := by
  simp only [fill, List.findSome?_cons]
  cases token.missing? values with
  | some name => rfl
  | none =>
    cases tokens.findSome? (Token.missing? values) with
    | some name => rfl
    | none =>
      by_cases hl : left = []
      · simp [hl, Except.map]
      · simp [hl, Except.map]

private theorem fill_text (values : Values) (position : Position) (content : List Char)
    (tokens : List Token) (left : List Char) :
    fill values position (.text content :: tokens) left =
      (fill values (position.after content) tokens left).map (content ++ ·) := by
  rw [fill_cons]
  rfl

private theorem scans_text {content left : List Char} (rest : List Char) {tokens : List Token}
    (isPlain : '$' ∉ content) (isWhole : ∀ c ∈ rest.head?, c = '$')
    (h : Scans rest tokens left) :
    ∃ tokens', Scans (content ++ rest) tokens' left ∧ ∀ values position,
      fill values position tokens' left =
        (fill values (position.after content) tokens left).map (content ++ ·) := by
  cases content with
  | nil =>
    refine ⟨tokens, h, fun values position => ?_⟩
    rw [Position.after_nil]
    cases fill values position tokens left <;> rfl
  | cons c more =>
    exact ⟨.text (c :: more) :: tokens, .token (.text (by simp) isPlain isWhole) h,
      fun values position => fill_text values position _ tokens left⟩

section
variable {template behind rest : List Char} {c : Char} {r : Reference}

private theorem renderFrom_of_plain (values : Values) (position : Position)
    (hd : template.dropWhile (· ≠ '$') = []) :
    renderFrom values position template = .ok (template.takeWhile (· ≠ '$')) := by
  unfold renderFrom
  split
  · rfl
  · next h =>
    rw [hd] at h
    cases h

private theorem renderFrom_of_unread (values : Values) (position : Position)
    (hd : template.dropWhile (· ≠ '$') = c :: behind) (hr : Reference.read? behind = none) :
    renderFrom values position template =
      .error (.invalid (position.after (template.takeWhile (· ≠ '$')))) := by
  unfold renderFrom
  split
  · next h =>
    rw [hd] at h
    cases h
  · next h =>
    rw [hd] at h
    cases h
    split
    · rfl
    · next h =>
      rw [hr] at h
      cases h

private theorem renderFrom_of_read (values : Values) (position : Position)
    (hd : template.dropWhile (· ≠ '$') = c :: behind)
    (hr : Reference.read? behind = some (r, rest)) :
    renderFrom values position template = (r.value values).bind fun value =>
      (renderFrom values ((position.after (template.takeWhile (· ≠ '$'))).after r.written) rest).map
        (template.takeWhile (· ≠ '$') ++ value ++ ·) := by
  rw [renderFrom]
  split
  · next h =>
    rw [hd] at h
    cases h
  · next h =>
    rw [hd] at h
    cases h
    split
    · next h =>
      rw [hr] at h
      cases h
    · next h =>
      rw [hr] at h
      cases h
      cases r.value values with
      | error => rfl
      | ok value => rfl

end

@[simp] theorem renderFrom_nil (values : Values) (position : Position) :
    renderFrom values position [] = .ok [] :=
  renderFrom_of_plain values position rfl

theorem renderFrom_text_append (values : Values) (position : Position) {content : List Char}
    (isPlain : '$' ∉ content) (rest : List Char) :
    renderFrom values position (content ++ rest) =
      (renderFrom values (position.after content) rest).map (content ++ ·) := by
  have holds := ne_dollar_iff.2 isPlain
  have taken : (content ++ rest).takeWhile (· ≠ '$') = content ++ rest.takeWhile (· ≠ '$') :=
    List.takeWhile_append_of_pos holds
  have dropped : (content ++ rest).dropWhile (· ≠ '$') = rest.dropWhile (· ≠ '$') :=
    List.dropWhile_append_of_pos holds
  cases hd : rest.dropWhile (· ≠ '$') with
  | nil =>
    rw [renderFrom_of_plain _ _ (dropped.trans hd), renderFrom_of_plain _ _ hd, taken]
    rfl
  | cons c behind =>
    cases hr : Reference.read? behind with
    | none =>
      rw [renderFrom_of_unread _ _ (dropped.trans hd) hr, renderFrom_of_unread _ _ hd hr, taken,
        Position.after_append]
      rfl
    | some found =>
      obtain ⟨r, behindReference⟩ := found
      rw [renderFrom_of_read _ _ (dropped.trans hd) hr, renderFrom_of_read _ _ hd hr, taken,
        Position.after_append]
      cases r.value values with
      | error fault => rfl
      | ok value =>
        cases renderFrom values
            (((position.after content).after (rest.takeWhile (· ≠ '$'))).after r.written)
            behindReference with
        | error fault => rfl
        | ok more => simp [Except.map, Except.bind]

theorem renderFrom_of_starts (values : Values) (position : Position) {text rest : List Char}
    {r : Reference} (h : Starts text (.reference r) rest) :
    renderFrom values position text = (r.value values).bind fun value =>
      (renderFrom values (position.after r.written) rest).map (value ++ ·) := by
  obtain ⟨behind, rfl⟩ : ∃ behind, text = '$' :: behind := by
    cases h with
    | dollar | plain | braced => exact ⟨_, rfl⟩
  have taken : ('$' :: behind).takeWhile (· ≠ '$') = [] := rfl
  have dropped : ('$' :: behind).dropWhile (· ≠ '$') = '$' :: behind := rfl
  rw [renderFrom_of_read values position dropped (Reference.read?_of_starts h rfl), taken]
  rfl

/-- Rendering reads some tokens and fills them in. The induction is on the length of the
template; a step takes the text up to a dollar sign and the reference there. -/
theorem exists_scans (template : List Char) :
    ∃ tokens left, Scans template tokens left ∧
      ∀ values position,
        renderFrom values position template = fill values position tokens left := by
  induction hn : template.length using Nat.strong_induction_on generalizing template with
  | _ n ih =>
    have whole := List.takeWhile_append_dropWhile (p := fun c : Char => decide (c ≠ '$'))
      (l := template)
    have isPlain : '$' ∉ template.takeWhile (· ≠ '$') := ne_dollar_iff.1 (of_mem_takeWhile)
    have isWhole : ∀ c ∈ (template.dropWhile (· ≠ '$')).head?, c = '$' := fun c hc => by
      simpa using not_of_mem_head?_dropWhile (p := fun c : Char => decide (c ≠ '$')) template c hc
    cases hd : template.dropWhile (· ≠ '$') with
    | nil =>
      rw [hd] at whole
      obtain ⟨tokens, scans, fills⟩ := scans_text [] isPlain (by simp) .finished
      rw [whole] at scans
      refine ⟨tokens, [], scans, fun values position => ?_⟩
      rw [fills, renderFrom_of_plain values position hd]
      simp [fill, Except.map]
    | cons c behind =>
      rw [hd] at whole isWhole
      obtain rfl : c = '$' := isWhole c rfl
      cases hr : Reference.read? behind with
      | none =>
        obtain ⟨tokens, scans, fills⟩ :=
          scans_text ('$' :: behind) isPlain isWhole (.stuck (Reference.unreadable_of_read? hr))
        rw [whole] at scans
        refine ⟨tokens, '$' :: behind, scans, fun values position => ?_⟩
        rw [fills, renderFrom_of_unread values position hd hr]
        simp [fill, Except.map]
      | some found =>
        obtain ⟨r, rest⟩ := found
        have shorter : rest.length < n := by
          have := Reference.length_lt_of_read? hr
          have := congrArg List.length whole
          simp only [List.length_append, List.length_cons] at this
          omega
        obtain ⟨more, left, moreScans, moreFills⟩ := ih _ shorter rest rfl
        obtain ⟨tokens, scans, fills⟩ :=
          scans_text ('$' :: behind) isPlain isWhole
            (.token (Reference.starts_of_read? hr) moreScans)
        rw [whole] at scans
        refine ⟨tokens, left, scans, fun values position => ?_⟩
        rw [fills, fill_cons, renderFrom_of_read values position hd hr, moreFills,
          Reference.value_eq]
        cases Token.missing? values (.reference r) with
        | some name => rfl
        | none =>
          have : (Token.reference r).written = r.written := rfl
          rw [this]
          cases fill values ((position.after _).after r.written) more left with
          | error fault => rfl
          | ok text => simp [Except.map, Except.bind]

section
variable {values : Values} {position place : Position} {tokens : List Token} {left : List Char}

theorem Token.missing?_eq_none_iff {token : Token} :
    token.missing? values = none ↔ token.IsSupplied values := by
  simp [missing?, IsSupplied, Option.isSome_iff_ne_none]

theorem Token.missing?_eq_some_iff {token : Token} {name : String} :
    token.missing? values = some name ↔ token.name? = some name ∧ values.get? name = none := by
  simp [missing?, Option.filter_eq_some_iff]

private theorem findSome?_missing_eq_none_iff :
    tokens.findSome? (Token.missing? values) = none ↔
      ∀ token ∈ tokens, token.IsSupplied values := by
  simp only [List.findSome?_eq_none_iff, Token.missing?_eq_none_iff]

theorem fill_eq_ok_iff {text : List Char} :
    fill values position tokens left = .ok text ↔
      left = [] ∧ (∀ token ∈ tokens, token.IsSupplied values) ∧
        text = tokens.flatMap (Token.value values) := by
  rw [← findSome?_missing_eq_none_iff, fill]
  cases tokens.findSome? (Token.missing? values) with
  | some name => simp
  | none => by_cases hl : left = [] <;> simp [hl, eq_comm]

theorem fill_eq_missing_iff {name : String} :
    fill values position tokens left = .error (.missing name) ↔
      ∃ before token behind, tokens = before ++ token :: behind ∧
        (∀ t ∈ before, t.IsSupplied values) ∧ token.name? = some name ∧
          values.get? name = none := by
  have found : fill values position tokens left = .error (.missing name) ↔
      tokens.findSome? (Token.missing? values) = some name := by
    rw [fill]
    cases tokens.findSome? (Token.missing? values) with
    | some other => simp
    | none => by_cases hl : left = [] <;> simp [hl]
  simp only [found, List.findSome?_eq_some_iff, Token.missing?_eq_none_iff,
    Token.missing?_eq_some_iff]
  constructor
  · rintro ⟨before, token, behind, split, asks, supplied⟩
    exact ⟨before, token, behind, split, supplied, asks⟩
  · rintro ⟨before, token, behind, split, supplied, asks⟩
    exact ⟨before, token, behind, split, asks, supplied⟩

theorem fill_eq_invalid_iff :
    fill values position tokens left = .error (.invalid place) ↔
      left ≠ [] ∧ (∀ token ∈ tokens, token.IsSupplied values) ∧
        place = position.after (tokens.flatMap Token.written) := by
  rw [← findSome?_missing_eq_none_iff, fill]
  cases tokens.findSome? (Token.missing? values) with
  | some name => simp
  | none => by_cases hl : left = [] <;> simp [hl, eq_comm]

end

/-- Rendering a template is cutting it into its tokens, in the one way there is, and
filling these in. It succeeds exactly when the whole template is tokens and every name has
a value; otherwise the leftmost token that has none, or the dollar sign at which no token
starts, decides. -/
theorem render_eq_fill (template : String) (values : Values) :
    ∃ tokens left,
      (∀ tokens' left', Scans template.toList tokens' left' ↔ tokens' = tokens ∧ left' = left) ∧
      template.toList = tokens.flatMap Token.written ++ left ∧ (left ≠ [] → Unreadable left) ∧
      render template values = (fill values .start tokens left).map String.ofList ∧
      (∀ text, render template values = .ok text ↔
        left = [] ∧ (∀ token ∈ tokens, token.IsSupplied values) ∧
          text = String.ofList (tokens.flatMap (Token.value values))) ∧
      (∀ name, render template values = .error (.missing name) ↔
        ∃ before token behind, tokens = before ++ token :: behind ∧
          (∀ t ∈ before, t.IsSupplied values) ∧ token.name? = some name ∧
          values.get? name = none) ∧
      (∀ place, render template values = .error (.invalid place) ↔
        left ≠ [] ∧ (∀ token ∈ tokens, token.IsSupplied values) ∧
          place = Position.start.after (tokens.flatMap Token.written)) := by
  obtain ⟨tokens, left, scans, fills⟩ := exists_scans template.toList
  have rendered : render template values = (fill values .start tokens left).map String.ofList := by
    rw [render, fills]
  have fault (f : Fault) : render template values = .error f ↔
      fill values .start tokens left = .error f := by
    rw [rendered]
    cases fill values .start tokens left <;> simp [Except.map]
  refine ⟨tokens, left, fun tokens' left' => ⟨scans_unique scans, ?_⟩,
    written_append_of_scans scans, unreadable_of_scans scans, rendered, fun text => ?_,
    fun name => (fault _).trans fill_eq_missing_iff,
    fun place => (fault _).trans fill_eq_invalid_iff⟩
  · rintro ⟨rfl, rfl⟩
    exact scans
  · rw [rendered]
    constructor
    · intro h
      cases hf : fill values .start tokens left with
      | error f =>
        rw [hf] at h
        cases h
      | ok content =>
        rw [hf] at h
        cases h
        obtain ⟨done, supplied, rfl⟩ := fill_eq_ok_iff.1 hf
        exact ⟨done, supplied, rfl⟩
    · rintro ⟨done, supplied, rfl⟩
      rw [fill_eq_ok_iff.2 ⟨done, supplied, rfl⟩]
      rfl

/-- The value of a name is not read again, and a name in braces ends at the first brace. -/
example : render "$a${b}$$" ((Values.empty.set "a" "$b").set "b" "x") = .ok "$bx$" := by
  decide +kernel

end VpnAuthority.Template
