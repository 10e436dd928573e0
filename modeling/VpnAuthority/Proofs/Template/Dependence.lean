import VpnAuthority.Proofs.Outcome
import VpnAuthority.Proofs.Template.Rendering

/-! What a rendering depends on. Which names have values decides whether a template is rendered,
and of what it fails otherwise; a value plays a part only if the template asks for its name. -/
namespace VpnAuthority.Template

namespace Values

def setAll (values : Values) (settings : List (String × String)) : Values :=
  settings.foldl (fun values (name, value) => values.set name value) values

def last? (settings : List (String × String)) (name : String) : Option String :=
  settings.reverse.lookup name

theorem get?_setAll (values : Values) (settings : List (String × String)) (name : String) :
    (values.setAll settings).get? name = (last? settings name).or (values.get? name) := by
  -- by induction on the settings, each of which takes the place of those in front of it
  induction settings generalizing values with
  | nil => rfl
  | cons setting more ih =>
    obtain ⟨other, value⟩ := setting
    have inOrder : values.setAll ((other, value) :: more) = (values.set other value).setAll more :=
      rfl
    rw [inOrder, ih, last?, last?, List.reverse_cons, List.lookup_append, Option.or_assoc, get?_set]
    by_cases h : name = other
    · simp [h]
    · simp [h, List.lookup_cons, beq_eq_false_iff_ne.2 h]

theorem get?_setAll_empty (settings : List (String × String)) (name : String) :
    (empty.setAll settings).get? name = last? settings name := by
  rw [get?_setAll, get?_empty, Option.or_none]

theorem isSome_last?_iff {settings : List (String × String)} {name : String} :
    (last? settings name).isSome ↔ name ∈ settings.map Prod.fst := by
  rw [last?, List.lookup_isSome_iff, List.mem_map]
  simp only [List.mem_reverse, beq_iff_eq, @eq_comm _ name]

end Values

/-- Whether a name is in one of the tokens of a template. Behind a dollar sign at which no token
starts, a template asks for nothing. -/
def AsksFor (template : List Char) (name : String) : Prop :=
  ∃ tokens left, Scans template tokens left ∧ ∃ token ∈ tokens, name ∈ token.name?

theorem Scans.asksFor_iff {template left : List Char} {tokens : List Token} {name : String}
    (h : Scans template tokens left) :
    AsksFor template name ↔ ∃ token ∈ tokens, name ∈ token.name? := by
  constructor
  · rintro ⟨tokens', left', h', asks⟩
    obtain ⟨rfl, rfl⟩ := scans_unique h h'
    exact asks
  · exact fun asks => ⟨tokens, left, h, asks⟩

section
variable {a b : Values} {tokens : List Token}

theorem Token.value_congr {token : Token}
    (same : ∀ name ∈ token.name?, a.get? name = b.get? name) : token.value a = token.value b := by
  cases token with
  | text content => rfl
  | reference r =>
    cases r with
    | dollar => rfl
    | plain name | braced name => simp only [value, same _ rfl]

theorem Token.missing?_congr {token : Token}
    (same : ∀ name ∈ token.name?, ((a.get? name).isSome ↔ (b.get? name).isSome)) :
    token.missing? a = token.missing? b := by
  unfold missing?
  cases h : token.name? with
  | none => rfl
  | some name =>
    have := same name h
    simp only [Option.filter_some, ← Option.not_isSome, Bool.eq_iff_iff.2 this]

theorem findSome?_missing_congr
    (same : ∀ token ∈ tokens, ∀ name ∈ token.name?,
      ((a.get? name).isSome ↔ (b.get? name).isSome)) :
    tokens.findSome? (Token.missing? a) = tokens.findSome? (Token.missing? b) := by
  induction tokens with
  | nil => rfl
  | cons token more ih =>
    obtain ⟨first, others⟩ := List.forall_mem_cons.1 same
    rw [List.findSome?_cons, List.findSome?_cons, Token.missing?_congr first, ih others]

theorem fill_congr (position : Position) (left : List Char)
    (same : ∀ token ∈ tokens, ∀ name ∈ token.name?, a.get? name = b.get? name) :
    fill a position tokens left = fill b position tokens left := by
  have missing := findSome?_missing_congr fun token ht name hn =>
    Eq.to_iff (congrArg (Option.isSome · = true) (same token ht name hn))
  have text : tokens.flatMap (Token.value a) = tokens.flatMap (Token.value b) :=
    List.flatMap_congr fun token ht => Token.value_congr (same token ht)
  rw [fill, fill, missing, text]

theorem fill_outcome_congr (position : Position) (left : List Char)
    (same : ∀ token ∈ tokens, ∀ name ∈ token.name?,
      ((a.get? name).isSome ↔ (b.get? name).isSome)) :
    (∃ text text', fill a position tokens left = .ok text ∧
        fill b position tokens left = .ok text') ∨
      ∃ fault, fill a position tokens left = .error fault ∧
        fill b position tokens left = .error fault := by
  rw [fill, fill, findSome?_missing_congr same]
  cases tokens.findSome? (Token.missing? b) with
  | some name => exact .inr ⟨_, rfl, rfl⟩
  | none =>
    by_cases hl : left = []
    · exact .inl ⟨_, _, if_pos hl, if_pos hl⟩
    · exact .inr ⟨_, if_neg hl, if_neg hl⟩

end

section
variable {template : String} {a b : Values}

theorem Scans.render_eq {tokens : List Token} {left : List Char}
    (h : Scans template.toList tokens left) (values : Values) :
    render template values = (fill values .start tokens left).map String.ofList := by
  obtain ⟨tokens', left', h', fills⟩ := exists_scans template.toList
  obtain ⟨rfl, rfl⟩ := scans_unique h h'
  rw [render, fills]

theorem Scans.render_of_supplied {tokens : List Token} (h : Scans template.toList tokens [])
    {values : Values} (supplied : ∀ token ∈ tokens, token.IsSupplied values) :
    render template values = .ok (String.ofList (tokens.flatMap (Token.value values))) := by
  rw [h.render_eq, fill_eq_ok_iff.2 ⟨rfl, supplied, rfl⟩]
  rfl

theorem render_congr
    (same : ∀ name, AsksFor template.toList name → a.get? name = b.get? name) :
    render template a = render template b := by
  obtain ⟨tokens, left, scans, -⟩ := exists_scans template.toList
  rw [scans.render_eq, scans.render_eq, fill_congr .start left fun token ht name hn =>
    same name (scans.asksFor_iff.2 ⟨token, ht, hn⟩)]

theorem render_set_congr {values : Values} {name : String}
    (notAsked : ¬AsksFor template.toList name) (value value' : String) :
    render template (values.set name value) = render template (values.set name value') :=
  render_congr fun other asks => by
    have isOther : other ≠ name := fun h => notAsked (h ▸ asks)
    rw [Values.get?_set, Values.get?_set, if_neg isOther, if_neg isOther]

variable (template) in
theorem render_outcome_congr
    (same : ∀ name, AsksFor template.toList name →
      ((a.get? name).isSome ↔ (b.get? name).isSome)) :
    (∃ text text', render template a = .ok text ∧ render template b = .ok text') ∨
      ∃ fault, render template a = .error fault ∧ render template b = .error fault := by
  obtain ⟨tokens, left, scans, -⟩ := exists_scans template.toList
  rw [scans.render_eq, scans.render_eq]
  obtain ⟨text, text', ha, hb⟩ | ⟨fault, ha, hb⟩ :=
    fill_outcome_congr .start left fun token ht name hn =>
      same name (scans.asksFor_iff.2 ⟨token, ht, hn⟩)
  · exact .inl ⟨_, _, by rw [ha]; rfl, by rw [hb]; rfl⟩
  · exact .inr ⟨fault, by rw [ha]; rfl, by rw [hb]; rfl⟩

theorem isSome_get?_of_render {text : String} (rendered : render template a = .ok text)
    {name : String} (asks : AsksFor template.toList name) : (a.get? name).isSome := by
  obtain ⟨tokens, left, scans, -⟩ := exists_scans template.toList
  rw [scans.render_eq, map_eq_ok] at rendered
  obtain ⟨content, filled, -⟩ := rendered
  obtain ⟨-, supplied, -⟩ := fill_eq_ok_iff.1 filled
  obtain ⟨token, ht, hn⟩ := scans.asksFor_iff.1 asks
  exact supplied token ht name hn

end

/-- Two renderings of a template by values that were set in any order. They are the same if the
names that the template asks for were last set to the same; further names change nothing in a
text; and if the same names were set, to whatever values, both are texts or both the same
fault. -/
theorem render_of_settings (template : String) (settings settings' : List (String × String)) :
    ((∀ name, AsksFor template.toList name →
        Values.last? settings name = Values.last? settings' name) →
      render template (Values.empty.setAll settings) =
        render template (Values.empty.setAll settings')) ∧
    (∀ text more, render template (Values.empty.setAll settings) = .ok text →
      (∀ name ∈ more.map Prod.fst, name ∉ settings.map Prod.fst) →
      render template (Values.empty.setAll (settings ++ more)) = .ok text) ∧
    ((∀ name, name ∈ settings.map Prod.fst ↔ name ∈ settings'.map Prod.fst) →
      (∃ text text', render template (Values.empty.setAll settings) = .ok text ∧
        render template (Values.empty.setAll settings') = .ok text') ∨
      ∃ fault, render template (Values.empty.setAll settings) = .error fault ∧
        render template (Values.empty.setAll settings') = .error fault) := by
  refine ⟨fun same => render_congr fun name asks => ?_, fun text more rendered further => ?_,
    fun same => render_outcome_congr template fun name _ => ?_⟩
  · rw [Values.get?_setAll_empty, Values.get?_setAll_empty, same name asks]
  · rw [← rendered]
    refine render_congr fun name asks => ?_
    have isSet := isSome_get?_of_render rendered asks
    rw [Values.get?_setAll_empty, Values.isSome_last?_iff] at isSet
    have isNotMore : Values.last? more name = none := by
      rw [← Option.not_isSome_iff_eq_none, Values.isSome_last?_iff]
      exact fun h => further name h isSet
    rw [Values.get?_setAll_empty, Values.get?_setAll_empty, Values.last?, List.reverse_append,
      List.lookup_append]
    change (Values.last? more name).or (Values.last? settings name) = _
    rw [isNotMore, Option.none_or]
  · rw [Values.get?_setAll_empty, Values.get?_setAll_empty, Values.isSome_last?_iff,
      Values.isSome_last?_iff, same name]

theorem render_of_settings_shadowed :
    let settings := [("a", "1"), ("b", "$a"), ("a", "x")]
    let settings' := [("b", "$a"), ("c", "y"), ("a", "x")]
    (∀ name, AsksFor "${a}$$ $b".toList name →
        Values.last? settings name = Values.last? settings' name) ∧
      render "${a}$$ $b" (Values.empty.setAll settings') = .ok "x$ $a" ∧
      render "${a}$$ $b" (Values.empty.setAll (settings ++ [("c", "$")])) = .ok "x$ $a" ∧
      ∃ text, render "${a}$$ $b" (Values.empty.setAll [("b", ""), ("a", "$1")]) = .ok text := by
  intro settings settings'
  have scans : Scans "${a}$$ $b".toList
      [.reference (.braced ['a']), .reference .dollar, .text [' '], .reference (.plain ['b'])] [] :=
    have a : IsIdentifier ['a'] := (isName_iff _).1 (by decide)
    have b : IsIdentifier ['b'] := (isName_iff _).1 (by decide)
    have space : Starts [' ', '$', 'b'] (.text [' ']) ['$', 'b'] :=
      @Starts.text [' '] ['$', 'b'] (by decide) (by decide) (by simp)
    .token (.braced a) (.token .dollar (.token space (.token (.plain b (by simp)) .finished)))
  have same : ∀ name, AsksFor "${a}$$ $b".toList name →
      Values.last? settings name = Values.last? settings' name := by
    intro name asks
    obtain ⟨token, ht, hn⟩ := scans.asksFor_iff.1 asks
    simp only [List.mem_cons, List.not_mem_nil, or_false] at ht
    rcases ht with rfl | rfl | rfl | rfl <;> cases hn <;> rfl
  have rendered : render "${a}$$ $b" (Values.empty.setAll settings) = .ok "x$ $a" := by
    decide +kernel
  refine ⟨same, ((render_of_settings _ settings settings').1 same).symm.trans rendered,
    (render_of_settings _ settings settings').2.1 _ _ rendered (by decide), ?_⟩
  have sameNames : ∀ name, name ∈ settings.map Prod.fst ↔ name ∈ [("b", ""), ("a", "$1")].map
      Prod.fst := by
    simp [settings, or_comm]
  obtain ⟨-, text, -, others⟩ | ⟨fault, refused, -⟩ :=
    (render_of_settings "${a}$$ $b" settings [("b", ""), ("a", "$1")]).2.2 sameNames
  · exact ⟨text, others⟩
  · rw [rendered] at refused
    cases refused

end VpnAuthority.Template
