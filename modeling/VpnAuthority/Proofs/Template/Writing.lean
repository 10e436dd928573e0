import VpnAuthority.Proofs.Outcome
import VpnAuthority.Proofs.Template.Rendering

/-! Templates that are written for a text. Whatever a text is made of, there is a template for
it, and a template written by the rules gives the text that it was written for. -/
namespace VpnAuthority.Template

/-- What a text is made of: characters that stand for themselves, and values by their names. -/
inductive Piece where
  | literal (text : String)
  | value (name : String)
  deriving DecidableEq, Repr

def Piece.text (values : Values) : Piece → String
  | literal text => text
  | value name => (values.get? name).getD ""

def Piece.IsSupplied (values : Values) : Piece → Prop
  | literal _ => True
  | value name => IsIdentifier name.toList ∧ (values.get? name).isSome

/-- Characters as they are written in a template: a dollar sign twice, any other as it is. -/
def doubled (text : List Char) : List Char :=
  text.flatMap fun c => if c = '$' then ['$', '$'] else [c]

/-- The templates that some pieces may be written as. A name needs no braces where it ends
with the template or where a character follows that no name has. -/
inductive Spells : List Piece → List Char → Prop
  | nil : Spells [] []
  | literal {text : String} {pieces : List Piece} {rest : List Char} (more : Spells pieces rest) :
      Spells (.literal text :: pieces) (doubled text.toList ++ rest)
  | braced {name : String} {pieces : List Piece} {rest : List Char} (more : Spells pieces rest) :
      Spells (.value name :: pieces) ('$' :: '{' :: (name.toList ++ '}' :: rest))
  | plain {name : String} {pieces : List Piece} {rest : List Char}
      (ends : ∀ c ∈ rest.head?, ¬ContinuesName c) (more : Spells pieces rest) :
      Spells (.value name :: pieces) ('$' :: (name.toList ++ rest))

theorem exists_spells (pieces : List Piece) : ∃ template, Spells pieces template := by
  induction pieces with
  | nil => exact ⟨_, .nil⟩
  | cons piece rest ih =>
    obtain ⟨template, more⟩ := ih
    cases piece with
    | literal text => exact ⟨_, .literal more⟩
    | value name => exact ⟨_, .braced more⟩

theorem renderFrom_doubled_append (values : Values) (position : Position) (text rest : List Char) :
    renderFrom values position (doubled text ++ rest) =
      (renderFrom values (position.after (doubled text)) rest).map (text ++ ·) := by
  induction text generalizing position with
  | nil => rw [doubled, List.flatMap_nil, List.nil_append, Position.after_nil, map_nil_append]
  | cons c text ih =>
    have split : doubled (c :: text) = (if c = '$' then ['$', '$'] else [c]) ++ doubled text := rfl
    rw [split, List.append_assoc, Position.after_append]
    by_cases hc : c = '$'
    · subst hc
      have dollar : Starts (['$', '$'] ++ (doubled text ++ rest)) (.reference .dollar)
          (doubled text ++ rest) := .dollar
      rw [if_pos rfl, renderFrom_of_starts values position dollar, ih]
      exact map_append_map _ ['$'] text
    · have isPlain : '$' ∉ [c] := by simpa using Ne.symm hc
      rw [if_neg hc, renderFrom_text_append values position isPlain, ih]
      exact map_append_map _ [c] text

theorem renderFrom_of_supplied {values : Values} {name : String} {text rest : List Char}
    {r : Reference} (position : Position) (starts : Starts text (.reference r) rest)
    (isReference : r = .plain name.toList ∨ r = .braced name.toList)
    (supplied : (Piece.value name).IsSupplied values) :
    renderFrom values position text =
      (renderFrom values (position.after r.written) rest).map
        (((Piece.value name).text values).toList ++ ·) := by
  obtain ⟨-, isSome⟩ := supplied
  obtain ⟨value, hv⟩ := Option.isSome_iff_exists.1 isSome
  have replaced : r.value values = .ok value.toList := by
    rcases isReference with rfl | rfl <;> simp [Reference.value, hv]
  rw [renderFrom_of_starts values position starts, replaced, Piece.text, hv]
  rfl

theorem renderFrom_of_spells {values : Values} {pieces : List Piece} {template : List Char}
    (spells : Spells pieces template) (supplied : ∀ piece ∈ pieces, piece.IsSupplied values)
    (position : Position) :
    renderFrom values position template =
      .ok (pieces.flatMap fun piece => (piece.text values).toList) := by
  -- by induction on the rules by which the template is written
  induction spells generalizing position with
  | nil => exact renderFrom_nil values position
  | literal more ih =>
    obtain ⟨-, others⟩ := List.forall_mem_cons.1 supplied
    rw [renderFrom_doubled_append, ih others]
    rfl
  | braced more ih =>
    obtain ⟨first, others⟩ := List.forall_mem_cons.1 supplied
    rw [renderFrom_of_supplied position (.braced first.1) (.inr rfl) first, ih others]
    rfl
  | plain ends more ih =>
    obtain ⟨first, others⟩ := List.forall_mem_cons.1 supplied
    rw [renderFrom_of_supplied position (.plain first.1 ends) (.inl rfl) first, ih others]
    rfl

/-- Any pieces whose names have values can be written, and however they are written, rendering
gives their texts one behind the other: a dollar sign that stands for itself is never read with
what is next to it, and a value is not read at all. -/
theorem render_of_spells (pieces : List Piece) (values : Values)
    (supplied : ∀ piece ∈ pieces, piece.IsSupplied values) :
    (∃ template : String, Spells pieces template.toList) ∧
    ∀ template : String, Spells pieces template.toList →
      render template values =
        .ok (String.ofList (pieces.flatMap fun piece => (piece.text values).toList)) := by
  constructor
  · obtain ⟨template, spells⟩ := exists_spells pieces
    refine ⟨String.ofList template, ?_⟩
    rwa [String.toList_ofList]
  · intro template spells
    rw [render, renderFrom_of_spells spells supplied]
    rfl

theorem render_of_spells_dollars :
    let values := (Values.empty.set "a" "$b").set "b" "${a}"
    let pieces := [Piece.literal "1$", .value "a", .literal "$\x7b", .value "b", .literal "",
      .value "a"]
    (∀ piece ∈ pieces, piece.IsSupplied values) ∧
      Spells pieces "1$$$a$$\x7b${b}$a".toList ∧
      render "1$$$a$$\x7b${b}$a" values = .ok "1$$b$\x7b${a}$b" := by
  intro values pieces
  have supplied : ∀ piece ∈ pieces, piece.IsSupplied values := by
    have a : (Piece.value "a").IsSupplied values := ⟨(isName_iff _).1 (by decide), by decide⟩
    have b : (Piece.value "b").IsSupplied values := ⟨(isName_iff _).1 (by decide), by decide⟩
    simp only [pieces, List.forall_mem_cons]
    exact ⟨trivial, a, trivial, b, trivial, a, by simp⟩
  have spells : Spells pieces "1$$$a$$\x7b${b}$a".toList := by
    have ends : ∀ c ∈ (doubled "$\x7b".toList ++ ('$' :: '\x7b' :: ("b".toList ++ '}' ::
        (doubled "".toList ++ '$' :: ("a".toList ++ []))))).head?, ¬ContinuesName c := by
      intro c hc
      cases hc
      exact not_continuesName_of_eq (.inl rfl)
    exact .literal (.plain ends (.literal (.braced (.literal (.plain (by simp) .nil)))))
  have rendered := (render_of_spells pieces values supplied).2 _ spells
  have text : String.ofList (pieces.flatMap fun piece => (piece.text values).toList) =
      "1$$b$\x7b${a}$b" := by decide +kernel
  rw [text] at rendered
  exact ⟨supplied, spells, rendered⟩

end VpnAuthority.Template
