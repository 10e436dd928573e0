import Mathlib.Data.List.DropRight
import VpnAuthority.Proofs.Outcome
import VpnAuthority.Proofs.Template.Rendering

/-! A template in two parts. What the second part renders to, or the fault in it, does not
depend on the first, except that the place of a fault is counted from the front of the
whole. Only a name without braces that ends the first part may go on in the second. -/
namespace VpnAuthority.Template

namespace Position

def lastWidth (text : List Char) : Nat := (text.rtakeWhile (· ≠ '\n')).length

theorem lastWidth_of_notMem {text : List Char} (h : '\n' ∉ text) :
    lastWidth text = text.length := by
  have : text.rtakeWhile (· ≠ '\n') = text := by
    rw [List.rtakeWhile_eq_self_iff]
    intro c hc
    rw [decide_eq_true_eq]
    rintro rfl
    exact h hc
  rw [lastWidth, this]

theorem after_eq (position : Position) (text : List Char) :
    position.after text =
      ⟨position.line + text.count '\n',
        if '\n' ∈ text then lastWidth text + 1 else position.column + text.length⟩ := by
  unfold lastWidth
  induction text using List.reverseRecOn with
  | nil => rfl
  | append_singleton text c ih =>
    rw [after_append, after_cons, after_nil, ih, next]
    by_cases hc : c = '\n'
    · subst hc
      rw [List.rtakeWhile_concat_neg _ _ _ (by decide)]
      simp [Nat.add_assoc]
    · rw [List.rtakeWhile_concat_pos _ _ _ (by simpa using hc)]
      by_cases hm : '\n' ∈ text
      · simp [hc, hm, Ne.symm hc]
      · simp [hc, hm, Ne.symm hc, Nat.add_assoc]

theorem start_after (text : List Char) :
    start.after text = ⟨1 + text.count '\n', lastWidth text + 1⟩ := by
  rw [after_eq]
  split
  · rfl
  · next h => rw [lastWidth_of_notMem h, Nat.add_comm text.length]; rfl

/-- A place in a text, counted from the front of what stands before the text: only the first
line is moved to the right. -/
def behind (front : List Char) (place : Position) : Position :=
  ⟨place.line + front.count '\n',
    if place.line = 1 then place.column + lastWidth front else place.column⟩

theorem start_after_append (front text : List Char) :
    start.after (front ++ text) = (start.after text).behind front := by
  rw [after_append, start_after front, after_eq, start_after text, behind]
  dsimp only
  by_cases h : '\n' ∈ text
  · have : 0 < text.count '\n' := List.count_pos_iff.2 h
    have below : ¬1 + text.count '\n' = 1 := by omega
    rw [if_pos h, if_neg below, Position.mk.injEq]
    exact ⟨by omega, rfl⟩
  · rw [if_neg h, List.count_eq_zero.2 h, if_pos rfl, lastWidth_of_notMem h, Position.mk.injEq]
    exact ⟨rfl, by omega⟩

end Position

def Fault.behind (front : List Char) : Fault → Fault
  | .missing name => .missing name
  | .invalid place => .invalid (place.behind front)

/-- Where a template begins matters only for the place of a fault. -/
theorem renderFrom_start_after (values : Values) (front template : List Char) :
    renderFrom values (Position.start.after front) template =
      (renderFrom values .start template).mapError (Fault.behind front) := by
  obtain ⟨tokens, left, -, fills⟩ := exists_scans template
  rw [fills, fills, fill, fill]
  cases tokens.findSome? (Token.missing? values) with
  | some name => rfl
  | none =>
    rw [← Position.after_append, Position.start_after_append]
    by_cases hl : left = []
    · rw [if_pos hl, if_pos hl, mapError_ok]
    · rw [if_neg hl, if_neg hl, mapError_error, Fault.behind]

/-- Whether the first of two texts ends with a name without braces that would go on in the
second. -/
def RunsInto (a b : List Char) : Prop :=
  (∃ tokens name, Scans a (tokens ++ [.reference (.plain name)]) []) ∧
    ∃ c ∈ b.head?, ContinuesName c

theorem RunsInto.of_starts {text rest b : List Char} {token : Token}
    (first : Starts text token rest) (h : RunsInto rest b) : RunsInto text b := by
  obtain ⟨⟨tokens, name, scans⟩, goesOn⟩ := h
  exact ⟨⟨token :: tokens, name, .token first scans⟩, goesOn⟩

theorem Starts.append {text rest b : List Char} {r : Reference}
    (h : Starts text (.reference r) rest) (apart : ¬RunsInto text b) :
    Starts (text ++ b) (.reference r) (rest ++ b) := by
  have last : rest = [] → ∀ name, r = .plain name → ∀ c ∈ b.head?, ¬ContinuesName c := by
    rintro rfl name rfl c hc continues
    exact apart ⟨⟨[], name, .token h .finished⟩, c, hc, continues⟩
  cases h with
  | dollar => exact .dollar
  | plain isName isWhole =>
    next name =>
    rw [List.cons_append, List.append_assoc]
    refine .plain isName fun c hc => ?_
    cases rest with
    | nil => exact last rfl name rfl c hc
    | cons d more => exact isWhole c hc
  | braced isName =>
    next name =>
    have := @Starts.braced name (rest ++ b) isName
    simpa using this

/-- A part that is rendered leaves the rest of a template as it is. The induction is on the
tokens of the part; the text in front of a dollar sign may go on in what follows. -/
theorem renderFrom_append {values : Values} {a b text : List Char} {tokens : List Token}
    {position : Position} (scans : Scans a tokens []) (apart : ¬RunsInto a b)
    (rendered : renderFrom values position a = .ok text) :
    renderFrom values position (a ++ b) =
      (renderFrom values (position.after a) b).map (text ++ ·) := by
  generalize hl : ([] : List Char) = left at scans
  induction scans generalizing position text with
  | finished =>
    rw [renderFrom_nil, Except.ok.injEq] at rendered
    subst rendered
    rw [List.nil_append, Position.after_nil, map_nil_append]
  | stuck unreadable => exact absurd hl.symm unreadable.ne_nil
  | @token whole rest _ token _ first more ih =>
    -- The rest of the part is rendered as well, behind what the token stands for.
    have goesOn {front value text : List Char}
        (inFront : (renderFrom values (position.after front) rest).map (value ++ ·) = .ok text) :
        (renderFrom values (position.after front) (rest ++ b)).map (value ++ ·) =
          (renderFrom values (position.after (front ++ rest)) b).map (text ++ ·) := by
      obtain ⟨inner, rendered, rfl⟩ := map_eq_ok.1 inFront
      rw [ih (fun h => apart (h.of_starts first)) rendered hl, Position.after_append,
        map_append_map]
    cases token with
    | text content =>
      cases first with
      | text isSome isPlain isWhole =>
        rw [renderFrom_text_append values position isPlain] at rendered
        rw [List.append_assoc, renderFrom_text_append values position isPlain]
        exact goesOn rendered
    | reference r =>
      rw [renderFrom_of_starts values position first] at rendered
      rw [renderFrom_of_starts values position (first.append apart)]
      rw [show whole = r.written ++ rest from Token.written_append_of_starts first]
      cases hv : r.value values with
      | error fault =>
        rw [hv] at rendered
        cases rendered
      | ok value =>
        rw [hv] at rendered
        exact goesOn rendered

private theorem render_append_eq {a b text : String} {values : Values}
    (rendered : render a values = .ok text) (apart : ¬RunsInto a.toList b.toList) :
    render (a ++ b) values =
      ((render b values).mapError (Fault.behind a.toList)).map (text ++ ·) := by
  obtain ⟨characters, inFront, rfl⟩ := map_eq_ok.1 rendered
  obtain ⟨tokens, left, scans, fills⟩ := exists_scans a.toList
  obtain ⟨rfl, -, -⟩ := fill_eq_ok_iff.1 ((fills values .start).symm.trans inFront)
  rw [render, String.toList_append, renderFrom_append scans apart inFront,
    renderFrom_start_after, render]
  cases renderFrom values .start b.toList with
  | error fault => rfl
  | ok more =>
    simp only [Except.map, mapError_ok, String.ofList_append]

/-- Behind a part that is rendered, a template goes on as if it began there, unless a name runs
from the one into the other: a text is put behind that of the first part, a missing name is the
same, and the place of a fault is moved down by the lines of the first part, and to the right by
the width of its last one if it is in the first line. -/
theorem render_append {a b text : String} {values : Values} (rendered : render a values = .ok text)
    (apart : ¬RunsInto a.toList b.toList) :
    (∀ more, render b values = .ok more → render (a ++ b) values = .ok (text ++ more)) ∧
    (∀ name, render b values = .error (.missing name) →
      render (a ++ b) values = .error (.missing name)) ∧
    ∀ line column, render b values = .error (.invalid ⟨line, column⟩) →
      render (a ++ b) values = .error (.invalid ⟨line + a.toList.count '\n',
        if line = 1 then column + (a.toList.rtakeWhile (· ≠ '\n')).length else column⟩) := by
  have whole := render_append_eq rendered apart
  refine ⟨fun more renderedMore => ?_, fun name missing => ?_, fun line column invalid => ?_⟩
  · rw [whole, renderedMore]
    rfl
  · rw [whole, missing]
    rfl
  · rw [whole, invalid]
    rfl

theorem render_append_lines :
    let values := (Values.empty.set "Host" "ü").set "Port" "$Host\n"
    render "remote\nü ${Host} $Port" values = .ok "remote\nü ü $Host\n" ∧
      ¬RunsInto "remote\nü ${Host} $Port".toList "-udp $1".toList ∧
      render "-udp $1" values = .error (.invalid ⟨1, 6⟩) ∧
      render ("remote\nü ${Host} $Port" ++ "-udp $1") values = .error (.invalid ⟨2, 21⟩) := by
  intro values
  have rendered : render "remote\nü ${Host} $Port" values = .ok "remote\nü ü $Host\n" := by
    decide +kernel
  have invalid : render "-udp $1" values = .error (.invalid ⟨1, 6⟩) := by decide +kernel
  have apart : ¬RunsInto "remote\nü ${Host} $Port".toList "-udp $1".toList := by
    rintro ⟨-, c, hc, continues⟩
    rw [← isNameChar_iff] at continues
    cases hc
    exact absurd continues (by decide)
  exact ⟨rendered, apart, invalid, (render_append rendered apart).2.2 1 6 invalid⟩

/-- Where a name does run into what follows, it is another name. -/
example : render ("$Host" ++ "s") (Values.empty.set "Host" "example.org") =
    .error (.missing "Hosts") := by
  decide +kernel

end VpnAuthority.Template
