/-! Configuration templates: text with placeholders written `$Name` or
`${Name}`, in which `$$` stands for one dollar sign. Rendering reads the
template once from left to right and never looks at an inserted value again. -/
namespace VpnAuthority.Template

/-- A place in a text, both numbers counted from one and the column in code
points. -/
structure Position where
  line : Nat
  column : Nat
  deriving DecidableEq, Repr

namespace Position

def start : Position := ⟨1, 1⟩

/-- The place behind a character; only a line feed begins a line. -/
def next (position : Position) (c : Char) : Position :=
  if c = '\n' then ⟨position.line + 1, 1⟩ else ⟨position.line, position.column + 1⟩

def after (position : Position) (text : List Char) : Position := text.foldl next position

@[simp] theorem after_nil (position : Position) : position.after [] = position := rfl

@[simp] theorem after_cons (position : Position) (c : Char) (text : List Char) :
    position.after (c :: text) = (position.next c).after text := rfl

@[simp] theorem after_append (position : Position) (a b : List Char) :
    position.after (a ++ b) = (position.after a).after b := by
  simp [after]

end Position

inductive Fault where
  | missing (name : String)
  | invalid (position : Position)
  deriving DecidableEq, Repr

def Fault.message : Fault → String
  | .missing name => s!"placeholder ${name} is not supplied"
  | .invalid position =>
    s!"invalid placeholder at line {position.line}, column {position.column}"

/-- The supplied values, the latest first. -/
structure Values where
  entries : List (String × String)

namespace Values

def empty : Values := ⟨[]⟩

def set (values : Values) (name value : String) : Values := ⟨(name, value) :: values.entries⟩

def get? (values : Values) (name : String) : Option String := values.entries.lookup name

@[simp] theorem get?_empty (name : String) : empty.get? name = none := rfl

theorem get?_set (values : Values) (name value other : String) :
    (values.set name value).get? other =
      if other = name then some value else values.get? other := by
  by_cases h : other = name
  · simp [get?, set, h]
  · simp [get?, set, List.lookup_cons, h, beq_eq_false_iff_ne.2 h]

end Values

def isNameStart (c : Char) : Bool := c.isAlpha || c == '_'

def isNameChar (c : Char) : Bool := c.isAlphanum || c == '_'

def isName : List Char → Bool
  | [] => false
  | c :: rest => isNameStart c && rest.all isNameChar

inductive Reference where
  | dollar
  | plain (name : List Char)
  | braced (name : List Char)
  deriving DecidableEq, Repr

namespace Reference

def written : Reference → List Char
  | .dollar => ['$', '$']
  | .plain name => '$' :: name
  | .braced name => '$' :: '{' :: name ++ ['}']

def value (values : Values) : Reference → Except Fault (List Char)
  | .dollar => .ok ['$']
  | .plain name | .braced name =>
    match values.get? (String.ofList name) with
    | some text => .ok text.toList
    | none => .error (.missing (String.ofList name))

/-- Reads what stands behind a dollar sign. A name without braces is as long as
its characters allow, one in braces ends at the first closing brace. -/
def read? : List Char → Option (Reference × List Char)
  | '$' :: rest => some (.dollar, rest)
  | '{' :: text =>
    let name := text.takeWhile (· ≠ '}')
    match text.dropWhile (· ≠ '}') with
    | _ :: rest => if isName name then some (.braced name, rest) else none
    | [] => none
  | text =>
    let name := text.takeWhile isNameChar
    if isName name then some (.plain name, text.dropWhile isNameChar) else none

theorem written_append_of_read? {text rest : List Char} {reference : Reference}
    (h : read? text = some (reference, rest)) : '$' :: text = reference.written ++ rest := by
  unfold read? at h
  split at h
  · cases h; rfl
  · next text =>
    dsimp only at h
    split at h
    · next closing tail ht =>
      split at h
      · cases h
        have hc : closing = '}' := by
          have := List.head?_dropWhile_not (fun c : Char => decide (c ≠ '}')) text
          rw [ht] at this
          simpa using this
        have := List.takeWhile_append_dropWhile (p := fun c : Char => decide (c ≠ '}')) (l := text)
        rw [ht, hc] at this
        simpa [written] using this.symm
      · cases h
    · cases h
  · dsimp only at h
    split at h
    · cases h
      simp [written, List.takeWhile_append_dropWhile]
    · cases h

theorem length_lt_of_read? {text rest : List Char} {reference : Reference}
    (h : read? text = some (reference, rest)) : rest.length < text.length + 1 := by
  have := congrArg List.length (written_append_of_read? h)
  cases reference <;> simp [written] at this <;> omega

end Reference

/-- Renders `template`, which begins at `position` of the whole. Text up to the
next dollar sign is kept; the leftmost reference that has a fault decides. -/
def renderFrom (values : Values) (position : Position) (template : List Char) :
    Except Fault (List Char) :=
  let text := template.takeWhile (· ≠ '$')
  match _h : template.dropWhile (· ≠ '$') with
  | [] => .ok text
  | _ :: behind =>
    match _hr : Reference.read? behind with
    | none => .error (.invalid (position.after text))
    | some (reference, rest) => do
      let value ← reference.value values
      let more ← renderFrom values ((position.after text).after reference.written) rest
      .ok (text ++ value ++ more)
termination_by template.length
decreasing_by
  have h1 := Reference.length_lt_of_read? _hr
  have h2 := (List.dropWhile_sublist (l := template) (fun c : Char => decide (c ≠ '$'))).length_le
  rw [_h, List.length_cons] at h2
  omega

def render (template : String) (values : Values) : Except Fault String :=
  (renderFrom values .start template.toList).map String.ofList

end VpnAuthority.Template
