import Mathlib.Data.List.Basic
import VpnAuthority.Template

/-! Templates in two phases. A template is first cut into tokens, by rules that do not
mention values; then the tokens are filled in. Rendering, which does both at once, gives
the same text or the same fault. -/
namespace VpnAuthority.Template

def BeginsName (c : Char) : Prop :=
  ('A' ≤ c ∧ c ≤ 'Z') ∨ ('a' ≤ c ∧ c ≤ 'z') ∨ c = '_'

def ContinuesName (c : Char) : Prop := BeginsName c ∨ ('0' ≤ c ∧ c ≤ '9')

def IsIdentifier (name : List Char) : Prop :=
  ∃ c rest, name = c :: rest ∧ BeginsName c ∧ ∀ d ∈ rest, ContinuesName d

inductive Token where
  | text (content : List Char)
  | reference (reference : Reference)
  deriving DecidableEq, Repr

namespace Token

def written : Token → List Char
  | text content => content
  | reference r => r.written

def name? : Token → Option String
  | reference (.plain name) | reference (.braced name) => some (String.ofList name)
  | _ => none

def value (values : Values) : Token → List Char
  | text content => content
  | reference .dollar => ['$']
  | reference (.plain name) | reference (.braced name) =>
    ((values.get? (String.ofList name)).getD "").toList

def IsSupplied (values : Values) (token : Token) : Prop :=
  ∀ name ∈ token.name?, (values.get? name).isSome

def missing? (values : Values) (token : Token) : Option String :=
  token.name?.filter fun name => (values.get? name).isNone

end Token

/-- Which token stands at the front of a text, and what is left behind it. Text and
names without braces are as long as they can be. -/
inductive Starts : List Char → Token → List Char → Prop
  | text {content rest : List Char} (isSome : content ≠ []) (isPlain : '$' ∉ content)
      (isWhole : ∀ c ∈ rest.head?, c = '$') : Starts (content ++ rest) (.text content) rest
  | dollar {rest : List Char} : Starts ('$' :: '$' :: rest) (.reference .dollar) rest
  | plain {name rest : List Char} (isName : IsIdentifier name)
      (isWhole : ∀ c ∈ rest.head?, ¬ContinuesName c) :
      Starts ('$' :: (name ++ rest)) (.reference (.plain name)) rest
  | braced {name rest : List Char} (isName : IsIdentifier name) :
      Starts ('$' :: '{' :: (name ++ '}' :: rest)) (.reference (.braced name)) rest

/-- The texts whose first dollar sign, at their front, starts no token. -/
inductive Unreadable : List Char → Prop
  | atEnd : Unreadable ['$']
  | noName {c : Char} {rest : List Char} (noDollar : c ≠ '$') (noBrace : c ≠ '{')
      (noName : ¬BeginsName c) : Unreadable ('$' :: c :: rest)
  | unclosed {rest : List Char} (isOpen : '}' ∉ rest) : Unreadable ('$' :: '{' :: rest)
  | notAName {name rest : List Char} (isUpToBrace : '}' ∉ name) (noName : ¬IsIdentifier name) :
      Unreadable ('$' :: '{' :: (name ++ '}' :: rest))

/-- The tokens of a text from the left, and the rest at which no token starts. -/
inductive Scans : List Char → List Token → List Char → Prop
  | finished : Scans [] [] []
  | stuck {template : List Char} (h : Unreadable template) : Scans template [] template
  | token {template rest left : List Char} {token : Token} {tokens : List Token}
      (first : Starts template token rest) (more : Scans rest tokens left) :
      Scans template (token :: tokens) left

/-- The second phase. The first token whose value is missing decides; a rest that could
not be read is a fault at the place where it begins. -/
def fill (values : Values) (position : Position) (tokens : List Token) (left : List Char) :
    Except Fault (List Char) :=
  match tokens.findSome? (Token.missing? values) with
  | some name => .error (.missing name)
  | none =>
    if left = [] then .ok (tokens.flatMap (Token.value values))
    else .error (.invalid (position.after (tokens.flatMap Token.written)))

theorem isNameStart_iff (c : Char) : isNameStart c = true ↔ BeginsName c := by
  have upper : c.isUpper = decide ('A'.val ≤ c.val ∧ c.val ≤ 'Z'.val) := rfl
  have lower : c.isLower = (decide ('a'.val ≤ c.val) && decide (c.val ≤ 'z'.val)) := rfl
  have alpha : c.isAlpha = (c.isUpper || c.isLower) := rfl
  simp only [isNameStart, BeginsName, alpha, upper, lower, Bool.or_eq_true, Bool.and_eq_true,
    decide_eq_true_eq, beq_iff_eq, Char.le_def, or_assoc]

theorem isNameChar_iff (c : Char) : isNameChar c = true ↔ ContinuesName c := by
  have h := isNameStart_iff c
  simp only [isNameStart, Bool.or_eq_true, beq_iff_eq] at h
  simp only [isNameChar, ContinuesName, Char.isAlphanum, Char.isDigit, Bool.or_eq_true,
    Bool.and_eq_true, decide_eq_true_eq, beq_iff_eq, ← h, Char.le_def]
  constructor
  · rintro ((ha | hd) | hu)
    · exact .inl (.inl ha)
    · exact .inr hd
    · exact .inl (.inr hu)
  · rintro ((ha | hu) | hd)
    · exact .inl (.inl ha)
    · exact .inr hu
    · exact .inl (.inr hd)

theorem isName_iff (name : List Char) : isName name = true ↔ IsIdentifier name := by
  cases name with
  | nil => simp [isName, IsIdentifier]
  | cons c rest =>
    simp only [isName, Bool.and_eq_true, isNameStart_iff, List.all_eq_true, isNameChar_iff]
    constructor
    · rintro ⟨hc, hrest⟩
      exact ⟨c, rest, rfl, hc, hrest⟩
    · rintro ⟨_, _, h, hc, hrest⟩
      cases h
      exact ⟨hc, hrest⟩

theorem IsIdentifier.continuesName {name : List Char} (h : IsIdentifier name) :
    ∀ c ∈ name, ContinuesName c := by
  obtain ⟨c, rest, rfl, hc, hrest⟩ := h
  intro d hd
  rcases List.mem_cons.1 hd with rfl | hd
  · exact .inl hc
  · exact hrest d hd

theorem not_continuesName_of_eq {c : Char} (h : c = '$' ∨ c = '{' ∨ c = '}') :
    ¬ContinuesName c := by
  rw [← isNameChar_iff]
  rcases h with rfl | rfl | rfl <;> decide

end VpnAuthority.Template
