import VpnAuthority.Text.Fields
import VpnAuthority.Toml.Value

/-! Strings, numbers and dates. Each reader takes its value from the front of the
text and gives the rest, or refuses. -/
namespace VpnAuthority.Toml

abbrev Reader (α : Type) := List Char → Option (α × List Char)

def isBlank (c : Char) : Bool := c == ' ' || c == '\t'

def isText (c : Char) : Bool := c == '\t' || (' ' ≤ c && c ≠ '\x7f')

def readCodePoint (count : Nat) : Reader Char := fun cs => do
  let digits := cs.take count
  let n ← Digits.read? 16 digits
  if digits.length = count ∧ n.isValidChar then some (Char.ofNat n, cs.drop count) else none

def readEscape : Reader Char
  | 'b' :: rest => some ('\x08', rest)
  | 't' :: rest => some ('\t', rest)
  | 'n' :: rest => some ('\n', rest)
  | 'f' :: rest => some ('\x0c', rest)
  | 'r' :: rest => some ('\r', rest)
  | '"' :: rest => some ('"', rest)
  | '\\' :: rest => some ('\\', rest)
  | 'u' :: rest => readCodePoint 4 rest
  | 'U' :: rest => readCodePoint 8 rest
  | _ => none

def afterLineFeed? : List Char → Option (List Char)
  | '\n' :: rest => some rest
  | '\r' :: '\n' :: rest => some rest
  | _ => none

def dropSpace : List Char → List Char
  | '\r' :: '\n' :: rest => dropSpace rest
  | c :: rest => if isBlank c || c == '\n' then dropSpace rest else c :: rest
  | [] => []

def readBasicFrom (text cs : List Char) : Option (String × List Char) :=
  match cs with
  | '"' :: rest => some (String.ofList text.reverse, rest)
  | '\\' :: behind => do
    let (c, rest) ← readEscape behind
    continueWith ('\\' :: behind) rest fun rest _ => readBasicFrom (c :: text) rest
  | c :: rest => if isText c then readBasicFrom (c :: text) rest else none
  | [] => none
termination_by cs.length
decreasing_by
  · assumption
  · simp

def readBasic : Reader String := readBasicFrom []

def readLiteral : Reader String := fun cs =>
  let text := cs.takeWhile fun c => c ≠ '\'' && isText c
  match cs.drop text.length with
  | '\'' :: rest => some (String.ofList text, rest)
  | _ => none

/-- At a run of marks inside a string of several lines: three marks close it,
and up to two before them belong to it. Says what the marks add to the text and
whether they close the string. -/
def readMarks (mark : Char) (cs : List Char) : Option (List Char × Bool × List Char) :=
  let run := cs.takeWhile (· == mark)
  let rest := cs.dropWhile (· == mark)
  if run.length < 3 then some (run, false, rest)
  else if run.length ≤ 5 then some (run.drop 3, true, rest)
  else none

/-- The rest of a string of several lines, of which `text` is read; with `escapes` a
backslash begins an escape, and one at the end of a line swallows the space up to the
next text. -/
def readLines (mark : Char) (escapes : Bool) (text cs : List Char) :
    Option (String × List Char) :=
  match cs with
  | [] => none
  | c :: behind =>
    if c = mark then do
      let (added, closed, rest) ← readMarks mark (c :: behind)
      if closed then some (String.ofList (added ++ text).reverse, rest)
      else continueWith (c :: behind) rest fun rest _ =>
        readLines mark escapes (added ++ text) rest
    else if c = '\\' ∧ escapes then
      match afterLineFeed? (behind.dropWhile isBlank) with
      | some _ => continueWith (c :: behind) (dropSpace behind) fun rest _ =>
        readLines mark escapes text rest
      | none => do
        let (escaped, rest) ← readEscape behind
        continueWith (c :: behind) rest fun rest _ => readLines mark escapes (escaped :: text) rest
    else
      match afterLineFeed? (c :: behind) with
      | some rest => continueWith (c :: behind) rest fun rest _ =>
        readLines mark escapes ('\n' :: text) rest
      | none => if isText c then readLines mark escapes (c :: text) behind else none
termination_by cs.length
decreasing_by
  · assumption
  · assumption
  · assumption
  · assumption
  · simp

def dropFirstLineFeed (cs : List Char) : List Char := (afterLineFeed? cs).getD cs

def readString : Reader String
  | '"' :: '"' :: '"' :: rest => readLines '"' true [] (dropFirstLineFeed rest)
  | '"' :: rest => readBasic rest
  | '\'' :: '\'' :: '\'' :: rest => readLines '\'' false [] (dropFirstLineFeed rest)
  | '\'' :: rest => readLiteral rest
  | _ => none

/-- Digits, at least one, in which an underscore may stand between two. -/
def readDigits (accepts : Char → Bool) : Reader (List Char)
  | [] => none
  | [c] => if accepts c then some ([c], []) else none
  | c :: next :: rest =>
    if !accepts c then none
    else if next = '_' then
      (readDigits accepts rest).map fun (digits, rest) => (c :: digits, rest)
    else if accepts next then
      (readDigits accepts (next :: rest)).map fun (digits, rest) => (c :: digits, rest)
    else some ([c], next :: rest)

def isDigitOf (base : Nat) (c : Char) : Bool := (Digits.value? c).any (· < base)

def maxInteger : Nat := 9223372036854775807

def readBased (base : Nat) : Reader Value := fun cs => do
  let (digits, rest) ← readDigits (isDigitOf base) cs
  let n ← Digits.read? base digits
  if n ≤ maxInteger then some (.integer n, rest) else none

def readExponent : Reader (Option Int)
  | 'e' :: rest | 'E' :: rest => do
    let (negative, rest) := match rest with
      | '+' :: rest => (false, rest)
      | '-' :: rest => (true, rest)
      | rest => (false, rest)
    let (digits, rest) ← readDigits Char.isDigit rest
    let n ← Digits.read? 10 digits
    some (some (if negative then -(n : Int) else n), rest)
  | cs => some (none, cs)

def readFraction : Reader (Option (List Char))
  | '.' :: rest => (readDigits Char.isDigit rest).map fun (digits, rest) => (some digits, rest)
  | cs => some (none, cs)

/-- A whole number of 64 bits, or the nearest float to a decimal. A decimal that
is too large for a float is refused, unless it is negative. -/
def readUnsigned (negative : Bool) : Reader Value := fun cs => do
  let (whole, rest) ← match cs with
    | '0' :: rest => some (['0'], rest)
    | cs => readDigits Char.isDigit cs
  let (fraction, rest) ← readFraction rest
  let (exponent, rest) ← readExponent rest
  if fraction.isNone ∧ exponent.isNone then
    let n ← Digits.read? 10 whole
    if negative ∧ n ≤ maxInteger + 1 then some (.integer (-(n : Int)), rest)
    else if ¬negative ∧ n ≤ maxInteger then some (.integer n, rest)
    else none
  else
    let places := fraction.getD []
    let digits ← Digits.read? 10 (whole ++ places)
    let value := Binary64.ofDecimal negative digits (exponent.getD 0 - places.length)
    if value = .infinite false then none else some (.float value, rest)

def readSigned (negative : Bool) : Reader Value
  | 'i' :: 'n' :: 'f' :: rest => some (.float (.infinite negative), rest)
  | 'n' :: 'a' :: 'n' :: rest => some (.float .nan, rest)
  | cs => readUnsigned negative cs

def readNumber : Reader Value
  | '+' :: rest => readSigned false rest
  | '-' :: rest => readSigned true rest
  | '0' :: 'x' :: rest => readBased 16 rest
  | '0' :: 'o' :: rest => readBased 8 rest
  | '0' :: 'b' :: rest => readBased 2 rest
  | cs => readSigned false cs

def readPart (count least greatest : Nat) : Reader Nat := fun cs => do
  let digits := cs.take count
  let n ← if digits.length = count ∧ digits.all Char.isDigit then Digits.read? 10 digits else none
  if least ≤ n ∧ n ≤ greatest then some (n, cs.drop count) else none

def expect (c : Char) : List Char → Option (List Char)
  | first :: rest => if first = c then some rest else none
  | [] => none

def daysInMonth (year month : Nat) : Nat :=
  if month = 2 then if year % 4 = 0 ∧ (year % 100 ≠ 0 ∨ year % 400 = 0) then 29 else 28
  else if month = 4 ∨ month = 6 ∨ month = 9 ∨ month = 11 then 30
  else 31

def afterDate? (cs : List Char) : Option (List Char) := do
  let (year, rest) ← readPart 4 0 9999 cs
  let (month, rest) ← readPart 2 1 12 (← expect '-' rest)
  let (_, rest) ← readPart 2 1 (daysInMonth year month) (← expect '-' rest)
  some rest

/-- A time may carry a leap second and any number of decimal places. -/
def afterTime? (cs : List Char) : Option (List Char) := do
  let (_, rest) ← readPart 2 0 23 cs
  let (_, rest) ← readPart 2 0 59 (← expect ':' rest)
  let (_, rest) ← readPart 2 0 60 (← expect ':' rest)
  match rest with
  | '.' :: more =>
    if more.head?.any Char.isDigit then some (more.dropWhile Char.isDigit) else some rest
  | _ => some rest

def afterOffset? : List Char → Option (List Char)
  | 'Z' :: rest | 'z' :: rest => some rest
  | '+' :: rest | '-' :: rest => do
    let (_, rest) ← readPart 2 0 23 rest
    let (_, rest) ← readPart 2 0 59 (← expect ':' rest)
    some rest
  | rest => some rest

def afterDateTime? (cs : List Char) : Option (List Char) :=
  if cs[4]? = some '-' then do
    let rest ← afterDate? cs
    match rest with
    | [] => some []
    | delimiter :: more =>
      if (delimiter = 'T' ∨ delimiter = 't' ∨ delimiter = ' ') ∧ more.head?.any Char.isDigit then do
        afterOffset? (← afterTime? more)
      else some rest
  else afterTime? cs

def beginsDateTime (cs : List Char) : Bool :=
  ((cs.take 4).all Char.isDigit && cs[4]? == some '-')
    || ((cs.take 2).all Char.isDigit && cs[2]? == some ':')

def readDateTime : Reader Value := fun cs => do
  let rest ← afterDateTime? cs
  some (.dateTime (String.ofList (cs.take (cs.length - rest.length))), rest)

def readScalar : Reader Value := fun cs =>
  match cs with
  | '"' :: _ | '\'' :: _ => (readString cs).map fun (text, rest) => (.string text, rest)
  | 't' :: 'r' :: 'u' :: 'e' :: rest => some (.boolean true, rest)
  | 'f' :: 'a' :: 'l' :: 's' :: 'e' :: rest => some (.boolean false, rest)
  | _ => if beginsDateTime cs then readDateTime cs else readNumber cs

end VpnAuthority.Toml
