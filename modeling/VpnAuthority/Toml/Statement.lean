import VpnAuthority.Toml.Scalar

/-! The statements of a settings document in the order of its lines: headers of
tables, and keys with their values. -/
namespace VpnAuthority.Toml

abbrev KeyPath := List String

/-- A value as it is written: an inline table still lists its keys with their
dots. -/
inductive Written where
  | scalar (value : Value)
  | array (items : List Written)
  | inlineTable (entries : List (KeyPath × Written))

inductive Statement where
  | header (path : KeyPath)
  | arrayHeader (path : KeyPath)
  | assignment (path : KeyPath) (value : Written)

def isBareKeyChar (c : Char) : Bool := c.isAlphanum || c == '_' || c == '-'

def skipBlanks (cs : List Char) : List Char := cs.dropWhile isBlank

def readSimpleKey : Reader String := fun cs =>
  match cs with
  | '"' :: rest => readBasic rest
  | '\'' :: rest => readLiteral rest
  | _ =>
    let name := cs.takeWhile isBareKeyChar
    if name.isEmpty then none else some (String.ofList name, cs.drop name.length)

def readDotted (cs : List Char) : Option (KeyPath × List Char) := do
  let (key, rest) ← readSimpleKey (skipBlanks cs)
  match skipBlanks rest with
  | '.' :: more => continueWith cs more fun more _ => do
    let (path, rest) ← readDotted more
    some (key :: path, rest)
  | rest => some ([key], rest)
termination_by cs.length

/-- Neither a key nor a nest of values is deeper than this. -/
def maxDepth : Nat := 79

def readKey : Reader KeyPath := fun cs => do
  let (path, rest) ← readDotted cs
  if path.length ≤ maxDepth then some (path, rest) else none

def dropGap (comment : Bool) : List Char → List Char
  | [] => []
  | '\r' :: '\n' :: rest => dropGap false rest
  | '\n' :: rest => dropGap false rest
  | c :: rest =>
    if comment then if isText c then dropGap true rest else c :: rest
    else if isBlank c then dropGap false rest
    else if c = '#' then dropGap true rest
    else c :: rest

/-- The items of an array behind its opening bracket, each read by `item`; a
comma may follow the last. -/
def readItems (item : Reader α) (cs : List Char) : Option (List α × List Char) :=
  match dropGap false cs with
  | ']' :: rest => some ([], rest)
  | front => do
    let (first, rest) ← item front
    match dropGap false rest with
    | ']' :: rest => some ([first], rest)
    | ',' :: rest => continueWith cs rest fun rest _ => do
      let (others, rest) ← readItems item rest
      some (first :: others, rest)
    | _ => none
termination_by cs.length

def readEntries (item : Reader α) (cs : List Char) : Option (List (KeyPath × α) × List Char) := do
  let (path, rest) ← readKey cs
  let (value, rest) ← item (skipBlanks (← expect '=' rest))
  match skipBlanks rest with
  | '}' :: rest => some ([(path, value)], rest)
  | ',' :: rest => continueWith cs rest fun rest _ => do
    let (others, rest) ← readEntries item rest
    some ((path, value) :: others, rest)
  | _ => none
termination_by cs.length

def readValue (depth : Nat) : Reader Written := fun cs =>
  match cs, depth with
  | '[' :: rest, depth + 1 => (readItems (readValue depth) rest).map fun (items, rest) =>
      (.array items, rest)
  | '{' :: rest, depth + 1 =>
    match skipBlanks rest with
    | '}' :: rest => some (.inlineTable [], rest)
    | rest => (readEntries (readValue depth) rest).map fun (entries, rest) =>
      (.inlineTable entries, rest)
  | _, _ => (readScalar cs).map fun (value, rest) => (.scalar value, rest)

def afterLine? (cs : List Char) : Option (List Char) :=
  let rest := match skipBlanks cs with
    | '#' :: rest => rest.dropWhile isText
    | rest => rest
  if rest.isEmpty then some [] else afterLineFeed? rest

def readHeader (closing : List Char) (make : KeyPath → Statement) : Reader Statement := fun cs => do
  let (path, rest) ← readKey cs
  let rest ← closing.foldlM (fun rest c => expect c rest) rest
  some (make path, ← afterLine? rest)

def readStatement : Reader Statement
  | '[' :: '[' :: rest => readHeader [']', ']'] .arrayHeader rest
  | '[' :: rest => readHeader [']'] .header rest
  | cs => do
    let (path, rest) ← readKey cs
    let (value, rest) ← readValue maxDepth (skipBlanks (← expect '=' rest))
    some (.assignment path value, ← afterLine? rest)

def readStatements (cs : List Char) : Option (List Statement) :=
  match skipBlanks cs with
  | [] => some []
  | '#' :: rest => do
    let rest ← afterLine? ('#' :: rest)
    continueWith cs rest fun rest _ => readStatements rest
  | front =>
    match afterLineFeed? front with
    | some rest => continueWith cs rest fun rest _ => readStatements rest
    | none => do
      let (statement, rest) ← readStatement front
      continueWith cs rest fun rest _ => (readStatements rest).map (statement :: ·)
termination_by cs.length

def Statement.ofText? (text : String) : Option (List Statement) :=
  match text.toList with
  | '\ufeff' :: rest => readStatements rest
  | cs => readStatements cs

end VpnAuthority.Toml
