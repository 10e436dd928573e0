import VpnAuthority.Toml.Statement

/-! The table that a document defines. Statements may define parts of one table
in several places, but each table and each key once; what counts as a second
definition depends on how a table came to be. -/
namespace VpnAuthority.Toml

/-- How a table came to be: by its own header or braces, by the header of a table
inside it, or by a dotted key. -/
inductive Origin where
  | own
  | implied
  | dotted
  deriving DecidableEq, Repr

/-- A table under construction, its keys in the order of their definition. Of the
tables that share an array the latest stands first. -/
inductive Node where
  | value (value : Value)
  | table (origin : Origin) (entries : List (String × Node))
  | tables (all : List (List (String × Node)))

abbrev Entries := List (String × Node)

namespace Entries

def put (entries : Entries) (key : String) (node : Node) : Entries :=
  entries.map fun (other, old) => if other = key then (key, node) else (other, old)

/-- Changes the table at the end of a path of headers. Tables that are missing on
the way are implied; an array stands for its latest table. -/
def under (change : Entries → Option Entries) : KeyPath → Entries → Option Entries
  | [], entries => change entries
  | key :: path, entries =>
    match entries.lookup key with
    | none => do some (entries ++ [(key, .table .implied (← under change path []))])
    | some (.table origin inner) => do
      some (entries.put key (.table origin (← under change path inner)))
    | some (.tables (latest :: earlier)) => do
      some (entries.put key (.tables ((← under change path latest) :: earlier)))
    | some _ => none

/-- Defines the key at the end of a dotted path. The tables on the way are made
by dotted keys alone, and a key is defined once. -/
def define (node : Node) : KeyPath → Entries → Option Entries
  | [], _ => none
  | [key], entries =>
    if (entries.lookup key).isSome then none else some (entries ++ [(key, node)])
  | key :: next :: path, entries =>
    match entries.lookup key with
    | none => do some (entries ++ [(key, .table .dotted (← define node (next :: path) []))])
    | some (.table .own _) => none
    | some (.table origin inner) =>
      if path.isEmpty ∧ origin ≠ .dotted then none
      else do some (entries.put key (.table origin (← define node (next :: path) inner)))
    | some (.tables (latest :: earlier)) =>
      if path.isEmpty then none
      else do some (entries.put key (.tables ((← define node (next :: path) latest) :: earlier)))
    | some _ => none

end Entries

mutual

def Node.toValue : Node → Value
  | .value inner => inner
  | .table _ entries => .table (Node.entryValues entries)
  | .tables all => .array (Node.tableValues all).reverse

def Node.entryValues : List (String × Node) → List (String × Value)
  | [] => []
  | (key, node) :: rest => (key, node.toValue) :: Node.entryValues rest

def Node.tableValues : List (List (String × Node)) → List Value
  | [] => []
  | entries :: rest => .table (Node.entryValues entries) :: Node.tableValues rest

end

mutual

/-- The value of a written one; an inline table obeys the rules of dotted keys. -/
def Written.toValue? : Written → Option Value
  | .scalar value => some value
  | .array items => (Written.itemValues? items).map .array
  | .inlineTable entries =>
    (Written.entryValues? entries []).map fun entries => (Node.table .own entries).toValue

def Written.itemValues? : List Written → Option (List Value)
  | [] => some []
  | item :: rest => do some ((← item.toValue?) :: (← Written.itemValues? rest))

def Written.entryValues? : List (KeyPath × Written) → Entries → Option Entries
  | [], entries => some entries
  | (path, written) :: rest, entries => do
    let value ← written.toValue?
    Written.entryValues? rest (← entries.define (.value value) path)

end

structure Section where
  header : Option (KeyPath × Bool)
  assignments : List (KeyPath × Written)

def sections : List Statement → Section × List Section
  | [] => (⟨none, []⟩, [])
  | .assignment path value :: rest =>
    let (head, others) := sections rest
    (⟨none, (path, value) :: head.assignments⟩, others)
  | .header path :: rest =>
    let (head, others) := sections rest
    (⟨none, []⟩, ⟨some (path, false), head.assignments⟩ :: others)
  | .arrayHeader path :: rest =>
    let (head, others) := sections rest
    (⟨none, []⟩, ⟨some (path, true), head.assignments⟩ :: others)

def Entries.assign (entries : Entries) (assignments : List (KeyPath × Written)) : Option Entries :=
  Written.entryValues? assignments entries

/-- Adds a section to the table that holds the last key of its header. A table that was
only implied so far takes its place behind the tables defined before. -/
def Entries.addSection (entries : Entries) (section' : Section) : Option Entries :=
  match section'.header with
  | none => entries.assign section'.assignments
  | some (path, inArray) =>
    match path.getLast? with
    | none => none
    | some key =>
      entries.under (fun parent =>
        match parent.lookup key, inArray with
        | none, false => do
          some (parent ++ [(key, .table .own (← Entries.assign [] section'.assignments))])
        | some (.table .implied inner), false => do
          let inner ← Entries.assign inner section'.assignments
          some (parent.filter (fun entry => entry.1 ≠ key) ++ [(key, .table .own inner)])
        | none, true => do
          some (parent ++ [(key, .tables [← Entries.assign [] section'.assignments])])
        | some (.tables all), true => do
          some (parent.put key (.tables ((← Entries.assign [] section'.assignments) :: all)))
        | _, _ => none) path.dropLast

/-- The table of a document, or nothing if the text is no document. -/
def parse? (text : String) : Option (List (String × Value)) := do
  let (head, others) := sections (← Statement.ofText? text)
  let entries ← (head :: others).foldlM Entries.addSection []
  some (Node.entryValues entries)

end VpnAuthority.Toml
