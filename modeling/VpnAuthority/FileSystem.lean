import VpnAuthority.Text.Fields
import VpnAuthority.Text.Utf8

/-! A tree of files, directories and links. A path is read from the top of the tree, where one
works, link by link and directory by directory; what it leads to is a node, or a free place
where a node may be put. -/
namespace VpnAuthority

inductive FileFault where
  | notFound
  | alreadyExists
  | isADirectory
  | notADirectory
  | notText
  | invalidPath
  | nameTooLong
  | linkLoop
  deriving DecidableEq, Repr

inductive Access where
  | owner
  | everyone
  deriving DecidableEq, Repr

inductive Node where
  | file (content : Bytes) (access : Access)
  | directory
  | link (target : String)
  deriving DecidableEq, Repr

abbrev Place := List String

structure FileSystem where
  nodes : List (Place × Node)
  deriving DecidableEq

namespace Path

def steps (path : String) : List String :=
  (fields (· == '/') path.toList).map String.ofList

/-- Whether a path begins with a slash: it is read from the top wherever it stands. -/
def isAbsolute : List String → Bool
  | "" :: _ :: _ => true
  | _ => false

/-- The steps in front of the last name, none of which stays in place but for the first slash. -/
def parentSteps (steps : List String) : List String :=
  let above := (steps.filter fun s => s ≠ "" ∧ s ≠ ".").dropLast
  if isAbsolute steps && !above.isEmpty then "" :: above else above

def isSlash (steps : List String) : Bool := !steps.isEmpty && steps.all (· == "")

def maxLength : Nat := 4095

def maxNameLength : Nat := 255

def maxLinks : Nat := 40

def length (steps : List String) : Nat := ("/".intercalate steps).utf8ByteSize

def check (steps : List String) : Except FileFault Unit :=
  if steps.any (·.toList.contains '\x00') then .error .invalidPath
  else if steps = [""] then .error .notFound
  else if maxLength < length steps then .error .nameTooLong
  else .ok ()

end Path

namespace FileSystem

def empty : FileSystem := ⟨[]⟩

def get? (files : FileSystem) (place : Place) : Option Node :=
  if place = [] then some .directory else files.nodes.lookup place

def erase (files : FileSystem) (place : Place) : FileSystem :=
  ⟨files.nodes.filter (·.1 ≠ place)⟩

def insert (files : FileSystem) (place : Place) (node : Node) : FileSystem :=
  ⟨(place, node) :: (files.erase place).nodes⟩

@[simp] theorem get?_nil (files : FileSystem) : files.get? [] = some .directory := rfl

theorem lookup_filter_ne (nodes : List (Place × Node)) (place other : Place) :
    (nodes.filter (·.1 ≠ place)).lookup other =
      if other = place then none else nodes.lookup other := by
  induction nodes with
  | nil => simp
  | cons entry rest ih =>
    obtain ⟨at', node⟩ := entry
    by_cases h : at' = place
    · subst h
      rw [List.filter_cons_of_neg (by simp), ih, List.lookup_cons]
      split
      · rfl
      · rw [beq_eq_false_iff_ne.2 ‹_›]
    · rw [List.filter_cons_of_pos (by simpa using h), List.lookup_cons, List.lookup_cons, ih]
      by_cases ho : other = at'
      · subst ho
        simp [h]
      · rw [beq_eq_false_iff_ne.2 ho]

theorem get?_erase (files : FileSystem) (place other : Place) (h : other ≠ []) :
    (files.erase place).get? other = if other = place then none else files.get? other := by
  simp only [get?, erase, h, if_false, lookup_filter_ne]

theorem get?_insert (files : FileSystem) (place other : Place) (node : Node) (h : other ≠ []) :
    (files.insert place node).get? other =
      if other = place then some node else files.get? other := by
  simp only [get?, insert, erase, h, if_false, List.lookup_cons, lookup_filter_ne]
  by_cases ho : other = place
  · simp [ho]
  · simp [ho, beq_eq_false_iff_ne.2 ho]

inductive Target where
  | node (place : Place) (node : Node)
  | free (place : Place)
  deriving DecidableEq

/-- The directory from which a link in a directory is read. -/
def linkBase (place : Place) (target : String) : Place :=
  if Path.isAbsolute (Path.steps target) then [] else place

/-- Takes some steps from a directory. Links on the way are followed, and one at the
end if that is wanted. -/
def walk (files : FileSystem) (followLast : Bool) (links : Nat) (place : Place) :
    List String → Except FileFault Target
  | [] => .ok (.node place .directory)
  | step :: rest =>
    if step = "" ∨ step = "." then files.walk followLast links place rest
    else if step = ".." then files.walk followLast links place.dropLast rest
    else if Path.maxNameLength < step.utf8ByteSize then .error .nameTooLong
    else
      match files.get? (place ++ [step]) with
      | none => if rest.isEmpty then .ok (.free (place ++ [step])) else .error .notFound
      | some .directory => files.walk followLast links (place ++ [step]) rest
      | some (.file content access) =>
        if rest.isEmpty then .ok (.node (place ++ [step]) (.file content access))
        else .error .notADirectory
      | some (.link target) =>
        if rest.isEmpty && !followLast then .ok (.node (place ++ [step]) (.link target))
        else
          match links with
          | 0 => .error .linkLoop
          | links + 1 =>
            if target = "" then .error .notFound
            else
              files.walk followLast links (linkBase place target) (Path.steps target ++ rest)
termination_by steps => (links, steps.length)

/-- Whether some steps from a directory come to a last name that a slash follows. Such a name is
that of a directory for those who open a file that may be new, whatever is there. -/
def endsInSlash (files : FileSystem) (followLast : Bool) (links : Nat) (place : Place) :
    List String → Bool
  | [] => false
  | step :: rest =>
    if step = "" ∨ step = "." then files.endsInSlash followLast links place rest
    else if step = ".." then files.endsInSlash followLast links place.dropLast rest
    else if Path.isSlash rest then true
    else if Path.maxNameLength < step.utf8ByteSize then false
    else
      match files.get? (place ++ [step]) with
      | some .directory => files.endsInSlash followLast links (place ++ [step]) rest
      | some (.link target) =>
        match links with
        | 0 => false
        | links + 1 =>
          if rest.isEmpty && !followLast then false
          else files.endsInSlash followLast links (linkBase place target)
            (Path.steps target ++ rest)
      | _ => false
termination_by steps => (links, steps.length)

def locate (files : FileSystem) (followLast : Bool) (steps : List String) :
    Except FileFault Target := do
  Path.check steps
  files.walk followLast Path.maxLinks [] steps

def target (files : FileSystem) (path : String) : Except FileFault Target :=
  files.locate true (Path.steps path)

def contains (files : FileSystem) (path : String) : Bool :=
  match files.target path with
  | .ok (.node _ _) => true
  | _ => false

def read (files : FileSystem) (path : String) : Except FileFault Bytes :=
  match files.target path with
  | .ok (.node _ (.file content _)) => .ok content
  | .ok (.node _ _) => .error .isADirectory
  | .ok (.free _) => .error .notFound
  | .error fault => .error fault

def readText (files : FileSystem) (path : String) : Except FileFault String := do
  match Utf8.decode? (← files.read path) with
  | some text => .ok text
  | none => .error .notText

/-- Where a path leads at which a file is opened that may be new. -/
def locateNew (files : FileSystem) (followLast : Bool) (path : String) :
    Except FileFault Target := do
  Path.check (Path.steps path)
  if files.endsInSlash followLast Path.maxLinks [] (Path.steps path) then .error .isADirectory
  else files.locate followLast (Path.steps path)

/-- A new file that only its owner may read; whatever stands at the path already, even
a link that leads nowhere, is left alone. -/
def createSecret (files : FileSystem) (path : String) (content : Bytes) :
    Except FileFault FileSystem :=
  match files.locateNew false path with
  | .ok (.free place) => .ok (files.insert place (.file content .owner))
  | .ok (.node _ _) => .error .alreadyExists
  | .error fault => .error fault

/-- A file with a new content; one that was there keeps its access. -/
def write (files : FileSystem) (path : String) (content : Bytes) : Except FileFault FileSystem :=
  match files.locateNew true path with
  | .ok (.free place) => .ok (files.insert place (.file content .everyone))
  | .ok (.node place (.file _ access)) => .ok (files.insert place (.file content access))
  | .ok (.node _ _) => .error .isADirectory
  | .error fault => .error fault

def isDirectory (files : FileSystem) (steps : List String) : Bool :=
  match files.locate true steps with
  | .ok (.node _ .directory) => true
  | _ => false

def createDirectory (files : FileSystem) (steps : List String) : Except FileFault FileSystem :=
  match files.locate false steps with
  | .ok (.free place) => .ok (files.insert place .directory)
  | .ok (.node _ _) => .error .alreadyExists
  | .error fault => .error fault

def ensureDirectory (files : FileSystem) (steps : List String) : Except FileFault FileSystem :=
  match files.createDirectory steps with
  | .ok files => .ok files
  | .error fault => if files.isDirectory steps then .ok files else .error fault

/-- A directory with those above it, its steps given from the last one on. Where one
fails, those above it stay. -/
def ensureAll (files : FileSystem) : List String → FileSystem × Except FileFault Unit
  | [] => (files, .ok ())
  | step :: above =>
    let steps := (step :: above).reverse
    match files.ensureDirectory steps with
    | .ok files => (files, .ok ())
    | .error .notFound =>
      match files.ensureAll above with
      | (files, .error fault) => (files, .error fault)
      | (files, .ok ()) =>
        match files.ensureDirectory steps with
        | .ok files => (files, .ok ())
        | .error fault => (files, .error fault)
    | .error fault => (files, .error fault)

def createParents (files : FileSystem) (path : String) : FileSystem × Except FileFault Unit :=
  files.ensureAll (Path.parentSteps (Path.steps path)).reverse

end FileSystem
end VpnAuthority
