import VpnAuthority.FileSystem

/-! What an administrator does to a tree by hand, and what differs between two trees. -/
namespace VpnAuthority.FileSystem

def makeDirectory (files : FileSystem) (path : String) : FileSystem × Except FileFault Unit :=
  files.ensureAll ((Path.steps path).filter fun s => s ≠ "" ∧ s ≠ ".").reverse

def remove (files : FileSystem) (path : String) : Except FileFault FileSystem :=
  match files.locate false (Path.steps path) with
  | .ok (.node _ .directory) => .error .isADirectory
  | .ok (.node place _) => .ok (files.erase place)
  | .ok (.free _) => .error .notFound
  | .error fault => .error fault

def prune (files : FileSystem) (place : Place) : FileSystem :=
  ⟨files.nodes.filter fun entry => !place.isPrefixOf entry.1⟩

def removeDirectory (files : FileSystem) (path : String) : Except FileFault FileSystem :=
  match files.locate false (Path.steps path) with
  | .ok (.node place .directory) => .ok (files.prune place)
  | .ok (.node _ _) => .error .notADirectory
  | .ok (.free _) => .error .notFound
  | .error fault => .error fault

def graft (files : FileSystem) (place goal : Place) : FileSystem :=
  ⟨(files.prune goal).nodes.map fun (at', node) =>
    if place.isPrefixOf at' then (goal ++ at'.drop place.length, node) else (at', node)⟩

/-- Moves a node; a file may take the place of another one. -/
def rename (files : FileSystem) (path goal : String) : Except FileFault FileSystem := do
  match ← files.locate false (Path.steps path), ← files.locate false (Path.steps goal) with
  | .free _, _ => .error .notFound
  | .node place _, .free goal =>
    if place.isPrefixOf goal then .error .invalidPath else .ok (files.graft place goal)
  | .node _ .directory, .node _ _ => .error .notADirectory
  | .node _ _, .node _ .directory => .error .isADirectory
  | .node place _, .node goal _ => .ok (if place = goal then files else files.graft place goal)

/-- A link with a text that is looked at only when it is followed. -/
def link (files : FileSystem) (path target : String) : Except FileFault FileSystem :=
  match files.locate false (Path.steps path) with
  | .ok (.free place) => .ok (files.insert place (.link target))
  | .ok (.node _ _) => .error .alreadyExists
  | .error fault => .error fault

inductive Change where
  | created (path : String) (node : Node)
  | modified (path : String) (node : Node)
  | removed (path : String)
  deriving DecidableEq

def Change.path : Change → String
  | .created path _ | .modified path _ | .removed path => path

def pathText (place : Place) : String := "/".intercalate place

def changes (before after : FileSystem) : List Change :=
  let gone := before.nodes.filterMap fun (place, _) =>
    if (after.get? place).isNone then some (.removed (pathText place)) else none
  let there := after.nodes.filterMap fun (place, node) =>
    match before.get? place with
    | none => some (.created (pathText place) node)
    | some old => if old = node then none else some (.modified (pathText place) node)
  (gone ++ there).mergeSort fun a b => decide (a.path ≤ b.path)

end VpnAuthority.FileSystem
