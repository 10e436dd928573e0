import VpnAuthority.FileSystem
import VpnAuthority.Settings.Document

/-! Settings read from a file. -/
namespace VpnAuthority.Settings

inductive FileProblem where
  | unreadable (path : String) (fault : FileFault)
  | document (fault : DocumentFault)
  deriving DecidableEq, Repr

def FileProblem.message : FileProblem → String
  | .unreadable path _ => "Failed to read config file: " ++ path
  | .document fault => fault.message

def ofFile (files : FileSystem) (path : String) : Except FileProblem Settings :=
  match files.readText path with
  | .error fault => .error (.unreadable path fault)
  | .ok text => (ofText text).mapError .document

end VpnAuthority.Settings
