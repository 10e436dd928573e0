import VpnAuthority.Settings.Validation
import VpnAuthority.Toml.Document

/-! Settings read from a document. Every key but the passphrase may be left out,
unknown ones are ignored, and a table may be written as an array of its values. -/
namespace VpnAuthority.Settings

open Toml (Value)

inductive Mismatch where
  | missing (field : String)
  | unexpected (found expected : String)
  | outOfRange (found : Int)
  | tooShort (length : Nat)
  deriving DecidableEq, Repr

def Mismatch.message : Mismatch → String
  | .missing field => s!"missing field `{field}`"
  | .unexpected found expected => s!"invalid type: {found}, expected {expected}"
  | .outOfRange found => s!"invalid value: integer `{found}`, expected u32"
  | .tooShort length => s!"invalid length {length}, expected struct CaPaths with 3 elements"

def describe : Value → String
  | .string text => "string " ++ Quoted.text text
  | .integer value => s!"integer `{value}`"
  | .float value => s!"floating point `{value.text}`"
  | .boolean value => s!"boolean `{value}`"
  | .array _ => "sequence"
  | .dateTime _ | .table _ => "map"

abbrev Parsed := Except Mismatch

def readText (expected : String) : Value → Parsed String
  | .string text => .ok text
  | value => .error (.unexpected (describe value) expected)

def maxWord : Nat := 4294967295

def readWord : Value → Parsed Nat
  | .integer value =>
    if 0 ≤ value ∧ value ≤ maxWord then .ok value.toNat else .error (.outOfRange value)
  | value => .error (.unexpected (describe value) "u32")

/-- The keys of a table in their fixed order, each with the effect of its value. -/
abbrev Layout (α : Type) := List (String × (Value → α → Parsed α))

def readEntries (layout : Layout α) (entries : List (String × Value)) (start : α) : Parsed α :=
  entries.foldlM (fun read (key, value) =>
    match layout.lookup key with
    | some field => field value read
    | none => .ok read) start

def readItems (layout : Layout α) (items : List Value) (start : α) : Parsed α :=
  (layout.zip items).foldlM (fun read ((_, field), value) => field value read) start

/-- A record is a table or an array; a date counts as a table without known keys. -/
def readRecord (name : String) (layout : Layout α) (value : Value) (start : α) : Parsed α :=
  match value with
  | .table entries => readEntries layout entries start
  | .dateTime _ => .ok start
  | .array items => readItems layout items start
  | value => .error (.unexpected (describe value) ("struct " ++ name))

structure PartialFiles where
  keyPath : String := defaultKeyPath
  certificatePath : String := defaultCertificatePath
  passphrase : Option Passphrase := none

def path : Value → Parsed String := readText "path string"

def text : Value → Parsed String := readText "a string"

def filesLayout : Layout PartialFiles := [
  ("key_path", fun value files => do .ok { files with keyPath := ← path value }),
  ("cert_path", fun value files => do .ok { files with certificatePath := ← path value }),
  ("key_password", fun value files => do .ok { files with passphrase := some ⟨← text value⟩ })]

def policyLayout : Layout Policy := [
  ("key_size", fun value policy => do .ok { policy with keySize := ← readWord value }),
  ("ca_expire_days", fun value policy => do .ok { policy with authorityDays := ← readWord value }),
  ("key_expire_days", fun value policy => do .ok { policy with leafDays := ← readWord value }),
  ("country", fun value policy => do .ok { policy with country := ← text value }),
  ("province", fun value policy => do .ok { policy with province := ← text value }),
  ("city", fun value policy => do .ok { policy with city := ← text value }),
  ("organization", fun value policy => do .ok { policy with organization := ← text value }),
  ("organizational_unit", fun value policy => do .ok { policy with unit := ← text value }),
  ("name", fun value policy => do .ok { policy with name := ← text value }),
  ("email", fun value policy => do .ok { policy with email := ← text value })]

def templatesLayout : Layout TemplateFiles := [
  ("client_config_path", fun value files => do .ok { files with client := ← path value }),
  ("server_config_path", fun value files => do .ok { files with server := ← path value })]

/-- The passphrase has no default; where it is missing the fault tells how the
files were written. -/
def readFiles (value : Value) : Parsed AuthorityFiles := do
  let files ← readRecord "CaPaths" filesLayout value {}
  match files.passphrase, value with
  | some passphrase, _ => .ok ⟨files.keyPath, files.certificatePath, passphrase⟩
  | none, .array _ => .error (.tooShort 2)
  | none, _ => .error (.missing "key_password")

structure PartialSettings where
  authority : Option AuthorityFiles := none
  policy : Policy := Policy.default
  templates : TemplateFiles := TemplateFiles.default

def settingsLayout : Layout PartialSettings := [
  ("ca", fun value read => do .ok { read with authority := some (← readFiles value) }),
  ("keygen", fun value read => do
    .ok { read with policy := ← readRecord "KeygenConfig" policyLayout value Policy.default }),
  ("templates", fun value read => do
    .ok { read with
      templates := ← readRecord "TemplatePaths" templatesLayout value TemplateFiles.default })]

def ofEntries (entries : List (String × Value)) : Parsed Settings := do
  let read ← readEntries settingsLayout entries {}
  match read.authority with
  | some authority => .ok ⟨authority, read.policy, read.templates⟩
  | none => .error (.missing "ca")

inductive DocumentFault where
  | malformed
  | mismatch (cause : Mismatch)
  | rejected (fault : Fault)
  deriving DecidableEq, Repr

def DocumentFault.message : DocumentFault → String
  | .malformed | .mismatch _ => "Failed to parse config file"
  | .rejected _ => "Config file rejected"

def ofText (text : String) : Except DocumentFault Settings :=
  match Toml.parse? text with
  | none => .error .malformed
  | some entries =>
    match ofEntries entries with
    | .error cause => .error (.mismatch cause)
    | .ok settings =>
      match settings.check with
      | .error fault => .error (.rejected fault)
      | .ok () => .ok settings

end VpnAuthority.Settings
