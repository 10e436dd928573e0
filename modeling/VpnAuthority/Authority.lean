import VpnAuthority.Settings.Summary
import VpnAuthority.Settings.Validation
import VpnAuthority.DistinguishedName.Types
import VpnAuthority.Site

/-! An authority: settings that are in order, and what its files hold. Nothing is kept
between two uses; each reads the files anew. -/
namespace VpnAuthority

structure Authority where
  settings : Settings
  isAccepted : settings.check = .ok ()

structure Material where
  key : Rsa.PrivateKey
  certificate : Certificate

inductive AuthorityState where
  | uninitialized
  | ready
  deriving DecidableEq, Repr

def Passphrase.octets (passphrase : Passphrase) : Bytes := Utf8.encode passphrase.text

def blackedOut : String := Quoted.text "<redacted>"

def Material.summary (material : Material) : String :=
  recordText "CaMaterial" [("key", blackedOut),
    ("cert", NameAttribute.nameSummary material.certificate.body.subject)]

def Material.isMatched (material : Material) : Bool :=
  material.certificate.publicKey? == some (.rsa material.key.toPublic)

namespace Authority

def ofSettings (settings : Settings) : Except Settings.Fault Authority :=
  match h : settings.check with
  | .ok () => .ok ⟨settings, h⟩
  | .error fault => .error fault

def keyPath (authority : Authority) : String := authority.settings.authority.keyPath

def certificatePath (authority : Authority) : String :=
  authority.settings.authority.certificatePath

def passphrase (authority : Authority) : Passphrase := authority.settings.authority.passphrase

def policy (authority : Authority) : Policy := authority.settings.policy

def summary (authority : Authority) : String :=
  recordText "CaStore" [("config", authority.settings.summary)]

/-- An authority is ready when both its files are there, whatever they hold. -/
def state (authority : Authority) (files : FileSystem) : AuthorityState :=
  if files.contains authority.keyPath ∧ files.contains authority.certificatePath then .ready
  else .uninitialized

def readMaterial (files : FileSystem) (path : String) : Except Failure Bytes :=
  match files.read path with
  | .ok bytes => .ok bytes
  | .error .notFound => .error (.unavailable path .fileNotFound)
  | .error _ => .error (.unavailable path .unreadable)

def encryptionWord : String := "ENCRYPTED"

def mentions (word : List Char) : List Char → Bool
  | [] => word.isEmpty
  | c :: rest => word.isPrefixOf (c :: rest) || mentions word rest

/-- Why a text gives no key: one that speaks of encryption has the wrong passphrase. -/
def keyFault (text : Bytes) : Unavailable :=
  if mentions encryptionWord.toList (Utf8.decodeLossy text) then .invalidPassphrase
  else .malformed

/-- The key that a reader finds in the text of a key file. A passphrase with a NUL in it cannot
be used. -/
def keyOfText (reader : PrivateKey.Reader) (path : String) (passphrase : Passphrase)
    (text : Bytes) : Except Failure Rsa.PrivateKey :=
  if passphrase.octets.contains 0 then .error .unusablePassphrase
  else
    match reader passphrase.octets text with
    | some (.rsa key) => .ok key
    | some (.other _) => .error (.unavailable path .notRsa)
    | none => .error (.unavailable path (keyFault text))

/-- The key of an authority as a reader finds it; what else a key file may be is the reader's
own matter. -/
def loadKeyBy (reader : PrivateKey.Reader) (authority : Authority) (files : FileSystem) :
    Except Failure Rsa.PrivateKey := do
  keyOfText reader authority.keyPath authority.passphrase (← readMaterial files authority.keyPath)

def loadKey (authority : Authority) (files : FileSystem) : Except Failure Rsa.PrivateKey :=
  authority.loadKeyBy PrivateKey.ofPem? files

def loadCertificate (authority : Authority) (files : FileSystem) : Except Failure Certificate := do
  match Certificate.ofPem? (← readMaterial files authority.certificatePath) with
  | some certificate => .ok certificate
  | none => .error (.unavailable authority.certificatePath .malformed)

def loadMaterial (authority : Authority) (files : FileSystem) : Except Failure Material := do
  let certificate ← authority.loadCertificate files
  let key ← authority.loadKey files
  .ok ⟨key, certificate⟩

def certificatePem (authority : Authority) (files : FileSystem) : Except Failure String := do
  .ok (Pem.text (← authority.loadCertificate files).toPem)

end Authority
end VpnAuthority
