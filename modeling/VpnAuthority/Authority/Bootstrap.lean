import VpnAuthority.Authority
import VpnAuthority.Rsa.Generation

/-! How an authority comes to be: a key and a certificate are made where they are
missing, and kept where they are there. -/
namespace VpnAuthority.Authority

/-- Writes a file of the authority into directories that are made for it. -/
def writeFile (path : String) (write : FileSystem → Except FileFault FileSystem) :
    Action Unit := do
  Action.change path (·.createParents path)
  Action.change path fun files =>
    match write files with
    | .ok files => (files, .ok ())
    | .error fault => (files, .error fault)
  Action.report (.wroteFile path)

def newKey (bits : Nat) (chance : Chance) : Action Rsa.PrivateKey :=
  match chance.keyOfSize? bits with
  | some key => pure key
  | none => throw .keyGeneration

/-- The key of the authority, which is made and written if there is none. -/
def obtainKey (authority : Authority) (chance : Chance) : Action Rsa.PrivateKey := do
  let path := authority.keyPath
  if (← get).files.contains path then
    Action.report (.reusingKey path)
    Action.inspect authority.loadKey
  else
    Action.report (.generatingKey path authority.policy.keySize)
    let key ← newKey authority.policy.keySize chance
    let pem := key.toEncryptedPem authority.passphrase.octets chance.iv
    writeFile path (·.createSecret path pem)
    return key

def ensureCertificate (authority : Authority) (key : Rsa.PrivateKey) (chance : Chance)
    (clock : Clock) : Action Unit := do
  let path := authority.certificatePath
  if (← get).files.contains path then
    Action.report (.keepingCertificate path)
  else
    let policy := authority.policy
    Action.report (.creatingCertificate path policy.authorityName)
    let certificate ← Action.ofExcept
      ((Certificate.root policy (.rsa key) policy.authorityName policy.authorityDays
        chance.serial clock).mapError .certificate)
    writeFile path (·.write path certificate.toPem)

def bootstrap (authority : Authority) (chance : Chance) (clock : Clock) : Action Unit := do
  let key ← authority.obtainKey chance
  authority.ensureCertificate key chance clock

end VpnAuthority.Authority
