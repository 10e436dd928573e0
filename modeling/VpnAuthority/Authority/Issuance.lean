import VpnAuthority.Authority.Bootstrap
import VpnAuthority.Endpoint

/-! Keys and certificates for the ends of a tunnel. -/
namespace VpnAuthority

structure Credential where
  keyPem : String
  certificatePem : String
  commonName : String
  deriving DecidableEq

def Credential.summary (credential : Credential) : String :=
  recordText "IssuedCredential" [("key_pem", blackedOut),
    ("common_name", Quoted.text credential.commonName)]

namespace Authority

/-- A new key with a certificate for a subject. A subject that has to be shortened is
reported before the certificate is made. -/
def issue (authority : Authority) (subject : String) (purpose : Purpose) (chance : Chance)
    (clock : Clock) : Action Credential := do
  let material ← Action.inspect authority.loadMaterial
  let policy := authority.policy
  let key ← newKey policy.keySize chance
  if CommonName.maxLength < subject.length then
    Action.report (.shortenedSubject subject (CommonName.ofSubject chance.suffix subject))
  let request : Certificate.LeafRequest :=
    ⟨policy, subject, key.toPublic.toInfo, purpose, policy.leafDays⟩
  let (certificate, commonName) ← Action.ofExcept
    ((Certificate.leaf request material.certificate (.rsa material.key) chance.suffix
      chance.serial clock).mapError .certificate)
  Action.report (.issued commonName purpose certificate.body.serial.toNat)
  return ⟨Pem.text key.toPem, Pem.text certificate.toPem, commonName⟩

def issueServer (authority : Authority) (server : Server) (chance : Chance) (clock : Clock) :
    Action Credential :=
  authority.issue server.subject .server chance clock

def issueClient (authority : Authority) (client : Client) (chance : Chance) (clock : Clock) :
    Action Credential :=
  authority.issue client.subject .client chance clock

end Authority
end VpnAuthority
