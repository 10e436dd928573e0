import VpnAuthority.Authority
import VpnAuthority.Configuration

/-! Configuration texts from the templates of an authority and its certificate. The key
is not looked at. -/
namespace VpnAuthority.Authority

def readTemplate (files : FileSystem) (path : String) : Except Failure String :=
  (files.readText path).mapError (.file path)

def clientConfiguration (authority : Authority) (files : FileSystem)
    (parameters : ClientParameters) : Except Failure String := do
  let pem ← authority.certificatePem files
  let template ← readTemplate files authority.settings.templates.client
  renderClient template pem parameters

def serverConfiguration (authority : Authority) (files : FileSystem)
    (parameters : ServerParameters) : Except Failure String := do
  let pem ← authority.certificatePem files
  let template ← readTemplate files authority.settings.templates.server
  renderServer template pem parameters

end VpnAuthority.Authority
