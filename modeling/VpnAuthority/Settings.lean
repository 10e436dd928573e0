/-! What an authority is set up with: where its files lie, how its keys and
names look, and where the configuration templates are. -/
namespace VpnAuthority

/-- A text that no message and no log shows. -/
structure Passphrase where
  text : String
  deriving DecidableEq

structure AuthorityFiles where
  keyPath : String
  certificatePath : String
  passphrase : Passphrase
  deriving DecidableEq

structure Policy where
  keySize : Nat
  authorityDays : Nat
  leafDays : Nat
  country : String
  province : String
  city : String
  organization : String
  unit : String
  name : String
  email : String
  deriving DecidableEq, Repr

structure TemplateFiles where
  client : String
  server : String
  deriving DecidableEq, Repr

structure Settings where
  authority : AuthorityFiles
  policy : Policy
  templates : TemplateFiles
  deriving DecidableEq

def defaultKeyPath : String := "run/root_ca_key.pem"

def defaultCertificatePath : String := "run/root_ca_cert.pem"

def Policy.default : Policy where
  keySize := 2048
  authorityDays := 3650
  leafDays := 1095
  country := "CH"
  province := "ZH"
  city := "Zurich"
  organization := "Example Network"
  unit := "VPN"
  name := "Example Network VPN"
  email := "vpn@example.org"

def TemplateFiles.default : TemplateFiles where
  client := "templates/client.conf.tmpl"
  server := "templates/server.conf.tmpl"

def Policy.authorityName (policy : Policy) : String := policy.organization ++ " CA"

end VpnAuthority
