import VpnAuthority.Settings
import VpnAuthority.Text.Quoted

/-! The one-line text of settings for a log, in which the passphrase is
blacked out. -/
namespace VpnAuthority

def recordText (name : String) (fields : List (String × String)) : String :=
  name ++ " \x7b " ++ ", ".intercalate (fields.map fun (field, text) => field ++ ": " ++ text)
    ++ " \x7d"

def Passphrase.summary (_ : Passphrase) : String := "Secret([REDACTED alloc::string::String])"

def AuthorityFiles.summary (files : AuthorityFiles) : String :=
  recordText "CaPaths" [
    ("key_path", Quoted.path files.keyPath),
    ("cert_path", Quoted.path files.certificatePath),
    ("key_password", files.passphrase.summary)]

def Policy.summary (policy : Policy) : String :=
  recordText "KeygenConfig" [
    ("key_size", toString policy.keySize),
    ("ca_expire_days", toString policy.authorityDays),
    ("key_expire_days", toString policy.leafDays),
    ("country", Quoted.text policy.country),
    ("province", Quoted.text policy.province),
    ("city", Quoted.text policy.city),
    ("organization", Quoted.text policy.organization),
    ("organizational_unit", Quoted.text policy.unit),
    ("name", Quoted.text policy.name),
    ("email", Quoted.text policy.email)]

def TemplateFiles.summary (files : TemplateFiles) : String :=
  recordText "TemplatePaths" [
    ("client_config_path", Quoted.path files.client),
    ("server_config_path", Quoted.path files.server)]

def Settings.summary (settings : Settings) : String :=
  recordText "VpnPkiConfig" [
    ("ca", settings.authority.summary),
    ("keygen", settings.policy.summary),
    ("templates", settings.templates.summary)]

end VpnAuthority
