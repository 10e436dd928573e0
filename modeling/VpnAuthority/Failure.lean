import VpnAuthority.Certificate.CommonName
import VpnAuthority.DistinguishedName.Subject
import VpnAuthority.FileSystem
import VpnAuthority.Settings.Validation
import VpnAuthority.Template

/-! What can go wrong, by cause, and the text that tells it. -/
namespace VpnAuthority

inductive Unavailable where
  | fileNotFound
  | unreadable
  | invalidPassphrase
  | malformed
  | notRsa
  deriving DecidableEq, Repr

def Unavailable.message : Unavailable → String
  | .fileNotFound => "file not found"
  | .unreadable => "file unreadable"
  | .invalidPassphrase => "invalid password for encrypted private key"
  | .malformed => "failed to parse PEM data"
  | .notRsa => "private key is not an RSA key"

inductive CertificateFault where
  | subject (field : SubjectField)
  | startTime
  | endTime
  | signing
  | malformed
  | commonName
  | chainCheck
  deriving DecidableEq, Repr

def SubjectField.fault : SubjectField → String
  | .country => "Failed to set country"
  | .province => "Failed to set state/province"
  | .locality => "Failed to set locality"
  | .organization => "Failed to set organization"
  | .unit => "Failed to set organizational unit"
  | .commonName => "Failed to set CN"
  | .name => "Failed to set name"
  | .email => "Failed to set email"

def CertificateFault.message : CertificateFault → String
  | .subject field => field.fault
  | .startTime => "Failed to create not_before"
  | .endTime => "Failed to create not_after"
  | .signing => "Failed to sign certificate"
  | .malformed => "Failed to parse PEM certificate"
  | .commonName => "Failed to decode Common Name"
  | .chainCheck => "Certificate verification failed to run"

inductive Failure where
  | unavailable (path : String) (reason : Unavailable)
  | keyGeneration
  | ambiguousSubject (count : Nat)
  | template (fault : Template.Fault)
  | certificate (fault : CertificateFault)
  | file (path : String) (fault : FileFault)
  | settings (fault : Settings.Fault)
  | unusablePassphrase
  deriving DecidableEq, Repr

namespace Failure

def remedy : String :=
  "Missing or unusable root CA configuration. Run the root CA bootstrap step or import an " ++
    "existing root CA configuration."

def message : Failure → String
  | .unavailable path reason => s!"CA material at {path} unavailable: {reason.message}. {remedy}"
  | .keyGeneration => "Key generation error"
  | .ambiguousSubject count =>
    s!"Certificate Common Name field is not unequivocal: found {count} CN attributes"
  | .template fault => "Template error: " ++ fault.message
  | .certificate fault => "Certificate error: " ++ fault.message
  | .file path _ => "I/O error on " ++ path
  | .settings fault => "Invalid configuration: " ++ fault.message
  | .unusablePassphrase => "The passphrase holds a NUL character"

def ofCommonNameFault : Certificate.CommonNameFault → Failure
  | .malformed => .certificate .malformed
  | .ambiguous count => .ambiguousSubject count
  | .undecodable => .certificate .commonName

end Failure

end VpnAuthority
