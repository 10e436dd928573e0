import VpnAuthority.Certificate.Profile

/-! What the authority reports while it works. No event holds a key or a passphrase. -/
namespace VpnAuthority

inductive Event where
  | generatingKey (path : String) (bits : Nat)
  | reusingKey (path : String)
  | creatingCertificate (path commonName : String)
  | keepingCertificate (path : String)
  | wroteFile (path : String)
  | shortenedSubject (subject commonName : String)
  | issued (commonName : String) (purpose : Purpose) (serial : Nat)
  deriving DecidableEq, Repr

inductive Level where
  | debug
  | info
  | warning
  deriving DecidableEq, Repr

def Purpose.name : Purpose → String
  | .server => "ServerAuth"
  | .client => "ClientAuth"

namespace Event

def level : Event → Level
  | .generatingKey .. | .creatingCertificate .. | .wroteFile _ => .info
  | .reusingKey _ | .keepingCertificate _ | .issued .. => .debug
  | .shortenedSubject .. => .warning

def message : Event → String
  | .generatingKey .. => "Generating root CA private key"
  | .reusingKey _ => "Root CA private key exists, reusing it"
  | .creatingCertificate .. => "Creating self-signed root CA certificate"
  | .keepingCertificate _ => "Root CA certificate exists, leaving it untouched"
  | .wroteFile _ => "Wrote root CA file"
  | .shortenedSubject .. => "Subject name exceeds 64 characters, truncated"
  | .issued .. => "Issued VPN certificate"

/-- A serial number as pairs of upper-case hexadecimal digits; zero is one digit. -/
def serialText (serial : Nat) : String :=
  if serial = 0 then "0"
  else String.ofList ((BigEndian.ofNat serial).flatMap fun b => Digits.paddedUpperHex 2 b.toNat)

inductive Datum where
  | text (text : String)
  | number (value : Nat)
  deriving DecidableEq, Repr

def data : Event → List (String × Datum)
  | .generatingKey path bits => [("path", .text path), ("bits", .number bits)]
  | .reusingKey path | .keepingCertificate path | .wroteFile path => [("path", .text path)]
  | .creatingCertificate path commonName =>
    [("path", .text path), ("common_name", .text commonName)]
  | .shortenedSubject subject commonName =>
    [("subject", .text subject), ("truncated", .text commonName)]
  | .issued commonName purpose serial =>
    [("common_name", .text commonName), ("purpose", .text purpose.name),
      ("serial", .text (serialText serial))]

end Event
end VpnAuthority
