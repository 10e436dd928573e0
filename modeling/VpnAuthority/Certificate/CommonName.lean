import VpnAuthority.Certificate
import VpnAuthority.DistinguishedName.Types

/-! The common name of a certificate, the key of an endpoint's entry on the server. -/
namespace VpnAuthority.Certificate

inductive CommonNameFault where
  | malformed
  | ambiguous (count : Nat)
  | undecodable
  deriving DecidableEq, Repr

def commonNames (certificate : Certificate) : List NameAttribute :=
  certificate.body.subject.attributes.filter (·.type = NameAttribute.commonNameType)

/-- The text of the only common name, up to a first NUL. -/
def commonName (certificate : Certificate) : Except CommonNameFault String :=
  match certificate.commonNames with
  | [entry] =>
    match entry.text? with
    | some text => .ok (String.ofList (text.toList.takeWhile (· ≠ '\x00')))
    | none => .error .undecodable
  | entries => .error (.ambiguous entries.length)

def commonNameOfPem (text : Bytes) : Except CommonNameFault String :=
  match ofPem? text with
  | some certificate => certificate.commonName
  | none => .error .malformed

end VpnAuthority.Certificate
