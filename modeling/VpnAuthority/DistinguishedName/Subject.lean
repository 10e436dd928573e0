import VpnAuthority.DistinguishedName.Types
import VpnAuthority.Settings

/-! The names that the authority gives: seven attributes of its policy and, among them,
a common name, each alone in its set. -/
namespace VpnAuthority

inductive SubjectField where
  | country
  | province
  | locality
  | organization
  | unit
  | commonName
  | name
  | email
  deriving DecidableEq, Repr

namespace SubjectField

def all : List SubjectField :=
  [.country, .province, .locality, .organization, .unit, .commonName, .name, .email]

def type : SubjectField → Asn1.ObjectId
  | .country => NameAttribute.countryType
  | .province => NameAttribute.provinceType
  | .locality => NameAttribute.localityType
  | .organization => NameAttribute.organizationType
  | .unit => NameAttribute.unitType
  | .commonName => NameAttribute.commonNameType
  | .name => NameAttribute.nameType
  | .email => NameAttribute.emailType

def minLength : SubjectField → Nat
  | .country => 2
  | _ => 1

def maxLength : SubjectField → Nat
  | .country => 2
  | .province | .locality | .email => 128
  | .organization | .unit | .commonName => 64
  | .name => 32768

/-- A country is a printable string, an address has ASCII characters only, and all
other fields hold any text. -/
def tag : SubjectField → Nat
  | .country => 19
  | .email => 22
  | _ => 12

def admits : SubjectField → Char → Bool
  | .country, c => Asn1.isPrintableStringChar c
  | .email, c => Asn1.isAscii c
  | _, _ => true

def value (policy : Policy) (commonName : String) : SubjectField → String
  | .country => policy.country
  | .province => policy.province
  | .locality => policy.city
  | .organization => policy.organization
  | .unit => policy.unit
  | .commonName => commonName
  | .name => policy.name
  | .email => policy.email

def accepts (field : SubjectField) (text : String) : Bool :=
  field.minLength ≤ text.length && text.length ≤ field.maxLength && text.toList.all field.admits

def entry (field : SubjectField) (text : String) : NameAttribute :=
  ⟨field.type, field.tag, Utf8.encode text⟩

end SubjectField

namespace DistinguishedName

/-- The name of a subject, or the first field whose value is not admitted. -/
def ofSubject (policy : Policy) (commonName : String) : Except SubjectField DistinguishedName := do
  let sets ← SubjectField.all.mapM fun field =>
    let text := field.value policy commonName
    if field.accepts text then .ok [field.entry text] else .error field
  .ok (ofSets sets)

end DistinguishedName
end VpnAuthority
