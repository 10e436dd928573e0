import VpnAuthority.Configuration
import VpnAuthority.Proofs.Asn1.CharacterString
import VpnAuthority.Proofs.Certificate.CommonName
import VpnAuthority.Proofs.Certificate.Length
import VpnAuthority.Proofs.Pem.Behind

/-! The common name of any certificate that can be read, whoever made it: only the attributes
of that type count, wherever they stand in the subject, and of a text only the first
certificate. -/
namespace VpnAuthority

open Asn1 (Element)

namespace NameAttribute

/-- An attribute with the octets of a text. -/
def Tells (entry : NameAttribute) (text : String) : Prop :=
  Asn1.IsTextOf entry.tag text.toList entry.octets

end NameAttribute

namespace DistinguishedName

def commonNames (name : DistinguishedName) : List NameAttribute :=
  name.sets.flatMap fun set => set.filter fun entry => entry.type = ⟨[2, 5, 4, 3]⟩

end DistinguishedName

namespace Certificate

end Certificate

end VpnAuthority
