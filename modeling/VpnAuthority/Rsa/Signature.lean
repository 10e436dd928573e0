import VpnAuthority.Digest
import VpnAuthority.Rsa.Key

/-! Signatures: the digest of a message with the name of its kind, filled up to the size
of the modulus and raised to the private exponent. -/
namespace VpnAuthority

open Asn1 (ObjectId)

namespace Digest.Kind

def id : Kind → ObjectId
  | .md5 => ⟨[1, 2, 840, 113549, 2, 5]⟩
  | .sha1 => ⟨[1, 3, 14, 3, 2, 26]⟩
  | .sha224 => ⟨[2, 16, 840, 1, 101, 3, 4, 2, 4]⟩
  | .sha256 => ⟨[2, 16, 840, 1, 101, 3, 4, 2, 1]⟩
  | .sha384 => ⟨[2, 16, 840, 1, 101, 3, 4, 2, 2]⟩
  | .sha512 => ⟨[2, 16, 840, 1, 101, 3, 4, 2, 3]⟩

def signatureId : Kind → ObjectId
  | .md5 => ⟨[1, 2, 840, 113549, 1, 1, 4]⟩
  | .sha1 => ⟨[1, 2, 840, 113549, 1, 1, 5]⟩
  | .sha224 => ⟨[1, 2, 840, 113549, 1, 1, 14]⟩
  | .sha256 => ⟨[1, 2, 840, 113549, 1, 1, 11]⟩
  | .sha384 => ⟨[1, 2, 840, 113549, 1, 1, 12]⟩
  | .sha512 => ⟨[1, 2, 840, 113549, 1, 1, 13]⟩

def all : List Kind := [.md5, .sha1, .sha224, .sha256, .sha384, .sha512]

/-- The digest of a signature algorithm; one has two names. -/
def ofSignatureId? (id : ObjectId) : Option Kind :=
  if id = ⟨[1, 3, 14, 3, 2, 29]⟩ then some .sha1 else all.find? (·.signatureId = id)

end Digest.Kind

namespace Rsa

def digestInfo (kind : Digest.Kind) (message : Bytes) : Bytes :=
  Asn1.sequence [Asn1.sequence [kind.id.encode, Asn1.null], Asn1.octetString (kind.apply message)]

/-- Fills the signed digest up to a size; at least eight octets of filling have to
fit. -/
def filled? (size : Nat) (info : Bytes) : Option Bytes :=
  if info.length + 11 ≤ size then
    some (0 :: 1 :: List.replicate (size - info.length - 3) 0xff ++ 0 :: info)
  else none

def sign? (key : PrivateKey) (kind : Digest.Kind) (message : Bytes) : Option Bytes :=
  let size := key.toPublic.size
  (filled? size (digestInfo kind message)).map fun filled =>
    BigEndian.padded size (powMod (BigEndian.toNat filled) key.privateExponent key.modulus)

def verify (key : PublicKey) (kind : Digest.Kind) (message signature : Bytes) : Bool :=
  let number := BigEndian.toNat signature
  key.isUsable && signature.length == key.size && number < key.modulus
    && (filled? key.size (digestInfo kind message)).any fun filled =>
      BigEndian.padded key.size (powMod number key.exponent key.modulus) == filled

end Rsa
end VpnAuthority
