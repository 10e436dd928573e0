import VpnAuthority.Digest.Md5
import VpnAuthority.Digest.Sha1
import VpnAuthority.Digest.Sha256
import VpnAuthority.Digest.Sha512

/-! The digests that keys and signatures are made with. -/
namespace VpnAuthority

inductive Digest.Kind where
  | md5
  | sha1
  | sha224
  | sha256
  | sha384
  | sha512
  deriving DecidableEq, Repr

namespace Digest.Kind

def apply : Kind → Bytes → Bytes
  | .md5 => Md5.md5
  | .sha1 => Sha1.sha1
  | .sha224 => Sha256.sha224
  | .sha256 => Sha256.sha256
  | .sha384 => Sha512.sha384
  | .sha512 => Sha512.sha512

def size : Kind → Nat
  | .md5 => 16
  | .sha1 => 20
  | .sha224 => 28
  | .sha256 => 32
  | .sha384 => 48
  | .sha512 => 64

def blockSize : Kind → Nat
  | .sha384 | .sha512 => 128
  | _ => 64

end Digest.Kind

end VpnAuthority
