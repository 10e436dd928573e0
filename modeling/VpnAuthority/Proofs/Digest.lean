import VpnAuthority.Digest
import VpnAuthority.Proofs.Number.BigEndian

/-! Digests of a kind are all of one size. -/
namespace VpnAuthority.Digest

private theorem length_padded32 (word : UInt32) : (BigEndian.padded 4 word.toNat).length = 4 :=
  BigEndian.length_padded word.toNat_lt

private theorem length_padded64 (word : UInt64) : (BigEndian.padded 8 word.toNat).length = 8 :=
  BigEndian.length_padded word.toNat_lt

theorem Kind.length_apply (kind : Kind) (message : Bytes) :
    (kind.apply message).length = kind.size := by
  cases kind with
  | md5 => simp [apply, Md5.md5, Md5.State.octets, length_padded32, size]
  | sha1 => simp [apply, Sha1.sha1, Sha1.State.octets, length_padded32, size]
  | sha224 => simp [apply, Sha256.sha224, Sha256.digest, Sha256.State.octets, length_padded32, size]
  | sha256 => simp [apply, Sha256.sha256, Sha256.digest, Sha256.State.octets, length_padded32, size]
  | sha384 => simp [apply, Sha512.sha384, Sha512.digest, Sha512.State.octets, length_padded64, size]
  | sha512 => simp [apply, Sha512.sha512, Sha512.digest, Sha512.State.octets, length_padded64, size]

end VpnAuthority.Digest
