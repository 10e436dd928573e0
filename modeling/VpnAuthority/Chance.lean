import VpnAuthority.CommonName
import VpnAuthority.Digest
import VpnAuthority.Rsa.Key

/-! What the authority leaves to chance, as values: keys, serial numbers, the start of
an encryption and the random half of a shortened name. -/
namespace VpnAuthority

/-- Serial numbers have at most this many bits, so that they stay positive. -/
def serialBits : Nat := 159

/-- The outcomes of chance that one operation may use. -/
structure Chance where
  key : Nat → Rsa.PrivateKey
  serial : Fin (Nat.pow 2 serialBits)
  iv : Bytes
  suffix : UniqueSuffix

/-- Random numbers from a seed: digests of the seed with a counter. -/
structure Seed where
  octets : Bytes

namespace Seed

def draw (seed : Seed) (place bits : Nat) : Nat :=
  let part (i : Nat) : Bytes := Digest.Sha256.sha256
    (seed.octets ++ BigEndian.padded 8 place ++ BigEndian.padded 4 i)
  BigEndian.toNat ((List.range (bits / 256 + 1)).flatMap part) % Nat.pow 2 bits

theorem draw_lt (seed : Seed) (place bits : Nat) : seed.draw place bits < Nat.pow 2 bits :=
  Nat.mod_lt _ (Nat.pow_pos Nat.two_pos)

end Seed
end VpnAuthority
