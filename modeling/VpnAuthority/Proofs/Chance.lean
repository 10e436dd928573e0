import VpnAuthority.Certificate.Profile
import VpnAuthority.Proofs.Asn1.Integer
import VpnAuthority.Proofs.Rsa.Signature
import VpnAuthority.Rsa.Generation

/-! What may be relied on in the outcomes of chance: their sizes, not their values. -/
namespace VpnAuthority

open Asn1 (Fits)

theorem Asn1.length_natural_le (bits octets : Nat) {n : Nat} (h : n < 2 ^ bits)
    (hb : bits ≤ 8 * octets) :
    (natural n).length ≤ 2 * octets + 4 := by
  have below : n < 128 * 256 ^ octets := by
    calc n < 2 ^ bits := h
      _ ≤ 2 ^ (8 * octets) := Nat.pow_le_pow_right (by decide) hb
      _ = 256 ^ octets := Nat.pow_mul 2 8 octets
      _ ≤ 128 * 256 ^ octets := Nat.le_mul_of_pos_left _ (by decide)
  have := length_naturalOctets_le below
  have := length_encode_le integerTag (naturalOctets n)
  rw [natural]
  omega

namespace Rsa

def PublicKey.maxLength : Nat := 536870866

/-- A new key of a size: a modulus of that many bits or one less, the exponent that all keys have,
and numbers that are smaller than the modulus. -/
structure PrivateKey.IsOfSize (key : PrivateKey) (bits : Nat) : Prop where
  modulus : bits ≤ bitLength key.modulus + 1 ∧ bitLength key.modulus ≤ bits
  publicExponent : key.publicExponent = standardExponent
  isBelow : ∀ n ∈ [key.privateExponent, key.firstPrime, key.secondPrime, key.firstExponent,
    key.secondExponent, key.coefficient], n < key.modulus

namespace PrivateKey.IsOfSize

variable {key : PrivateKey} {bits : Nat}

private theorem length_natural_le {n : Nat} (h : key.IsOfSize bits) (hb : bits ≤ maxBits)
    (hn : n ≤ key.modulus) : (Asn1.natural n).length ≤ 134217716 := by
  refine Asn1.length_natural_le bits 67108856 (hn.trans_lt ?_) hb
  exact (lt_of_bitLength_eq rfl).trans_le (Nat.pow_le_pow_right (by decide) h.modulus.2)

private theorem length_natural_exponent_le (h : key.IsOfSize bits) :
    (Asn1.natural key.publicExponent).length ≤ 134217716 := by
  rw [h.publicExponent]
  exact Asn1.length_natural_le 17 67108856 (by decide) (by decide)

theorem length_encode_le (h : key.IsOfSize bits) (hb : bits ≤ maxBits) :
    key.encode.length ≤ 2147483474 := by
  have modulus := h.length_natural_le hb le_rfl
  have exponent := h.length_natural_exponent_le
  have isBelow : ∀ n ∈ [key.privateExponent, key.firstPrime, key.secondPrime, key.firstExponent,
      key.secondExponent, key.coefficient], (Asn1.natural n).length ≤ 134217716 :=
    fun n hn => h.length_natural_le hb (h.isBelow n hn).le
  simp only [List.forall_mem_cons] at isBelow
  obtain ⟨d, p, q, dp, dq, c, -⟩ := isBelow
  have zero := Asn1.length_natural_le 0 0 (n := 0) (by decide) (by decide)
  have whole := Asn1.length_encode_le Asn1.sequenceTag (List.flatten (Asn1.natural 0 ::
    [key.modulus, key.publicExponent, key.privateExponent, key.firstPrime, key.secondPrime,
      key.firstExponent, key.secondExponent, key.coefficient].map Asn1.natural))
  simp only [List.map_cons, List.map_nil, List.flatten_cons, List.flatten_nil, List.length_append,
    List.length_nil] at whole
  rw [PrivateKey.encode, Asn1.sequence]
  simp only [List.map_cons, List.map_nil, List.flatten_cons, List.flatten_nil]
  omega

theorem fits (h : key.IsOfSize bits) (hb : bits ≤ maxBits) : Fits key.encode :=
  (h.length_encode_le hb).trans_lt (by decide)

theorem length_toPublic_encode_le (h : key.IsOfSize bits) (hb : bits ≤ maxBits) :
    key.toPublic.encode.length ≤ PublicKey.maxLength := by
  have modulus := h.length_natural_le hb le_rfl
  have exponent := h.length_natural_exponent_le
  have whole := Asn1.length_encode_le Asn1.sequenceTag
    (List.flatten [Asn1.natural key.modulus, Asn1.natural key.publicExponent])
  simp only [List.flatten_cons, List.flatten_nil, List.length_append, List.length_nil] at whole
  rw [PublicKey.encode, Asn1.sequence, PublicKey.maxLength]
  simp only [toPublic, List.flatten_cons, List.flatten_nil]
  omega

theorem fits_toPublic (h : key.IsOfSize bits) (hb : bits ≤ maxBits) : Fits key.toPublic.encode :=
  (h.length_toPublic_encode_le hb).trans_lt (by decide)

end PrivateKey.IsOfSize

end Rsa

/-- Outcomes of the sizes that are asked for: a key, and the start of an encryption of one
block. -/
structure Chance.IsRegular (chance : Chance) (bits : Nat) : Prop where
  key : (chance.key bits).IsOfSize bits
  iv : chance.iv.length = Cipher.Kind.aes256.blockSize

/-- Regular outcomes with a key that does what a key has to. -/
structure Chance.IsSound (chance : Chance) (bits : Nat) : Prop extends chance.IsRegular bits where
  sound : (chance.key bits).Sound

def Chance.keyId (chance : Chance) (bits : Nat) : Bytes :=
  (chance.key bits).toPublic.toInfo.keyId

theorem Chance.eq_of_keyOfSize? {chance : Chance} {bits : Nat} {key : Rsa.PrivateKey}
    (h : chance.keyOfSize? bits = some key) : key = chance.key bits ∧ bits ≤ Rsa.maxBits := by
  unfold keyOfSize? at h
  split at h
  · next isSize =>
    cases h
    exact ⟨rfl, isSize.2⟩
  · cases h

end VpnAuthority
