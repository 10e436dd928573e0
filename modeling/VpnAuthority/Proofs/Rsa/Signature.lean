import Mathlib.Data.Nat.ModEq
import VpnAuthority.Proofs.Asn1.Element
import VpnAuthority.Proofs.Digest
import VpnAuthority.Rsa.Signature

/-! A signature made with a key is accepted with the other half of the key. -/
namespace VpnAuthority

namespace Rsa

theorem powMod_eq (base exponent modulus : Nat) :
    powMod base exponent modulus = base ^ exponent % modulus := by
  induction exponent using Nat.strong_induction_on generalizing base with
  | _ exponent ih =>
    rw [powMod]
    split
    · next h => rw [h, pow_zero]
    · next h =>
      have half := ih (exponent / 2) (Nat.div_lt_self (Nat.pos_of_ne_zero h) (by decide))
        (base * base % modulus)
      have square : (base * base % modulus) ^ (exponent / 2) ≡ base ^ (2 * (exponent / 2))
          [MOD modulus] := by
        rw [pow_mul, sq]
        exact (Nat.mod_modEq _ _).pow _
      dsimp only
      split
      · next odd =>
        have whole : base ^ exponent = base * base ^ (2 * (exponent / 2)) := by
          rw [← pow_succ']
          congr 1
          omega
        rw [half, whole]
        exact ((Nat.mod_modEq _ _).trans square).mul_left base
      · next even =>
        have whole : base ^ exponent = base ^ (2 * (exponent / 2)) := by
          congr 1
          omega
        rw [half, whole]
        exact square

theorem powMod_lt {modulus : Nat} (h : 0 < modulus) (base exponent : Nat) :
    powMod base exponent modulus < modulus := by
  rw [powMod_eq]
  exact Nat.mod_lt _ h

theorem lt_of_bitLength_eq {n bits : Nat} (h : bitLength n = bits) : n < 2 ^ bits := by
  unfold bitLength at h
  split at h
  · next hn =>
    subst h
    simp [hn]
  · subst h
    exact Nat.lt_log2_self

private theorem le_of_bitLength_eq {n bits : Nat} (h : bitLength n = bits + 1) : 2 ^ bits ≤ n := by
  unfold bitLength at h
  split at h
  · cases h
  · next hn =>
    cases h
    exact Nat.log2_self_le hn

theorem PublicKey.modulus_lt (key : PublicKey) : key.modulus < 256 ^ key.size := by
  refine (lt_of_bitLength_eq rfl).trans_le ?_
  rw [show 256 = 2 ^ 8 from rfl, ← pow_mul, size]
  exact Nat.pow_le_pow_right (by decide) (by omega)

theorem PublicKey.lt_modulus (key : PublicKey) {n size : Nat} (hs : key.size = size + 1)
    (h : n < 256 ^ size) : n < key.modulus := by
  unfold PublicKey.size at hs
  obtain ⟨bits, hb⟩ : ∃ bits, bitLength key.modulus = bits + 1 :=
    ⟨bitLength key.modulus - 1, by omega⟩
  refine h.trans_le (le_trans ?_ (le_of_bitLength_eq hb))
  rw [show 256 = 2 ^ 8 from rfl, ← pow_mul]
  exact Nat.pow_le_pow_right (by decide) (by omega)

theorem filled?_eq_some {size : Nat} {info filled : Bytes} (h : filled? size info = some filled) :
    filled.length = size ∧ filled.head? = some 0 := by
  unfold filled? at h
  split at h
  · next fits =>
    cases h
    simp
    omega
  · cases h

variable {key : PrivateKey} {kind : Digest.Kind} {message signature : Bytes}

theorem length_of_sign?_eq_some (h : sign? key kind message = some signature) :
    signature.length = key.toPublic.size := by
  simp only [sign?, Option.map_eq_some_iff] at h
  obtain ⟨filled, hf, rfl⟩ := h
  have isSome : 0 < key.modulus := by
    have := (filled?_eq_some hf)
    by_contra zero
    have none : key.toPublic.size = 0 := by
      simp [PublicKey.size, PrivateKey.toPublic, bitLength, Nat.eq_zero_of_not_pos zero]
    rw [none, List.length_eq_zero_iff] at this
    rw [this.1] at this
    cases this.2
  exact BigEndian.length_padded ((powMod_lt isSome _ _).trans key.toPublic.modulus_lt)

theorem verify_of_sign?_eq_some (sound : key.Sound) (h : sign? key kind message = some signature) :
    verify key.toPublic kind message signature = true := by
  have length := length_of_sign?_eq_some h
  simp only [sign?, Option.map_eq_some_iff] at h
  obtain ⟨filled, hf, rfl⟩ := h
  obtain ⟨filledLength, starts⟩ := filled?_eq_some hf
  obtain ⟨rest, rfl⟩ : ∃ rest, filled = 0 :: rest := by
    cases filled with
    | nil => cases starts
    | cons b rest =>
      cases starts
      exact ⟨rest, rfl⟩
  have below : BigEndian.toNat (0 :: rest) < key.modulus := by
    refine PublicKey.lt_modulus key.toPublic filledLength.symm ?_
    rw [BigEndian.toNat_cons]
    simpa using BigEndian.toNat_lt rest
  have back := sound.undoes _ below
  have inRange := powMod_lt (Nat.zero_lt_of_lt below) (BigEndian.toNat (0 :: rest))
    key.privateExponent
  rw [verify, hf]
  simp only [sound.isUsable, length, BigEndian.toNat_padded, beq_self_eq_true, Bool.true_and, Option.any_some,
    Bool.and_eq_true, decide_eq_true_eq, beq_iff_eq]
  refine ⟨inRange, ?_⟩
  rw [show key.toPublic.modulus = key.modulus from rfl,
    show key.toPublic.exponent = key.publicExponent from rfl, back, ← filledLength,
    BigEndian.padded_toNat]

private theorem length_encode_short {tag : UInt8} {content : Bytes} (h : content.length < 128) :
    (Asn1.encode tag content).length = content.length + 2 := by
  simp [Asn1.encode, Asn1.encodeLength, h]

theorem length_digestInfo (message : Bytes) : (digestInfo .sha256 message).length = 51 := by
  have digest := Digest.Kind.length_apply .sha256 message
  have name : [Digest.Kind.id .sha256 |>.encode, Asn1.null].flatten.length = 13 := by
    simp [Digest.Kind.id, Asn1.ObjectId.encode, Asn1.ObjectId.octets, Asn1.ObjectId.encodeArc,
      Asn1.ObjectId.encodeArc.go, Asn1.encode, Asn1.encodeLength, Asn1.null]
  have octets : (Asn1.octetString (Digest.Kind.apply .sha256 message)).length = 34 := by
    rw [Asn1.octetString, length_encode_short (by rw [digest]; decide), digest]
    rfl
  have algorithm : (Asn1.sequence [Digest.Kind.id .sha256 |>.encode, Asn1.null]).length = 15 := by
    rw [Asn1.sequence, length_encode_short (by rw [name]; decide), name]
  have both : [Asn1.sequence [Digest.Kind.id .sha256 |>.encode, Asn1.null],
      Asn1.octetString (Digest.Kind.apply .sha256 message)].flatten.length = 49 := by
    rw [List.flatten_cons, List.flatten_cons, List.flatten_nil, List.append_nil,
      List.length_append, algorithm, octets]
  rw [digestInfo, Asn1.sequence, length_encode_short (by rw [both]; decide), both]

theorem isSome_sign?_iff (message : Bytes) :
    (sign? key .sha256 message).isSome = true ↔ 62 ≤ key.toPublic.size := by
  rw [sign?, Option.isSome_map, filled?, length_digestInfo]
  split <;> simp <;> omega

theorem exists_sign?_eq_some (h : 62 ≤ key.toPublic.size) (message : Bytes) :
    ∃ signature, sign? key .sha256 message = some signature :=
  Option.isSome_iff_exists.1 ((isSome_sign?_iff message).2 h)

end Rsa

end VpnAuthority
