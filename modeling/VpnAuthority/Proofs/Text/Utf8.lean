import Mathlib.Data.List.Basic
import VpnAuthority.Text.Utf8

/-! The octets of a text, character by character. -/
namespace VpnAuthority.Utf8

theorem encode_ofList (l : List Char) :
    encode (String.ofList l) = l.flatMap String.utf8EncodeChar := by
  simp only [encode, String.toUTF8_eq_toByteArray, String.toByteArray_ofList, List.utf8Encode]
  exact List.toList_data_toByteArray

theorem encode_eq_flatMap (text : String) :
    encode text = text.toList.flatMap String.utf8EncodeChar := by
  rw [← encode_ofList, String.ofList_toList]

theorem length_encode (text : String) : (encode text).length = text.utf8ByteSize := by
  rw [encode, Array.length_toList]
  rfl

theorem length_encode_le (text : String) : (encode text).length ≤ 4 * text.length := by
  rw [encode_eq_flatMap, ← String.length_toList]
  induction text.toList with
  | nil => simp
  | cons c rest ih =>
    have := c.utf8Size_le_four
    rw [List.flatMap_cons, List.length_append, String.length_utf8EncodeChar, List.length_cons]
    omega

theorem toNat_ofNat {n : Nat} (isValid : n.isValidChar) : (Char.ofNat n).toNat = n := by
  rw [Char.ofNat, dif_pos isValid]
  rfl

theorem toNat_ofNat_octet (b : UInt8) : (Char.ofNat b.toNat).toNat = b.toNat :=
  toNat_ofNat (.inl (by have := b.toNat_lt; omega))

theorem encode_ofList_ascii {l : List Char} (h : ∀ c ∈ l, c.toNat < 128) :
    encode (String.ofList l) = l.map fun c => UInt8.ofNat c.toNat := by
  rw [encode_ofList, List.map_eq_flatMap]
  refine List.flatMap_congr fun c hc => ?_
  have := h c hc
  unfold String.utf8EncodeChar
  rw [if_pos (show c.val.toNat ≤ 0x7f by change c.toNat ≤ 127; omega)]
  rfl

private theorem ofNat_ne_zero {n : Nat} (h : 0 < n % 256) : (0 : UInt8) ≠ UInt8.ofNat n := by
  intro h0
  have := congrArg UInt8.toNat h0
  rw [UInt8.toNat_ofNat'] at this
  simp at this
  omega

private theorem zero_mem_utf8EncodeChar (c : Char) : 0 ∈ String.utf8EncodeChar c ↔ c = '\x00' := by
  have isNul : c = '\x00' ↔ c.val.toNat = 0 := by
    rw [← Char.toNat_inj]
    rfl
  rw [isNul]
  unfold String.utf8EncodeChar
  generalize c.val.toNat = n
  dsimp only
  split
  · next h =>
    rw [List.mem_singleton]
    constructor
    · intro h0
      by_contra hn
      exact ofNat_ne_zero (by omega) h0
    · intro h0
      rw [h0]
      rfl
  · next h =>
    -- The octets of a longer form have their leading bit set.
    refine iff_of_false ?_ (by omega)
    split
    · simp only [List.mem_cons, List.not_mem_nil, or_false, not_or]
      exact ⟨ofNat_ne_zero (by omega), ofNat_ne_zero (by omega)⟩
    · split
      · simp only [List.mem_cons, List.not_mem_nil, or_false, not_or]
        exact ⟨ofNat_ne_zero (by omega), ofNat_ne_zero (by omega), ofNat_ne_zero (by omega)⟩
      · simp only [List.mem_cons, List.not_mem_nil, or_false, not_or]
        exact ⟨ofNat_ne_zero (by omega), ofNat_ne_zero (by omega), ofNat_ne_zero (by omega),
          ofNat_ne_zero (by omega)⟩

theorem zero_mem_encode_iff (text : String) : 0 ∈ encode text ↔ '\x00' ∈ text.toList := by
  simp only [encode_eq_flatMap, List.mem_flatMap, zero_mem_utf8EncodeChar, exists_eq_right]

end VpnAuthority.Utf8
