import Mathlib.Data.List.Forall2
import VpnAuthority.Asn1.Element
import VpnAuthority.Proofs.Number.BigEndian

/-! A written element is read back, whatever follows it. -/
namespace VpnAuthority.Asn1

/-- No content is so long that its length does not fit the long form. -/
def Fits (content : Bytes) : Prop := content.length < 256 ^ 126

theorem Fits.of_length_le {a b : Bytes} (h : Fits b) (hl : a.length ≤ b.length) : Fits a :=
  Nat.lt_of_le_of_lt hl h

theorem length_le_encode (tag : UInt8) (content : Bytes) :
    content.length ≤ (encode tag content).length := by
  simp only [encode, List.length_append, List.length_cons]
  omega

theorem Fits.of_encode {tag : UInt8} {content : Bytes} (h : Fits (encode tag content)) :
    Fits content :=
  h.of_length_le (length_le_encode tag content)

theorem Fits.of_mem {parts : List Bytes} {part : Bytes} (h : Fits parts.flatten)
    (hm : part ∈ parts) : Fits part :=
  h.of_length_le (List.sublist_flatten_of_mem hm).length_le

theorem Fits.of_append {a b : Bytes} (h : Fits (a ++ b)) : Fits a ∧ Fits b :=
  ⟨h.of_length_le (List.sublist_append_left a b).length_le,
    h.of_length_le (List.sublist_append_right a b).length_le⟩

def written (tag : UInt8) (content : Bytes) : Element :=
  ⟨.ofOctet tag, tag.toNat &&& 0x1f, tag &&& 0x20 != 0, content, encode tag content⟩

def IsShortTag (tag : UInt8) : Prop := tag.toNat &&& 0x1f ≠ 0x1f

instance (tag : UInt8) : Decidable (IsShortTag tag) := inferInstanceAs (Decidable (_ ≠ _))

@[simp] theorem written_content (tag : UInt8) (content : Bytes) :
    (written tag content).content = content := rfl

@[simp] theorem written_raw (tag : UInt8) (content : Bytes) :
    (written tag content).raw = encode tag content := rfl

theorem readLength_encodeLength {n : Nat} {rest : Bytes} (fits : n < 256 ^ 126)
    (hr : n ≤ rest.length) : readLength (encodeLength n ++ rest) = some (some n, rest) := by
  unfold encodeLength
  split
  · next h =>
    have octet : (UInt8.ofNat n).toNat = n := by
      rw [UInt8.toNat_ofNat']
      omega
    have notOpen : UInt8.ofNat n ≠ 0x80 := fun he => by
      rw [he, show (0x80 : UInt8).toNat = 128 by decide] at octet
      omega
    have isShort : UInt8.ofNat n < 0x80 := by
      rw [UInt8.lt_iff_toNat_lt, octet]
      exact h
    rw [List.singleton_append, readLength, if_neg notOpen, if_pos isShort, octet]
  · next h =>
    have hn : n ≠ 0 := by omega
    have few := BigEndian.length_ofNat_le fits
    have some' := List.length_pos_iff.2 (BigEndian.ofNat_ne_nil hn)
    generalize hb : BigEndian.ofNat n = bytes at few some'
    have octet : (UInt8.ofNat (0x80 + bytes.length)).toNat = 0x80 + bytes.length := by
      rw [UInt8.toNat_ofNat']
      omega
    have notOpen : UInt8.ofNat (0x80 + bytes.length) ≠ 0x80 := fun he => by
      rw [he, show (0x80 : UInt8).toNat = 128 by decide] at octet
      omega
    have isLong : ¬UInt8.ofNat (0x80 + bytes.length) < 0x80 := by
      rw [UInt8.lt_iff_toNat_lt, octet]
      simp
    have count : (UInt8.ofNat (0x80 + bytes.length)).toNat - 0x80 = bytes.length := by omega
    have isFollowed : bytes.length < (bytes ++ rest).length := by
      rw [List.length_append]
      omega
    dsimp only
    rw [List.cons_append, readLength, if_neg notOpen, if_neg isLong]
    dsimp only
    rw [count, if_pos isFollowed, List.take_left, List.drop_left, ← hb, BigEndian.toNat_ofNat]

theorem length_encode_le (tag : UInt8) (content : Bytes) :
    (encode tag content).length ≤ 2 * content.length + 2 := by
  have few : (BigEndian.ofNat content.length).length ≤ content.length :=
    BigEndian.length_ofNat_le (Nat.lt_pow_self (by decide))
  have : (encodeLength content.length).length ≤ content.length + 1 := by
    unfold encodeLength
    split
    · simp
    · simpa using few
  simp only [encode, List.length_append, List.length_cons]
  omega

theorem read?_of_readHeader {front content rest : Bytes} {header : Header}
    (h : readHeader (front ++ (content ++ rest)) = some (header, content ++ rest))
    (hl : header.length = some content.length) :
    read? (front ++ (content ++ rest)) =
      some (⟨header.tagClass, header.tag, header.constructed, content, front ++ content⟩, rest) := by
  have before : (front ++ (content ++ rest)).length - (content ++ rest).length + content.length =
      (front ++ content).length := by
    simp only [List.length_append]
    omega
  rw [read?, h]
  simp only [Option.bind_eq_bind, Option.bind_some, hl, before, List.take_left, List.drop_left]
  rw [← List.append_assoc, List.take_left]

section
variable {tag : UInt8} {content : Bytes}

theorem read?_encode (hs : IsShortTag tag) (fits : Fits content) (rest : Bytes) :
    read? (encode tag content ++ rest) = some (written tag content, rest) := by
  have header : readHeader (tag :: encodeLength content.length ++ (content ++ rest)) =
      some (⟨.ofOctet tag, tag.toNat &&& 0x1f, tag &&& 0x20 != 0, some content.length⟩,
        content ++ rest) := by
    have hr : content.length ≤ (content ++ rest).length := by simp
    rw [List.cons_append, readHeader, if_neg hs]
    simp only [Option.bind_eq_bind, Option.bind_some, readLength_encodeLength fits hr, hr, if_true]
  rw [encode, List.append_assoc, read?_of_readHeader header rfl]
  rfl

/-- What is read in front of `rest` as an element; it is not the mark of an open end. -/
structure Reads (bytes : Bytes) (element : Element) (rest : Bytes) : Prop where
  isRead : read? (bytes ++ rest) = some (element, rest)
  isMarked : ∃ tag more, bytes = tag :: more ∧ tag ≠ 0

theorem reads_encode (hs : IsShortTag tag) (h0 : tag ≠ 0) (fits : Fits content) (rest : Bytes) :
    Reads (encode tag content) (written tag content) rest :=
  ⟨read?_encode hs fits rest, ⟨tag, _, rfl, h0⟩⟩

end

@[simp] theorem readAll?_nil : readAll? [] = some [] := by
  rw [readAll?]

theorem Reads.readAll?_append {bytes rest : Bytes} {element : Element}
    (h : Reads bytes element rest) :
    readAll? (bytes ++ rest) = (readAll? rest).map (element :: ·) := by
  obtain ⟨isRead, tag, more, rfl, h0⟩ := h
  rw [List.cons_append] at isRead ⊢
  rw [readAll?]
  · simp only [isRead, Option.bind_eq_bind, Option.bind_some, continueWith]
    rw [dif_pos (by simp only [List.length_cons, List.length_append]; omega)]
  · simp
  · intro _ he
    exact h0 (List.cons.inj he).1

theorem readAll?_encode_append {tag : UInt8} {content : Bytes} (hs : IsShortTag tag) (h0 : tag ≠ 0)
    (fits : Fits content) (rest : Bytes) :
    readAll? (encode tag content ++ rest) = (readAll? rest).map (written tag content :: ·) :=
  (reads_encode hs h0 fits rest).readAll?_append

theorem readAll?_encode {tag : UInt8} {content : Bytes} (hs : IsShortTag tag) (h0 : tag ≠ 0)
    (fits : Fits content) : readAll? (encode tag content) = some [written tag content] := by
  have := readAll?_encode_append hs h0 fits []
  rwa [List.append_nil, readAll?_nil] at this

private theorem zero_of_encodeLength {content tail : Bytes} (fits : Fits content)
    (h : encodeLength content.length ++ content = 0 :: tail) : content.length = 0 := by
  unfold encodeLength at h
  split at h
  · next small =>
    have octet := congrArg UInt8.toNat (List.cons.inj h).1
    rw [UInt8.toNat_ofNat'] at octet
    change _ = 0 at octet
    omega
  · have few := BigEndian.length_ofNat_le fits
    have octet := congrArg UInt8.toNat (List.cons.inj h).1
    rw [UInt8.toNat_ofNat'] at octet
    change _ = 0 at octet
    omega

/-- An element alone, which may have the tag of an open end if it is not the mark of one. -/
theorem readAll?_encode_alone {tag : UInt8} {content : Bytes} (hs : IsShortTag tag)
    (fits : Fits content) (h : encode tag content ≠ [0, 0]) :
    readAll? (encode tag content) = some [written tag content] := by
  have isRead := read?_encode hs fits []
  rw [List.append_nil] at isRead
  rw [readAll?]
  · simp only [isRead, Option.bind_eq_bind, Option.bind_some, continueWith]
    rw [dif_pos (by simp [encode]), readAll?_nil]
    rfl
  · simp [encode]
  · intro tail he
    apply h
    have noLength := zero_of_encodeLength fits (List.cons.inj he).2
    rw [List.length_eq_zero_iff] at noLength
    subst noLength
    rw [encode, (List.cons.inj he).1]
    rfl

theorem readAll?_flatten {parts : List Bytes} {elements : List Element}
    (h : List.Forall₂ (fun part element => ∀ rest, Reads part element rest) parts elements) :
    readAll? parts.flatten = some elements := by
  induction h with
  | nil => simp
  | cons first _ ih => rw [List.flatten_cons, (first _).readAll?_append, ih, Option.map_some]

theorem readAll?_map_encode {tag : UInt8} (hs : IsShortTag tag) (h0 : tag ≠ 0)
    {contents : List Bytes} (fits : ∀ content ∈ contents, Fits content) :
    readAll? (contents.map (encode tag)).flatten = some (contents.map (written tag)) := by
  refine readAll?_flatten ?_
  rw [List.forall₂_map_left_iff, List.forall₂_map_right_iff, List.forall₂_same]
  exact fun content hc rest => reads_encode hs h0 (fits content hc) rest

end VpnAuthority.Asn1
