import VpnAuthority.Address.Subnet
import VpnAuthority.Proofs.Address

/-! Subnets by their bits. The mask of a subnet has its leading bits set, the network keeps the
bits under the mask, and both are all that is left of the address. -/
namespace VpnAuthority

namespace Address

def width : Address → Nat
  | v4 _ => 32
  | v6 _ => 128

/-- The bit at a place that is counted from the front; there are none behind the last. -/
def bit : Address → Nat → Bool
  | v4 bits, i => bits.getMsbD i
  | v6 bits, i => bits.getMsbD i

theorem eq_of_bits {a b : Address} (sameWidth : a.width = b.width)
    (sameBits : ∀ i, a.bit i = b.bit i) : a = b := by
  cases a with
  | v4 bits =>
    cases b with
    | v4 bits' => exact congrArg v4 (BitVec.eq_of_getMsbD_eq fun i _ => sameBits i)
    | v6 bits' => exact absurd sameWidth (show 32 ≠ 128 by decide)
  | v6 bits =>
    cases b with
    | v4 bits' => exact absurd sameWidth (show 128 ≠ 32 by decide)
    | v6 bits' => exact congrArg v6 (BitVec.eq_of_getMsbD_eq fun i _ => sameBits i)

end Address

namespace Subnet

theorem getMsbD_mask {width length : Nat} (h : length ≤ width) (i : Nat) :
    (mask width length).getMsbD i = decide (i < length) := by
  rw [mask, BitVec.getMsbD_shiftLeft, BitVec.getMsbD_allOnes, decide_eq_decide]
  omega

section
variable (subnet : Subnet)

@[simp] theorem width_netmask : subnet.netmask.width = subnet.address.width := by
  cases subnet <;> rfl

theorem bit_netmask (i : Nat) : subnet.netmask.bit i = decide (i < subnet.length) := by
  cases subnet with
  | v4 bits length => exact getMsbD_mask (Nat.le_of_lt_succ length.isLt) i
  | v6 bits length => exact getMsbD_mask (Nat.le_of_lt_succ length.isLt) i

@[simp] theorem width_network : subnet.network.address.width = subnet.address.width := by
  cases subnet <;> rfl

@[simp] theorem length_network : subnet.network.length = subnet.length := by
  cases subnet <;> rfl

theorem bit_network (i : Nat) :
    subnet.network.address.bit i = (subnet.address.bit i && subnet.netmask.bit i) := by
  cases subnet with
  | v4 bits length => exact BitVec.getMsbD_and
  | v6 bits length => exact BitVec.getMsbD_and

end

theorem eq_of_address_of_length {a b : Subnet} (sameAddress : a.address = b.address)
    (sameLength : a.length = b.length) : a = b := by
  cases a with
  | v4 bits length =>
    cases b with
    | v4 bits' length' =>
      cases sameAddress
      exact congrArg (v4 bits) (Fin.ext sameLength)
    | v6 bits' length' => cases sameAddress
  | v6 bits length =>
    cases b with
    | v4 bits' length' => cases sameAddress
    | v6 bits' length' =>
      cases sameAddress
      exact congrArg (v6 bits) (Fin.ext sameLength)

/-- Two subnets of one family and length whose addresses have the same bits under the mask. -/
structure SharesNetwork (a b : Subnet) : Prop where
  width : a.address.width = b.address.width
  length : a.length = b.length
  bit : ∀ i, a.netmask.bit i = true → a.address.bit i = b.address.bit i

section
variable {a b : Subnet}

theorem SharesNetwork.netmask_eq (h : SharesNetwork a b) : a.netmask = b.netmask := by
  refine Address.eq_of_bits ?_ fun i => ?_
  · rw [width_netmask, width_netmask, h.width]
  · rw [bit_netmask, bit_netmask, h.length]

theorem SharesNetwork.network_eq (h : SharesNetwork a b) : a.network = b.network := by
  refine eq_of_address_of_length (Address.eq_of_bits ?_ fun i => ?_) ?_
  · rw [width_network, width_network, h.width]
  · rw [bit_network, bit_network, ← h.netmask_eq]
    cases under : a.netmask.bit i with
    | false => rw [Bool.and_false, Bool.and_false]
    | true => rw [h.bit i under]
  · rw [length_network, length_network, h.length]

end

theorem readLength?_decimal {digits bound : Nat} (length : Fin (bound + 1))
    (short : (Digits.decimal length).length ≤ digits) :
    readLength? digits bound (Digits.decimal length) = some length := by
  rw [readLength?, if_neg (by omega), Digits.read?_decimal]
  simp [length.is_le]

theorem ofText?_text (subnet : Subnet) : ofText? subnet.text = some subnet := by
  have noSlash : ∀ c ∈ subnet.address.chars, ¬(c == '/') = true := by
    intro c hc slash
    have isOne := Address.isAddressChar_of_mem_chars c hc
    rw [beq_iff_eq.1 slash] at isOne
    exact absurd isOne (by decide)
  have noSlashBehind : ∀ c ∈ Digits.decimal subnet.length, ¬(c == '/') = true := fun c hc => by
    simpa using Digits.ne_of_isSome_value? (Digits.isSome_value?_of_mem_decimal c hc)
      (d := '/') (by decide)
  rw [ofText?, text, String.toList_ofList, fields_append_cons noSlash rfl,
    fields_of_plain noSlashBehind]
  cases subnet with
  | v4 bits length =>
    have short : (Digits.decimal length).length ≤ 2 :=
      Digits.length_decimal_le (by decide) (by omega)
    simp only [address, Address.chars, Subnet.length, Address.readDotted?_dotted,
      readLength?_decimal length short, Option.map_some]
  | v6 bits length =>
    have short : (Digits.decimal length).length ≤ 3 :=
      Digits.length_decimal_le (by decide) (by omega)
    simp only [address, Address.chars, Subnet.length, Address.readDotted?_writeColons,
      Address.readColons?_writeColons, readLength?_decimal length short, Option.map_some,
      Option.bind_eq_bind, Option.bind_some]

end Subnet
end VpnAuthority
