import Mathlib.Data.List.Basic
import VpnAuthority.Cipher.Aes

/-! Deciphering undoes enciphering, round by round. -/
namespace VpnAuthority.Cipher.Aes

private theorem octet_forall {p : UInt8 → Prop} (h : ∀ n : Fin 256, p (UInt8.ofNat n.val))
    (b : UInt8) : p b := by
  have := h ⟨b.toNat, b.toNat_lt⟩
  rwa [UInt8.ofNat_toNat] at this

private theorem restored_substitutes : ∀ n : Fin 256,
    restored.toList.getD (substitutes.toList.getD n.val 0).toNat 0 = UInt8.ofNat n.val := by
  decide +kernel

theorem restore_substitute (b : UInt8) : restore (substitute b) = b := by
  have := restored_substitutes ⟨b.toNat, b.toNat_lt⟩
  simpa [restore, substitute] using this

private theorem xor_left_comm (a b c : UInt8) : a ^^^ (b ^^^ c) = b ^^^ (a ^^^ c) := by
  rw [← UInt8.xor_assoc, UInt8.xor_comm a b, UInt8.xor_assoc]

theorem xor_xor_self (a b : UInt8) : a ^^^ (a ^^^ b) = b := by
  rw [← UInt8.xor_assoc, UInt8.xor_self, UInt8.zero_xor]

theorem xor_self_right (a b : UInt8) : a ^^^ b ^^^ b = a := by
  rw [UInt8.xor_assoc, UInt8.xor_self, UInt8.xor_zero]

private def carry (b : UInt8) : UInt8 := if b.toBitVec.msb then 0x1b else 0

private theorem double_eq (b : UInt8) : double b = b <<< 1 ^^^ carry b :=
  octet_forall (p := fun b => double b = b <<< 1 ^^^ carry b) (by decide +kernel) b

private theorem carry_xor (a b : UInt8) : carry (a ^^^ b) = carry a ^^^ carry b := by
  unfold carry
  rw [UInt8.toBitVec_xor, BitVec.msb_xor]
  cases a.toBitVec.msb <;> cases b.toBitVec.msb <;> rfl

theorem double_xor (a b : UInt8) : double (a ^^^ b) = double a ^^^ double b := by
  simp only [double_eq, carry_xor, UInt8.shiftLeft_xor, UInt8.xor_assoc]
  rw [xor_left_comm (b <<< 1)]

namespace Column

private def row (a b c d : UInt8) : UInt8 := double a ^^^ (double b ^^^ b) ^^^ c ^^^ d

private def unrow (a b c d : UInt8) : UInt8 :=
  double (double (double (a ^^^ b ^^^ c ^^^ d))) ^^^ double (double (a ^^^ c)) ^^^ double (a ^^^ b)
    ^^^ b ^^^ c ^^^ d

private theorem mix_eq (c : Column) : mix c =
    ⟨row c.top c.second c.third c.bottom, row c.second c.third c.bottom c.top,
      row c.third c.bottom c.top c.second, row c.bottom c.top c.second c.third⟩ := rfl

private theorem unmix_eq (c : Column) : unmix c =
    ⟨unrow c.top c.second c.third c.bottom, unrow c.second c.third c.bottom c.top,
      unrow c.third c.bottom c.top c.second, unrow c.bottom c.top c.second c.third⟩ := rfl

private theorem unrow_row (a b c d : UInt8) :
    unrow (row a b c d) (row b c d a) (row c d a b) (row d a b c) = a := by
  have all : row a b c d ^^^ row b c d a ^^^ row c d a b ^^^ row d a b c = a ^^^ b ^^^ c ^^^ d := by
    simp only [row, UInt8.xor_assoc, UInt8.xor_comm, xor_left_comm, xor_xor_self, UInt8.xor_self,
      UInt8.xor_zero]
  have across : row a b c d ^^^ row c d a b = a ^^^ c ^^^ double (a ^^^ b ^^^ c ^^^ d) := by
    simp only [row, double_xor, UInt8.xor_assoc, UInt8.xor_comm, xor_left_comm, xor_xor_self]
  have beside : row a b c d ^^^ row b c d a = double a ^^^ a ^^^ b ^^^ double c := by
    simp only [row, UInt8.xor_assoc, UInt8.xor_comm, xor_left_comm, xor_xor_self]
  have others : row b c d a ^^^ row c d a b ^^^ row d a b c =
      row a b c d ^^^ (a ^^^ b ^^^ c ^^^ d) := by
    rw [← all, UInt8.xor_assoc (row a b c d ^^^ _), UInt8.xor_assoc (row a b c d), xor_xor_self,
      UInt8.xor_assoc]
  rw [unrow, all, across, beside, UInt8.xor_assoc _ (row b c d a), UInt8.xor_assoc _ (_ ^^^ _),
    others, row]
  generalize ht : a ^^^ b ^^^ c ^^^ d = t
  simp only [double_xor, UInt8.xor_assoc, UInt8.xor_comm, xor_left_comm, xor_xor_self]
  rw [UInt8.xor_self, UInt8.xor_zero, ← ht]
  simp only [UInt8.xor_comm, xor_left_comm, UInt8.xor_self, UInt8.xor_zero]

theorem unmix_mix (c : Column) : unmix (mix c) = c := by
  rw [unmix_eq, mix_eq]
  simp only [unrow_row]

theorem add_add_self (c d : Column) : (c.add d).add d = c := by
  simp only [add, xor_self_right]

theorem map_restore_map_substitute (c : Column) : (c.map substitute).map restore = c := by
  simp only [map, restore_substitute]

end Column

namespace Block

theorem add_add_self (a b : Block) : (a.add b).add b = a := by
  simp only [add, Column.add_add_self]

@[simp] theorem unshift_shift (b : Block) : b.shift.unshift = b := rfl

theorem map_unmix_map_mix (b : Block) : (b.map Column.mix).map Column.unmix = b := by
  simp only [map, Column.unmix_mix]

theorem map_restore_map_substitute (b : Block) :
    (b.map (Column.map substitute)).map (Column.map restore) = b := by
  simp only [map, Column.map_restore_map_substitute]

@[simp] theorem ofOctets_octets (b : Block) : ofOctets b.octets = b := rfl

@[simp] theorem length_octets (b : Block) : b.octets.length = 16 := rfl

theorem octets_ofOctets {bytes : Bytes} (h : bytes.length = 16) :
    (ofOctets bytes).octets = bytes := by
  match bytes, h with
  | [_, _, _, _, _, _, _, _, _, _, _, _, _, _, _, _], _ => rfl

end Block

private def undo (last : Bool) (block key : Block) : Block :=
  ((if last then block.add key else (block.add key).map Column.unmix).unshift).map
    (Column.map restore)

private theorem undo_round (block key : Block) :
    undo false ((((block.map (Column.map substitute)).shift).map Column.mix).add key) key =
      block := by
  simp only [undo, Bool.false_eq_true, if_false, Block.add_add_self, Block.map_unmix_map_mix,
    Block.unshift_shift, Block.map_restore_map_substitute]

private theorem undo_last (block key : Block) :
    undo true (((block.map (Column.map substitute)).shift).add key) key = block := by
  simp only [undo, if_true, Block.add_add_self, Block.unshift_shift,
    Block.map_restore_map_substitute]

private theorem decryptBlock_cons (start : Block) (keys : List Block) (block : Block) :
    decryptBlock (start :: keys) block =
      match keys.reverse with
      | [] => block.add start
      | final :: earlier => (earlier.foldl (undo false) (undo true block final)).add start := rfl

private theorem undo_encryptRounds {keys earlier : List Block} {final : Block} (block : Block)
    (h : keys.reverse = final :: earlier) :
    earlier.foldl (undo false) (undo true (encryptRounds block keys) final) = block := by
  induction keys generalizing block final earlier with
  | nil => cases h
  | cons key rest ih =>
    cases hr : rest.reverse with
    | nil =>
      rw [List.reverse_eq_nil_iff] at hr
      rw [hr] at h ⊢
      cases h
      rw [encryptRounds, List.foldl_nil, undo_last]
    | cons last others =>
      rw [List.reverse_cons, hr, List.cons_append] at h
      obtain ⟨rfl, rfl⟩ := List.cons.inj h
      have isSome : rest ≠ [] := by
        rintro rfl
        cases hr
      rw [List.foldl_append, encryptRounds, ih _ hr, List.foldl_cons, List.foldl_nil, undo_round]
      exact isSome

theorem decryptBlock_encryptBlock (schedule : List Block) (block : Block) :
    decryptBlock schedule (encryptBlock schedule block) = block := by
  cases schedule with
  | nil => rfl
  | cons start keys =>
    rw [decryptBlock_cons, encryptBlock]
    cases h : keys.reverse with
    | nil =>
      rw [List.reverse_eq_nil_iff] at h
      rw [h, encryptRounds]
      exact Block.add_add_self block start
    | cons final earlier =>
      dsimp only
      rw [undo_encryptRounds _ h, Block.add_add_self]

end VpnAuthority.Cipher.Aes
