import VpnAuthority.Cipher.Chaining
import VpnAuthority.Proofs.Cipher.Aes

/-! Messages are deciphered whole, with neither more nor less than was enciphered. -/
namespace VpnAuthority

theorem Digest.parts_of_dvd {size : Nat} (hs : size ≠ 0) {bytes : Bytes}
    (h : size ∣ bytes.length) :
    (parts size bytes).flatten = bytes ∧ ∀ part ∈ parts size bytes, part.length = size := by
  fun_induction parts size bytes with
  | case1 bytes short =>
    have short := short.resolve_left hs
    have : bytes = [] := List.eq_nil_of_length_eq_zero (Nat.eq_zero_of_dvd_of_lt h short)
    simp [this]
  | case2 bytes long ih =>
    simp only [not_or, Nat.not_lt] at long
    have rest : size ∣ (bytes.drop size).length := by
      rw [List.length_drop]
      exact Nat.dvd_sub h (Nat.dvd_refl size)
    obtain ⟨whole, equal⟩ := ih rest
    refine ⟨?_, List.forall_mem_cons.2 ⟨List.length_take_of_le long.2, equal⟩⟩
    rw [List.flatten_cons, whole, List.take_append_drop]

theorem Digest.parts_flatten {size : Nat} (hs : size ≠ 0) {blocks : List Bytes}
    (h : ∀ block ∈ blocks, block.length = size) : parts size blocks.flatten = blocks := by
  induction blocks with
  | nil =>
    rw [parts]
    simp [Nat.pos_of_ne_zero hs]
  | cons block rest ih =>
    have equal := h block List.mem_cons_self
    have long : ¬(size = 0 ∨ (block ++ rest.flatten).length < size) := by
      rw [List.length_append]
      omega
    rw [List.flatten_cons, parts, if_neg long, List.take_left' equal, List.drop_left' equal,
      ih fun block hb => h block (List.mem_cons_of_mem _ hb)]

theorem Digest.length_flatten_of_equal {size : Nat} {blocks : List Bytes}
    (h : ∀ block ∈ blocks, block.length = size) :
    blocks.flatten.length = size * blocks.length := by
  induction blocks with
  | nil => rfl
  | cons block rest ih =>
    rw [List.flatten_cons, List.length_append, h block List.mem_cons_self,
      ih fun block hb => h block (List.mem_cons_of_mem _ hb), List.length_cons, Nat.mul_add,
      Nat.mul_one, Nat.add_comm]

namespace Cipher

theorem length_exclusiveOr {a b : Bytes} (h : a.length = b.length) :
    (exclusiveOr a b).length = a.length := by
  simp [exclusiveOr, h]

theorem exclusiveOr_cancel {a b : Bytes} (h : a.length = b.length) :
    exclusiveOr (exclusiveOr a b) b = a := by
  induction a generalizing b with
  | nil => rfl
  | cons x a ih =>
    cases b with
    | nil => cases h
    | cons y b =>
      have := ih (b := b) (by simpa using h)
      simp only [exclusiveOr] at this
      simp only [exclusiveOr, List.zipWith_cons_cons, this, Aes.xor_self_right]

section
variable {encrypt decrypt : Bytes → Bytes} {size : Nat}

@[simp] theorem length_chain (last : Bytes) (blocks : List Bytes) :
    (chain encrypt last blocks).length = blocks.length := by
  induction blocks generalizing last with
  | nil => rfl
  | cons block rest ih => simp [chain, ih]

theorem length_of_mem_chain (he : ∀ block, (encrypt block).length = size) (last : Bytes)
    (blocks : List Bytes) : ∀ block ∈ chain encrypt last blocks, block.length = size := by
  induction blocks generalizing last with
  | nil => simp [chain]
  | cons block rest ih => exact List.forall_mem_cons.2 ⟨he _, ih _⟩

theorem unchain_chain (he : ∀ block, (encrypt block).length = size)
    (hd : ∀ block : Bytes, block.length = size → decrypt (encrypt block) = block) {last : Bytes}
    {blocks : List Bytes} (hl : last.length = size) (hb : ∀ block ∈ blocks, block.length = size) :
    unchain decrypt last (chain encrypt last blocks) = blocks := by
  induction blocks generalizing last with
  | nil => rfl
  | cons block rest ih =>
    have equal : block.length = last.length := (hb block List.mem_cons_self).trans hl.symm
    have mixed : (exclusiveOr block last).length = size :=
      (length_exclusiveOr equal).trans (hb block List.mem_cons_self)
    rw [chain, unchain, hd _ mixed, exclusiveOr_cancel equal,
      ih (he _) fun block hm => hb block (List.mem_cons_of_mem _ hm)]

end

theorem dvd_length_fill {size : Nat} (hs : size ≠ 0) (message : Bytes) :
    size ∣ (fill size message).length := by
  have := Nat.mod_lt message.length (Nat.pos_of_ne_zero hs)
  have sum : (fill size message).length = size * (message.length / size + 1) := by
    have := Nat.div_add_mod message.length size
    simp only [fill, List.length_append, List.length_replicate, Nat.mul_add, Nat.mul_one]
    omega
  exact ⟨_, sum⟩

theorem unfill?_fill {size : Nat} (hs : size ≠ 0) (hl : size < 256) (message : Bytes) :
    unfill? size (fill size message) = some message := by
  have below := Nat.mod_lt message.length (Nat.pos_of_ne_zero hs)
  rw [fill]
  generalize hc : size - message.length % size = count
  have octet : (UInt8.ofNat count).toNat = count := by
    rw [UInt8.toNat_ofNat']
    omega
  have isLast : (message ++ List.replicate count (UInt8.ofNat count)).getLast? =
      some (UInt8.ofNat count) := by
    rw [List.getLast?_append, List.getLast?_replicate, if_neg (by omega)]
    rfl
  have kept : (message ++ List.replicate count (UInt8.ofNat count)).length - count =
      message.length := by
    rw [List.length_append, List.length_replicate]
    omega
  simp only [unfill?, isLast, Option.bind_eq_bind, Option.bind_some, octet, kept, List.drop_left,
    List.take_left]
  rw [if_pos]
  refine ⟨by omega, by omega, by rw [List.length_append, List.length_replicate]; omega, ?_⟩
  simp

theorem decrypt?_encrypt {kind : Kind} (hk : kind ≠ .tripleDes) {iv : Bytes}
    (hi : iv.length = kind.blockSize) (key message : Bytes) :
    decrypt? kind key iv (encrypt kind key iv message) = some message := by
  have size : kind.blockSize = 16 := by cases kind <;> first | rfl | exact absurd rfl hk
  have encrypts : kind.encryptor key = fun block =>
      (Aes.encryptBlock (Aes.schedule key) (.ofOctets block)).octets := by
    cases kind <;> first | rfl | exact absurd rfl hk
  have decrypts : kind.decryptor key = fun block =>
      (Aes.decryptBlock (Aes.schedule key) (.ofOctets block)).octets := by
    cases kind <;> first | rfl | exact absurd rfl hk
  have he (block : Bytes) : (kind.encryptor key block).length = 16 := by rw [encrypts]; rfl
  have hd (block : Bytes) (hb : block.length = 16) :
      kind.decryptor key (kind.encryptor key block) = block := by
    simp only [encrypts, decrypts, Aes.Block.ofOctets_octets, Aes.decryptBlock_encryptBlock,
      Aes.Block.octets_ofOctets hb]
  obtain ⟨whole, equal⟩ := Digest.parts_of_dvd (by decide : 16 ≠ 0)
    (dvd_length_fill (by decide : 16 ≠ 0) message)
  rw [size] at hi
  rw [encrypt, decrypt?, size]
  generalize hp : Digest.parts 16 (fill 16 message) = blocks at whole equal
  have outEqual := length_of_mem_chain he iv blocks
  have isSome : blocks ≠ [] := by
    rintro rfl
    have := congrArg (unfill? 16) whole
    rw [unfill?_fill (by decide) (by decide)] at this
    cases this
  have length := Digest.length_flatten_of_equal outEqual
  rw [length_chain] at length
  have notOdd : ¬((chain (kind.encryptor key) iv blocks).flatten.isEmpty = true ∨
      (chain (kind.encryptor key) iv blocks).flatten.length % 16 ≠ 0) := by
    have := List.length_pos_iff.2 isSome
    rw [List.isEmpty_iff, ← List.length_eq_zero_iff, length]
    omega
  rw [if_neg notOdd, Digest.parts_flatten (by decide) outEqual, unchain_chain he hd hi equal, whole,
    unfill?_fill (by decide) (by decide)]

theorem encrypt_ne_nil {kind : Kind} (hk : kind ≠ .tripleDes) {iv : Bytes}
    (hi : iv.length = kind.blockSize) (key message : Bytes) : encrypt kind key iv message ≠ [] := by
  intro he
  have := decrypt?_encrypt hk hi key message
  rw [he, decrypt?, if_pos (.inl rfl)] at this
  cases this

end Cipher

end VpnAuthority
