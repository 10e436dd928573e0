import VpnAuthority.Cipher.Aes
import VpnAuthority.Cipher.TripleDes
import VpnAuthority.Digest.Padding

/-! Messages of any length under a block cipher: each block is mixed with the one before
it, and the last is filled up with octets that tell how many they are. -/
namespace VpnAuthority.Cipher

inductive Kind where
  | aes128
  | aes192
  | aes256
  | tripleDes
  deriving DecidableEq, Repr

namespace Kind

def keySize : Kind → Nat
  | .aes128 => 16
  | .aes192 => 24
  | .aes256 => 32
  | .tripleDes => 24

def blockSize : Kind → Nat
  | .tripleDes => 8
  | _ => 16

def name : Kind → String
  | .aes128 => "AES-128-CBC"
  | .aes192 => "AES-192-CBC"
  | .aes256 => "AES-256-CBC"
  | .tripleDes => "DES-EDE3-CBC"

def all : List Kind := [.aes128, .aes192, .aes256, .tripleDes]

def encryptor (kind : Kind) (key : Bytes) : Bytes → Bytes :=
  match kind with
  | .tripleDes => TripleDes.encrypt key
  | _ =>
    let schedule := Aes.schedule key
    fun block => (Aes.encryptBlock schedule (.ofOctets block)).octets

def decryptor (kind : Kind) (key : Bytes) : Bytes → Bytes :=
  match kind with
  | .tripleDes => TripleDes.decrypt key
  | _ =>
    let schedule := Aes.schedule key
    fun block => (Aes.decryptBlock schedule (.ofOctets block)).octets

end Kind

def exclusiveOr (a b : Bytes) : Bytes := List.zipWith (· ^^^ ·) a b

def chain (encrypt : Bytes → Bytes) (last : Bytes) : List Bytes → List Bytes
  | [] => []
  | block :: rest =>
    let out := encrypt (exclusiveOr block last)
    out :: chain encrypt out rest

def unchain (decrypt : Bytes → Bytes) (last : Bytes) : List Bytes → List Bytes
  | [] => []
  | block :: rest => exclusiveOr (decrypt block) last :: unchain decrypt block rest

/-- Fills up a message to whole blocks, by at least one octet. -/
def fill (size : Nat) (message : Bytes) : Bytes :=
  let count := size - message.length % size
  message ++ List.replicate count (UInt8.ofNat count)

def unfill? (size : Nat) (message : Bytes) : Option Bytes := do
  let count ← message.getLast?
  let kept := message.length - count.toNat
  if 0 < count.toNat ∧ count.toNat ≤ size ∧ count.toNat ≤ message.length
      ∧ (message.drop kept).all (· == count) then
    some (message.take kept)
  else none

def encrypt (kind : Kind) (key iv message : Bytes) : Bytes :=
  let blocks := Digest.parts kind.blockSize (fill kind.blockSize message)
  (chain (kind.encryptor key) iv blocks).flatten

/-- The message, if there are whole blocks and the filling fits. -/
def decrypt? (kind : Kind) (key iv secret : Bytes) : Option Bytes :=
  if secret.isEmpty ∨ secret.length % kind.blockSize ≠ 0 then none
  else
    unfill? kind.blockSize
      (unchain (kind.decryptor key) iv (Digest.parts kind.blockSize secret)).flatten

end VpnAuthority.Cipher
