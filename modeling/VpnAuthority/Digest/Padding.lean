import VpnAuthority.Number.BigEndian

/-! How a message is filled up before it is digested: a set bit, zeros, and its
length in bits, so that the blocks come out even. -/
namespace VpnAuthority.Digest

/-- The octets behind a message of a length, for blocks of `block` octets of which the
last ends in `size` octets of length, `bits` in either order. -/
def padding (block size length : Nat) (bits : Bytes) : Bytes :=
  0x80 :: List.replicate ((block * 2 - 1 - size - length % block) % block) 0 ++ bits

def padded (block size : Nat) (message : Bytes) : Bytes :=
  message ++ padding block size message.length (BigEndian.padded size (message.length * 8))

def parts (size : Nat) (bytes : Bytes) : List Bytes :=
  if size = 0 ∨ bytes.length < size then []
  else bytes.take size :: parts size (bytes.drop size)
termination_by bytes.length
decreasing_by simp; omega

def word32 (bytes : Bytes) : UInt32 := UInt32.ofNat (BigEndian.toNat bytes)

def word64 (bytes : Bytes) : UInt64 := UInt64.ofNat (BigEndian.toNat bytes)

def rotateLeft32 (x : UInt32) (n : UInt32) : UInt32 := (x <<< n) ||| (x >>> (32 - n))

def rotateRight32 (x : UInt32) (n : UInt32) : UInt32 := (x >>> n) ||| (x <<< (32 - n))

def rotateRight64 (x : UInt64) (n : UInt64) : UInt64 := (x >>> n) ||| (x <<< (64 - n))

end VpnAuthority.Digest
