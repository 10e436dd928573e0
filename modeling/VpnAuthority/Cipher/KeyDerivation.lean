import VpnAuthority.Cipher.Chaining
import VpnAuthority.Digest

/-! Keys made from passphrases: once by digesting the passphrase with a salt, and with
many rounds of a keyed digest. -/
namespace VpnAuthority.Cipher

/-- As many octets as a cipher's key takes, from digests that begin with the digest
before them. -/
def saltedKey (passphrase salt : Bytes) (last : Bytes) (size : Nat) : Nat → Bytes
  | 0 => []
  | count + 1 =>
    let next := Digest.Md5.md5 (last ++ passphrase ++ salt)
    (next ++ saltedKey passphrase salt next (size - next.length) count).take size

def keyOfPassphrase (kind : Kind) (passphrase salt : Bytes) : Bytes :=
  saltedKey passphrase salt [] kind.keySize (kind.keySize / 16 + 1)

/-- A digest under a key: the key is mixed with two constants and goes in front of the
message and of the inner digest. -/
def keyedDigest (kind : Digest.Kind) (key : Bytes) : Bytes → Bytes :=
  let key := if kind.blockSize < key.length then kind.apply key else key
  let key := key ++ List.replicate (kind.blockSize - key.length) 0
  let inner := key.map (· ^^^ 0x36)
  let outer := key.map (· ^^^ 0x5c)
  fun message => kind.apply (outer ++ kind.apply (inner ++ message))

def iterate (digest : Bytes → Bytes) (last sum : Bytes) : Nat → Bytes
  | 0 => sum
  | rounds + 1 =>
    let next := digest last
    iterate digest next (exclusiveOr sum next) rounds

def stretchedKey (kind : Digest.Kind) (passphrase salt : Bytes) (rounds size : Nat) : Bytes :=
  let digest := keyedDigest kind passphrase
  let part (i : Nat) : Bytes :=
    let first := digest (salt ++ BigEndian.padded 4 (i + 1))
    iterate digest first first (rounds - 1)
  ((List.range ((size + kind.size - 1) / kind.size)).flatMap part).take size

end VpnAuthority.Cipher
