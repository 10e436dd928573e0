import VpnAuthority.Certificate

/-! Keys of the public-key system on products of two primes. -/
namespace VpnAuthority.Rsa

open Asn1 (Element ObjectId)

def powMod (base exponent modulus : Nat) : Nat :=
  if exponent = 0 then 1 % modulus
  else
    let rest := powMod (base * base % modulus) (exponent / 2) modulus
    if exponent % 2 = 1 then base * rest % modulus else rest
termination_by exponent

structure PublicKey where
  modulus : Nat
  exponent : Nat
  deriving DecidableEq, Repr

structure PrivateKey where
  modulus : Nat
  publicExponent : Nat
  privateExponent : Nat
  firstPrime : Nat
  secondPrime : Nat
  firstExponent : Nat
  secondExponent : Nat
  coefficient : Nat
  deriving DecidableEq

def bitLength (n : Nat) : Nat := if n = 0 then 0 else n.log2 + 1

def maxVerifiedBits : Nat := 16384

/-- From this size of the modulus on, exponents may only have so many bits. -/
def largeBits : Nat := 3073

def maxExponentBits : Nat := 64

namespace PublicKey

def size (key : PublicKey) : Nat := (bitLength key.modulus + 7) / 8

def isUsable (key : PublicKey) : Bool :=
  bitLength key.modulus ≤ maxVerifiedBits && key.exponent < key.modulus
    && (bitLength key.modulus < largeBits || bitLength key.exponent ≤ maxExponentBits)

def encode (key : PublicKey) : Bytes :=
  Asn1.sequence [Asn1.natural key.modulus, Asn1.natural key.exponent]

def decode? (bytes : Bytes) : Option PublicKey := do
  let (element, _) ← Asn1.read? bytes
  match ← element.members? with
  | [modulus, exponent] => some ⟨← modulus.magnitude?, ← exponent.magnitude?⟩
  | _ => none

def algorithmId : ObjectId := ⟨[1, 2, 840, 113549, 1, 1, 1]⟩

def toInfo (key : PublicKey) : PublicKeyInfo := ⟨⟨algorithmId, some Asn1.null⟩, 0, key.encode⟩

def ofInfo? (info : PublicKeyInfo) : Option PublicKey :=
  if info.algorithm.id = algorithmId then decode? info.octets else none

end PublicKey

namespace PrivateKey

def toPublic (key : PrivateKey) : PublicKey := ⟨key.modulus, key.publicExponent⟩

def bits (key : PrivateKey) : Nat := bitLength key.modulus

def encode (key : PrivateKey) : Bytes :=
  Asn1.sequence (Asn1.natural 0 :: [key.modulus, key.publicExponent, key.privateExponent,
    key.firstPrime, key.secondPrime, key.firstExponent, key.secondExponent,
    key.coefficient].map Asn1.natural)

/-- How many primes a key has beyond two: each of them stands with two more numbers. -/
def furtherPrimes? : List Element → Option Nat
  | [] => some 0
  | [primes] => do
    let numbers ← (← primes.items? 16).mapM fun prime => do
      (← prime.members?).mapM Element.magnitude?
    if numbers.all (·.length == 3) then some numbers.length else none
  | _ => none

/-- The key of a sequence of numbers behind a version; octets behind it do not matter. One
version tells that there are further primes, which do nothing that the others do not. -/
def decode? (bytes : Bytes) : Option PrivateKey := do
  let (element, _) ← Asn1.read? bytes
  match ← element.members? with
  | version :: numbers =>
    let version ← version.shortInteger?
    match ← (numbers.take 8).mapM Element.magnitude?, ← furtherPrimes? (numbers.drop 8) with
    | [n, e, d, p, q, dp, dq, c], further =>
      if version = 1 ∧ further = 0 then none else some ⟨n, e, d, p, q, dp, dq, c⟩
    | _, _ => none
  | [] => none

/-- What makes a private key the other half of a public key that can be used. -/
structure Sound (key : PrivateKey) : Prop where
  isUsable : key.toPublic.isUsable = true
  undoes : ∀ m < key.modulus,
    powMod (powMod m key.privateExponent key.modulus) key.publicExponent key.modulus = m

end PrivateKey
end VpnAuthority.Rsa
