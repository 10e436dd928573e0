import VpnAuthority.Chance

/-! New keys: two random primes of half the size each. -/
namespace VpnAuthority.Rsa

def standardExponent : Nat := 65537

/-- Sizes for which keys are made, up to that of the longest numbers that can be held. -/
def minBits : Nat := 512

def maxBits : Nat := 536870848

def smallPrimes : List Nat :=
  (List.range 2000).filter fun n =>
    2 ≤ n ∧ (List.range 45).all fun d => d < 2 ∨ n ≤ d ∨ n % d ≠ 0

def reachesMinusOne (n x : Nat) : Nat → Bool
  | 0 => false
  | count + 1 => x == n - 1 || reachesMinusOne n (x * x % n) count

def splitTwos (n : Nat) : Nat × Nat :=
  if n = 0 ∨ n % 2 = 1 then (0, n)
  else
    let (count, odd) := splitTwos (n / 2)
    (count + 1, odd)
termination_by n

/-- Whether `witness` does not show the odd number `n` to be composite. -/
def passes (n witness : Nat) : Bool :=
  let (count, odd) := splitTwos (n - 1)
  let x := powMod witness odd n
  x == 1 || reachesMinusOne n x count

def witnesses : List Nat := smallPrimes.take 24

def isProbablePrime (n : Nat) : Bool :=
  smallPrimes.all (fun p => n % p != 0) && witnesses.all (passes n)

/-- The first prime from an odd number on, one less than which has no factor in common
with the public exponent. -/
def findPrime (n : Nat) : Nat → Nat
  | 0 => n
  | tries + 1 =>
    if n % standardExponent ≠ 1 && isProbablePrime n then n else findPrime (n + 2) tries

def oddStart (seed : Seed) (place bits : Nat) : Nat :=
  let top := 3 * Nat.pow 2 (bits - 2)
  let rest := seed.draw place (bits - 2)
  top + rest / 2 * 2 + 1

/-- Coefficients of `a` in the remainders of dividing two numbers by each other. -/
def inverseFrom (previous current : Nat) (x y : Int) : Int :=
  if current = 0 then x
  else inverseFrom current (previous % current) y (x - (previous / current : Nat) * y)
termination_by current
decreasing_by exact Nat.mod_lt _ (Nat.pos_of_ne_zero ‹_›)

def inverseMod (a m : Nat) : Nat := ((inverseFrom (a % m) m 1 0) % (m : Int)).toNat

def PrivateKey.ofPrimes (p q : Nat) : PrivateKey :=
  let d := inverseMod standardExponent (Nat.lcm (p - 1) (q - 1))
  ⟨p * q, standardExponent, d, p, q, d % (p - 1), d % (q - 1), inverseMod q p⟩

def generate (seed : Seed) (bits : Nat) : PrivateKey :=
  let half := (bits + 1) / 2
  let p := findPrime (oddStart seed 1 half) (bits * 64)
  let q := findPrime (oddStart seed 2 (bits - half)) (bits * 64)
  if p < q then .ofPrimes q p else .ofPrimes p q

end VpnAuthority.Rsa

namespace VpnAuthority

def Chance.keyOfSize? (chance : Chance) (bits : Nat) : Option Rsa.PrivateKey :=
  if Rsa.minBits ≤ bits ∧ bits ≤ Rsa.maxBits then some (chance.key bits) else none

def Chance.ofSeed (seed : Seed) : Chance where
  key := Rsa.generate seed
  serial := ⟨seed.draw 3 serialBits, seed.draw_lt 3 serialBits⟩
  iv := BigEndian.padded 16 (seed.draw 4 128)
  suffix := .ofBits (seed.draw 5 128)

end VpnAuthority
