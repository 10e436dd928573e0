import VpnAuthority.Text.Fields
import VpnAuthority.Text.Utf8

/-! Octets as text in the alphabet of 64 characters, three octets in four. -/
namespace VpnAuthority.Base64

def digit (n : Nat) : UInt8 :=
  if n < 26 then UInt8.ofNat (65 + n)
  else if n < 52 then UInt8.ofNat (97 + (n - 26))
  else if n < 62 then UInt8.ofNat (48 + (n - 52))
  else if n = 62 then 43
  else 47

def digit? (b : UInt8) : Option Nat :=
  if 65 ≤ b ∧ b ≤ 90 then some (b.toNat - 65)
  else if 97 ≤ b ∧ b ≤ 122 then some (b.toNat - 97 + 26)
  else if 48 ≤ b ∧ b ≤ 57 then some (b.toNat - 48 + 52)
  else if b = 43 then some 62
  else if b = 47 then some 63
  else none

theorem digit?_digit (n : Nat) (h : n < 64) : digit? (digit n) = some n :=
  (by decide : ∀ n : Fin 64, digit? (digit n.val) = some n.val) ⟨n, h⟩

def pad : UInt8 := 61

def encode : Bytes → Bytes
  | a :: b :: c :: rest =>
    let word := a.toNat * 65536 + b.toNat * 256 + c.toNat
    digit (word / 262144) :: digit (word / 4096 % 64) :: digit (word / 64 % 64)
      :: digit (word % 64) :: encode rest
  | [a, b] =>
    let word := a.toNat * 65536 + b.toNat * 256
    [digit (word / 262144), digit (word / 4096 % 64), digit (word / 64 % 64), pad]
  | [a] =>
    let word := a.toNat * 65536
    [digit (word / 262144), digit (word / 4096 % 64), pad, pad]
  | [] => []

/-- Four digits at a time; the last four may end in padding, whose unused bits do not
matter. -/
def decodeDigits : Bytes → Option Bytes
  | [] => some []
  | a :: b :: c :: d :: rest => do
    let a ← digit? a
    let b ← digit? b
    if rest.isEmpty ∧ c = pad ∧ d = pad then
      some [UInt8.ofNat (a * 4 + b / 16)]
    else
      let c ← digit? c
      if rest.isEmpty ∧ d = pad then
        some [UInt8.ofNat (a * 4 + b / 16), UInt8.ofNat (b % 16 * 16 + c / 4)]
      else
        let d ← digit? d
        let more ← decodeDigits rest
        some (UInt8.ofNat (a * 4 + b / 16) :: UInt8.ofNat (b % 16 * 16 + c / 4)
          :: UInt8.ofNat (c % 4 * 64 + d) :: more)
  | _ => none

def isSpace (b : UInt8) : Bool := b == 32 || b == 9 || b == 10 || b == 13

/-- The octets of a text that may be broken by space; a hyphen ends it. -/
def decode? (text : Bytes) : Option Bytes :=
  decodeDigits ((text.takeWhile (· ≠ 45)).filter fun b => !isSpace b)

end VpnAuthority.Base64
