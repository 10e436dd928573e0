/-! Numbers written with ASCII digits. -/
namespace VpnAuthority.Digits

def value? (c : Char) : Option Nat :=
  if '0' ≤ c ∧ c ≤ '9' then some (c.toNat - '0'.toNat)
  else if 'a' ≤ c ∧ c ≤ 'f' then some (c.toNat - 'a'.toNat + 10)
  else if 'A' ≤ c ∧ c ≤ 'F' then some (c.toNat - 'A'.toNat + 10)
  else none

def read? (base : Nat) (text : List Char) : Option Nat :=
  if text.isEmpty then none
  else text.foldl (fun number c => do
    let number ← number
    let digit ← value? c
    if digit < base then some (number * base + digit) else none) (some 0)

def hexDigits : List Char :=
  ['0', '1', '2', '3', '4', '5', '6', '7', '8', '9', 'a', 'b', 'c', 'd', 'e', 'f']

def lowerHexDigit (n : Fin 16) : Char := hexDigits.get n

def isLowerHex (c : Char) : Bool := c.isDigit || ('a' ≤ c && c ≤ 'f')

theorem isLowerHex_lowerHexDigit : ∀ n, isLowerHex (lowerHexDigit n) = true := by decide

def decimal (n : Nat) : List Char := Nat.toDigits 10 n

def lowerHex (n : Nat) : List Char := Nat.toDigits 16 n

def paddedHex (width n : Nat) : List Char :=
  let digits := lowerHex n
  List.replicate (width - digits.length) '0' ++ digits

def paddedUpperHex (width n : Nat) : List Char := (paddedHex width n).map Char.toUpper

end VpnAuthority.Digits
