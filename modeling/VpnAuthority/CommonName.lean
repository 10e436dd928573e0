import VpnAuthority.Number.Digits

/-! Common names are limited to 64 code points. A longer subject keeps its first
half of that and gets a random half, so that it is still unlike any other. -/
namespace VpnAuthority

structure UniqueSuffix where
  digits : List Char
  length_digits : digits.length = 32
  isHex : digits.all Digits.isLowerHex = true
  deriving DecidableEq

/-- The suffix drawn from 128 random bits, laid out as a random unique identifier:
the thirteenth digit tells its version and the seventeenth its variant. -/
def UniqueSuffix.ofBits (bits : Nat) : UniqueSuffix where
  digits := (List.range 32).map fun i =>
    let digit := bits / Nat.pow 16 i
    if i = 12 then '4'
    else if i = 16 then Digits.lowerHexDigit (Fin.ofNat 16 (8 + digit % 4))
    else Digits.lowerHexDigit (Fin.ofNat 16 digit)
  length_digits := by simp
  isHex := by
    rw [List.all_map, List.all_eq_true]
    intro i _
    simp only [Function.comp_apply]
    split
    · rfl
    · split <;> exact Digits.isLowerHex_lowerHexDigit _

namespace CommonName

def maxLength : Nat := 64

def keptLength : Nat := 32

def ofSubject (suffix : UniqueSuffix) (subject : String) : String :=
  if subject.length ≤ maxLength then subject
  else String.ofList (subject.toList.take keptLength ++ suffix.digits)

end CommonName
end VpnAuthority
