import VpnAuthority.Number.Digits

/-! Binary floating-point numbers of double precision, held exactly: the number
nearest to a decimal, and the shortest decimal that reads back as the number. -/
namespace VpnAuthority

/-- A finite number is plus or minus `mantissa * 2 ^ exponent`, with a mantissa
below `2 ^ 53`, and of at least `2 ^ 52` unless the exponent is the least. -/
inductive Binary64 where
  | nan
  | infinite (negative : Bool)
  | finite (negative : Bool) (mantissa : Nat) (exponent : Int)
  deriving DecidableEq, Repr

namespace Binary64

def minExponent : Int := -1074

def roundHalfEven (numerator denominator : Nat) : Nat :=
  let quotient := numerator / denominator
  let twice := 2 * (numerator % denominator)
  if twice < denominator then quotient
  else if denominator < twice then quotient + 1
  else quotient + quotient % 2

def ofRatio (negative : Bool) (numerator denominator : Nat) : Binary64 :=
  if numerator = 0 then .finite negative 0 minExponent
  else
    let guess : Int := (numerator.log2 : Int) - denominator.log2 - 53
    let scaled (exponent : Int) : Nat × Nat :=
      if 0 ≤ exponent then (numerator, denominator * Nat.pow 2 exponent.toNat)
      else (numerator * Nat.pow 2 (-exponent).toNat, denominator)
    let fits (exponent : Int) : Bool :=
      let (above, below) := scaled exponent
      above < below * Nat.pow 2 53
    let exponent := max minExponent
      (if fits guess then guess else if fits (guess + 1) then guess + 1 else guess + 2)
    let (above, below) := scaled exponent
    let mantissa := roundHalfEven above below
    let (mantissa, exponent) :=
      if mantissa = Nat.pow 2 53 then (Nat.pow 2 52, exponent + 1) else (mantissa, exponent)
    if 971 < exponent then .infinite negative else .finite negative mantissa exponent

/-- The number nearest to `digits * 10 ^ exponent`. Exponents far outside the
range are settled without computing the power. -/
def ofDecimal (negative : Bool) (digits : Nat) (exponent : Int) : Binary64 :=
  let magnitude : Int := (Digits.decimal digits).length + exponent
  if digits = 0 ∨ magnitude < -400 then .finite negative 0 minExponent
  else if 400 < magnitude then .infinite negative
  else if 0 ≤ exponent then ofRatio negative (digits * Nat.pow 10 exponent.toNat) 1
  else ofRatio negative digits (Nat.pow 10 (-exponent).toNat)

def pointPosition (numerator denominator : Nat) : Int :=
  if denominator ≤ numerator then (Digits.decimal (numerator / denominator)).length
  else
    Int.negOfNat ((List.range 400).takeWhile fun i =>
      numerator * Nat.pow 10 (i + 1) < denominator).length

/-- The digits and the decimal exponent of the shortest decimal that reads back
as `mantissa * 2 ^ exponent`, and of those the nearest. -/
def shortest (mantissa : Nat) (exponent : Int) : Nat × Int :=
  let up := Nat.pow 2 exponent.toNat
  let down := Nat.pow 2 (-exponent).toNat
  let low := if mantissa = Nat.pow 2 52 ∧ minExponent < exponent then 4 * mantissa - 1
    else 4 * mantissa - 2
  let high := 4 * mantissa + 2
  let point := pointPosition (mantissa * up) down
  let readsBack (digits : Nat) (shift : Int) : Bool :=
    let value := 4 * digits * Nat.pow 10 shift.toNat * down
    let unit := up * Nat.pow 10 (-shift).toNat
    if mantissa % 2 = 0 then low * unit ≤ value ∧ value ≤ high * unit
    else low * unit < value ∧ value < high * unit
  let candidate (count : Nat) : Option (Nat × Int) :=
    let shift := point - count
    let above := mantissa * up * Nat.pow 10 (-shift).toNat
    let below := down * Nat.pow 10 shift.toNat
    let floor := above / below
    let nearFloor : Bool := 2 * (above % below) ≤ below
    match readsBack floor shift, readsBack (floor + 1) shift with
    | true, true => some (if nearFloor then floor else floor + 1, shift)
    | true, false => some (floor, shift)
    | false, true => some (floor + 1, shift)
    | false, false => none
  ((List.range 17).findSome? fun i => candidate (i + 1)).getD (mantissa * up, 0)

/-- `digits * 10 ^ exponent` written with a point and without an exponent; a
whole number keeps one zero behind the point. -/
def positional (digits : Nat) (exponent : Int) : List Char :=
  let written := Digits.decimal digits
  if 0 ≤ exponent then written ++ List.replicate exponent.toNat '0' ++ ['.', '0']
  else
    let places := (-exponent).toNat
    let padded := List.replicate (places + 1 - written.length) '0' ++ written
    padded.take (padded.length - places) ++ '.' :: padded.drop (padded.length - places)

def text : Binary64 → String
  | .nan => "NaN"
  | .infinite negative => if negative then "-inf" else "inf"
  | .finite negative mantissa exponent =>
    let digits := if mantissa = 0 then ['0', '.', '0']
      else
        let (digits, shift) := shortest mantissa exponent
        positional digits shift
    String.ofList (if negative then '-' :: digits else digits)

end Binary64
end VpnAuthority
