import VpnAuthority.Asn1.Element
import VpnAuthority.Calendar
import VpnAuthority.Number.Digits

/-! Times of certificates: two digits for the years from 1950 to 2049 and four for
all others, always in universal time and to the second. -/
namespace VpnAuthority.Asn1

structure Time where
  tag : Nat
  octets : Bytes
  deriving DecidableEq, Repr

def shortTimeTag : Nat := 23

def longTimeTag : Nat := 24

def digitOctets (width : Nat) (n : Int) : Bytes :=
  (List.range width).reverse.map fun place => UInt8.ofNat (48 + n.toNat / Nat.pow 10 place % 10)

namespace Time

def ofInstant? (t : Instant) : Option Time :=
  let date := t.toDateTime
  let rest := [date.month, date.day, date.hour, date.minute, date.second].flatMap (digitOctets 2)
    ++ [0x5a]
  if date.year < 0 ∨ 9999 < date.year then none
  else if 1950 ≤ date.year ∧ date.year ≤ 2049 then
    some ⟨shortTimeTag, digitOctets 2 (date.year % 100) ++ rest⟩
  else some ⟨longTimeTag, digitOctets 4 date.year ++ rest⟩

def encode (time : Time) : Bytes := Asn1.encode (UInt8.ofNat time.tag) time.octets

def number? (bytes : Bytes) : Option Int :=
  (Digits.read? 10 (bytes.map fun b => Char.ofNat b.toNat)).map Int.ofNat

def dateTime? (year : Int) (bytes : Bytes) : Option DateTime :=
  if bytes.length = 11 ∧ bytes.getLast? = some 0x5a then do
    let part (i : Nat) : Option Int := number? ((bytes.drop (2 * i)).take 2)
    let date : DateTime :=
      ⟨year, ← part 0, ← part 1, ← part 2, ← part 3, ← part 4⟩
    if date.isValid then some date else none
  else none

/-- The instant of a time in its exact form; no other form has one. -/
def instant? (time : Time) : Option Instant := do
  let width := if time.tag = shortTimeTag then 2 else 4
  let year ← number? (time.octets.take width)
  let year := if time.tag = shortTimeTag then if year < 50 then 2000 + year else 1900 + year
    else year
  (← dateTime? year (time.octets.drop width)).toInstant

end Time

/-- A time of either kind. What does not have the length of one is refused here, all
else only where the instant is needed. -/
def Element.time? (element : Element) : Option Time := do
  let octets ← element.octets?
  if element.isUniversal shortTimeTag ∧ 13 ≤ octets.length
      ∨ element.isUniversal longTimeTag ∧ 15 ≤ octets.length then
    some ⟨element.tag, octets⟩
  else none

end VpnAuthority.Asn1
