import VpnAuthority.Asn1.Integer
import VpnAuthority.Number.Digits

/-! Object identifiers: numbers of a tree of names, the first two packed into one,
each in base 128 with a mark on all octets but the last. -/
namespace VpnAuthority.Asn1

structure ObjectId where
  arcs : List Nat
  deriving DecidableEq, Repr

namespace ObjectId

def encodeArc (n : Nat) : Bytes := go (n / 128) ++ [UInt8.ofNat (n % 128)]
where
  go (n : Nat) : Bytes :=
    if n = 0 then [] else go (n / 128) ++ [UInt8.ofNat (n % 128 + 128)]
  termination_by n

def octets (id : ObjectId) : Bytes :=
  match id.arcs with
  | first :: second :: rest => ((first * 40 + second) :: rest).flatMap encodeArc
  | arcs => arcs.flatMap encodeArc

def encode (id : ObjectId) : Bytes := Asn1.encode objectIdTag id.octets

/-- The packed numbers of some octets, of which the current one is `n` so far; a
number does not begin with a zero digit and is not cut off. -/
def readArcs (n : Option Nat) : Bytes → Option (List Nat)
  | [] => if n.isNone then some [] else none
  | b :: rest =>
    if n.isNone ∧ b = 0x80 then none
    else
      let value := n.getD 0 * 128 + b.toNat % 128
      if b < 0x80 then (readArcs none rest).map (value :: ·) else readArcs (some value) rest

def ofOctets? (bytes : Bytes) : Option ObjectId := do
  match ← readArcs none bytes with
  | [] => none
  | first :: rest =>
    let top := min (first / 40) 2
    some ⟨top :: (first - top * 40) :: rest⟩

def dotted (id : ObjectId) : String :=
  String.ofList (['.'].intercalate (id.arcs.map Digits.decimal))

end ObjectId

def Element.objectId? (element : Element) : Option ObjectId :=
  (element.primitive? 6).bind ObjectId.ofOctets?

end VpnAuthority.Asn1
