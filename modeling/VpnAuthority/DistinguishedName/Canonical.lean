import VpnAuthority.DistinguishedName

/-! When two names are the same: text counts without regard to its type, to case and to
the number of spaces, and neither the order inside a set nor a set without attributes matters. -/
namespace VpnAuthority

namespace NameAttribute

def foldedTags : List Nat := [12, 19, 20, 22, 26, 28, 30]

def isSpace (b : UInt8) : Bool := b == 32 || (9 ≤ b && b ≤ 13)

def collapse : Bytes → Bytes
  | a :: b :: rest =>
    if isSpace a ∧ isSpace b then collapse (b :: rest)
    else (if isSpace a then 32 else a) :: collapse (b :: rest)
  | [a] => [if isSpace a then 32 else a]
  | [] => []

def lower (b : UInt8) : UInt8 := if 65 ≤ b ∧ b ≤ 90 then b + 32 else b

/-- The text of a value in its one form: no spaces at the ends, one between words, and
lower case. -/
def folded (text : Bytes) : Bytes :=
  let front := text.dropWhile isSpace
  (collapse (front.reverse.dropWhile isSpace).reverse).map lower

def canonical (entry : NameAttribute) : NameAttribute :=
  if foldedTags.contains entry.tag then
    match entry.text? with
    | some text => ⟨entry.type, 12, folded (Utf8.encode text)⟩
    | none => entry
  else entry

end NameAttribute

namespace DistinguishedName

def before (a b : Bytes) : Bool :=
  match a, b with
  | [], _ => true
  | _ :: _, [] => false
  | x :: a, y :: b => x < y || (x == y && before a b)

/-- The sets of a name with their attributes in one form and in order, but for those that hold
none. -/
def canonical (name : DistinguishedName) : List (List Bytes) :=
  (name.sets.filter fun set => !set.isEmpty).map fun set =>
    (set.map fun entry => entry.canonical.encode).mergeSort before

def same (a b : DistinguishedName) : Bool := a.canonical == b.canonical

end DistinguishedName
end VpnAuthority
