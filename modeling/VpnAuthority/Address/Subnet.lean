import VpnAuthority.Address

/-! Subnets: an address with the number of leading bits that its network
shares. -/
namespace VpnAuthority

inductive Subnet where
  | v4 (bits : BitVec 32) (length : Fin 33)
  | v6 (bits : BitVec 128) (length : Fin 129)
  deriving DecidableEq, Repr

namespace Subnet

def mask (width length : Nat) : BitVec width := BitVec.allOnes width <<< (width - length)

def netmask : Subnet → Address
  | .v4 _ length => .v4 (mask 32 length)
  | .v6 _ length => .v6 (mask 128 length)

/-- The subnet written with its network's own address, all host bits zero. -/
def network : Subnet → Subnet
  | .v4 bits length => .v4 (bits &&& mask 32 length) length
  | .v6 bits length => .v6 (bits &&& mask 128 length) length

def address : Subnet → Address
  | .v4 bits _ => .v4 bits
  | .v6 bits _ => .v6 bits

def length : Subnet → Nat
  | .v4 _ length => length
  | .v6 _ length => length

def readLength? (digits bound : Nat) (text : List Char) : Option (Fin (bound + 1)) :=
  if digits < text.length then none
  else do
    let n ← Digits.read? 10 text
    if h : n < bound + 1 then some ⟨n, h⟩ else none

/-- An address in lenient style, a slash and the length: one or two digits for the
shorter family, up to three for the longer. -/
def ofText? (text : String) : Option Subnet :=
  match fields (· == '/') text.toList with
  | [before, behind] =>
    match Address.readDotted? .lenient before with
    | some bits => (readLength? 2 32 behind).map (.v4 bits)
    | none => do
      let bits ← Address.readColons? .lenient before
      (readLength? 3 128 behind).map (.v6 bits)
  | _ => none

def text (subnet : Subnet) : String :=
  String.ofList (subnet.address.chars ++ '/' :: Digits.decimal subnet.length)

end Subnet
end VpnAuthority
