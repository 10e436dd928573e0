import VpnAuthority.Number.BigEndian
import VpnAuthority.Text.Fields

/-! Tagged elements, the building blocks of names, keys and certificates. They are
written with definite lengths in the shortest form. They are read from any form:
lengths may be long or left open, and text may be cut into parts. -/
namespace VpnAuthority.Asn1

inductive TagClass where
  | universal
  | application
  | context
  | reserved
  deriving DecidableEq, Repr

def TagClass.ofOctet (octet : UInt8) : TagClass :=
  if octet < 0x40 then .universal
  else if octet < 0x80 then .application
  else if octet < 0xc0 then .context
  else .reserved

/-- An element as it was read. Its content is what stands between its header and
its end, and `raw` is all of it. -/
structure Element where
  tagClass : TagClass
  tag : Nat
  constructed : Bool
  content : Bytes
  raw : Bytes
  deriving DecidableEq, Repr

def encodeLength (n : Nat) : Bytes :=
  if n < 0x80 then [UInt8.ofNat n]
  else
    let bytes := BigEndian.ofNat n
    UInt8.ofNat (0x80 + bytes.length) :: bytes

def encode (tag : UInt8) (content : Bytes) : Bytes :=
  tag :: encodeLength content.length ++ content

def booleanTag : UInt8 := 0x01
def integerTag : UInt8 := 0x02
def bitStringTag : UInt8 := 0x03
def octetStringTag : UInt8 := 0x04
def nullTag : UInt8 := 0x05
def objectIdTag : UInt8 := 0x06
def sequenceTag : UInt8 := 0x30
def setTag : UInt8 := 0x31

def sequence (parts : List Bytes) : Bytes := encode sequenceTag parts.flatten

def set (parts : List Bytes) : Bytes := encode setTag parts.flatten

def contextTag (n : Nat) : UInt8 := UInt8.ofNat (0xa0 + n)

def null : Bytes := encode nullTag []

def boolean (b : Bool) : Bytes := encode booleanTag [if b then 0xff else 0]

def octetString (content : Bytes) : Bytes := encode octetStringTag content

def readHighTag (n : Nat) : Bytes → Option (Nat × Bytes)
  | [] => none
  | b :: rest =>
    let n := n * 128 + (b.toNat &&& 0x7f)
    if Nat.pow 2 31 ≤ n then none
    else if b < 0x80 then some (n, rest)
    else readHighTag n rest

/-- A length, or none where the end is marked instead. A length in the long form
is followed by something, even if it is zero. -/
def readLength : Bytes → Option (Option Nat × Bytes)
  | [] => none
  | b :: rest =>
    if b = 0x80 then some (none, rest)
    else if b < 0x80 then some (some b.toNat, rest)
    else
      let count := b.toNat - 0x80
      if count < rest.length then some (some (BigEndian.toNat (rest.take count)), rest.drop count)
      else none

structure Header where
  tagClass : TagClass
  tag : Nat
  constructed : Bool
  length : Option Nat
  deriving DecidableEq, Repr

/-- The header of an element; only a constructed one may leave its length open, and
a given length does not reach past the end. -/
def readHeader : Bytes → Option (Header × Bytes)
  | [] => none
  | b :: rest => do
    let low := b.toNat &&& 0x1f
    let (tag, rest) ← if low = 0x1f then readHighTag 0 rest else some (low, rest)
    let (length, rest) ← readLength rest
    let constructed := b &&& 0x20 != 0
    match length with
    | none => if constructed then some (⟨.ofOctet b, tag, constructed, none⟩, rest) else none
    | some n =>
      if n ≤ rest.length then some (⟨.ofOctet b, tag, constructed, some n⟩, rest) else none

/-- What follows the mark that ends the innermost of `depth` elements of open
length. -/
def afterOpenEnd? (depth : Nat) (bytes : Bytes) : Option Bytes :=
  match depth, bytes with
  | 0, _ => some bytes
  | depth + 1, 0 :: 0 :: rest => afterOpenEnd? depth rest
  | depth + 1, bytes =>
    match readHeader bytes with
    | none => none
    | some (header, rest) =>
      continueWith bytes (rest.drop (header.length.getD 0)) fun next _ =>
        afterOpenEnd? (if header.length.isNone then depth + 2 else depth + 1) next
termination_by bytes.length

def read? (bytes : Bytes) : Option (Element × Bytes) := do
  let (header, rest) ← readHeader bytes
  match header.length with
  | some n =>
    let raw := bytes.take (bytes.length - rest.length + n)
    some (⟨header.tagClass, header.tag, header.constructed, rest.take n, raw⟩, rest.drop n)
  | none =>
    let behind ← afterOpenEnd? 1 rest
    let raw := bytes.take (bytes.length - behind.length)
    let content := rest.take (rest.length - behind.length - 2)
    some (⟨header.tagClass, header.tag, header.constructed, content, raw⟩, behind)

/-- The elements of which some octets consist; the mark of an open end is none. -/
def readAll? (bytes : Bytes) : Option (List Element) :=
  match bytes with
  | [] => some []
  | 0 :: 0 :: _ => none
  | bytes => do
    let (element, rest) ← read? bytes
    continueWith bytes rest fun rest _ => (readAll? rest).map (element :: ·)
termination_by bytes.length

namespace Element

def isUniversal (element : Element) (tag : Nat) : Bool :=
  element.tagClass == .universal && element.tag == tag

def isContext (element : Element) (tag : Nat) : Bool :=
  element.tagClass == .context && element.tag == tag

def members? (element : Element) : Option (List Element) :=
  if element.isUniversal 16 && element.constructed then readAll? element.content else none

/-- The members of a list of like elements, or of a set, which nobody marks as
constructed in vain. -/
def items? (element : Element) (tag : Nat) : Option (List Element) :=
  if element.isUniversal tag then readAll? element.content else none

def explicit? (element : Element) : Option Element := do
  if !element.constructed then none
  match ← readAll? element.content with
  | [inner] => some inner
  | _ => none

def maxPartDepth : Nat := 5

def joined? (depth : Nat) (element : Element) : Option Bytes :=
  if !element.constructed then some element.content
  else
    match depth with
    | 0 => none
    | depth + 1 => do
      let parts ← readAll? element.content
      let joined ← parts.mapM fun part => part.joined? depth
      some joined.flatten

def octets? (element : Element) : Option Bytes := element.joined? (maxPartDepth + 1)

end Element
end VpnAuthority.Asn1
