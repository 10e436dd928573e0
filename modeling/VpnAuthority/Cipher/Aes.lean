import VpnAuthority.Text.Utf8

/-! The block cipher of 128-bit blocks, for keys of 128, 192 and 256 bits. A block is
four columns of four octets. -/
namespace VpnAuthority.Cipher.Aes

structure Column where
  top : UInt8
  second : UInt8
  third : UInt8
  bottom : UInt8
  deriving DecidableEq, Repr

structure Block where
  first : Column
  second : Column
  third : Column
  fourth : Column
  deriving DecidableEq, Repr

def double (b : UInt8) : UInt8 := if b < 0x80 then b <<< 1 else (b <<< 1) ^^^ 0x1b

def substitutes : Array UInt8 := #[
  0x63, 0x7c, 0x77, 0x7b, 0xf2, 0x6b, 0x6f, 0xc5, 0x30, 0x01, 0x67, 0x2b, 0xfe, 0xd7, 0xab, 0x76,
  0xca, 0x82, 0xc9, 0x7d, 0xfa, 0x59, 0x47, 0xf0, 0xad, 0xd4, 0xa2, 0xaf, 0x9c, 0xa4, 0x72, 0xc0,
  0xb7, 0xfd, 0x93, 0x26, 0x36, 0x3f, 0xf7, 0xcc, 0x34, 0xa5, 0xe5, 0xf1, 0x71, 0xd8, 0x31, 0x15,
  0x04, 0xc7, 0x23, 0xc3, 0x18, 0x96, 0x05, 0x9a, 0x07, 0x12, 0x80, 0xe2, 0xeb, 0x27, 0xb2, 0x75,
  0x09, 0x83, 0x2c, 0x1a, 0x1b, 0x6e, 0x5a, 0xa0, 0x52, 0x3b, 0xd6, 0xb3, 0x29, 0xe3, 0x2f, 0x84,
  0x53, 0xd1, 0x00, 0xed, 0x20, 0xfc, 0xb1, 0x5b, 0x6a, 0xcb, 0xbe, 0x39, 0x4a, 0x4c, 0x58, 0xcf,
  0xd0, 0xef, 0xaa, 0xfb, 0x43, 0x4d, 0x33, 0x85, 0x45, 0xf9, 0x02, 0x7f, 0x50, 0x3c, 0x9f, 0xa8,
  0x51, 0xa3, 0x40, 0x8f, 0x92, 0x9d, 0x38, 0xf5, 0xbc, 0xb6, 0xda, 0x21, 0x10, 0xff, 0xf3, 0xd2,
  0xcd, 0x0c, 0x13, 0xec, 0x5f, 0x97, 0x44, 0x17, 0xc4, 0xa7, 0x7e, 0x3d, 0x64, 0x5d, 0x19, 0x73,
  0x60, 0x81, 0x4f, 0xdc, 0x22, 0x2a, 0x90, 0x88, 0x46, 0xee, 0xb8, 0x14, 0xde, 0x5e, 0x0b, 0xdb,
  0xe0, 0x32, 0x3a, 0x0a, 0x49, 0x06, 0x24, 0x5c, 0xc2, 0xd3, 0xac, 0x62, 0x91, 0x95, 0xe4, 0x79,
  0xe7, 0xc8, 0x37, 0x6d, 0x8d, 0xd5, 0x4e, 0xa9, 0x6c, 0x56, 0xf4, 0xea, 0x65, 0x7a, 0xae, 0x08,
  0xba, 0x78, 0x25, 0x2e, 0x1c, 0xa6, 0xb4, 0xc6, 0xe8, 0xdd, 0x74, 0x1f, 0x4b, 0xbd, 0x8b, 0x8a,
  0x70, 0x3e, 0xb5, 0x66, 0x48, 0x03, 0xf6, 0x0e, 0x61, 0x35, 0x57, 0xb9, 0x86, 0xc1, 0x1d, 0x9e,
  0xe1, 0xf8, 0x98, 0x11, 0x69, 0xd9, 0x8e, 0x94, 0x9b, 0x1e, 0x87, 0xe9, 0xce, 0x55, 0x28, 0xdf,
  0x8c, 0xa1, 0x89, 0x0d, 0xbf, 0xe6, 0x42, 0x68, 0x41, 0x99, 0x2d, 0x0f, 0xb0, 0x54, 0xbb, 0x16]

def restored : Array UInt8 := #[
  0x52, 0x09, 0x6a, 0xd5, 0x30, 0x36, 0xa5, 0x38, 0xbf, 0x40, 0xa3, 0x9e, 0x81, 0xf3, 0xd7, 0xfb,
  0x7c, 0xe3, 0x39, 0x82, 0x9b, 0x2f, 0xff, 0x87, 0x34, 0x8e, 0x43, 0x44, 0xc4, 0xde, 0xe9, 0xcb,
  0x54, 0x7b, 0x94, 0x32, 0xa6, 0xc2, 0x23, 0x3d, 0xee, 0x4c, 0x95, 0x0b, 0x42, 0xfa, 0xc3, 0x4e,
  0x08, 0x2e, 0xa1, 0x66, 0x28, 0xd9, 0x24, 0xb2, 0x76, 0x5b, 0xa2, 0x49, 0x6d, 0x8b, 0xd1, 0x25,
  0x72, 0xf8, 0xf6, 0x64, 0x86, 0x68, 0x98, 0x16, 0xd4, 0xa4, 0x5c, 0xcc, 0x5d, 0x65, 0xb6, 0x92,
  0x6c, 0x70, 0x48, 0x50, 0xfd, 0xed, 0xb9, 0xda, 0x5e, 0x15, 0x46, 0x57, 0xa7, 0x8d, 0x9d, 0x84,
  0x90, 0xd8, 0xab, 0x00, 0x8c, 0xbc, 0xd3, 0x0a, 0xf7, 0xe4, 0x58, 0x05, 0xb8, 0xb3, 0x45, 0x06,
  0xd0, 0x2c, 0x1e, 0x8f, 0xca, 0x3f, 0x0f, 0x02, 0xc1, 0xaf, 0xbd, 0x03, 0x01, 0x13, 0x8a, 0x6b,
  0x3a, 0x91, 0x11, 0x41, 0x4f, 0x67, 0xdc, 0xea, 0x97, 0xf2, 0xcf, 0xce, 0xf0, 0xb4, 0xe6, 0x73,
  0x96, 0xac, 0x74, 0x22, 0xe7, 0xad, 0x35, 0x85, 0xe2, 0xf9, 0x37, 0xe8, 0x1c, 0x75, 0xdf, 0x6e,
  0x47, 0xf1, 0x1a, 0x71, 0x1d, 0x29, 0xc5, 0x89, 0x6f, 0xb7, 0x62, 0x0e, 0xaa, 0x18, 0xbe, 0x1b,
  0xfc, 0x56, 0x3e, 0x4b, 0xc6, 0xd2, 0x79, 0x20, 0x9a, 0xdb, 0xc0, 0xfe, 0x78, 0xcd, 0x5a, 0xf4,
  0x1f, 0xdd, 0xa8, 0x33, 0x88, 0x07, 0xc7, 0x31, 0xb1, 0x12, 0x10, 0x59, 0x27, 0x80, 0xec, 0x5f,
  0x60, 0x51, 0x7f, 0xa9, 0x19, 0xb5, 0x4a, 0x0d, 0x2d, 0xe5, 0x7a, 0x9f, 0x93, 0xc9, 0x9c, 0xef,
  0xa0, 0xe0, 0x3b, 0x4d, 0xae, 0x2a, 0xf5, 0xb0, 0xc8, 0xeb, 0xbb, 0x3c, 0x83, 0x53, 0x99, 0x61,
  0x17, 0x2b, 0x04, 0x7e, 0xba, 0x77, 0xd6, 0x26, 0xe1, 0x69, 0x14, 0x63, 0x55, 0x21, 0x0c, 0x7d]

def substitute (b : UInt8) : UInt8 := substitutes.getD b.toNat 0

def restore (b : UInt8) : UInt8 := restored.getD b.toNat 0

namespace Column

def map (f : UInt8 → UInt8) (c : Column) : Column :=
  ⟨f c.top, f c.second, f c.third, f c.bottom⟩

def add (c d : Column) : Column :=
  ⟨c.top ^^^ d.top, c.second ^^^ d.second, c.third ^^^ d.third, c.bottom ^^^ d.bottom⟩

def rotate (c : Column) : Column := ⟨c.second, c.third, c.bottom, c.top⟩

/-- Each octet becomes twice itself, three times the next and the other two. -/
def mix (c : Column) : Column :=
  let entry (a b c d : UInt8) := double a ^^^ (double b ^^^ b) ^^^ c ^^^ d
  ⟨entry c.top c.second c.third c.bottom, entry c.second c.third c.bottom c.top,
    entry c.third c.bottom c.top c.second, entry c.bottom c.top c.second c.third⟩

def unmix (c : Column) : Column :=
  let entry (a b c d : UInt8) :=
    let common := double (double (double (a ^^^ b ^^^ c ^^^ d)))
    common ^^^ double (double (a ^^^ c)) ^^^ double (a ^^^ b) ^^^ b ^^^ c ^^^ d
  ⟨entry c.top c.second c.third c.bottom, entry c.second c.third c.bottom c.top,
    entry c.third c.bottom c.top c.second, entry c.bottom c.top c.second c.third⟩

def octets (c : Column) : Bytes := [c.top, c.second, c.third, c.bottom]

end Column

namespace Block

def map (f : Column → Column) (b : Block) : Block :=
  ⟨f b.first, f b.second, f b.third, f b.fourth⟩

def add (a b : Block) : Block :=
  ⟨a.first.add b.first, a.second.add b.second, a.third.add b.third, a.fourth.add b.fourth⟩

def shift (b : Block) : Block :=
  ⟨⟨b.first.top, b.second.second, b.third.third, b.fourth.bottom⟩,
    ⟨b.second.top, b.third.second, b.fourth.third, b.first.bottom⟩,
    ⟨b.third.top, b.fourth.second, b.first.third, b.second.bottom⟩,
    ⟨b.fourth.top, b.first.second, b.second.third, b.third.bottom⟩⟩

def unshift (b : Block) : Block :=
  ⟨⟨b.first.top, b.fourth.second, b.third.third, b.second.bottom⟩,
    ⟨b.second.top, b.first.second, b.fourth.third, b.third.bottom⟩,
    ⟨b.third.top, b.second.second, b.first.third, b.fourth.bottom⟩,
    ⟨b.fourth.top, b.third.second, b.second.third, b.first.bottom⟩⟩

def octets (b : Block) : Bytes :=
  b.first.octets ++ b.second.octets ++ b.third.octets ++ b.fourth.octets

def ofOctets (bytes : Bytes) : Block :=
  let octet (i : Nat) : UInt8 := bytes.getD i 0
  let column (i : Nat) : Column := ⟨octet i, octet (i + 1), octet (i + 2), octet (i + 3)⟩
  ⟨column 0, column 4, column 8, column 12⟩

end Block

def columnsOf : Bytes → List Column
  | a :: b :: c :: d :: rest => ⟨a, b, c, d⟩ :: columnsOf rest
  | _ => []

/-- The next column of a schedule whose last columns are `window`, as many as the key
has; `index` counts the columns from the beginning. -/
def nextColumn (window : List Column) (index : Nat) (constant : UInt8) : Column :=
  let size := window.length
  let last := window.getLastD ⟨0, 0, 0, 0⟩
  let changed :=
    if index % size = 0 then (last.rotate.map substitute).add ⟨constant, 0, 0, 0⟩
    else if 6 < size ∧ index % size = 4 then last.map substitute
    else last
  (window.headD ⟨0, 0, 0, 0⟩).add changed

def extend (window : List Column) (index : Nat) (constant : UInt8) : Nat → List Column
  | 0 => window
  | count + 1 =>
    let next := nextColumn window index constant
    let constant := if index % window.length = 0 then double constant else constant
    match window with
    | [] => []
    | oldest :: rest => oldest :: extend (rest ++ [next]) (index + 1) constant count

def blocksOf : List Column → List Block
  | a :: b :: c :: d :: rest => ⟨a, b, c, d⟩ :: blocksOf rest
  | _ => []

/-- One block for the beginning and one for each round: ten, twelve or fourteen. -/
def schedule (key : Bytes) : List Block :=
  let columns := columnsOf key
  blocksOf (extend columns columns.length 1 (4 * (columns.length + 7) - columns.length))

def encryptRounds (block : Block) : List Block → Block
  | [] => block
  | [key] => ((block.map (Column.map substitute)).shift).add key
  | key :: rest =>
    encryptRounds (((((block.map (Column.map substitute)).shift).map Column.mix)).add key) rest

def encryptBlock (schedule : List Block) (block : Block) : Block :=
  match schedule with
  | [] => block
  | key :: rest => encryptRounds (block.add key) rest

def decryptBlock (schedule : List Block) (block : Block) : Block :=
  match schedule with
  | [] => block
  | start :: keys =>
    let undo (last : Bool) (block key : Block) : Block :=
      let block := block.add key
      (((if last then block else block.map Column.unmix)).unshift).map (Column.map restore)
    match keys.reverse with
    | [] => block.add start
    | final :: earlier => (earlier.foldl (undo false) (undo true block final)).add start

def encrypt (key block : Bytes) : Bytes := (encryptBlock (schedule key) (.ofOctets block)).octets

def decrypt (key block : Bytes) : Bytes := (decryptBlock (schedule key) (.ofOctets block)).octets

end VpnAuthority.Cipher.Aes
