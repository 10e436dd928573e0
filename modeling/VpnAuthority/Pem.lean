import VpnAuthority.Base64

/-! Armoured blocks: octets as text between two lines that bear a label. Blocks may
stand among other text, and in front of the octets there may be a header. -/
namespace VpnAuthority.Pem

structure Block where
  label : Bytes
  header : Bytes
  content : Bytes
  deriving DecidableEq, Repr

def lineFeed : UInt8 := 10

def columns : Nat := 64

def wrap (text : Bytes) : Bytes :=
  if text.isEmpty then []
  else text.take columns ++ lineFeed :: wrap (text.drop columns)
termination_by text.length
decreasing_by
  cases text with
  | nil => simp at *
  | cons b rest =>
    simp only [columns, List.length_drop, List.length_cons]
    omega

def beginMark : Bytes := Utf8.encode "-----BEGIN "

def endMark : Bytes := Utf8.encode "-----END "

def tailMark : Bytes := Utf8.encode "-----"

def encodeWith (label header content : Bytes) : Bytes :=
  beginMark ++ label ++ tailMark ++ lineFeed ::
    ((if header.isEmpty then [] else header ++ [lineFeed])
      ++ wrap (Base64.encode content)
      ++ endMark ++ label ++ tailMark ++ [lineFeed])

def encode (label content : Bytes) : Bytes := encodeWith label [] content

def text (pem : Bytes) : String := String.ofList (pem.map fun b => Char.ofNat b.toNat)

/-- A line without the space at its end. A line that is too long is read as several,
of which all but the last are cut off. -/
structure Line where
  octets : Bytes
  isCut : Bool
  deriving DecidableEq, Repr

def maxLineLength : Nat := 254

def lineLength (text : Bytes) : Nat :=
  min maxLineLength ((text.takeWhile (· ≠ lineFeed)).length + 1)

/-- Octets that are dropped at the end of a line: blanks, controls, and what is not
ASCII. -/
def isTrailing (b : UInt8) : Bool := b ≤ 32 || 128 ≤ b

def trimEnd (text : Bytes) : Bytes := (text.reverse.dropWhile isTrailing).reverse

def readLines (text : Bytes) : List Line :=
  if text.isEmpty then []
  else
    let taken := text.take (lineLength text)
    ⟨trimEnd taken, taken.length == maxLineLength && taken.getLast? != some lineFeed⟩
      :: readLines (text.drop (lineLength text))
termination_by text.length
decreasing_by
  cases text with
  | nil => simp at *
  | cons b rest =>
    simp only [lineLength, maxLineLength, List.length_drop, List.length_cons]
    omega

def byteOrderMark : Bytes := [0xef, 0xbb, 0xbf]

def untilNul (text : Bytes) : Bytes := text.takeWhile (· ≠ 0)

def beginLabel? (line : Bytes) : Option Bytes :=
  if beginMark.isPrefixOf line ∧ tailMark.isSuffixOf line then
    some (untilNul ((line.take (line.length - tailMark.length)).drop beginMark.length))
  else none

inductive Part where
  | unknown
  | header
  | body
  deriving DecidableEq, Repr

/-- How far a block is read: its lines in front of the first empty line and those
behind it, the last first, and whether the last line was cut off or short. -/
structure Progress where
  part : Part
  front : List Bytes
  back : List Bytes
  wasCut : Bool
  wasShort : Bool

def Progress.start : Progress := ⟨.unknown, [], [], false, false⟩

def written (line : Bytes) : Bytes :=
  if line.contains 0 then untilNul line else line ++ [lineFeed]

/-- The block of a label at its end. Without an empty line it has no header. -/
def Progress.finish? (progress : Progress) (label : Bytes) : Option Block :=
  let front := progress.front.reverse.flatten
  let back := progress.back.reverse.flatten
  let (header, text) := if progress.part = .unknown then ([], front) else (front, back)
  match Base64.decode? text with
  | none | some [] => none
  | some content => some ⟨label, header, content⟩

/-- Reads the lines of a block up to the one that ends it, with the same label. A
colon marks a header, and the header ends at an empty line; behind that all lines but
the last have the full width. -/
def readBody (label : Bytes) (progress : Progress) : List Line → Option (Block × List Line)
  | [] => none
  | line :: rest =>
    let part := if progress.part = .unknown ∧ line.octets.contains 58 then .header
      else progress.part
    let next := { progress with part, wasCut := line.isCut }
    if line.octets.isEmpty then
      if progress.wasCut then readBody label next rest
      else if part = .body then none
      else readBody label { next with part := .body } rest
    else if endMark.isPrefixOf line.octets then
      if line.octets.drop endMark.length = label ++ tailMark then
        (next.finish? label).map fun block => (block, rest)
      else none
    else if progress.wasShort then none
    else if part = .body then
      if columns < line.octets.length then none
      else readBody label { next with
        back := written line.octets :: progress.back
        wasShort := line.octets.length < columns } rest
    else readBody label { next with front := written line.octets :: progress.front } rest

theorem length_le_of_readBody {label : Bytes} {progress : Progress} {lines rest : List Line}
    {block : Block} (h : readBody label progress lines = some (block, rest)) :
    rest.length ≤ lines.length := by
  induction lines generalizing progress with
  | nil => simp [readBody] at h
  | cons line more ih =>
    simp only [readBody] at h
    repeat' split at h
    all_goals first
      | exact Nat.le_succ_of_le (ih h)
      | (simp only [Option.map_eq_some_iff, Prod.mk.injEq] at h
         obtain ⟨_, _, _, rfl⟩ := h
         simp)
      | simp at h

/-- The first block among some lines whose label is wanted. A malformed block in
front of it is a fault, another label is none. -/
def findFrom (wanted : Bytes → Bool) (atStart : Bool) (lines : List Line) : Option Block :=
  match lines with
  | [] => none
  | line :: rest =>
    let octets := if atStart ∧ byteOrderMark.isPrefixOf line.octets then line.octets.drop 3
      else line.octets
    match beginLabel? octets with
    | none => findFrom wanted false rest
    | some label =>
      match _h : readBody label .start rest with
      | none => none
      | some (block, rest) =>
        if wanted block.label then some block else findFrom wanted true rest
termination_by lines.length
decreasing_by
  · simp
  · have := length_le_of_readBody _h
    simp only [List.length_cons]
    omega

def find? (wanted : Bytes → Bool) (text : Bytes) : Option Block :=
  findFrom wanted true (readLines text)

end VpnAuthority.Pem
