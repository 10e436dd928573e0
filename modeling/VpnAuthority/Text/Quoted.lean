import VpnAuthority.Number.Digits
import VpnAuthority.Text.Printable

/-! Text in double quotes, fit for a message or a log: what is not visible is
written by its code point. -/
namespace VpnAuthority.Quoted

def codePoint (c : Char) : List Char :=
  ['\\', 'u', '{'] ++ Digits.lowerHex c.toNat ++ ['}']

def encodeChar : Char → List Char
  | '\x00' => ['\\', '0']
  | '\t' => ['\\', 't']
  | '\n' => ['\\', 'n']
  | '\r' => ['\\', 'r']
  | '"' => ['\\', '"']
  | '\\' => ['\\', '\\']
  | c => if Printable.isPrintable c then [c] else codePoint c

def text (s : String) : String :=
  String.ofList ('"' :: s.toList.flatMap encodeChar ++ ['"'])

/-- A path in quotes, in which a single quote is escaped too. -/
def path (s : String) : String :=
  String.ofList ('"' :: (s.toList.flatMap fun c => if c = '\'' then ['\\', '\''] else encodeChar c)
    ++ ['"'])

end VpnAuthority.Quoted
