import DeclLine.Text.Extender
import DeclLine.Text.Ignorable
import DeclLine.Text.Unseen

/-!
Quoted text for messages. What a reader could not see as it stands is written as an escape.
-/
namespace DeclLine.Text

/-- The code point in lowercase hexadecimal, without leading zeros. -/
def hexDigits (c : Char) : List Char :=
  Nat.toDigits 16 c.toNat

def codeEscape (c : Char) : List Char :=
  ['\\', 'u', '\x7b'] ++ hexDigits c ++ ['\x7d']

/-- Plain ASCII stands for itself; the tables decide on all else. -/
def needsEscape (c : Char) : Bool :=
  c < ' ' || ('~' < c && (isExtender c || isIgnorable c || isUnseen c))

def quotedChar (c : Char) : List Char :=
  match c with
  | '\x00' => ['\\', '0']
  | '\t' => ['\\', 't']
  | '\n' => ['\\', 'n']
  | '\r' => ['\\', 'r']
  | '"' => ['\\', '"']
  | '\\' => ['\\', '\\']
  | c => if needsEscape c then codeEscape c else [c]

/-- The text between double quotes, with escapes. -/
def quoted (text : String) : String :=
  String.ofList (['"'] ++ text.toList.flatMap quotedChar ++ ['"'])

end DeclLine.Text
