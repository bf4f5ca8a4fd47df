import Shading.Text.Hex
import Shading.Text.Hidden

/-! # Quoted text -/

namespace Shading.Text

/-- A character by its code point, in hexadecimal between braces. -/
def codePoint (c : Char) : List Char := "\\u\x7b".toList ++ (hex c.toNat).toList ++ ['\x7d']

/-- The written form of a character between quotation marks: marks and
    backslashes take a backslash, common controls have a letter, and every
    other hidden character is given by its code point. -/
def escape (c : Char) : List Char :=
  match c with
  | '"' => ['\\', '"']
  | '\\' => ['\\', '\\']
  | '\n' => ['\\', 'n']
  | '\r' => ['\\', 'r']
  | '\t' => ['\\', 't']
  | '\x00' => ['\\', '0']
  | c => if isHidden c then codePoint c else [c]

/-- A text between quotation marks. -/
def quoted (s : String) : String := "\"" ++ String.ofList (s.toList.flatMap escape) ++ "\""

end Shading.Text
