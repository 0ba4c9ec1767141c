import Lookout.Text.Hexadecimal
import Lookout.Text.Printable

/-!
# Quoted text

`quoted` writes a text between double quotes for a message: quotes and backslashes are escaped, and
so are all characters that would not show (`\n`, `\u{7f}`).
-/

namespace Lookout.Text

/-- How a character stands between the quotes. -/
def quotedChar (c : Char) : List Char :=
  match c with
  | '"' => ['\\', '"']
  | '\\' => ['\\', '\\']
  | '\n' => ['\\', 'n']
  | '\r' => ['\\', 'r']
  | '\t' => ['\\', 't']
  | '\x00' => ['\\', '0']
  | c =>
    if isPrintable c then [c]
    else '\\' :: 'u' :: '\x7b' :: hexDigits c.toNat ++ ['\x7d']

/-- A text between double quotes. -/
def quoted (s : String) : String :=
  String.ofList ('"' :: s.toList.flatMap quotedChar ++ ['"'])

end Lookout.Text
