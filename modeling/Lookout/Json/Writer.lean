import Lookout.Json
import Lookout.Text.Hexadecimal

/-!
# Writing JSON

`Json.render` writes a value without blanks. In a string, quotes, backslashes and the characters
below U+0020 are escaped, and nothing else is. For what could not be read, nothing is written.
-/

namespace Lookout.Json

/-- How a character stands in a JSON string. -/
def escaped (c : Char) : List Char :=
  match c with
  | '"' => ['\\', '"']
  | '\\' => ['\\', '\\']
  | '\n' => ['\\', 'n']
  | '\r' => ['\\', 'r']
  | '\t' => ['\\', 't']
  | '\x08' => ['\\', 'b']
  | '\x0c' => ['\\', 'f']
  | c =>
    if c.toNat < 0x20 then ['\\', 'u', '0', '0', Text.hexDigit (c.toNat / 16),
      Text.hexDigit (c.toNat % 16)]
    else [c]

/-- A JSON string. -/
def stringChars (s : String) : List Char :=
  '"' :: s.toList.flatMap escaped ++ ['"']

mutual

/-- The characters of a value. -/
def chars : Json → List Char
  | .null => ['n', 'u', 'l', 'l']
  | .bool true => ['t', 'r', 'u', 'e']
  | .bool false => ['f', 'a', 'l', 's', 'e']
  | .integer n => Text.ofInt n
  | .real x => x.text.toList
  | .string s => stringChars s
  | .array items => '[' :: itemChars items ++ [']']
  | .object members => '\x7b' :: memberChars members ++ ['\x7d']
  | .unreadable _ => []

/-- Values with commas between them. -/
def itemChars : List Json → List Char
  | [] => []
  | [j] => j.chars
  | j :: rest => j.chars ++ ',' :: itemChars rest

/-- Members with commas between them. -/
def memberChars : List (String × Json) → List Char
  | [] => []
  | [(name, j)] => stringChars name ++ ':' :: j.chars
  | (name, j) :: rest => stringChars name ++ ':' :: (j.chars ++ ',' :: memberChars rest)

end

/-- The text of a value. -/
def render (j : Json) : String :=
  String.ofList j.chars

end Lookout.Json
