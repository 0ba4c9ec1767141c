import Lookout.Text.Hexadecimal
import Lookout.Text.Pieces
import Lookout.Text.Utf8

/-!
# Percent encoding

* `Percent.decodeBytes`: the bytes of a text in which `%` and two hexadecimal digits stand for a
  byte. A percent sign without two digits stands for itself.
* `Percent.encodeForm`, `Percent.decodeForm`: the form encoding of names and values in a query, in
  which a plus sign stands for a space.
* `Percent.formPairs`: the names and values of a query.
-/

namespace Lookout.Http.Percent

/-! ## Decoding -/

/-- The byte of two hexadecimal digits. -/
def byte? (high low : Char) : Option Nat := do
  return 16 * (← Text.hexValue? high) + (← Text.hexValue? low)

/-- The bytes of a percent-encoded text. -/
def decodeBytes : List Char → List Nat
  | '%' :: high :: low :: rest =>
    match byte? high low with
    | some b => b :: decodeBytes rest
    | none => Text.Utf8.encodeChar '%' ++ decodeBytes (high :: low :: rest)
  | c :: rest => Text.Utf8.encodeChar c ++ decodeBytes rest
  | [] => []

/-- The text of a percent-encoded text, if its bytes are one. -/
def decode? (s : List Char) : Option String :=
  (Text.Utf8.decode? (decodeBytes s)).map String.ofList

/-- The text of a form-encoded text. -/
def decodeForm (s : List Char) : String :=
  String.ofList
    (Text.Utf8.decodeLossy (decodeBytes (s.map fun c => if c = '+' then ' ' else c)))

/-! ## Encoding -/

/-- The characters that stand for themselves in the form encoding. -/
def isPlain (c : Char) : Bool :=
  c.isAlphanum || c == '*' || c == '-' || c == '.' || c == '_'

/-- The percent encoding of a byte. -/
def encodeByte (b : Nat) : List Char :=
  ['%', Text.upperHexDigit (b / 16), Text.upperHexDigit (b % 16)]

/-- The form encoding of a character. -/
def encodeFormChar (c : Char) : List Char :=
  if isPlain c then [c]
  else if c = ' ' then ['+']
  else (Text.Utf8.encodeChar c).flatMap encodeByte

/-- The form encoding of a text. -/
def encodeForm (s : String) : List Char :=
  s.toList.flatMap encodeFormChar

/-! ## Queries -/

/-- The name and the value of a piece; a piece without an equals sign is a name. -/
def formPair (piece : List Char) : String × String :=
  match Text.splitFirst? '=' piece with
  | some (name, value) => (decodeForm name, decodeForm value)
  | none => (decodeForm piece, "")

/-- The names and values of a query in their order. -/
def formPairs (query : List Char) : List (String × String) :=
  ((Text.pieces '&' query).filter fun p => !p.isEmpty).map formPair

/-- The query of one name and value. -/
def formQuery (name value : String) : List Char :=
  encodeForm name ++ '=' :: encodeForm value

end Lookout.Http.Percent
