/-!
# Blank characters

* `isBlank`: the 25 characters with the property White_Space. The separators U+001C to U+001F, the
  zero width space U+200B and the byte order mark U+FEFF are not among them.
* `trim`: a text without the blank characters at its two ends.
* `trimStart`: a text without the blank characters at its start.
-/

namespace Lookout.Text

/-- The property White_Space. -/
def isBlank (c : Char) : Bool :=
  let n := c.toNat
  (9 ≤ n && n ≤ 13) || n == 0x20 || n == 0x85 || n == 0xA0 || n == 0x1680 ||
    (0x2000 ≤ n && n ≤ 0x200A) || n == 0x2028 || n == 0x2029 || n == 0x202F || n == 0x205F ||
    n == 0x3000

/-- The text after its leading blank characters. -/
def trimStart (s : List Char) : List Char :=
  s.dropWhile isBlank

/-- The text before its trailing blank characters. -/
def trimEnd (s : List Char) : List Char :=
  (s.reverse.dropWhile isBlank).reverse

/-- The text between its leading and its trailing blank characters. -/
def trim (s : List Char) : List Char :=
  trimEnd (trimStart s)

/-- `trim` on strings. -/
def trimmed (s : String) : String :=
  String.ofList (trim s.toList)

end Lookout.Text
