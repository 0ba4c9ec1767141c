import Lookout.Json.Decode
import Lookout.Text.Hexadecimal

/-!
# Universally unique identifiers

* `Uuid`: a number of 128 bits.
* `Uuid.text`: its hyphenated form in lower case.
* `Uuid.ofText?`: reads 32 hexadecimal digits in any case: alone, or hyphenated, or hyphenated in
  braces or after `urn:uuid:` (in any case).
-/

namespace Lookout

/-- A universally unique identifier: a number below `2 ^ 128`. -/
structure Uuid where
  value : Nat
  value_lt : value < 340282366920938463463374607431768211456 := by decide
  deriving DecidableEq, Repr

namespace Uuid

/-- The identifier of no trigger. -/
def nil : Uuid :=
  { value := 0 }

/-- The identifier of a number, if it has at most 128 bits. -/
def of? (value : Nat) : Option Uuid :=
  if h : value < 340282366920938463463374607431768211456 then some { value, value_lt := h }
  else none

instance : Ord Uuid :=
  ⟨fun a b => compare a.value b.value⟩

/-- The last `count` hexadecimal digits of a number. -/
def lastDigits : (count : Nat) → Nat → List Char
  | 0, _ => []
  | count + 1, n => lastDigits count (n / 16) ++ [Text.hexDigit (n % 16)]

/-- The characters of the hyphenated form. -/
def chars (id : Uuid) : List Char :=
  let digits := lastDigits 32 id.value
  digits.take 8 ++ '-' :: (digits.drop 8).take 4 ++ '-' :: (digits.drop 12).take 4 ++
    '-' :: (digits.drop 16).take 4 ++ '-' :: digits.drop 20

/-- The hyphenated form in lower case. -/
def text (id : Uuid) : String :=
  String.ofList id.chars

/-- The number of hexadecimal digits. -/
def hexNumber? (cs : List Char) : Option Nat :=
  cs.foldl (fun acc c => do return 16 * (← acc) + (← Text.hexValue? c)) (some 0)

/-- The identifier of 32 hexadecimal digits. -/
def ofDigits? (cs : List Char) : Option Uuid :=
  if cs.length = 32 then (hexNumber? cs).bind of? else none

/-- The identifier of a hyphenated form. -/
def ofHyphenated? (cs : List Char) : Option Uuid :=
  let hyphens := [8, 13, 18, 23].all fun i => cs[i]? == some '-'
  if cs.length = 36 ∧ hyphens then
    ofDigits? (cs.take 8 ++ (cs.drop 9).take 4 ++ (cs.drop 14).take 4 ++ (cs.drop 19).take 4 ++
      cs.drop 24)
  else none

/-- The mark in front of an identifier that is a resource name. -/
def resourceName : List Char :=
  "urn:uuid:".toList

/-- Reads an identifier. -/
def ofChars? (cs : List Char) : Option Uuid :=
  match cs.length with
  | 32 => ofDigits? cs
  | 36 => ofHyphenated? cs
  | 38 =>
    if cs.head? = some '\x7b' ∧ cs.getLast? = some '\x7d' then ofHyphenated? cs.tail.dropLast
    else none
  | 45 =>
    if (cs.take 9).map Char.toLower = resourceName then ofHyphenated? (cs.drop 9) else none
  | _ => none

/-- Reads an identifier. -/
def ofText? (s : String) : Option Uuid :=
  ofChars? s.toList

/-- An identifier as a JSON string. -/
def toJson (id : Uuid) : Json :=
  .string id.text

/-- An identifier from a JSON string. -/
def ofJson : Json → Except DecodeError Uuid
  | .string s =>
    match ofText? s with
    | some id => .ok id
    | none => .error .uuid
  | j => .error (j.wrongType "a formatted UUID string")

end Uuid
end Lookout
