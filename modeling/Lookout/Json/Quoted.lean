import Lookout.Text.Hexadecimal

/-!
# Strings in JSON texts

* `Json.readString?`: the string after an opening quote. An escaped surrogate must be one of a pair,
  and controls must be escaped.
* `Json.skipString?`: passes over such a string without making out its characters; surrogates may
  then stand alone.
-/

namespace Lookout.Json

open Text

/-- The value of four hexadecimal digits. -/
def hexUnit? (a b c d : Char) : Option Nat := do
  return ((← hexValue? a) * 16 + (← hexValue? b)) * 256 + (← hexValue? c) * 16 + (← hexValue? d)

/-- The character of an escape by one letter. -/
def simpleEscape? : Char → Option Char
  | '"' => some '"'
  | '\\' => some '\\'
  | '/' => some '/'
  | 'b' => some '\x08'
  | 'f' => some '\x0c'
  | 'n' => some '\n'
  | 'r' => some '\r'
  | 't' => some '\t'
  | _ => none

/-- The character must be escaped inside a string. -/
def isControl (c : Char) : Bool :=
  c.toNat < 0x20

/-- The unit is the first one of a pair. -/
def isHighSurrogate (unit : Nat) : Bool :=
  0xD800 ≤ unit && unit ≤ 0xDBFF

/-- The unit is the second one of a pair. -/
def isLowSurrogate (unit : Nat) : Bool :=
  0xDC00 ≤ unit && unit ≤ 0xDFFF

/-- The character of a pair of units. -/
def pairChar (high low : Nat) : Char :=
  Char.ofNat (0x10000 + (high - 0xD800) * 0x400 + (low - 0xDC00))

/-- Reads characters up to the closing quote, after those in `acc`, which are in reverse. -/
def readChars? (acc : List Char) : List Char → Option (List Char × List Char)
  | [] => none
  | '"' :: r => some (acc.reverse, r)
  | '\\' :: 'u' :: a :: b :: c :: d :: r =>
    match hexUnit? a b c d with
    | none => none
    | some unit =>
      if isHighSurrogate unit then
        match r with
        | '\\' :: 'u' :: e :: f :: g :: h :: r =>
          match hexUnit? e f g h with
          | none => none
          | some low => if isLowSurrogate low then readChars? (pairChar unit low :: acc) r else none
        | _ => none
      else if isLowSurrogate unit then none
      else readChars? (Char.ofNat unit :: acc) r
  | '\\' :: e :: r =>
    match simpleEscape? e with
    | none => none
    | some c => readChars? (c :: acc) r
  | c :: r => if isControl c then none else readChars? (c :: acc) r

/-- Reads a string after its opening quote. -/
def readString? (s : List Char) : Option (String × List Char) :=
  (readChars? [] s).map fun (cs, r) => (String.ofList cs, r)

/-- The text after a string whose opening quote is passed. -/
def skipString? : List Char → Option (List Char)
  | [] => none
  | '"' :: r => some r
  | '\\' :: 'u' :: a :: b :: c :: d :: r =>
    if (hexUnit? a b c d).isSome then skipString? r else none
  | '\\' :: e :: r => if (simpleEscape? e).isSome then skipString? r else none
  | c :: r => if isControl c then none else skipString? r

end Lookout.Json
