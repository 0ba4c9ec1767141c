import Lookout.Json

/-!
# Numbers in JSON texts

* `Numeral`: a number as it is written.
* `Numeral.read?`: reads one at the start of a text.
* `Numeral.value?`: its value. Without fraction and exponent, and if it fits into 64 bits, it is an
  integer; `-0` is a double. Of longer numbers, the leading digits that fit into 64 bits count. A
  number too large for a double has no value.
-/

namespace Lookout.Json

open Text

/-- A number as it is written: the digits in front of the point, the digits after it, and the
exponent if there is one. -/
structure Numeral where
  negative : Bool
  whole : List Char
  fraction : List Char
  power? : Option Int

namespace Numeral

/-! ## Reading -/

/-- Exponents beyond this one make no difference: the number is zero or too large. -/
def maxPower : Nat := 4294967296

/-- The size of an exponent, at most `maxPower`. -/
def powerOf (run : List Char) : Nat :=
  run.foldl (fun n c => min (10 * n + digitValue c) maxPower) 0

/-- Reads the digits of an exponent with their sign. -/
def readPower? (s : List Char) : Option (Int × List Char) :=
  let (negative, s) := match s with
    | '+' :: r => (false, r)
    | '-' :: r => (true, r)
    | s => (false, s)
  let run := s.takeWhile isDigit
  let power : Int := if negative then -powerOf run else powerOf run
  if run.isEmpty then none else some (power, s.dropWhile isDigit)

/-- Reads the exponent if there is one. -/
def readExponent? : List Char → Option (Option Int × List Char)
  | 'e' :: r => (readPower? r).map fun (power, r) => (some power, r)
  | 'E' :: r => (readPower? r).map fun (power, r) => (some power, r)
  | s => some (none, s)

/-- Reads the digits after the point if there is one. -/
def readFraction? : List Char → Option (List Char × List Char)
  | '.' :: r =>
    let run := r.takeWhile isDigit
    if run.isEmpty then none else some (run, r.dropWhile isDigit)
  | s => some ([], s)

/-- Reads the digits in front of the point: one zero, or digits that begin with another one. -/
def readWhole? : List Char → Option (List Char × List Char)
  | '0' :: r =>
    match r with
    | c :: _ => if isDigit c then none else some (['0'], r)
    | [] => some (['0'], [])
  | s =>
    let run := s.takeWhile isDigit
    if run.isEmpty then none else some (run, s.dropWhile isDigit)

/-- Reads a number. -/
def read? (s : List Char) : Option (Numeral × List Char) := do
  let (negative, s) := match s with
    | '-' :: r => (true, r)
    | s => (false, s)
  let (whole, s) ← readWhole? s
  let (fraction, s) ← readFraction? s
  let (power?, s) ← readExponent? s
  return ({ negative, whole, fraction, power? }, s)

/-! ## Value -/

/-- Appends digits to a significand as long as it fits into 64 bits; returns those left over. -/
def takeDigits : Nat → List Char → Nat × List Char
  | n, [] => (n, [])
  | n, c :: cs =>
    if 10 * n + digitValue c ≤ maxCount then takeDigits (10 * n + digitValue c) cs
    else (n, c :: cs)

/-- The value of a whole number: an integer if it fits into 64 bits. -/
def wholeValue? (negative : Bool) (run : List Char) : Option Json :=
  let (n, excess) := takeDigits 0 run
  if excess.isEmpty ∧ ¬ negative then some (.integer n)
  else if excess.isEmpty ∧ 0 < n ∧ n ≤ 9223372036854775808 then some (.integer (-n))
  else (Binary64.ofDecimal? negative n excess.length).map .real

/-- The value as a double. -/
def realValue? (n : Numeral) : Option Json :=
  let (significand, excess) := takeDigits 0 n.whole
  let (significand, left) := takeDigits significand n.fraction
  let taken : Int := (n.fraction.length : Int) - left.length
  (Binary64.ofDecimal? n.negative significand (excess.length - taken + n.power?.getD 0)).map .real

/-- The value. -/
def value? (n : Numeral) : Option Json :=
  if n.fraction.isEmpty ∧ n.power?.isNone then wholeValue? n.negative n.whole else n.realValue?

end Numeral
end Lookout.Json
