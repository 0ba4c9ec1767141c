/-!
# Integers in decimal

* `digits` writes a natural number, `ofInt` an integer.
* `readNat` and `readInt64` read an optional sign and at least one ASCII digit. Reading goes from
  left to right and stops at the first fault, so a number that has grown too large is reported
  before a stray character further on.
-/

namespace Lookout.Text

/-- The reasons for which a text is no integer in the wanted range. -/
inductive IntegerError
  | empty
  | invalidDigit
  | tooLarge
  | tooSmall
  deriving DecidableEq, Repr

/-- The wording of an integer error. -/
def IntegerError.message : IntegerError → String
  | .empty => "cannot parse integer from empty string"
  | .invalidDigit => "invalid digit found in string"
  | .tooLarge => "number too large to fit in target type"
  | .tooSmall => "number too small to fit in target type"

/-! ## Writing -/

/-- The digit with value `d`, for `d < 10`. -/
def digitChar (d : Nat) : Char :=
  Char.ofNat (48 + d)

/-- The decimal digits of a natural number, the most significant first; zero is `0`. -/
def digits (n : Nat) : List Char :=
  if n < 10 then [digitChar n] else digits (n / 10) ++ [digitChar (n % 10)]
termination_by n
decreasing_by omega

/-- The decimal text of an integer: a negative one has a minus sign in front. -/
def ofInt : Int → List Char
  | .ofNat n => digits n
  | .negSucc n => '-' :: digits (n + 1)

/-- `digits`, with zeros in front up to the given width. -/
def padded (width n : Nat) : List Char :=
  List.replicate (width - (digits n).length) '0' ++ digits n

/-- `ofInt` as a string. -/
def showInt (n : Int) : String :=
  String.ofList (ofInt n)

/-- `digits` as a string. -/
def showNat (n : Nat) : String :=
  String.ofList (digits n)

/-! ## Reading -/

/-- The characters `0` to `9`. -/
def isDigit (c : Char) : Bool :=
  48 ≤ c.toNat && c.toNat ≤ 57

/-- The value of a digit. -/
def digitValue (c : Char) : Nat :=
  c.toNat - 48

/-- Reads digits onto an accumulated value that may not exceed `limit`. -/
def readDigits (limit : Nat) (onExcess : IntegerError) : Nat → List Char → Except IntegerError Nat
  | acc, [] => .ok acc
  | acc, c :: cs =>
    if isDigit c then
      let next := 10 * acc + digitValue c
      if next ≤ limit then readDigits limit onExcess next cs else .error onExcess
    else .error .invalidDigit

/-- Reads at least one digit. -/
def readMagnitude (limit : Nat) (onExcess : IntegerError) : List Char → Except IntegerError Nat
  | [] => .error .invalidDigit
  | cs => readDigits limit onExcess 0 cs

/-- Reads a natural number up to `limit`; one plus sign is allowed. -/
def readNat (limit : Nat) : List Char → Except IntegerError Nat
  | [] => .error .empty
  | '+' :: cs => readMagnitude limit .tooLarge cs
  | cs => readMagnitude limit .tooLarge cs

/-- The largest integer of 64 bits with a sign, `2 ^ 63 - 1`. -/
def maxInt64 : Nat :=
  9223372036854775807

/-- Reads an integer of 64 bits; one sign is allowed. -/
def readInt64 : List Char → Except IntegerError Int64
  | [] => .error .empty
  | '+' :: cs => (readMagnitude maxInt64 .tooLarge cs).map fun n => Int64.ofInt n
  | '-' :: cs => (readMagnitude (maxInt64 + 1) .tooSmall cs).map fun n => Int64.ofInt (-n)
  | cs => (readMagnitude maxInt64 .tooLarge cs).map fun n => Int64.ofInt n

/-- The largest count of 64 bits, `2 ^ 64 - 1`. -/
def maxCount : Nat :=
  18446744073709551615

end Lookout.Text
