import Lookout.Text.Integer

/-!
# Binary floating point of 64 bits

A finite double as sign, significand and exponent, in exact arithmetic.

* `nearest`: the double nearest to a quotient, ties to the even significand.
* `Binary64.ofDecimal?`: the double of a decimal significand and exponent: the significand is
  rounded, and then multiplied or divided by the rounded power of ten.
* `shortest`: the fewest decimal digits that read back as the double.
* `Binary64.text`: these digits written positionally if the first one stands at most fifteen places
  in front of the unit and five behind it, and otherwise with an exponent.
-/

namespace Lookout

/-- The double `± significand * 2 ^ exponent`. -/
structure Binary64 where
  negative : Bool
  significand : Nat
  exponent : Int
  deriving DecidableEq, Repr

namespace Binary64

/-- `significand * 2 ^ exponent`. -/
abbrev Magnitude := Nat × Int

/-- The smallest exponent of a double. -/
def minExponent : Int := -1074

/-- The largest exponent of a double with 53 significant bits. -/
def maxExponent : Int := 971

/-- The leading bit of a significand of 53 bits, `2 ^ 52`. -/
def hiddenBit : Nat := 4503599627370496

/-- A power, 1 for a negative exponent. -/
def powAtLeastOne (base : Nat) (exponent : Int) : Nat :=
  Nat.pow base exponent.toNat

/-- The double nearest to `num / den`; of two, the one with the even significand. -/
def nearest (num den : Nat) : Magnitude :=
  if num = 0 then (0, minExponent)
  else
    let low : Int := (num.log2 : Int) - den.log2 - 53
    let fits := num * powAtLeastOne 2 (-low) < 2 * hiddenBit * den * powAtLeastOne 2 low
    let e := max (if fits then low else low + 1) minExponent
    let n := num * powAtLeastOne 2 (-e)
    let d := den * powAtLeastOne 2 e
    let q := n / d
    let r := n % d
    let m := if d < 2 * r ∨ (d = 2 * r ∧ q % 2 = 1) then q + 1 else q
    if m = 2 * hiddenBit then (hiddenBit, e + 1) else (m, e)

/-- The rounded product. -/
def mul (a b : Magnitude) : Magnitude :=
  let e := a.2 + b.2
  nearest (a.1 * b.1 * powAtLeastOne 2 e) (powAtLeastOne 2 (-e))

/-- The rounded quotient. -/
def div (a b : Magnitude) : Magnitude :=
  let e := a.2 - b.2
  nearest (a.1 * powAtLeastOne 2 e) (b.1 * powAtLeastOne 2 (-e))

/-- `m` divided by `10 ^ exponent`, in steps of at most `10 ^ 308`; three steps leave nothing of a
significand of 64 bits. -/
def divPowTen : (steps : Nat) → Magnitude → Nat → Magnitude
  | 0, _, _ => (0, minExponent)
  | steps + 1, m, exponent =>
    if exponent ≤ 308 then div m (nearest (Nat.pow 10 exponent) 1)
    else if m.1 = 0 then m
    else divPowTen steps (div m (nearest (Nat.pow 10 308) 1)) (exponent - 308)

/-- The double of `significand * 10 ^ exponent`, if it is finite. -/
def ofDecimal? (negative : Bool) (significand : Nat) (exponent : Int) : Option Binary64 :=
  let m := nearest significand 1
  let value : Magnitude :=
    if exponent < 0 then divPowTen 4 m exponent.natAbs
    else if m.1 = 0 then m
    else if 308 < exponent then (1, maxExponent + 1)
    else mul m (nearest (Nat.pow 10 exponent.toNat) 1)
  if maxExponent < value.2 then none
  else some { negative, significand := value.1, exponent := value.2 }

/-! ## Shortest digits -/

/-- The place of the first decimal digit: `n` with `10 ^ n ≤ m < 10 ^ (n + 1)`. -/
def leadingPlace (m : Magnitude) : Int :=
  let scaled := m.1 * powAtLeastOne 2 m.2 * Nat.pow 10 400 / powAtLeastOne 2 (-m.2)
  (Text.digits scaled).length - 1 - 400

/-- `x * 2 ^ (e - 2)` and `c * 10 ^ g` on a common scale. -/
def scaled (e g : Int) (x c : Nat) : Nat × Nat :=
  (x * powAtLeastOne 2 (e - 2) * powAtLeastOne 10 (-g),
    c * powAtLeastOne 10 g * powAtLeastOne 2 (2 - e))

/-- `c * 10 ^ g` rounds to the double. -/
def readsBack (m : Magnitude) (g : Int) (c : Nat) : Bool :=
  let below := if m.1 = hiddenBit ∧ minExponent < m.2 then 1 else 2
  let (low, lowC) := scaled m.2 g (4 * m.1 - below) c
  let (high, highC) := scaled m.2 g (4 * m.1 + 2) c
  if m.1 % 2 = 0 then low ≤ lowC && highC ≤ high else low < lowC && highC < high

/-- The point of the grid `10 ^ g` nearest to the double that reads back, if one does; of two, the
one that is an even multiple of `10 ^ g`. -/
def gridPoint? (m : Magnitude) (g : Int) : Option Nat :=
  let (v, unit) := scaled m.2 g (4 * m.1) 1
  let below := v / unit
  let above := below + 1
  match readsBack m g below, readsBack m g above with
  | true, true =>
    let down := 2 * (v % unit) < unit ∨ (2 * (v % unit) = unit ∧ below % 2 = 0)
    some (if down then below else above)
  | true, false => some below
  | false, true => some above
  | false, false => none

/-- The first of the grids from `10 ^ place` downwards that has a point that reads back. -/
def firstGrid (m : Magnitude) : (tries : Nat) → Int → Nat × Int
  | 0, place => (0, place)
  | tries + 1, place =>
    match gridPoint? m place with
    | some c => (c, place)
    | none => firstGrid m tries (place - 1)

/-- The shortest decimal `c * 10 ^ g` that reads back as the double. -/
def shortest (m : Magnitude) : Nat × Int :=
  if m.1 = 0 then (0, 0) else firstGrid m 19 (leadingPlace m + 1)

/-! ## Text -/

/-- `c * 10 ^ g` with a decimal point and no exponent. At least one digit follows the point. -/
def positional (c : Nat) (g : Int) : List Char :=
  if 0 ≤ g then Text.digits (c * Nat.pow 10 g.toNat) ++ ['.', '0']
  else
    let places := g.natAbs
    Text.digits (c / Nat.pow 10 places) ++ '.' :: Text.padded places (c % Nat.pow 10 places)

/-- `digits` with a point behind the first one and the exponent, whose sign is always written. A
single digit has no point. -/
def scientific (digits : List Char) (exponent : Int) : List Char :=
  let significand := match digits with
    | first :: second :: rest => first :: '.' :: second :: rest
    | digits => digits
  significand ++ 'e' :: (if exponent < 0 then '-' else '+') :: Text.digits exponent.natAbs

/-- The exponent of the first digit lies where numbers are written positionally. -/
def isPositional (exponent : Int) : Bool :=
  -5 ≤ exponent && exponent ≤ 15

/-- The text of a double. -/
def text (x : Binary64) : String :=
  let (c, g) := shortest (x.significand, x.exponent)
  let digits := Text.digits c
  let exponent : Int := g + digits.length - 1
  String.ofList ((if x.negative then ['-'] else []) ++
    if isPositional exponent then positional c g else scientific digits exponent)

end Binary64
end Lookout
