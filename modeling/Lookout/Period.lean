import Lookout.Text.Blank
import Lookout.Text.Integer

/-!
# Periods

A period is a count followed by a unit: `24h`, `7d`, `30m`.

* `Duration`: a span of time of at most `2 ^ 64 - 1` whole seconds, and nanoseconds.
* `Duration.ofPeriod`: reads a period. Blank characters around it are skipped, the last character
  is the unit, and the rest is a count of at most 64 bits with an optional plus sign. The unit is
  looked at before the count.
* `Duration.period`: writes a duration with the largest unit that divides it; nanoseconds are
  dropped.
-/

namespace Lookout

/-- A span of time: fewer than `2 ^ 64` seconds, and fewer than `10 ^ 9` nanoseconds. -/
structure Duration where
  secs : Nat
  nanos : Nat
  secs_lt : secs < 18446744073709551616 := by decide
  nanos_lt : nanos < 1000000000 := by decide
  deriving DecidableEq, Repr

namespace Duration

/-- A whole number of seconds. -/
def ofSecs (secs : Nat) (h : secs < 18446744073709551616 := by decide) : Duration :=
  { secs, nanos := 0, secs_lt := h }

/-- Seconds and nanoseconds, any number of these, if they fit. -/
def of? (secs nanos : Nat) : Option Duration :=
  if h : secs + nanos / 1000000000 < 18446744073709551616 then
    some
      { secs := secs + nanos / 1000000000
        nanos := nanos % 1000000000
        secs_lt := h
        nanos_lt := by omega }
  else none

/-- The length in nanoseconds. -/
def totalNanos (d : Duration) : Nat :=
  1000000000 * d.secs + d.nanos

/-- The duration without its nanoseconds. -/
def wholeSecs (d : Duration) : Duration :=
  ofSecs d.secs d.secs_lt

/-- No time at all. -/
def isZero (d : Duration) : Bool :=
  d.secs == 0 && d.nanos == 0

end Duration

/-- The reasons for which a text is no period; the text is quoted without blanks around it. -/
inductive PeriodError
  | empty
  | unknownUnit (text : String)
  | invalidCount (text : String)
  deriving DecidableEq, Repr

/-- The wording of a period error. -/
def PeriodError.message : PeriodError → String
  | .empty => "period string is empty"
  | .unknownUnit text => "unknown period unit in '" ++ text ++ "' (expected s, m, h, d or w)"
  | .invalidCount text => "invalid period count in '" ++ text ++ "'"

namespace Duration

/-- The units and their lengths in seconds, the longest first. -/
def units : List (Char × Nat) :=
  [('w', 7 * 24 * 60 * 60), ('d', 24 * 60 * 60), ('h', 60 * 60), ('m', 60), ('s', 1)]

/-- The length of a unit in seconds. -/
def unitSecs? (unit : Char) : Option Nat :=
  units.lookup unit

/-- Reads a period. -/
def ofPeriod (text : String) : Except PeriodError Duration :=
  let chars := Text.trim text.toList
  match chars.getLast? with
  | none => .error .empty
  | some unit =>
    match unitSecs? unit with
    | none => .error (.unknownUnit (String.ofList chars))
    | some per =>
      match Text.readNat Text.maxCount chars.dropLast with
      | .error _ => .error (.invalidCount (String.ofList chars))
      | .ok count =>
        if h : count * per < 18446744073709551616 then .ok (ofSecs (count * per) h)
        else .error (.invalidCount (String.ofList chars))

/-- The longest unit that divides a number of seconds. -/
def unitOf (secs : Nat) : Char × Nat :=
  (units.find? fun u => secs % u.2 == 0).getD ('s', 1)

/-- Writes a duration as a period. -/
def period (d : Duration) : String :=
  if d.secs = 0 then "0s"
  else
    let (unit, per) := unitOf d.secs
    String.ofList (Text.digits (d.secs / per) ++ [unit])

end Duration
end Lookout
