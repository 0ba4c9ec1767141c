import Lookout.Calendar.Instant

/-!
# Calendar hours

* `CalendarHour`: a date and an hour of the day.
* `CalendarHour.toHours`, `CalendarHour.ofHours`: the hours since 1970-01-01, and back.
* `CalendarShift.apply?`: moves a calendar hour by years and months first, then by days, then by
  hours. Each stage must stay in the years of a time stamp, and twelve times the years must fit into
  64 bits.
-/

namespace Lookout

/-- A date and an hour of the day. -/
structure CalendarHour where
  date : Date
  hour : Nat
  hour_lt : hour < 24 := by decide
  deriving DecidableEq, Repr

namespace CalendarHour

/-- The hours since 1970-01-01. -/
def toHours (t : CalendarHour) : Int :=
  24 * t.date.toDays + t.hour

/-- The calendar hour a number of hours after 1970-01-01. -/
def ofHours (hours : Int) : CalendarHour :=
  { date := Date.ofDays (hours / 24)
    hour := (hours % 24).toNat
    hour_lt := by omega }

/-- The day of an hour lies in the years of a time stamp. -/
def inRange (hours : Int) : Bool :=
  Date.minDays ≤ hours / 24 && hours / 24 ≤ Date.maxDays

/-- The hour in which an instant lies. -/
def ofInstant (t : Instant) : CalendarHour :=
  { date := t.date
    hour := t.hour
    hour_lt := by have := t.second_lt; unfold Instant.hour; omega }

end CalendarHour

/-- How far a calendar hour moves. -/
structure CalendarShift where
  years : Int
  months : Int
  days : Int
  hours : Int
  deriving DecidableEq, Repr

/-- Years and months, then days, then hours. -/
def CalendarShift.apply? (shift : CalendarShift) (t : CalendarHour) : Option CalendarHour :=
  let moved := t.date.addMonths (12 * shift.years + shift.months)
  if -9223372036854775808 ≤ 12 * shift.years ∧ 12 * shift.years < 9223372036854775808 ∧
      moved.inRange then
    let byDay := CalendarHour.toHours { t with date := moved } + 24 * shift.days
    if CalendarHour.inRange byDay then
      if CalendarHour.inRange (byDay + shift.hours) then
        some (CalendarHour.ofHours (byDay + shift.hours))
      else none
    else none
  else none

end Lookout
