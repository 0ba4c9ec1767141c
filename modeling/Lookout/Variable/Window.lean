import Lookout.Variable

/-!
# The next window

`VariableSet.advance` moves the variables to the next window. The calendar variables move together
as one calendar hour, so that a day past the end of a month goes into the next month. If they are
not all declared, form no date or leave the years of a time stamp, each is moved by its own
increment, like all other variables.
-/

namespace Lookout.VariableSet

/-- The calendar hour of the given year, month, day and hour. The day is brought into the month; the
month after it must begin in the years of a time stamp, and a day has at most 32 bits. -/
def calendarHour? (year month day hour : Int) : Option CalendarHour :=
  if hm : 1 ≤ month.toNat ∧ month.toNat ≤ 12 then
    let following := (Date.clamped year month.toNat 1 hm).addMonths 1
    if minYear ≤ year ∧ following.inRange ∧ 0 ≤ day ∧ day < 4294967296 ∧ 0 ≤ hour then
      if hh : hour.toNat < 24 then
        some
          { date := Date.clamped year month.toNat day.toNat hm, hour := hour.toNat, hour_lt := hh }
      else none
    else none
  else none

/-- The calendar hour that the calendar variables form. -/
def calendarTime? (vars : VariableSet) : Option CalendarHour := do
  let year ← vars.value? "YEAR"
  let month ← vars.value? "MONTH"
  let day ← vars.value? "DAY"
  let hour ← vars.value? "HOUR"
  calendarHour? year.toInt month.toInt day.toInt hour.toInt

/-- The increment of a variable, 0 if it is not declared. -/
def increment (vars : VariableSet) (name : String) : Int :=
  ((vars.find? name).map fun v => v.increment.toInt).getD 0

/-- The increments of the calendar variables. -/
def calendarShift (vars : VariableSet) : CalendarShift :=
  { years := vars.increment "YEAR"
    months := vars.increment "MONTH"
    days := vars.increment "DAY"
    hours := vars.increment "HOUR" }

/-- The calendar hour of the next window, if the calendar variables have one. -/
def nextCalendarTime? (vars : VariableSet) : Option CalendarHour :=
  vars.calendarTime?.bind vars.calendarShift.apply?

/-- The variables of the next window. -/
def advance (vars : VariableSet) : VariableSet :=
  let next := vars.nextCalendarTime?
  vars.mapValues fun name v =>
    match next, CalendarName.ofName? name with
    | some t, some c => { v with value := c.field t }
    | _, _ => v.advance

end Lookout.VariableSet
