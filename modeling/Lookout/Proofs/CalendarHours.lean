import Lookout.Calendar.Hour
import Lookout.Proofs.Dates

/-!
# Hours of the calendar

Calendar hours are counted from 1970-01-01 (`CalendarHour.toHours`) and moved by a shift
(`CalendarShift.apply?`).

- **Hours**: a calendar hour and its count belong to each other one to one
  (`CalendarHour.toHours_ofHours`, `CalendarHour.ofHours_toHours`), and later hours have larger
  counts (`CalendarHour.toHours_lt_iff`).
- **Roll-over**: `CalendarHour.next` is the hour after; the last hour of a day is followed by the
  first one of the next day. `CalendarHour.later` goes on from hour to hour and `laterDays` from day
  to day.
- **Shifts**: `CalendarShift.target` moves by months, then from day to day, then from hour to hour.
  A shift that is applied leads there, and it is applied unless one of these stages leaves the years
  of a time stamp or the months do not fit into 64 bits (`CalendarShift.apply?_eq_some_iff`).
-/

namespace Lookout

namespace CalendarHour

variable {t u : CalendarHour}

/-! ## Counted hours -/

theorem eq_of_fields (hdate : t.date = u.date) (hhour : t.hour = u.hour) : t = u := by
  cases t
  cases u
  cases hdate
  cases hhour
  rfl

instance : LT CalendarHour :=
  ⟨fun t u => t.date < u.date ∨ t.date = u.date ∧ t.hour < u.hour⟩

theorem lt_iff : t < u ↔ t.date < u.date ∨ t.date = u.date ∧ t.hour < u.hour :=
  Iff.rfl

/-- The day of a calendar hour, read off its count. -/
theorem toHours_div (t : CalendarHour) : t.toHours / 24 = t.date.toDays := by
  have hhour := t.hour_lt
  unfold toHours
  omega

theorem toHours_inj (h : t.toHours = u.toHours) : t = u := by
  have hdays : t.date.toDays = u.date.toDays := by rw [← toHours_div, h, toHours_div]
  unfold toHours at h
  exact eq_of_fields (Date.toDays_inj hdays) (by omega)

/-- **Later hours have larger counts.** -/
theorem toHours_lt_iff : t.toHours < u.toHours ↔ t < u := by
  have ht := t.hour_lt
  have hu := u.hour_lt
  rw [lt_iff, ← Date.toDays_lt_iff]
  unfold toHours
  constructor
  · intro h
    by_cases hdays : t.date.toDays = u.date.toDays
    · exact .inr ⟨Date.toDays_inj hdays, by omega⟩
    · exact .inl (by omega)
  · rintro (hdays | ⟨hdate, hhour⟩)
    · omega
    · rw [hdate]
      omega

theorem toHours_ofHours (hours : Int) : (ofHours hours).toHours = hours := by
  unfold toHours ofHours
  dsimp only
  rw [Date.toDays_ofDays]
  omega

theorem ofHours_toHours (t : CalendarHour) : ofHours t.toHours = t :=
  toHours_inj (toHours_ofHours t.toHours)

/-- An hour lies in the years of a time stamp if its day does. -/
theorem inRange_toHours (t : CalendarHour) : inRange t.toHours = t.date.inRange := by
  rw [Bool.eq_iff_iff, Date.inRange_iff, ← toHours_div]
  unfold inRange
  rw [Bool.and_eq_true, decide_eq_true_eq, decide_eq_true_eq]

/-! ## Roll-over -/

/-- The hour after. The last hour of a day is followed by the first one of the next day. -/
def next (t : CalendarHour) : CalendarHour :=
  if h : t.hour + 1 < 24 then { t with hour := t.hour + 1, hour_lt := h }
  else { date := t.date.next, hour := 0, hour_lt := Nat.succ_pos 23 }

/-- The hour before. -/
def previous (t : CalendarHour) : CalendarHour :=
  if 0 < t.hour then
    { t with
      hour := t.hour - 1
      hour_lt := Nat.lt_of_le_of_lt (Nat.sub_le t.hour 1) t.hour_lt }
  else { date := t.date.previous, hour := 23, hour_lt := Nat.lt_succ_self 23 }

theorem toHours_next (t : CalendarHour) : t.next.toHours = t.toHours + 1 := by
  have hhour := t.hour_lt
  unfold next
  split
  · unfold toHours
    dsimp only
    omega
  · unfold toHours
    dsimp only
    rw [Date.toDays_next]
    omega

theorem toHours_previous (t : CalendarHour) : t.previous.toHours = t.toHours - 1 := by
  unfold previous
  split
  · unfold toHours
    dsimp only
    omega
  · unfold toHours
    dsimp only
    rw [Date.toDays_previous]
    omega

/-- The calendar hour some hours later, or earlier if `count` is negative, from one hour to the
next. -/
def later (count : Int) (t : CalendarHour) : CalendarHour :=
  walk next previous count t

/-- The same hour some days later, or earlier if `count` is negative, from one day to the next. -/
def laterDays (count : Int) (t : CalendarHour) : CalendarHour :=
  { t with date := t.date.later count }

/-- The same hour some months later, on the last day of a month that is too short. -/
def addMonths (count : Int) (t : CalendarHour) : CalendarHour :=
  { t with date := t.date.addMonths count }

theorem toHours_later (count : Int) (t : CalendarHour) :
    (t.later count).toHours = t.toHours + count :=
  walk_eq_add toHours_next toHours_previous count t

theorem toHours_laterDays (count : Int) (t : CalendarHour) :
    (t.laterDays count).toHours = t.toHours + 24 * count := by
  unfold toHours laterDays
  dsimp only
  rw [Date.toDays_later]
  omega

theorem addMonths_zero (t : CalendarHour) : t.addMonths 0 = t :=
  eq_of_fields t.date.addMonths_zero rfl

/-- Hours and days are passed one after the other or all at once. -/
theorem later_laterDays (days hours : Int) (t : CalendarHour) :
    (t.laterDays days).later hours = t.later (24 * days + hours) := by
  apply toHours_inj
  rw [toHours_later, toHours_laterDays, toHours_later, Int.add_assoc]

theorem later_later (a b : Int) (t : CalendarHour) : (t.later a).later b = t.later (a + b) := by
  apply toHours_inj
  rw [toHours_later, toHours_later, toHours_later, Int.add_assoc]

theorem later_zero (t : CalendarHour) : t.later 0 = t :=
  rfl

end CalendarHour

/-! ## Shifts -/

namespace CalendarShift

variable {shift : CalendarShift} {t u : CalendarHour}

/-- The years and the months, in months. -/
def totalMonths (shift : CalendarShift) : Int :=
  12 * shift.years + shift.months

/-- Where a shift leads to: by months, then from day to day, then from hour to hour. -/
def target (shift : CalendarShift) (t : CalendarHour) : CalendarHour :=
  ((t.addMonths shift.totalMonths).laterDays shift.days).later shift.hours

/-- Each stage of a shift stays in the supported range: the months that it adds up to in 64 bits,
and the calendar hours in the years of a time stamp. -/
structure StaysInRange (shift : CalendarShift) (t : CalendarHour) : Prop where
  years : -9223372036854775808 ≤ 12 * shift.years ∧ 12 * shift.years < 9223372036854775808
  total : -9223372036854775808 ≤ shift.totalMonths ∧ shift.totalMonths < 9223372036854775808
  byMonths : (t.addMonths shift.totalMonths).date.inRange = true
  byDays : ((t.addMonths shift.totalMonths).laterDays shift.days).date.inRange = true
  byHours : (shift.target t).date.inRange = true

/-- Months that stay in the years of a time stamp are few. -/
theorem totalMonths_mem (ht : t.date.inRange = true)
    (h : (t.addMonths shift.totalMonths).date.inRange = true) :
    -9223372036854775808 ≤ shift.totalMonths ∧ shift.totalMonths < 9223372036854775808 := by
  have hmonth := t.date.month_addMonths shift.totalMonths
  have hfrom := t.date.month_mem
  have hto := (t.date.addMonths shift.totalMonths).month_mem
  change (t.date.addMonths shift.totalMonths).inRange = true at h
  unfold Date.inRange minYear maxYear at ht h
  rw [Bool.and_eq_true, decide_eq_true_eq, decide_eq_true_eq] at ht h
  omega

/-- **When a shift is applied, and where it leads to.** -/
theorem apply?_eq_some_iff (ht : t.date.inRange = true) :
    shift.apply? t = some u ↔ shift.StaysInRange t ∧ u = shift.target t := by
  have hdays : ({ t with date := t.date.addMonths (12 * shift.years + shift.months) } :
      CalendarHour).toHours + 24 * shift.days =
      ((t.addMonths shift.totalMonths).laterDays shift.days).toHours :=
    (CalendarHour.toHours_laterDays _ _).symm
  have hhours : ((t.addMonths shift.totalMonths).laterDays shift.days).toHours + shift.hours =
      (shift.target t).toHours := (CalendarHour.toHours_later _ _).symm
  unfold CalendarShift.apply?
  dsimp only
  rw [hdays, hhours, CalendarHour.inRange_toHours, CalendarHour.inRange_toHours,
    CalendarHour.ofHours_toHours, Option.ite_none_right_eq_some, Option.ite_none_right_eq_some,
    Option.ite_none_right_eq_some, Option.some.injEq]
  constructor
  · rintro ⟨⟨hlow, hhigh, hmonths⟩, hdays, hhours, rfl⟩
    exact ⟨⟨⟨hlow, hhigh⟩, totalMonths_mem ht hmonths, hmonths, hdays, hhours⟩, rfl⟩
  · rintro ⟨h, rfl⟩
    exact ⟨⟨h.years.1, h.years.2, h.byMonths⟩, h.byDays, h.byHours, rfl⟩

/-- A shift by days and hours goes on by as many hours. -/
theorem target_of_days_hours {days hours : Int} (t : CalendarHour) :
    target { years := 0, months := 0, days, hours } t = t.later (24 * days + hours) := by
  have hmonths : totalMonths { years := 0, months := 0, days, hours } = 0 := rfl
  unfold target
  rw [hmonths, CalendarHour.addMonths_zero, CalendarHour.later_laterDays]

/-- A shift by years and months goes on by as many months. -/
theorem target_of_years_months {years months : Int} (t : CalendarHour) :
    target { years, months, days := 0, hours := 0 } t = t.addMonths (12 * years + months) :=
  rfl

/-- **A shift forward leads to a later hour**, unless it shifts by nothing. -/
theorem lt_target (hyears : 0 ≤ shift.years) (hmonths : 0 ≤ shift.months) (hdays : 0 ≤ shift.days)
    (hhours : 0 ≤ shift.hours) (h : shift ≠ { years := 0, months := 0, days := 0, hours := 0 })
    (t : CalendarHour) : t < shift.target t := by
  have hpassed : (shift.target t).toHours =
      (t.addMonths shift.totalMonths).toHours + 24 * shift.days + shift.hours := by
    unfold target
    rw [CalendarHour.toHours_later, CalendarHour.toHours_laterDays]
  rw [← CalendarHour.toHours_lt_iff, hpassed]
  rcases Int.lt_or_eq_of_le (show 0 ≤ shift.totalMonths by unfold totalMonths; omega) with
    hforward | hstays
  · -- A later month is later, whatever the day; days and hours do not lead back.
    have hlater : t < t.addMonths shift.totalMonths := .inl (t.date.lt_addMonths hforward)
    rw [← CalendarHour.toHours_lt_iff] at hlater
    omega
  · rw [← hstays, CalendarHour.addMonths_zero]
    have hmoves : 0 < shift.days ∨ 0 < shift.hours := by
      obtain ⟨years, months, days, hours⟩ := shift
      rw [Ne, CalendarShift.mk.injEq] at h
      unfold totalMonths at hstays
      dsimp only at *
      omega
    omega

end CalendarShift
end Lookout
