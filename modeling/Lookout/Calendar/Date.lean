/-!
# Calendar dates

Dates of the proleptic Gregorian calendar, with a year 0 and negative years.

* `isLeapYear`, `daysInMonth`: the length of months.
* `Date`: a year, a month and a day that exist.
* `Date.toDays`, `Date.ofDays`: the number of days since 1970-01-01, and back.
* `Date.addMonths`: a date some months away; a day that the new month lacks becomes its last day.
* `minYear`, `maxYear`: the years that a time stamp can have; `Date.minDays`, `Date.maxDays` are
  the first and the last day of these.
-/

namespace Lookout

/-- Every fourth year is a leap year, except the centuries that 400 does not divide. -/
def isLeapYear (year : Int) : Bool :=
  year % 4 == 0 && (year % 100 != 0 || year % 400 == 0)

/-- The number of days in a month, 0 if there is no such month. -/
def daysInMonth (year : Int) : Nat → Nat
  | 1 | 3 | 5 | 7 | 8 | 10 | 12 => 31
  | 4 | 6 | 9 | 11 => 30
  | 2 => if isLeapYear year then 29 else 28
  | _ => 0

/-- The number of days in a year. -/
def daysInYear (year : Int) : Nat :=
  if isLeapYear year then 366 else 365

/-- The first year of a time stamp. -/
def minYear : Int := -262143

/-- The last year of a time stamp. -/
def maxYear : Int := 262142

/-- A date that exists. -/
structure Date where
  year : Int
  month : Nat
  day : Nat
  month_mem : 1 ≤ month ∧ month ≤ 12 := by decide
  day_mem : 1 ≤ day ∧ day ≤ daysInMonth year month := by decide
  deriving DecidableEq, Repr

namespace Date

/-- The date with the given fields, if it exists. -/
def of? (year : Int) (month day : Nat) : Option Date :=
  if hm : 1 ≤ month ∧ month ≤ 12 then
    if hd : 1 ≤ day ∧ day ≤ daysInMonth year month then
      some { year, month, day, month_mem := hm, day_mem := hd }
    else none
  else none

/-- The date lies in the years of a time stamp. -/
def inRange (d : Date) : Bool :=
  minYear ≤ d.year && d.year ≤ maxYear

/-! ## Days since 1970-01-01 -/

/-- The days from 0001-01-01 to the first of January of a year. -/
def daysBeforeYear (year : Int) : Int :=
  let y := year - 1
  365 * y + y / 4 - y / 100 + y / 400

/-- The days of a year before the first of a month. -/
def daysBeforeMonth (year : Int) : Nat → Nat
  | 0 => 0
  | 1 => 0
  | m + 2 => daysBeforeMonth year (m + 1) + daysInMonth year (m + 1)

/-- The days from 0001-01-01 to 1970-01-01. -/
def epochDays : Int := 719162

/-- The number of days since 1970-01-01. -/
def toDays (d : Date) : Int :=
  daysBeforeYear d.year + daysBeforeMonth d.year d.month + (d.day - 1 : Nat) - epochDays

/-- The year of a day counted from 0001-01-01, and its place in that year from 0. The day is placed
in its 400 years, then in the century, in the four years and in the year; the last day of 400 or of
four years would otherwise begin a part too many. -/
def yearOfDay (n : Int) : Int × Nat :=
  let cycle := n / 146097
  let r := (n % 146097).toNat
  let century := min (r / 36524) 3
  let r := r - century * 36524
  let four := r / 1461
  let r := r % 1461
  let year := min (r / 365) 3
  (400 * cycle + 100 * century + 4 * four + year + 1, r - year * 365)

/-- The month of a day of the year, counted from 0, and its place in the month from 0: the months
from `month` on are passed over, of which `left` are left. -/
def monthOfDay (year : Int) (month : Nat) : (left : Nat) → Nat → Nat × Nat
  | 0, n => (month, n)
  | left + 1, n =>
    if n < daysInMonth year month then (month, n)
    else monthOfDay year (month + 1) left (n - daysInMonth year month)

theorem isLeapYear_iff (year : Int) :
    isLeapYear year = true ↔ year % 4 = 0 ∧ (year % 100 ≠ 0 ∨ year % 400 = 0) := by
  simp [isLeapYear]

theorem yearOfDay_snd_lt (n : Int) : (yearOfDay n).2 < daysInYear (yearOfDay n).1 := by
  have hlt : (n % 146097).toNat < 146097 := by omega
  simp only [yearOfDay]
  generalize n / 146097 = c
  generalize (n % 146097).toNat = r at hlt ⊢
  unfold daysInYear
  split
  · rename_i h
    rw [isLeapYear_iff] at h
    omega
  · rename_i h
    rw [isLeapYear_iff] at h
    omega

theorem daysBeforeMonth_add_december (year : Int) :
    daysBeforeMonth year 12 + daysInMonth year 12 = daysInYear year := by
  simp only [daysBeforeMonth, daysInMonth, daysInYear]
  split <;> rfl

/-- A day before the end of the last month looked at falls into one of the months. -/
theorem monthOfDay_mem (year : Int) : ∀ (left month n : Nat), 1 ≤ month → month + left ≤ 12 →
    n < daysBeforeMonth year (month + left) + daysInMonth year (month + left)
      - daysBeforeMonth year month →
    (1 ≤ (monthOfDay year month left n).1 ∧ (monthOfDay year month left n).1 ≤ 12) ∧
      (monthOfDay year month left n).2 < daysInMonth year (monthOfDay year month left n).1
  | 0, month, n, h1, h2, hn => by
    simp only [monthOfDay]
    simp only [Nat.add_zero] at hn h2
    omega
  | left + 1, month, n, h1, h2, hn => by
    unfold monthOfDay
    split
    · rename_i h
      exact ⟨⟨h1, by omega⟩, h⟩
    · rename_i h
      obtain ⟨m, rfl⟩ : ∃ m, month = m + 1 := ⟨month - 1, by omega⟩
      have hb : daysBeforeMonth year (m + 2)
          = daysBeforeMonth year (m + 1) + daysInMonth year (m + 1) := rfl
      refine monthOfDay_mem year left (m + 2) _ (by omega) (by omega) ?_
      have e : m + 1 + (left + 1) = m + 2 + left := by omega
      rw [e] at hn
      rw [hb]
      omega

/-- The month and the day of the month of a day of the year. -/
theorem monthOfDay_january {year : Int} {n : Nat} (h : n < daysInYear year) :
    (1 ≤ (monthOfDay year 1 11 n).1 ∧ (monthOfDay year 1 11 n).1 ≤ 12) ∧
      (monthOfDay year 1 11 n).2 < daysInMonth year (monthOfDay year 1 11 n).1 := by
  refine monthOfDay_mem year 11 1 n (by omega) (by omega) ?_
  rw [daysBeforeMonth_add_december]
  exact h

/-- The date a number of days after 1970-01-01. -/
def ofDays (days : Int) : Date :=
  let day := yearOfDay (days + epochDays)
  let place := monthOfDay day.1 1 11 day.2
  { year := day.1
    month := place.1
    day := place.2 + 1
    month_mem := (monthOfDay_january (yearOfDay_snd_lt _)).1
    day_mem := ⟨by omega, (monthOfDay_january (yearOfDay_snd_lt _)).2⟩ }

/-- The first day of a time stamp, counted from 1970-01-01. -/
def minDays : Int := -96465292

/-- The last day of a time stamp, counted from 1970-01-01. -/
def maxDays : Int := 95026236

/-! ## Months -/

theorem daysInMonth_pos (year : Int) {month : Nat} (h : 1 ≤ month ∧ month ≤ 12) :
    1 ≤ daysInMonth year month := by
  by_cases h2 : month = 2
  · subst h2
    simp only [daysInMonth]
    split <;> decide
  · have : month = 1 ∨ month = 3 ∨ month = 4 ∨ month = 5 ∨ month = 6 ∨ month = 7 ∨ month = 8 ∨
        month = 9 ∨ month = 10 ∨ month = 11 ∨ month = 12 := by omega
    rcases this with rfl | rfl | rfl | rfl | rfl | rfl | rfl | rfl | rfl | rfl | rfl <;>
      simp [daysInMonth]

/-- The date with the given year and month whose day is the nearest to `day` that exists. -/
def clamped (year : Int) (month : Nat) (day : Nat) (h : 1 ≤ month ∧ month ≤ 12) : Date :=
  { year, month, day := max 1 (min day (daysInMonth year month))
    month_mem := h
    day_mem := by have := daysInMonth_pos year h; omega }

/-- The date some months later, or earlier if `count` is negative; its day is at most the last of
the new month. -/
def addMonths (d : Date) (count : Int) : Date :=
  let index := 12 * d.year + (d.month - 1 : Nat) + count
  clamped (index / 12) ((index % 12).toNat + 1) d.day (by omega)

end Date
end Lookout
