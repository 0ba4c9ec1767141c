import Mathlib.Logic.Function.Iterate
import Lookout.Calendar.Date

/-!
# Dates and days

Dates are counted by days (`Date.toDays`) and moved by months (`Date.addMonths`). Here both are
compared with a calendar that goes from one day to the next.

- **Days**: the date of a day is that day's (`Date.toDays_ofDays`), and the day of a date has that
  date (`Date.ofDays_toDays`). Later dates have later days (`Date.toDays_lt_iff`).
- **Roll-over**: `Date.next` is the day after. The last day of a month is followed by the first one
  of the next month, and the last day of a year by the first one of the next year. `Date.later` goes
  on from day to day, and counts as many days as it goes (`Date.toDays_later`).
- **Months**: `Date.addMonths` goes on by as many months as it is told (`Date.month_addMonths`), and
  to a later date if there are any (`Date.lt_addMonths`).
- **Years of a time stamp**: these are whole years, so that the days between the first and the last
  one are those in range (`Date.inRange_iff`).
-/

namespace Lookout

/-! ## Steps to and fro -/

/-- A number of steps forward, or backward if it is negative. -/
def walk {α : Type} (forward backward : α → α) : Int → α → α
  | .ofNat n => forward^[n]
  | .negSucc n => backward^[n + 1]

section Walk

variable {α : Type} {forward backward : α → α} {f : α → Int}

private theorem iterate_eq_add {g : α → α} {width : Int} (h : ∀ x, f (g x) = f x + width) (n : Nat)
    (x : α) : f (g^[n] x) = f x + n * width := by
  induction n with
  | zero => simp
  | succ n ih =>
    rw [Function.iterate_succ_apply', h, ih, Int.natCast_succ, Int.add_mul, Int.one_mul,
      Int.add_assoc]

/-- Each step counts as one. -/
theorem walk_eq_add (hforward : ∀ x, f (forward x) = f x + 1)
    (hbackward : ∀ x, f (backward x) = f x - 1) (count : Int) (x : α) :
    f (walk forward backward count x) = f x + count := by
  cases count with
  | ofNat n =>
    have h := iterate_eq_add hforward n x
    rw [Int.mul_one] at h
    exact h
  | negSucc n =>
    have h := iterate_eq_add (fun y => hbackward y) (n + 1) x
    rw [Int.mul_neg_one] at h
    exact h

end Walk

namespace Date

/-! ## Days of a year and of a month -/

/-- The days before a year that is placed in its 400 years, its century and its four years. -/
private theorem daysBeforeYear_parts {cycle : Int} {century four year : Nat} (hc : century ≤ 3)
    (hf : four ≤ 24) (hy : year ≤ 3) :
    daysBeforeYear (400 * cycle + 100 * century + 4 * four + year + 1) =
      146097 * cycle + 36524 * century + 1461 * four + 365 * year := by
  have hplace : 400 * cycle + 100 * century + 4 * four + year + 1 - 1 =
      400 * cycle + 100 * century + 4 * four + year := by omega
  have hfour : (400 * cycle + 100 * century + 4 * four + year) / 4 =
      100 * cycle + 25 * century + four := by omega
  have hcentury : (400 * cycle + 100 * century + 4 * four + year) / 100 =
      4 * cycle + century := by omega
  have hcycle : (400 * cycle + 100 * century + 4 * four + year) / 400 = cycle := by omega
  unfold daysBeforeYear
  rw [hplace]
  dsimp only
  rw [hfour, hcentury, hcycle]
  omega

theorem daysBeforeYear_yearOfDay (n : Int) :
    daysBeforeYear (yearOfDay n).1 + (yearOfDay n).2 = n := by
  have hlt : (n % 146097).toNat < 146097 := by omega
  have hn : n = 146097 * (n / 146097) + (n % 146097).toNat := by omega
  dsimp only [yearOfDay]
  generalize n / 146097 = cycle at hn ⊢
  generalize (n % 146097).toNat = r at hlt hn ⊢
  rw [daysBeforeYear_parts (by omega) (by omega) (by omega)]
  omega

theorem daysBeforeYear_succ (year : Int) :
    daysBeforeYear (year + 1) = daysBeforeYear year + daysInYear year := by
  unfold daysBeforeYear daysInYear
  dsimp only
  split
  · rename_i h
    rw [isLeapYear_iff] at h
    omega
  · rename_i h
    rw [isLeapYear_iff] at h
    omega

theorem daysBeforeYear_mono {year year' : Int} (h : year ≤ year') :
    daysBeforeYear year ≤ daysBeforeYear year' := by
  obtain ⟨count, rfl⟩ := Int.le.dest h
  clear h
  induction count with
  | zero => exact Int.le_of_eq (congrArg _ (Int.add_zero year).symm)
  | succ count ih =>
    rw [Int.natCast_succ, ← Int.add_assoc, daysBeforeYear_succ]
    omega

theorem daysBeforeMonth_monthOfDay (year : Int) {month : Nat} (h : 1 ≤ month) (left n : Nat) :
    daysBeforeMonth year (monthOfDay year month left n).1 + (monthOfDay year month left n).2 =
      daysBeforeMonth year month + n := by
  induction left generalizing month n with
  | zero => rfl
  | succ left ih =>
    unfold monthOfDay
    split
    · rfl
    · rename_i hle
      obtain ⟨m, rfl⟩ := Nat.exists_eq_add_of_le' h
      have hnext : daysBeforeMonth year (m + 1 + 1) =
        daysBeforeMonth year (m + 1) + daysInMonth year (m + 1) := rfl
      rw [ih (by omega)]
      omega

theorem daysBeforeMonth_mono (year : Int) {month month' : Nat} (h : month ≤ month') :
    daysBeforeMonth year month ≤ daysBeforeMonth year month' := by
  induction h with
  | refl => exact Nat.le_refl _
  | step h ih =>
    rename_i m
    refine Nat.le_trans ih ?_
    cases m with
    | zero => exact Nat.le_refl 0
    | succ m => exact Nat.le_add_right _ _

/-- The days before the next month. -/
theorem daysBeforeMonth_succ (d : Date) :
    daysBeforeMonth d.year (d.month + 1) =
      daysBeforeMonth d.year d.month + daysInMonth d.year d.month := by
  obtain ⟨m, hm⟩ := Nat.exists_eq_add_of_le' d.month_mem.1
  rw [hm]
  rfl

theorem daysInMonth_le (year : Int) (month : Nat) : daysInMonth year month ≤ 31 := by
  unfold daysInMonth
  repeat' split
  all_goals decide

theorem le_daysInMonth (year : Int) {month : Nat} (h : 1 ≤ month ∧ month ≤ 12) :
    28 ≤ daysInMonth year month := by
  by_cases h2 : month = 2
  · subst h2
    simp only [daysInMonth]
    split <;> decide
  · have : month = 1 ∨ month = 3 ∨ month = 4 ∨ month = 5 ∨ month = 6 ∨ month = 7 ∨ month = 8 ∨
        month = 9 ∨ month = 10 ∨ month = 11 ∨ month = 12 := by omega
    rcases this with rfl | rfl | rfl | rfl | rfl | rfl | rfl | rfl | rfl | rfl | rfl <;>
      simp [daysInMonth]

theorem of?_fields (d : Date) : of? d.year d.month d.day = some d := by
  unfold of?
  rw [dif_pos d.month_mem, dif_pos d.day_mem]

/-- The days of a date before its month end in its year. -/
theorem daysBeforeMonth_add_le (d : Date) :
    daysBeforeMonth d.year d.month + daysInMonth d.year d.month ≤ daysInYear d.year := by
  rw [← daysBeforeMonth_succ, ← daysBeforeMonth_add_december]
  exact daysBeforeMonth_mono d.year (Nat.succ_le_succ d.month_mem.2)

/-- A date lies in its year. -/
theorem toDays_mem_year (d : Date) :
    daysBeforeYear d.year ≤ d.toDays + epochDays ∧
      d.toDays + epochDays < daysBeforeYear (d.year + 1) := by
  have hyear := d.daysBeforeMonth_add_le
  have hday := d.day_mem
  rw [daysBeforeYear_succ]
  unfold toDays
  omega

/-! ## The order of dates -/

instance : LT Date :=
  ⟨fun a b => a.year < b.year ∨
    a.year = b.year ∧ (a.month < b.month ∨ a.month = b.month ∧ a.day < b.day)⟩

variable {a b d : Date}

theorem lt_iff : a < b ↔ a.year < b.year ∨
    a.year = b.year ∧ (a.month < b.month ∨ a.month = b.month ∧ a.day < b.day) :=
  Iff.rfl

theorem eq_of_fields (hyear : a.year = b.year) (hmonth : a.month = b.month)
    (hday : a.day = b.day) : a = b := by
  cases a
  cases b
  cases hyear
  cases hmonth
  cases hday
  rfl

theorem lt_or_eq_or_gt (a b : Date) : a < b ∨ a = b ∨ b < a := by
  by_cases h : a.year = b.year ∧ a.month = b.month ∧ a.day = b.day
  · exact .inr (.inl (eq_of_fields h.1 h.2.1 h.2.2))
  · rw [lt_iff, lt_iff]
    omega

theorem toDays_lt_of_lt (h : a < b) : a.toDays < b.toDays := by
  rcases h with hyear | ⟨hyear, hmonth | ⟨hmonth, hday⟩⟩
  · -- The year of `a` is over when that of `b` begins.
    have hover := daysBeforeYear_mono (Int.add_one_le_of_lt hyear)
    have ha := a.toDays_mem_year
    have hb := b.toDays_mem_year
    omega
  · -- The month of `a` is over when that of `b` begins.
    have hover := daysBeforeMonth_mono a.year (Nat.succ_le_of_lt hmonth)
    rw [Nat.succ_eq_add_one, daysBeforeMonth_succ] at hover
    have ha := a.day_mem
    unfold toDays
    rw [← hyear]
    omega
  · have ha := a.day_mem
    unfold toDays
    rw [← hyear, ← hmonth]
    omega

/-- **Later dates have later days.** -/
theorem toDays_lt_iff : a.toDays < b.toDays ↔ a < b := by
  refine ⟨fun h => ?_, toDays_lt_of_lt⟩
  rcases lt_or_eq_or_gt a b with hlt | rfl | hgt
  · exact hlt
  · exact absurd h (Int.lt_irrefl _)
  · exact absurd (toDays_lt_of_lt hgt) (Int.not_lt.2 (Int.le_of_lt h))

theorem toDays_inj (h : a.toDays = b.toDays) : a = b := by
  rcases lt_or_eq_or_gt a b with hlt | heq | hgt
  · exact absurd (toDays_lt_of_lt hlt) (h ▸ Int.lt_irrefl _)
  · exact heq
  · exact absurd (toDays_lt_of_lt hgt) (h ▸ Int.lt_irrefl _)

/-- **The date of a day is that day's.** -/
theorem toDays_ofDays (days : Int) : (ofDays days).toDays = days := by
  have hyear := daysBeforeYear_yearOfDay (days + epochDays)
  have hmonth := daysBeforeMonth_monthOfDay (yearOfDay (days + epochDays)).1 (Nat.le_refl 1) 11
    (yearOfDay (days + epochDays)).2
  have hjanuary : daysBeforeMonth (yearOfDay (days + epochDays)).1 1 = 0 := rfl
  unfold toDays ofDays
  dsimp only
  rw [Nat.add_sub_cancel]
  omega

/-- **The day of a date has that date.** -/
theorem ofDays_toDays (d : Date) : ofDays d.toDays = d :=
  toDays_inj (toDays_ofDays d.toDays)

/-! ## Roll-over -/

/-- The day after. The last day of a month is followed by the first one of the next month, and the
last day of December by the first one of January. -/
def next (d : Date) : Date :=
  if hd : d.day < daysInMonth d.year d.month then
    { d with
      day := d.day + 1
      day_mem := ⟨Nat.le_add_left 1 d.day, hd⟩ }
  else if hm : d.month < 12 then
    { year := d.year
      month := d.month + 1
      day := 1
      month_mem := ⟨Nat.le_add_left 1 d.month, hm⟩
      day_mem := ⟨Nat.le_refl 1, daysInMonth_pos d.year ⟨Nat.le_add_left 1 d.month, hm⟩⟩ }
  else
    { year := d.year + 1
      month := 1
      day := 1
      month_mem := ⟨Nat.le_refl 1, Nat.le_add_left 1 11⟩
      day_mem := ⟨Nat.le_refl 1, Nat.le_add_left 1 30⟩ }

/-- The day before. -/
def previous (d : Date) : Date :=
  if hd : 1 < d.day then
    { d with
      day := d.day - 1
      day_mem := ⟨Nat.le_sub_one_of_lt hd, Nat.le_trans (Nat.sub_le d.day 1) d.day_mem.2⟩ }
  else if hm : 1 < d.month then
    { year := d.year
      month := d.month - 1
      day := daysInMonth d.year (d.month - 1)
      month_mem := ⟨Nat.le_sub_one_of_lt hm, Nat.le_trans (Nat.sub_le d.month 1) d.month_mem.2⟩
      day_mem :=
        ⟨daysInMonth_pos d.year
          ⟨Nat.le_sub_one_of_lt hm, Nat.le_trans (Nat.sub_le d.month 1) d.month_mem.2⟩,
          Nat.le_refl _⟩ }
  else
    { year := d.year - 1
      month := 12
      day := 31
      month_mem := ⟨Nat.le_add_left 1 11, Nat.le_refl 12⟩
      day_mem := ⟨Nat.le_add_left 1 30, Nat.le_refl 31⟩ }

theorem toDays_next (d : Date) : d.next.toDays = d.toDays + 1 := by
  have hday := d.day_mem
  unfold next
  split
  · unfold toDays
    dsimp only
    omega
  · rename_i hlast
    split
    · have hmonth := d.daysBeforeMonth_succ
      unfold toDays
      dsimp only
      omega
    · rename_i hdecember
      have hmonth : d.month = 12 := by have := d.month_mem; omega
      have hyear := daysBeforeMonth_add_december d.year
      unfold toDays
      dsimp only [daysBeforeMonth]
      rw [daysBeforeYear_succ]
      rw [hmonth] at hlast hday ⊢
      omega

theorem next_previous (d : Date) : d.previous.next = d := by
  have hday := d.day_mem
  have hmonth := d.month_mem
  unfold previous
  split
  · rename_i hd
    unfold next
    rw [dif_pos (by dsimp only; omega)]
    exact eq_of_fields rfl rfl (Nat.sub_add_cancel hday.1)
  · rename_i hd
    have hfirst : 1 = d.day := by omega
    split
    · rename_i hm
      unfold next
      rw [dif_neg (Nat.lt_irrefl _), dif_pos (by dsimp only; omega)]
      exact eq_of_fields rfl (Nat.sub_add_cancel hmonth.1) hfirst
    · rename_i hm
      have hjanuary : 1 = d.month := by omega
      have hlast : ¬ 31 < daysInMonth (d.year - 1) 12 := Nat.lt_irrefl 31
      unfold next
      rw [dif_neg hlast, dif_neg (Nat.lt_irrefl 12)]
      exact eq_of_fields (Int.sub_add_cancel d.year 1) hjanuary hfirst

theorem toDays_previous (d : Date) : d.previous.toDays = d.toDays - 1 := by
  have h := toDays_next d.previous
  rw [next_previous] at h
  omega

/-- The date some days later, or earlier if `count` is negative, from one day to the next. -/
def later (count : Int) (d : Date) : Date :=
  walk next previous count d

/-- **Going on from day to day counts the days.** -/
theorem toDays_later (count : Int) (d : Date) : (d.later count).toDays = d.toDays + count :=
  walk_eq_add toDays_next toDays_previous count d

/-! ## Months -/

/-- Going on by some months moves the month by as many, whatever the year. -/
theorem month_addMonths (d : Date) (count : Int) :
    12 * (d.addMonths count).year + (d.addMonths count).month =
      12 * d.year + d.month + count := by
  have hmonth := d.month_mem
  unfold addMonths clamped
  dsimp only
  omega

/-- The day stays, or becomes the last one of a month that is too short. -/
theorem day_addMonths (d : Date) (count : Int) :
    (d.addMonths count).day =
      min d.day (daysInMonth (d.addMonths count).year (d.addMonths count).month) := by
  have hday := d.day_mem.1
  have hlength := (d.addMonths count).day_mem
  have hclamped : (d.addMonths count).day =
      max 1 (min d.day (daysInMonth (d.addMonths count).year (d.addMonths count).month)) := rfl
  omega

/-- A year and a month are told by their number. -/
theorem year_month_inj (h : 12 * a.year + a.month = 12 * b.year + b.month) :
    a.year = b.year ∧ a.month = b.month := by
  have ha := a.month_mem
  have hb := b.month_mem
  omega

theorem addMonths_zero (d : Date) : d.addMonths 0 = d := by
  have hmonth := month_addMonths d 0
  rw [Int.add_zero] at hmonth
  obtain ⟨hyear, hmonth⟩ := year_month_inj hmonth
  have hday := day_addMonths d 0
  rw [hyear, hmonth, Nat.min_eq_left d.day_mem.2] at hday
  exact eq_of_fields hyear hmonth hday

/-- **A later month is a later date**, though its day may be an earlier one. -/
theorem lt_addMonths {count : Int} (h : 0 < count) (d : Date) : d < d.addMonths count := by
  have hmonth := month_addMonths d count
  have hd := d.month_mem
  have hmoved := (d.addMonths count).month_mem
  rw [lt_iff]
  omega

/-! ## Years of a time stamp -/

theorem daysBeforeYear_minYear : daysBeforeYear minYear = minDays + epochDays := by decide

theorem daysBeforeYear_maxYear : daysBeforeYear (maxYear + 1) = maxDays + epochDays + 1 := by decide

/-- A date lies in the years of a time stamp if and only if its day does. -/
theorem inRange_iff : d.inRange = true ↔ minDays ≤ d.toDays ∧ d.toDays ≤ maxDays := by
  have hyear := d.toDays_mem_year
  have hfirst := daysBeforeYear_minYear
  have hlast := daysBeforeYear_maxYear
  unfold inRange
  rw [Bool.and_eq_true, decide_eq_true_eq, decide_eq_true_eq]
  constructor
  · rintro ⟨hmin, hmax⟩
    have hbegin := daysBeforeYear_mono hmin
    have hend := daysBeforeYear_mono (Int.add_le_add_right hmax 1)
    omega
  · rintro ⟨hmin, hmax⟩
    refine ⟨Int.not_lt.1 fun hlt => ?_, Int.not_lt.1 fun hlt => ?_⟩
    · have hend := daysBeforeYear_mono (Int.add_one_le_of_lt hlt)
      omega
    · have hbegin := daysBeforeYear_mono (Int.add_one_le_of_lt hlt)
      omega

/-- The date of a day of a time stamp lies in the years of a time stamp. -/
theorem inRange_ofDays {days : Int} (h : minDays ≤ days ∧ days ≤ maxDays) :
    (ofDays days).inRange = true := by
  rwa [inRange_iff, toDays_ofDays]

end Date
end Lookout
