import Mathlib.Order.Bounds.Basic
import Mathlib.Order.Monotone.Basic
import Lookout.Proofs.NextWindow

/-!
# Windows of the calendar

Many windows, one after the other, as long as each is one of the calendar
(`VariableSet.StaysOnCalendar`). The calendar variables then show the calendar hour to which their
shift leads when it is repeated (`VariableSet.shows_iterate_advance`): the increments stay, and what
is shown is read back as it is.

- **Days and hours** (`VariableSet.iterate_advance_hours`): `n` windows are `n` times as many hours
  on.
- **Months and years** (`VariableSet.iterate_advance_months`): `n` windows are `n` times as many
  months on, and the day is the least of the first day and the lengths of the months met.
- **Forward** (`VariableSet.iterate_advance_forward`): with increments that are not negative each
  window is later than the one before.
-/

namespace Lookout

/-! ## Repeated shifts -/

namespace Date

/-- Going on by some months `n` times moves the month by `n` times as many. -/
theorem month_iterate_addMonths (d : Date) (count : Int) (n : Nat) :
    12 * ((addMonths · count)^[n] d).year + ((addMonths · count)^[n] d).month =
      12 * d.year + d.month + n * count := by
  induction n with
  | zero => simp
  | succ n ih =>
    rw [Function.iterate_succ_apply', month_addMonths, ih, Int.natCast_succ, Int.add_mul,
      Int.one_mul, Int.add_assoc]

/-- **A day that is cut to the length of each month** is the least of the first day and these
lengths. -/
theorem isLeast_day_iterate_addMonths (d : Date) (count : Int) (n : Nat) :
    IsLeast {length : Nat | length = d.day ∨ ∃ k, 0 < k ∧ k ≤ n ∧
        length = daysInMonth ((addMonths · count)^[k] d).year ((addMonths · count)^[k] d).month}
      ((addMonths · count)^[n] d).day := by
  induction n with
  | zero =>
    refine ⟨.inl rfl, ?_⟩
    rintro length (rfl | ⟨k, hpos, hk, -⟩)
    · exact Nat.le_refl _
    · omega
  | succ n ih =>
    have hday := day_addMonths ((addMonths · count)^[n] d) count
    rw [← Function.iterate_succ_apply' (addMonths · count)] at hday
    obtain ⟨hmem, hleast⟩ := ih
    constructor
    · by_cases hfits : ((addMonths · count)^[n] d).day ≤
          daysInMonth ((addMonths · count)^[n + 1] d).year ((addMonths · count)^[n + 1] d).month
      · rw [hday, Nat.min_eq_left hfits]
        rcases hmem with hfirst | ⟨k, hpos, hk, hlength⟩
        · exact .inl hfirst
        · exact .inr ⟨k, hpos, Nat.le_succ_of_le hk, hlength⟩
      · rw [hday, Nat.min_eq_right (Nat.le_of_not_le hfits)]
        exact .inr ⟨n + 1, Nat.succ_pos n, Nat.le_refl _, rfl⟩
    · rintro length (hfirst | ⟨k, hpos, hk, hlength⟩)
      · rw [hday]
        exact Nat.le_trans (Nat.min_le_left _ _) (hleast (.inl hfirst))
      · rw [hday]
        rcases Nat.lt_or_eq_of_le hk with hbefore | rfl
        · have hmet := hleast (.inr ⟨k, hpos, Nat.le_of_lt_succ hbefore, hlength⟩)
          exact Nat.le_trans (Nat.min_le_left _ _) hmet
        · exact hlength ▸ Nat.min_le_right _ _

end Date

namespace CalendarHour

theorem iterate_addMonths (count : Int) (n : Nat) (t : CalendarHour) :
    (addMonths count)^[n] t = { t with date := (Date.addMonths · count)^[n] t.date } := by
  induction n with
  | zero => rfl
  | succ n ih =>
    rw [Function.iterate_succ_apply', Function.iterate_succ_apply', ih]
    rfl

/-- Going on by some hours `n` times is going on by `n` times as many. -/
theorem iterate_later (count : Int) (n : Nat) (t : CalendarHour) :
    (later count)^[n] t = t.later (n * count) := by
  induction n with
  | zero => rw [Int.natCast_zero, Int.zero_mul, later_zero, Function.iterate_zero_apply]
  | succ n ih =>
    rw [Function.iterate_succ_apply', ih, later_later, Int.natCast_succ, Int.add_mul, Int.one_mul]

/-- `n` times some days and hours. -/
theorem laterDays_later_mul (n : Nat) (days hours : Int) (t : CalendarHour) :
    (t.laterDays (n * days)).later (n * hours) = t.later (n * (24 * days + hours)) := by
  rw [later_laterDays, Int.mul_add, Int.mul_left_comm]

end CalendarHour

/-! ## Windows one after the other -/

variable {vars : VariableSet} {t : CalendarHour} {n : Nat}

namespace VariableSet

/-- Each of the next `n` windows is one of the calendar. -/
def StaysOnCalendar (vars : VariableSet) (n : Nat) : Prop :=
  ∀ k < n, (advance^[k] vars).nextCalendarTime?.isSome = true

instance : Decidable (vars.StaysOnCalendar n) :=
  inferInstanceAs (Decidable (∀ k < n, (advance^[k] vars).nextCalendarTime?.isSome = true))

theorem StaysOnCalendar.mono {k : Nat} (h : vars.StaysOnCalendar n) (hk : k ≤ n) :
    vars.StaysOnCalendar k :=
  fun i hi => h i (Nat.lt_of_lt_of_le hi hk)

theorem calendarShift_iterate_advance (vars : VariableSet) (n : Nat) :
    (advance^[n] vars).calendarShift = vars.calendarShift := by
  induction n with
  | zero => rfl
  | succ n ih => rw [Function.iterate_succ_apply', calendarShift_advance, ih]

/-- **One window**: the next one shows the calendar hour to which the shift leads. -/
theorem Denotes.shows_advance (ht : vars.Denotes t) (h : vars.nextCalendarTime?.isSome = true) :
    vars.advance.Shows (vars.calendarShift.target t) := by
  obtain ⟨u, hu⟩ := Option.isSome_iff_exists.1 h
  obtain ⟨t', ht', -, rfl⟩ := nextCalendarTime?_eq_some_iff.1 hu
  rw [ht.unique (denotes_of_calendarTime? ht')]
  exact shows_advance_of_some hu

/-- One window after many: what has been shown so far is read back as it is. -/
theorem Denotes.shows_iterate_succ
    (h : (advance^[n] vars).Denotes (vars.calendarShift.target^[n] t))
    (hn : vars.StaysOnCalendar (n + 1)) :
    (advance^[n + 1] vars).Shows (vars.calendarShift.target^[n + 1] t) := by
  have hshows := h.shows_advance (hn n (Nat.lt_succ_self n))
  rw [calendarShift_iterate_advance] at hshows
  rw [Function.iterate_succ_apply', Function.iterate_succ_apply']
  exact hshows

/-- **Many windows**: the variables stand for the calendar hour to which the repeated shift
leads. -/
theorem Denotes.iterate_advance (ht : vars.Denotes t) (hn : vars.StaysOnCalendar n) :
    (advance^[n] vars).Denotes (vars.calendarShift.target^[n] t) := by
  induction n with
  | zero => exact ht
  | succ n ih => exact ((ih (hn.mono (Nat.le_succ n))).shows_iterate_succ hn).denotes

/-- From the first of these windows on, they show it. -/
theorem Denotes.shows_iterate_advance (ht : vars.Denotes t) (hpos : 0 < n)
    (hn : vars.StaysOnCalendar n) :
    (advance^[n] vars).Shows (vars.calendarShift.target^[n] t) := by
  obtain ⟨n, rfl⟩ := Nat.exists_eq_add_of_le' hpos
  exact (ht.iterate_advance (hn.mono (Nat.le_succ n))).shows_iterate_succ hn

/-! ## Days and hours -/

/-- **Days and hours follow the calendar.** With increments of the day and the hour only, `n`
windows lead `n` times as many hours on: to the calendar hour that is reached day by day and hour by
hour, over the ends of months and years. So does one window with `n` times the increments, and `n`
windows with the negated increments lead back. -/
theorem iterate_advance_hours {days hours : Int} (ht : vars.Denotes t)
    (hshift : vars.calendarShift = { years := 0, months := 0, days, hours })
    (hn : vars.StaysOnCalendar n) :
    (advance^[n] vars).Denotes (t.later (n * (24 * days + hours))) ∧
    (0 < n → (advance^[n] vars).Shows (t.later (n * (24 * days + hours)))) ∧
    (t.later (n * (24 * days + hours))).toHours = t.toHours + n * (24 * days + hours) ∧
    t.later (n * (24 * days + hours)) = (t.laterDays (n * days)).later (n * hours) ∧
    (∀ once : VariableSet, once.Denotes t →
      once.calendarShift = { years := 0, months := 0, days := n * days, hours := n * hours } →
      once.nextCalendarTime?.isSome = true →
      once.advance.Shows (t.later (n * (24 * days + hours)))) ∧
    ∀ back : VariableSet, back.Denotes (t.later (n * (24 * days + hours))) →
      back.calendarShift = { years := 0, months := 0, days := -days, hours := -hours } →
      back.StaysOnCalendar n → (advance^[n] back).Denotes t := by
  have htarget : ∀ {days hours : Int},
      CalendarShift.target { years := 0, months := 0, days, hours } =
        CalendarHour.later (24 * days + hours) :=
    funext CalendarShift.target_of_days_hours
  have hiterate : vars.calendarShift.target^[n] t = t.later (n * (24 * days + hours)) := by
    rw [hshift, htarget, CalendarHour.iterate_later]
  refine ⟨?_, fun hpos => ?_, CalendarHour.toHours_later _ _,
    (CalendarHour.laterDays_later_mul n days hours t).symm, fun once honce hshift' hnext => ?_,
    fun back hback hshift' hstays => ?_⟩
  · rw [← hiterate]
    exact ht.iterate_advance hn
  · rw [← hiterate]
    exact ht.shows_iterate_advance hpos hn
  · have hshows := honce.shows_advance hnext
    rw [hshift', htarget, ← CalendarHour.later_laterDays,
      CalendarHour.laterDays_later_mul] at hshows
    exact hshows
  · have hdenotes := hback.iterate_advance hstays
    have hundone : (n : Int) * (24 * days + hours) + n * (24 * -days + -hours) = 0 := by
      rw [← Int.mul_add, Int.mul_neg, ← Int.neg_add, Int.add_right_neg, Int.mul_zero]
    rw [hshift', htarget, CalendarHour.iterate_later, CalendarHour.later_later, hundone,
      CalendarHour.later_zero] at hdenotes
    exact hdenotes

end VariableSet

namespace Sample

/-- The last hour of February 2024. -/
def lastOfFebruary : CalendarHour :=
  { date := { year := 2024, month := 2, day := 29 }, hour := 23 }

/-- Six hours later. -/
def firstOfMarch : CalendarHour :=
  { date := { year := 2024, month := 3, day := 1 }, hour := 5 }

/-- The last hour of February, with a day after its end, and 2 hours on in each window: a day on and
22 hours back. -/
def nightly : VariableSet :=
  calendar (.fixed 2024) (.fixed 2) { value := 31, increment := 1 }
    { value := 23, increment := -22 }

/-- The same hour, and 6 hours on in each window. -/
def threefold : VariableSet :=
  calendar (.fixed 2024) (.fixed 2) { value := 29, increment := 3 }
    { value := 23, increment := -66 }

/-- Six hours later, and 2 hours back in each window. -/
def returning : VariableSet :=
  calendar (.fixed 2024) (.fixed 3) { value := 1, increment := -1 } { value := 5, increment := 22 }

end Sample

namespace VariableSet

/-- Three windows over the end of February, the same at once, and back. -/
theorem iterate_advance_hours_leap_day :
    (advance^[3] Sample.nightly).Shows Sample.firstOfMarch ∧
      Sample.threefold.advance.Shows Sample.firstOfMarch ∧
      (advance^[3] Sample.returning).Denotes Sample.lastOfFebruary := by
  have hlater : Sample.lastOfFebruary.later ((3 : Nat) * (24 * 1 + -22)) = Sample.firstOfMarch := by
    decide +kernel
  have hfirst : Sample.nightly.Denotes Sample.lastOfFebruary :=
    denotes_of_calendarTime? (by decide +kernel)
  have hlast : Sample.returning.Denotes Sample.firstOfMarch :=
    denotes_of_calendarTime? (by decide +kernel)
  have hshift :
      Sample.nightly.calendarShift = { years := 0, months := 0, days := 1, hours := -22 } := by
    decide +kernel
  obtain ⟨-, hshows, -, -, honce, hback⟩ :=
    iterate_advance_hours (n := 3) hfirst hshift (by decide +kernel)
  rw [hlater] at hshows honce hback
  exact ⟨hshows (by decide),
    honce _ (denotes_of_calendarTime? (by decide +kernel)) (by decide +kernel) (by decide +kernel),
    hback _ hlast (by decide +kernel) (by decide +kernel)⟩

/-! ## Months and years -/

/-- **Months and years follow the calendar.** With increments of the year and the month only, `n`
windows lead `n` times as many months on, and the hour stays. The day is the least of the first day
and the lengths of the `n` months that are met, so that a day up to the 28th stays. -/
theorem iterate_advance_months {years months : Int} (ht : vars.Denotes t)
    (hshift : vars.calendarShift = { years, months, days := 0, hours := 0 }) (hpos : 0 < n)
    (hn : vars.StaysOnCalendar n) :
    ∃ u, (advance^[n] vars).Shows u ∧
      12 * u.date.year + u.date.month =
        12 * t.date.year + t.date.month + n * (12 * years + months) ∧
      (1 ≤ u.date.month ∧ u.date.month ≤ 12) ∧
      (advance^[n] vars).value? "HOUR" = vars.value? "HOUR" ∧
      IsLeast {length : Nat | length = t.date.day ∨ ∃ k v, 0 < k ∧ k ≤ n ∧
        (advance^[k] vars).Shows v ∧ length = daysInMonth v.date.year v.date.month} u.date.day ∧
      (t.date.day ≤ 28 → u.date.day = t.date.day) := by
  have htarget : vars.calendarShift.target = CalendarHour.addMonths (12 * years + months) := by
    rw [hshift]
    exact funext CalendarShift.target_of_years_months
  have hshows : ∀ k, 0 < k → k ≤ n → (advance^[k] vars).Shows
      { t with date := (Date.addMonths · (12 * years + months))^[k] t.date } := by
    intro k hk hkn
    have h := ht.shows_iterate_advance hk (hn.mono hkn)
    rwa [htarget, CalendarHour.iterate_addMonths] at h
  have hlast := hshows n hpos (Nat.le_refl n)
  have hleast := t.date.isLeast_day_iterate_addMonths (12 * years + months) n
  refine ⟨_, hlast, t.date.month_iterate_addMonths _ n, Date.month_mem _, ?_, ⟨?_, ?_⟩, fun h => ?_⟩
  · obtain ⟨_, _, _, hour, hvalues, hfor⟩ := ht
    obtain ⟨hour', hvalue, hhour⟩ := hlast .hour
    have hsame : hour' = hour := Int64.toInt_inj.1 (hhour.trans hfor.hour_eq)
    exact (hsame ▸ hvalue).trans hvalues.hour_eq.symm
  · rcases hleast.1 with hfirst | ⟨k, hk, hkn, hlength⟩
    · exact .inl hfirst
    · exact .inr ⟨k, _, hk, hkn, hshows k hk hkn, hlength⟩
  · rintro length (hfirst | ⟨k, v, hk, hkn, hv, hlength⟩)
    · exact hleast.2 (.inl hfirst)
    · rw [hv.denotes.unique (hshows k hk hkn).denotes] at hlength
      exact hleast.2 (.inr ⟨k, hk, hkn, hlength⟩)
  · have hle := hleast.2 (.inl rfl)
    rcases hleast.1 with hfirst | ⟨k, -, -, hlength⟩
    · exact hfirst
    · have hlong := Date.le_daysInMonth
        ((Date.addMonths · (12 * years + months))^[k] t.date).year
        ((Date.addMonths · (12 * years + months))^[k] t.date).month_mem
      rw [← hlength] at hlong
      exact Nat.le_antisymm hle (Nat.le_trans h hlong)

end VariableSet

namespace Sample

/-- The end of March of the year 1, and two months back in each window. -/
def backward : VariableSet :=
  calendar (.fixed 1) { value := 3, increment := -2 } (.fixed 31) (.fixed 6)

/-- The end of December, and a month and an hour on in each window. -/
def monthly : VariableSet :=
  calendar (.fixed 2023) { value := 12, increment := 1 } (.fixed 31)
    { value := 22, increment := 1 }

end Sample

namespace VariableSet

/-- Two windows back to November of the year 0. -/
theorem iterate_advance_months_year_zero :
    ∃ u, (advance^[2] Sample.backward).Shows u ∧ (u.date.year = 0 ∧ u.date.month = 11) ∧
      IsLeast {length : Nat | length = 31 ∨ ∃ k v, 0 < k ∧ k ≤ 2 ∧
        (advance^[k] Sample.backward).Shows v ∧ length = daysInMonth v.date.year v.date.month}
        u.date.day := by
  have hfirst : Sample.backward.Denotes
      { date := { year := 1, month := 3, day := 31 }, hour := 6 } :=
    denotes_of_calendarTime? (by decide +kernel)
  have hshift :
      Sample.backward.calendarShift = { years := 0, months := -2, days := 0, hours := 0 } := by
    decide +kernel
  obtain ⟨u, hshows, hmonths, hmonth, -, hday, -⟩ :=
    iterate_advance_months (n := 2) hfirst hshift (by decide) (by decide +kernel)
  exact ⟨u, hshows, by dsimp only at hmonths; omega, hday⟩

/-! ## Forward -/

/-- Later windows are later, if the shift leads forward. -/
theorem iterate_target_lt {shift : CalendarShift} (hyears : 0 ≤ shift.years)
    (hmonths : 0 ≤ shift.months) (hdays : 0 ≤ shift.days) (hhours : 0 ≤ shift.hours)
    (hmoves : shift ≠ { years := 0, months := 0, days := 0, hours := 0 }) (t : CalendarHour)
    {i j : Nat} (hij : i < j) : shift.target^[i] t < shift.target^[j] t := by
  have hstep : ∀ k, (shift.target^[k] t).toHours < (shift.target^[k + 1] t).toHours := by
    intro k
    rw [Function.iterate_succ_apply', CalendarHour.toHours_lt_iff]
    exact CalendarShift.lt_target hyears hmonths hdays hhours hmoves _
  exact CalendarHour.toHours_lt_iff.1 (strictMono_nat_of_lt_succ hstep hij)

/-- The fields of a date and an hour that exist. -/
structure ValidFields (year month day hour : Int) : Prop where
  month_mem : 1 ≤ month ∧ month ≤ 12
  day_mem : 1 ≤ day ∧ day ≤ daysInMonth year month.toNat
  hour_mem : 0 ≤ hour ∧ hour ≤ 23

/-- What the calendar variables show exists. -/
theorem Shows.exists_validFields (h : vars.Shows t) : ∃ year month day hour,
    vars.HasValues year month day hour ∧
      ValidFields year.toInt month.toInt day.toInt hour.toInt := by
  obtain ⟨year, month, day, hour, hvalues, hyear, hmonth, hday, hhour⟩ := h.exists_values
  refine ⟨year, month, day, hour, hvalues, ?_⟩
  have hmonths := t.date.month_mem
  have hdays := t.date.day_mem
  have hhours := t.hour_lt
  rw [hyear, hmonth, hday, hhour]
  exact ⟨by omega, by rw [Int.toNat_natCast]; omega, by omega⟩

/-- **Windows go forward through dates that exist.** With increments of the calendar variables that
are not negative and not all zero, the calendar hour of each window is later than those before it,
and the values are those of a date and an hour that exist. So no two of these windows have the same
values. -/
theorem iterate_advance_forward (ht : vars.Denotes t) (hyears : 0 ≤ vars.calendarShift.years)
    (hmonths : 0 ≤ vars.calendarShift.months) (hdays : 0 ≤ vars.calendarShift.days)
    (hhours : 0 ≤ vars.calendarShift.hours)
    (hmoves : vars.calendarShift ≠ { years := 0, months := 0, days := 0, hours := 0 })
    (hn : vars.StaysOnCalendar n) :
    ∃ times : Nat → CalendarHour, times 0 = t ∧
      (∀ i j, i < j → j ≤ n → times i < times j) ∧
      (∀ k, 0 < k → k ≤ n → (advance^[k] vars).Shows (times k) ∧
        ∃ year month day hour, (advance^[k] vars).HasValues year month day hour ∧
          ValidFields year.toInt month.toInt day.toInt hour.toInt) ∧
      ∀ i j, 0 < i → i < j → j ≤ n →
        ∃ c : CalendarName,
          (advance^[i] vars).value? c.name ≠ (advance^[j] vars).value? c.name := by
  have hshows : ∀ k, 0 < k → k ≤ n → (advance^[k] vars).Shows (vars.calendarShift.target^[k] t) :=
    fun k hk hkn => ht.shows_iterate_advance hk (hn.mono hkn)
  have hlater : ∀ {i j}, i < j →
      vars.calendarShift.target^[i] t < vars.calendarShift.target^[j] t :=
    iterate_target_lt hyears hmonths hdays hhours hmoves t
  refine ⟨fun k => vars.calendarShift.target^[k] t, rfl, fun i j hij _ => hlater hij,
    fun k hk hkn => ⟨hshows k hk hkn, (hshows k hk hkn).exists_validFields⟩,
    fun i j hi hij hj => ?_⟩
  by_contra hsame
  -- Equal values would stand for one calendar hour.
  have hvalues : ∀ c : CalendarName,
      (advance^[i] vars).value? c.name = (advance^[j] vars).value? c.name := by
    intro c
    by_contra hc
    exact hsame ⟨c, hc⟩
  have hi' := hshows i hi (Nat.le_of_lt (Nat.lt_of_lt_of_le hij hj))
  have hj' : (advance^[i] vars).Shows (vars.calendarShift.target^[j] t) := by
    intro c
    rw [hvalues c]
    exact hshows j (Nat.lt_trans hi hij) hj c
  have hlt := CalendarHour.toHours_lt_iff.2 (hlater hij)
  rw [hi'.denotes.unique hj'.denotes] at hlt
  exact Int.lt_irrefl _ hlt

/-- Four windows over the ends of the winter months. -/
theorem iterate_advance_forward_month_ends :
    ∃ times : Nat → CalendarHour,
      times 0 = { date := { year := 2023, month := 12, day := 31 }, hour := 22 } ∧
      (∀ i j, i < j → j ≤ 4 → times i < times j) ∧
      ∃ c : CalendarName, (advance^[2] Sample.monthly).value? c.name ≠
        (advance^[4] Sample.monthly).value? c.name := by
  have hfirst : Sample.monthly.Denotes
      { date := { year := 2023, month := 12, day := 31 }, hour := 22 } :=
    denotes_of_calendarTime? (by decide +kernel)
  obtain ⟨times, hzero, hlater, -, hdiffer⟩ := iterate_advance_forward (n := 4) hfirst
    (by decide +kernel) (by decide +kernel) (by decide +kernel) (by decide +kernel)
    (by decide +kernel) (by decide +kernel)
  exact ⟨times, hzero, hlater, hdiffer 2 4 (by decide) (by decide) (by decide)⟩

end VariableSet
end Lookout
