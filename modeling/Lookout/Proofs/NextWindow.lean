import Lookout.Variable.Window
import Lookout.Proofs.CalendarHours

/-!
# The next window

What `VariableSet.advance` does to each variable.

- **Names and increments** stay (`VariableSet.names_increments_advance`), and a variable that does
  not belong to the calendar moves by its own increment (`VariableSet.find?_advance`).
- **The calendar hour** of the calendar variables: `VariableSet.Shows` if their values are the
  fields of a calendar hour, `VariableSet.Denotes` if the day may lie outside the month.
- **All or none**: the calendar variables show the calendar hour to which their increments lead, or
  each moves by its own increment. The latter happens for the reasons of `VariableSet.OffCalendar`
  and for no others (`VariableSet.advance_all_or_none`).
-/

namespace Lookout

/-! ## Values of 64 bits -/

theorem toInt_saturate (n : Int) :
    (saturate n).toInt = max (-9223372036854775808) (min 9223372036854775807 n) := by
  unfold saturate
  split
  · rw [Int64.toInt_minValue]
    omega
  · split
    · rw [Int64.toInt_maxValue]
      omega
    · rw [Int64.toInt_ofInt_of_le (by omega) (by omega)]
      omega

/-- The value that a variable moves to: by its increment, or up to the end of the 64 bits. -/
def Variable.onward (v : Variable) : Int :=
  max (-9223372036854775808) (min 9223372036854775807 (v.value.toInt + v.increment.toInt))

theorem Variable.toInt_advance (v : Variable) : v.advance.value.toInt = v.onward :=
  toInt_saturate _

namespace VariableSet

variable {vars : VariableSet} {name : String} {t u : CalendarHour}

/-! ## Calendar variables -/

namespace CalendarName

/-- The field of a calendar hour, as a number. -/
def number (t : CalendarHour) : CalendarName → Int
  | year => t.date.year
  | month => t.date.month
  | day => t.date.day
  | hour => t.hour

/-- The fields of a calendar hour of a time stamp fit into 64 bits. -/
theorem toInt_field (h : t.date.inRange = true) (c : CalendarName) :
    (c.field t).toInt = c.number t := by
  have hlow : ∀ c : CalendarName, -9223372036854775808 ≤ c.number t ∧
      c.number t < 9223372036854775808 := by
    have hmonth := t.date.month_mem
    have hday := Nat.le_trans t.date.day_mem.2 (Date.daysInMonth_le _ _)
    have hhour := t.hour_lt
    unfold Date.inRange minYear maxYear at h
    rw [Bool.and_eq_true, decide_eq_true_eq, decide_eq_true_eq] at h
    intro c
    cases c <;> unfold number <;> dsimp only <;> omega
  obtain ⟨hlow, hhigh⟩ := hlow c
  cases c <;> exact Int64.toInt_ofInt_of_le hlow hhigh

theorem ofName?_name (c : CalendarName) : ofName? c.name = some c := by
  cases c <;> rfl

theorem ofName?_eq_none_iff : ofName? name = none ↔ ∀ c : CalendarName, name ≠ c.name := by
  unfold ofName?
  rw [List.find?_eq_none]
  constructor
  · rintro h c rfl
    refine h c ?_ (beq_self_eq_true _)
    cases c <;> decide
  · intro h c _ hc
    exact h c (beq_iff_eq.1 hc).symm

end CalendarName

/-! ## One variable -/

/-- A variable that is found after a change was there before under its name. -/
theorem find?_mapValues (f : String → Variable → Variable) (vars : VariableSet) (name : String) :
    (vars.mapValues f).find? name = (vars.find? name).map (f name) := by
  obtain ⟨entries, ascending⟩ := vars
  unfold find? mapValues
  dsimp only
  clear ascending
  induction entries with
  | nil => rfl
  | cons e rest ih =>
    obtain ⟨n, v⟩ := e
    rw [List.map_cons, List.lookup_cons, List.lookup_cons]
    by_cases hn : name = n
    · subst hn
      simp
    · rw [beq_eq_false_iff_ne.2 hn]
      exact ih

theorem contains_advance (vars : VariableSet) (name : String) :
    vars.advance.contains name = vars.contains name := by
  unfold contains advance
  rw [find?_mapValues, Option.isSome_map]

theorem contains_iff_value? : vars.contains name = true ↔ ∃ v, vars.value? name = some v := by
  unfold contains value?
  rw [← Option.isSome_iff_exists, Option.isSome_map]

theorem value?_eq_some_iff {n : Int64} :
    vars.value? name = some n ↔ ∃ v, vars.find? name = some v ∧ v.value = n := by
  unfold value?
  rw [Option.map_eq_some_iff]

theorem find?_advance (hname : CalendarName.ofName? name = none) :
    vars.advance.find? name = (vars.find? name).map Variable.advance := by
  unfold advance
  rw [find?_mapValues, hname]
  cases vars.nextCalendarTime? <;> rfl

/-- A calendar variable takes its field of the next calendar hour. -/
theorem find?_advance_of_some (h : vars.nextCalendarTime? = some t) (c : CalendarName) :
    vars.advance.find? c.name =
      (vars.find? c.name).map fun v => { v with value := c.field t } := by
  unfold advance
  rw [find?_mapValues, h, CalendarName.ofName?_name]

/-- Without a next calendar hour, a calendar variable moves like all others. -/
theorem find?_advance_of_none (h : vars.nextCalendarTime? = none) (name : String) :
    vars.advance.find? name = (vars.find? name).map Variable.advance := by
  unfold advance
  rw [find?_mapValues, h]

/-- **Names and increments stay.** -/
theorem names_increments_advance (vars : VariableSet) :
    vars.advance.entries.map (fun e => (e.1, e.2.increment)) =
      vars.entries.map fun e => (e.1, e.2.increment) := by
  unfold advance mapValues
  rw [List.map_map]
  refine List.map_congr_left fun e _ => ?_
  dsimp only [Function.comp_apply]
  split <;> rfl

theorem increment_advance (vars : VariableSet) (name : String) :
    vars.advance.increment name = vars.increment name := by
  unfold increment advance
  rw [find?_mapValues, Option.map_map]
  congr 2
  funext v
  dsimp only [Function.comp_apply]
  split <;> rfl

theorem calendarShift_advance (vars : VariableSet) :
    vars.advance.calendarShift = vars.calendarShift := by
  unfold calendarShift
  rw [increment_advance, increment_advance, increment_advance, increment_advance]

/-! ## The calendar hour of the calendar variables -/

/-- The numbers stand for a calendar hour. A day before or after the month stands for its first or
its last one. -/
structure StandFor (year month day hour : Int) (t : CalendarHour) : Prop where
  year_eq : t.date.year = year
  month_eq : t.date.month = month
  day_eq : t.date.day = max 1 (min day (daysInMonth t.date.year t.date.month))
  hour_eq : t.hour = hour

theorem StandFor.unique {year month day hour : Int} (ht : StandFor year month day hour t)
    (hu : StandFor year month day hour u) : t = u := by
  have hyear : t.date.year = u.date.year := ht.year_eq.trans hu.year_eq.symm
  have hmonth : t.date.month = u.date.month :=
    Int.ofNat_inj.1 (ht.month_eq.trans hu.month_eq.symm)
  have hday := ht.day_eq
  rw [hyear, hmonth, ← hu.day_eq] at hday
  exact CalendarHour.eq_of_fields (Date.eq_of_fields hyear hmonth (Int.ofNat_inj.1 hday))
    (Int.ofNat_inj.1 (ht.hour_eq.trans hu.hour_eq.symm))

/-- The values of the calendar variables. -/
structure HasValues (vars : VariableSet) (year month day hour : Int64) : Prop where
  year_eq : vars.value? "YEAR" = some year
  month_eq : vars.value? "MONTH" = some month
  day_eq : vars.value? "DAY" = some day
  hour_eq : vars.value? "HOUR" = some hour

theorem HasValues.unique {year month day hour year' month' day' hour' : Int64}
    (h : vars.HasValues year month day hour) (h' : vars.HasValues year' month' day' hour') :
    year = year' ∧ month = month' ∧ day = day' ∧ hour = hour' :=
  ⟨Option.some.inj (h.year_eq.symm.trans h'.year_eq),
    Option.some.inj (h.month_eq.symm.trans h'.month_eq),
    Option.some.inj (h.day_eq.symm.trans h'.day_eq),
    Option.some.inj (h.hour_eq.symm.trans h'.hour_eq)⟩

/-- The calendar variables have values if and only if all of them are declared. -/
theorem exists_hasValues_iff :
    (∃ year month day hour, vars.HasValues year month day hour) ↔
      ∀ c : CalendarName, ∃ n, vars.value? c.name = some n := by
  constructor
  · rintro ⟨year, month, day, hour, h⟩ c
    cases c with
    | year => exact ⟨year, h.year_eq⟩
    | month => exact ⟨month, h.month_eq⟩
    | day => exact ⟨day, h.day_eq⟩
    | hour => exact ⟨hour, h.hour_eq⟩
  · intro h
    obtain ⟨year, hyear⟩ := h .year
    obtain ⟨month, hmonth⟩ := h .month
    obtain ⟨day, hday⟩ := h .day
    obtain ⟨hour, hhour⟩ := h .hour
    exact ⟨year, month, day, hour, hyear, hmonth, hday, hhour⟩

/-- The calendar variables stand for a calendar hour. -/
def Denotes (vars : VariableSet) (t : CalendarHour) : Prop :=
  ∃ year month day hour, vars.HasValues year month day hour ∧
    StandFor year.toInt month.toInt day.toInt hour.toInt t

/-- The values of the calendar variables are the fields of a calendar hour. -/
def Shows (vars : VariableSet) (t : CalendarHour) : Prop :=
  ∀ c : CalendarName, ∃ n, vars.value? c.name = some n ∧ n.toInt = c.number t

theorem Denotes.unique (ht : vars.Denotes t) (hu : vars.Denotes u) : t = u := by
  obtain ⟨year, month, day, hour, hvalues, ht⟩ := ht
  obtain ⟨year', month', day', hour', hvalues', hu⟩ := hu
  obtain ⟨rfl, rfl, rfl, rfl⟩ := hvalues.unique hvalues'
  exact ht.unique hu

theorem Shows.exists_values (h : vars.Shows t) :
    ∃ year month day hour, vars.HasValues year month day hour ∧ year.toInt = t.date.year ∧
      month.toInt = t.date.month ∧ day.toInt = t.date.day ∧ hour.toInt = t.hour := by
  obtain ⟨year, hyear, hyear'⟩ := h .year
  obtain ⟨month, hmonth, hmonth'⟩ := h .month
  obtain ⟨day, hday, hday'⟩ := h .day
  obtain ⟨hour, hhour, hhour'⟩ := h .hour
  exact ⟨year, month, day, hour, ⟨hyear, hmonth, hday, hhour⟩, hyear', hmonth', hday', hhour'⟩

theorem Shows.denotes (h : vars.Shows t) : vars.Denotes t := by
  obtain ⟨year, month, day, hour, hvalues, hyear, hmonth, hday, hhour⟩ := h.exists_values
  have hmem := t.date.day_mem
  exact ⟨year, month, day, hour, hvalues, hyear.symm, hmonth.symm, by omega, hhour.symm⟩

/-! ## Usable values -/

/-- Numbers that can be used as year, month, day and hour. The month after theirs lies in the years
of a time stamp too; the day, which may lie after the month, has 32 bits. -/
structure Usable (year month day hour : Int) : Prop where
  year_mem : minYear ≤ year ∧ year ≤ maxYear
  month_mem : 1 ≤ month ∧ month ≤ 12
  followed : year < maxYear ∨ month < 12
  day_mem : 0 ≤ day ∧ day < 4294967296
  hour_mem : 0 ≤ hour ∧ hour < 24

section Usable

variable {year month day hour : Int}

/-- The month after a month of the years of a time stamp lies in them too, unless it is the last. -/
theorem inRange_following {month : Nat} (hm : 1 ≤ month ∧ month ≤ 12) (hmin : minYear ≤ year) :
    ((Date.clamped year month 1 hm).addMonths 1).inRange = true ↔
      year ≤ maxYear ∧ (year < maxYear ∨ month < 12) := by
  have hmonth := (Date.clamped year month 1 hm).month_addMonths 1
  have hmem := ((Date.clamped year month 1 hm).addMonths 1).month_mem
  change 12 * ((Date.clamped year month 1 hm).addMonths 1).year +
    ((Date.clamped year month 1 hm).addMonths 1).month = 12 * year + month + 1 at hmonth
  unfold Date.inRange
  rw [Bool.and_eq_true, decide_eq_true_eq, decide_eq_true_eq]
  omega

theorem usable_of_calendarHour? (h : calendarHour? year month day hour = some t) :
    Usable year month day hour := by
  unfold calendarHour? at h
  split at h
  · rename_i hm
    obtain ⟨⟨hmin, hfollowing, hday, hdays, hhour⟩, h⟩ := Option.ite_none_right_eq_some.1 h
    obtain ⟨hmax, hfollowed⟩ := (inRange_following hm hmin).1 hfollowing
    split at h
    · exact ⟨⟨hmin, hmax⟩, by omega, by omega, ⟨hday, hdays⟩, by omega⟩
    · cases h
  · cases h

/-- Usable numbers form the calendar hour that they stand for. -/
theorem Usable.exists_standFor (h : Usable year month day hour) :
    ∃ t, calendarHour? year month day hour = some t ∧ StandFor year month day hour t := by
  obtain ⟨⟨hmin, hmax⟩, hmonth, hfollowed, hday, hhour⟩ := h
  have hm : 1 ≤ month.toNat ∧ month.toNat ≤ 12 := by omega
  have hh : hour.toNat < 24 := by omega
  have hfollowing := (inRange_following hm hmin).2 ⟨hmax, by omega⟩
  unfold calendarHour?
  rw [dif_pos hm]
  dsimp only
  rw [if_pos ⟨hmin, hfollowing, hday.1, hday.2, hhour.1⟩, dif_pos hh]
  refine ⟨_, rfl, rfl, Int.toNat_of_nonneg (by omega), ?_, Int.toNat_of_nonneg hhour.1⟩
  unfold Date.clamped
  dsimp only
  omega

theorem calendarHour?_eq_some_iff :
    calendarHour? year month day hour = some t ↔
      Usable year month day hour ∧ StandFor year month day hour t := by
  constructor
  · intro h
    have husable := usable_of_calendarHour? h
    obtain ⟨u, hu, hfor⟩ := husable.exists_standFor
    cases hu.symm.trans h
    exact ⟨husable, hfor⟩
  · rintro ⟨husable, ht⟩
    obtain ⟨u, hu, hfor⟩ := husable.exists_standFor
    rw [hu, ht.unique hfor]

/-- What usable numbers stand for lies in the years of a time stamp. -/
theorem Usable.inRange (h : Usable year month day hour) (ht : StandFor year month day hour t) :
    t.date.inRange = true := by
  unfold Date.inRange
  rw [ht.year_eq, Bool.and_eq_true, decide_eq_true_eq, decide_eq_true_eq]
  exact h.year_mem

end Usable

/-- The calendar variables form a calendar hour if they have usable values. -/
theorem calendarTime?_eq_some_iff :
    vars.calendarTime? = some t ↔ ∃ year month day hour, vars.HasValues year month day hour ∧
      Usable year.toInt month.toInt day.toInt hour.toInt ∧
      StandFor year.toInt month.toInt day.toInt hour.toInt t := by
  unfold calendarTime?
  simp only [Option.bind_eq_bind, Option.bind_eq_some_iff, calendarHour?_eq_some_iff]
  constructor
  · rintro ⟨year, hyear, month, hmonth, day, hday, hour, hhour, h⟩
    exact ⟨year, month, day, hour, ⟨hyear, hmonth, hday, hhour⟩, h⟩
  · rintro ⟨year, month, day, hour, ⟨hyear, hmonth, hday, hhour⟩, h⟩
    exact ⟨year, hyear, month, hmonth, day, hday, hour, hhour, h⟩

theorem denotes_of_calendarTime? (h : vars.calendarTime? = some t) : vars.Denotes t := by
  obtain ⟨year, month, day, hour, hvalues, -, ht⟩ := calendarTime?_eq_some_iff.1 h
  exact ⟨year, month, day, hour, hvalues, ht⟩

/-! ## All or none -/

/-- Why the calendar variables do not move together: one of them is missing, their values cannot be
used, or a stage of the shift leaves the supported range. -/
inductive OffCalendar (vars : VariableSet) : Prop
  | missing (c : CalendarName) (h : vars.find? c.name = none)
  | unusable {year month day hour : Int64} (hvalues : vars.HasValues year month day hour)
      (h : ¬ Usable year.toInt month.toInt day.toInt hour.toInt)
  | outOfRange {t : CalendarHour} (ht : vars.Denotes t)
      (h : ¬ vars.calendarShift.StaysInRange t)

/-- **The calendar hour of the next window**: there is one if the calendar variables form a calendar
hour and no stage of their shift leaves the supported range, and then it is the one to which the
shift leads. -/
theorem nextCalendarTime?_eq_some_iff :
    vars.nextCalendarTime? = some u ↔ ∃ t, vars.calendarTime? = some t ∧
      vars.calendarShift.StaysInRange t ∧ u = vars.calendarShift.target t := by
  unfold nextCalendarTime?
  rw [Option.bind_eq_some_iff]
  refine exists_congr fun t => and_congr_right fun ht => ?_
  obtain ⟨year, month, day, hour, -, husable, hfor⟩ := calendarTime?_eq_some_iff.1 ht
  exact CalendarShift.apply?_eq_some_iff (husable.inRange hfor)

/-- **The reasons are all there are** for which there is no calendar hour of the next window. -/
theorem offCalendar_iff : vars.OffCalendar ↔ vars.nextCalendarTime? = none := by
  constructor
  · intro hoff
    rw [Option.eq_none_iff_forall_ne_some]
    intro u hu
    obtain ⟨t, ht, hstays, -⟩ := nextCalendarTime?_eq_some_iff.1 hu
    obtain ⟨year, month, day, hour, hvalues, husable, hfor⟩ := calendarTime?_eq_some_iff.1 ht
    cases hoff with
    | missing c h =>
      obtain ⟨n, hn⟩ := exists_hasValues_iff.1 ⟨year, month, day, hour, hvalues⟩ c
      obtain ⟨v, hv, -⟩ := value?_eq_some_iff.1 hn
      cases h.symm.trans hv
    | unusable hvalues' h =>
      obtain ⟨rfl, rfl, rfl, rfl⟩ := hvalues.unique hvalues'
      exact h husable
    | outOfRange ht' h =>
      cases ht'.unique (denotes_of_calendarTime? ht)
      exact h hstays
  · intro hnone
    by_cases hdeclared : ∀ c : CalendarName, ∃ n, vars.value? c.name = some n
    · obtain ⟨year, month, day, hour, hvalues⟩ := exists_hasValues_iff.2 hdeclared
      by_cases husable : Usable year.toInt month.toInt day.toInt hour.toInt
      · obtain ⟨t, -, hfor⟩ := husable.exists_standFor
        refine .outOfRange ⟨year, month, day, hour, hvalues, hfor⟩ fun hstays => ?_
        have ht := calendarTime?_eq_some_iff.2 ⟨year, month, day, hour, hvalues, husable, hfor⟩
        cases hnone.symm.trans (nextCalendarTime?_eq_some_iff.2 ⟨t, ht, hstays, rfl⟩)
      · exact .unusable hvalues husable
    · obtain ⟨c, hc⟩ := not_forall.1 hdeclared
      refine .missing c (Option.eq_none_iff_forall_ne_some.2 fun v hv => hc ⟨v.value, ?_⟩)
      exact value?_eq_some_iff.2 ⟨v, hv, rfl⟩

/-- After a window of the calendar, the calendar variables show the next one. -/
theorem shows_advance_of_some (h : vars.nextCalendarTime? = some u) : vars.advance.Shows u := by
  obtain ⟨t, ht, hstays, rfl⟩ := nextCalendarTime?_eq_some_iff.1 h
  obtain ⟨year, month, day, hour, hvalues, -, -⟩ := calendarTime?_eq_some_iff.1 ht
  intro c
  obtain ⟨n, hn⟩ := exists_hasValues_iff.1 ⟨year, month, day, hour, hvalues⟩ c
  obtain ⟨v, hv, -⟩ := value?_eq_some_iff.1 hn
  refine ⟨c.field (vars.calendarShift.target t), ?_, CalendarName.toInt_field hstays.byHours c⟩
  rw [value?_eq_some_iff, find?_advance_of_some h, hv]
  exact ⟨_, rfl, rfl⟩

/-- **The calendar moves as a whole or not at all, and nothing else with it.** In the next window
names and increments are the same. A variable that does not belong to the calendar has moved by its
increment, up to the end of the 64 bits. The calendar variables show the calendar hour to which
their shift leads; only if one of them is missing, their values cannot be used or a stage of the
shift leaves the supported range, each that is there has moved by its own increment. -/
theorem advance_all_or_none (vars : VariableSet) :
    vars.advance.entries.map (fun e => (e.1, e.2.increment)) =
        vars.entries.map (fun e => (e.1, e.2.increment)) ∧
      (∀ name v, (∀ c : CalendarName, name ≠ c.name) → vars.find? name = some v →
        ∃ n, vars.advance.value? name = some n ∧ n.toInt = v.onward) ∧
      ((¬ vars.OffCalendar ∧
          ∃ t, vars.Denotes t ∧ vars.advance.Shows (vars.calendarShift.target t)) ∨
        (vars.OffCalendar ∧ ∀ (c : CalendarName) (v : Variable), vars.find? c.name = some v →
          ∃ n, vars.advance.value? c.name = some n ∧ n.toInt = v.onward)) := by
  have honward : ∀ {name v}, vars.advance.find? name = (vars.find? name).map Variable.advance →
      vars.find? name = some v → ∃ n, vars.advance.value? name = some n ∧ n.toInt = v.onward := by
    intro name v hadvance hv
    rw [hv] at hadvance
    exact ⟨v.advance.value, value?_eq_some_iff.2 ⟨_, hadvance, rfl⟩, v.toInt_advance⟩
  refine ⟨vars.names_increments_advance, fun name v hname hv => ?_, ?_⟩
  · exact honward (find?_advance (CalendarName.ofName?_eq_none_iff.2 hname)) hv
  · cases hnext : vars.nextCalendarTime? with
    | some u =>
      obtain ⟨t, ht, -, rfl⟩ := nextCalendarTime?_eq_some_iff.1 hnext
      refine .inl ⟨fun hoff => ?_, t, denotes_of_calendarTime? ht, shows_advance_of_some hnext⟩
      cases (offCalendar_iff.1 hoff).symm.trans hnext
    | none =>
      exact .inr ⟨offCalendar_iff.2 hnext, fun c v hv => honward (find?_advance_of_none hnext _) hv⟩

end VariableSet

namespace Sample

/-- The calendar variables. -/
def calendar (year month day hour : Variable) : VariableSet :=
  .ofList [("YEAR", year), ("MONTH", month), ("DAY", day), ("HOUR", hour)]

/-- There is no month 13, and the counter is at its end. -/
def thirteenth : VariableSet :=
  (calendar (.fixed 2024) { value := 13, increment := 1 } (.fixed 1) (.fixed 0)).insert "BATCH"
    { value := Int64.maxValue, increment := 1 }

end Sample

/-- The month 13 is followed by the month 14, and the counter stays at its end. -/
theorem VariableSet.advance_all_or_none_thirteenth :
    Sample.thirteenth.OffCalendar ∧
      (∃ n, Sample.thirteenth.advance.value? "MONTH" = some n ∧ n.toInt = 14) ∧
      ∃ n, Sample.thirteenth.advance.value? "BATCH" = some n ∧ n.toInt = 9223372036854775807 := by
  have hoff : Sample.thirteenth.OffCalendar := offCalendar_iff.2 (by decide +kernel)
  have hmonth : Sample.thirteenth.find? "MONTH" = some { value := 13, increment := 1 } := by
    decide +kernel
  have hcounter : Sample.thirteenth.find? "BATCH" =
      some { value := Int64.maxValue, increment := 1 } := by decide +kernel
  obtain ⟨-, hothers, hcalendar⟩ := advance_all_or_none Sample.thirteenth
  obtain ⟨hon, -⟩ | ⟨-, hmoves⟩ := hcalendar
  · exact absurd hoff hon
  · exact ⟨hoff, hmoves .month _ hmonth,
      hothers "BATCH" _ (fun c => by cases c <;> decide) hcounter⟩

end Lookout
