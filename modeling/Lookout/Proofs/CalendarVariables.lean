import Lookout.Proofs.Provenance

/-!
# The calendar variables of armed triggers

The next window is one of the calendar only if `YEAR`, `MONTH`, `DAY` and `HOUR` are all declared.

- **Creations** declare those that are missing (`VariableSet.contains_fillCalendar`), and the next
  window has the names of the present one.
- **Replacements** leave the variables as they are. A trigger that lacks a calendar variable has
  been replaced by one that does (`Run.lacks_calendar_iff`), and from then on each variable moves by
  its own increment (`Run.replaced_without_calendar`).
-/

namespace Lookout

namespace VariableSet

variable {vars : VariableSet} {name : String}

/-! ## Declared names -/

private theorem lookup_cons_ne {n : String} (v : Variable) (rest : List (String × Variable))
    (h : name ≠ n) : ((n, v) :: rest).lookup name = rest.lookup name := by
  rw [List.lookup_cons, beq_eq_false_iff_ne.2 h]

private theorem lookup_declared (other : String) (v : Variable) (l : List (String × Variable)) :
    (insertEntry name v l).lookup other = if other = name then some v else l.lookup other := by
  induction l with
  | nil =>
    unfold insertEntry
    by_cases h : other = name
    · simp [h]
    · rw [lookup_cons_ne v [] h, if_neg h]
  | cons e rest ih =>
    obtain ⟨n, w⟩ := e
    unfold insertEntry
    by_cases h : other = name
    · subst h
      rw [if_pos rfl] at ih ⊢
      split
      · exact List.lookup_cons_self
      · split
        · exact List.lookup_cons_self
        · rename_i hne
          rw [lookup_cons_ne w _ hne, ih]
    · rw [if_neg h] at ih ⊢
      split
      · rw [lookup_cons_ne v _ h]
      · split
        · rename_i hn
          rw [lookup_cons_ne v _ h, lookup_cons_ne w _ (hn ▸ h)]
        · rw [List.lookup_cons, List.lookup_cons, ih]

/-- A variable that has been declared is found; what is found under other names stays. -/
theorem find?_insert (vars : VariableSet) (name other : String) (v : Variable) :
    (vars.insert name v).find? other = if other = name then some v else vars.find? other :=
  lookup_declared other v vars.entries

theorem contains_insertIfNew (vars : VariableSet) (name other : String) (v : Variable) :
    (vars.insertIfNew name v).contains other = (decide (other = name) || vars.contains other) := by
  unfold insertIfNew
  split
  · rename_i h
    by_cases ho : other = name
    · simp [ho, h]
    · simp [ho]
  · unfold contains
    rw [find?_insert]
    by_cases ho : other = name <;> simp [ho]

/-- **All four calendar variables are declared** once they have been filled in. -/
theorem contains_fillCalendar (vars : VariableSet) (now : Instant) (c : CalendarName) :
    (vars.fillCalendar now).contains c.name = true := by
  unfold fillCalendar CalendarName.all
  simp only [List.foldl_cons, List.foldl_nil, contains_insertIfNew]
  cases c <;> simp

theorem contains_iterate_advance (vars : VariableSet) (name : String) (k : Nat) :
    (advance^[k] vars).contains name = vars.contains name := by
  induction k with
  | zero => rfl
  | succ k ih => rw [Function.iterate_succ_apply', contains_advance, ih]

/-! ## The next window -/

/-- Calendar variables that are all declared form a calendar hour if their values do. -/
theorem calendarTime?_of_declared (h : ∀ c : CalendarName, vars.contains c.name = true) :
    ∃ year month day hour, vars.value? "YEAR" = some year ∧ vars.value? "MONTH" = some month ∧
      vars.value? "DAY" = some day ∧ vars.value? "HOUR" = some hour ∧
      vars.calendarTime? = calendarHour? year.toInt month.toInt day.toInt hour.toInt := by
  obtain ⟨year, hyear⟩ := contains_iff_value?.1 (h .year)
  obtain ⟨month, hmonth⟩ := contains_iff_value?.1 (h .month)
  obtain ⟨day, hday⟩ := contains_iff_value?.1 (h .day)
  obtain ⟨hour, hhour⟩ := contains_iff_value?.1 (h .hour)
  unfold CalendarName.name at hyear hmonth hday hhour
  refine ⟨year, month, day, hour, hyear, hmonth, hday, hhour, ?_⟩
  unfold calendarTime?
  rw [hyear, hmonth, hday, hhour]
  rfl

/-- Without one of the calendar variables each variable moves by its own increment. -/
theorem advance_of_missing {c : CalendarName} (h : vars.contains c.name = false) :
    vars.advance = vars.mapValues fun _ v => v.advance := by
  have hmissing : vars.value? c.name = none := by
    unfold contains at h
    unfold value?
    rw [Option.isSome_eq_false_iff, Option.isNone_iff_eq_none] at h
    rw [h]
    rfl
  have hnone : vars.nextCalendarTime? = none := by
    unfold nextCalendarTime? calendarTime?
    cases c <;> rw [CalendarName.name] at hmissing <;> rw [hmissing]
    · rfl
    · cases vars.value? "YEAR" <;> rfl
    · cases vars.value? "YEAR" <;> cases vars.value? "MONTH" <;> rfl
    · cases vars.value? "YEAR" <;> cases vars.value? "MONTH" <;> cases vars.value? "DAY" <;> rfl
  unfold advance
  rw [hnone]

end VariableSet

/-! ## What creations and replacements declare -/

variable {s s' : System} {id : Uuid} {l : Lifecycle} {t t' : Trigger}

theorem Step.vars_created {fresh : Uuid} {r : CreateRequest}
    (hs : Step s (.created fresh r (.ok t)) s') : t.vars = r.vars.fillCalendar s.engine.clock := by
  obtain ⟨d, -, rfl⟩ := hs.created_eq
  rfl

/-- A replacement is armed as it is, but for the data source and the time of the change. -/
theorem Step.eq_of_updated (hs : Step s (.updated t (.ok t')) s') :
    t' = { t with dataSource := s.engine.dataSource, lastModifyTime := s.engine.clock } := by
  obtain ⟨hresult, -⟩ := hs.updated_inv
  rcases s.engine.update_cases t with ⟨err, e', hc, -⟩ | ⟨l, hl, -, hc⟩ <;> rw [hc] at hresult
  · cases hresult
  · cases hresult
    exact (Lifecycle.arm_ok hl).1

/-- A definition lacks a calendar variable if and only if it is a replacement that lacks it. -/
theorem Step.lacking_iff {e : Event} (hs : Step s e s') (hd : e.defines? id = some t)
    (c : VariableSet.CalendarName) :
    t.vars.contains c.name = false ↔ ∃ u t', e = .updated u (.ok t') ∧ u.id = id ∧
      u.vars.contains c.name = false := by
  cases e with
  | created fresh r result =>
    cases result with
    | error err => cases hd
    | ok t' =>
      obtain ⟨-, heq⟩ := Option.ite_none_right_eq_some.1 hd
      cases heq
      rw [hs.vars_created, VariableSet.contains_fillCalendar]
      constructor
      · intro h
        cases h
      · rintro ⟨u, t', he, -⟩
        cases he
  | updated u result =>
    cases result with
    | error err => cases hd
    | ok t' =>
      obtain ⟨hid, heq⟩ := Option.ite_none_right_eq_some.1 hd
      cases heq
      rw [hs.eq_of_updated] at hid ⊢
      constructor
      · exact fun h => ⟨u, _, rfl, hid, h⟩
      · rintro ⟨u', t', he, -, h⟩
        cases he
        exact h
  | _ => cases hd

/-- In a run from an empty store an armed trigger has been put under its identifier, and has gone on
some windows since. -/
theorem Run.defined {config : Config} {clock : Instant} {engine : Engine} {history : List Moment}
    (h : Engine.start config Store.empty clock = .ok engine)
    (hr : Run (.ofEngine engine) history s) (hl : s.engine.armed.find? id = some l) :
    ∃ t k, lastOf (·.event.defines? id) history = some t ∧
      l.trigger.vars = VariableSet.advance^[k] t.vars := by
  obtain ⟨-, t, ht, k, hk⟩ := hr.armed_from h hl
  have hnone : engine.armed.find? id = none := by
    rw [Engine.eq_of_start_empty h]
    rfl
  unfold Engine.inForce? at ht
  rw [hnone, Option.map_none, Option.or_none] at ht
  exact ⟨t, k, ht, by rw [hk]; rfl⟩

/-- **Where calendar variables are missing.** In a run from an empty store an armed trigger lacks
one of them exactly if it has been replaced by a trigger that lacks it, and neither replaced nor
created since. If it declares all of them, the next window is one of the calendar unless their
values form no date; if it lacks one, each variable moves by its own increment. -/
theorem Run.lacks_calendar_iff {config : Config} {clock : Instant} {engine : Engine}
    {history : List Moment} (h : Engine.start config Store.empty clock = .ok engine)
    (hr : Run (.ofEngine engine) history s) (hl : s.engine.armed.find? id = some l) :
    (∀ c : VariableSet.CalendarName, l.trigger.vars.contains c.name = false ↔
      ∃ past m rest t t', history = past ++ m :: rest ∧ m.event = .updated t (.ok t') ∧
        t.id = id ∧ t.vars.contains c.name = false ∧ ∀ n ∈ rest, n.event.defines? id = none) ∧
    ((∀ c : VariableSet.CalendarName, l.trigger.vars.contains c.name = true) →
      ∃ year month day hour, l.trigger.vars.value? "YEAR" = some year ∧
        l.trigger.vars.value? "MONTH" = some month ∧ l.trigger.vars.value? "DAY" = some day ∧
        l.trigger.vars.value? "HOUR" = some hour ∧
        l.trigger.vars.calendarTime? =
          VariableSet.calendarHour? year.toInt month.toInt day.toInt hour.toInt) ∧
    ∀ c : VariableSet.CalendarName, l.trigger.vars.contains c.name = false →
      ∀ now next, l.advance now = .ok next →
        next.trigger.vars = l.trigger.vars.mapValues fun _ v => v.advance := by
  obtain ⟨t, k, ht, hk⟩ := hr.defined h hl
  refine ⟨fun c => ?_, VariableSet.calendarTime?_of_declared, fun c hc now next hnext => ?_⟩
  · rw [hk, VariableSet.contains_iterate_advance]
    constructor
    · intro hmissing
      obtain ⟨past, m, rest, rfl, hm, hrest⟩ := lastOf_eq_some_iff.1 ht
      obtain ⟨-, s₁, hstep, -⟩ := hr.split
      obtain ⟨u, t', he, hid, hu⟩ := (hstep.lacking_iff hm c).1 hmissing
      exact ⟨past, m, rest, u, t', rfl, he, hid, hu, hrest⟩
    · rintro ⟨past, m, rest, u, t', rfl, he, hid, hmissing, hrest⟩
      obtain ⟨-, s₁, hstep, -⟩ := hr.split
      have hdefines : m.event.defines? id = some t' := by
        rw [he] at hstep ⊢
        refine if_pos ?_
        rw [hstep.eq_of_updated]
        exact hid
      cases (lastOf_eq_some_iff.2 ⟨past, m, rest, rfl, hdefines, hrest⟩).symm.trans ht
      exact (hstep.lacking_iff hdefines c).2 ⟨u, _, he, hid, hmissing⟩
  · have hsynced := (System.Sound.of_run h hr).synced id l hl
    rw [(hsynced.advance hnext).2]
    exact VariableSet.advance_of_missing hc

namespace Sample

/-- Takes the place of the first trigger. Of the calendar variables it declares the day only. -/
def bare : Trigger :=
  { created with vars := { entries := [("DAY", { value := 1, increment := 31 })] } }

/-- The first trigger is created and then replaced. -/
def stripped : List Moment × System :=
  (System.ofEngine engine).play [.create first daily, .update bare]

theorem isSome_stripped : (stripped.2.engine.armed.find? first).isSome = true := by decide +kernel

/-- The first trigger after its replacement. -/
def dayOnly : Lifecycle :=
  (stripped.2.engine.armed.find? first).get isSome_stripped

theorem find?_stripped : stripped.2.engine.armed.find? first = some dayOnly :=
  (Option.some_get isSome_stripped).symm

theorem run_stripped : Run (.ofEngine engine) stripped.1 stripped.2 :=
  .of_play _ _

end Sample

/-- A trigger that has been replaced by one without a month, and goes on to day 32. -/
theorem Run.lacks_calendar_iff_day_only :
    (∃ past m rest t t', Sample.stripped.1 = past ++ m :: rest ∧ m.event = .updated t (.ok t') ∧
      t.id = Sample.first ∧ t.vars.contains "MONTH" = false ∧
      ∀ n ∈ rest, n.event.defines? Sample.first = none) ∧
    ∀ now next, Sample.dayOnly.advance now = .ok next →
      next.trigger.vars.entries = [("DAY", { value := 32, increment := 31 })] := by
  have hmissing : Sample.dayOnly.trigger.vars.contains "MONTH" = false := by decide +kernel
  have hmoves : (Sample.dayOnly.trigger.vars.mapValues fun _ v => v.advance).entries =
      [("DAY", { value := 32, increment := 31 })] := by decide +kernel
  obtain ⟨hcause, -, hnext⟩ :=
    Run.lacks_calendar_iff Sample.start Sample.run_stripped Sample.find?_stripped
  refine ⟨(hcause .month).1 hmissing, fun now next h => ?_⟩
  rw [hnext .month hmissing now next h, hmoves]

/-- **Armed triggers need not have all calendar variables**: a replacement need not declare them. -/
theorem Run.replaced_without_calendar :
    ¬ ∀ (config : Config) (clock : Instant) (engine : Engine) (history : List Moment) (s : System)
      (id : Uuid) (l : Lifecycle), Engine.start config Store.empty clock = .ok engine →
      Run (.ofEngine engine) history s → s.engine.armed.find? id = some l →
      ∀ c : VariableSet.CalendarName, l.trigger.vars.contains c.name = true := by
  intro hdeclared
  have hmonth := hdeclared _ _ _ _ _ _ _ Sample.start Sample.run_stripped Sample.find?_stripped
    .month
  have hmissing : Sample.dayOnly.trigger.vars.contains "MONTH" = false := by decide +kernel
  cases hmonth.symm.trans hmissing

end Lookout
