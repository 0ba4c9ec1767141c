import Lookout.Proofs.Course
import Lookout.Proofs.Declared

/-!
# Checkers and their triggers

The variables of an armed trigger are held by the trigger and by its checker, and the keys that
follow from them by the checker only. They agree at any time (`Course.armed_synced`), so an armed
trigger always has a next window, and one that recurs is disarmed only when it expires or is
removed.

- **Where armed triggers come from** (`Step.armed_cases`, `Engine.find?_load_cases`): they were
  armed before, have been armed, or have gone on to their next windows.
- **How a trigger is disarmed** (`Step.disarmed_cases`): it is removed, or a cycle finds that it is
  done.
-/

namespace Lookout

/-- A trigger that is armed after a step was armed before, has been armed in the step as one of the
engine's data source, or has gone on to its next window. -/
theorem Step.armed_cases {s s' : System} {e : Event} (hs : Step s e s') {id : Uuid}
    {l' : Lifecycle} (hl' : s'.engine.armed.find? id = some l') :
    s.engine.armed.find? id = some l' ∨
      (∃ revision t l i, t.dataSource = s.engine.dataSource ∧
        Lifecycle.arm s.engine.registry s.engine.checkerType revision t = .ok l ∧
        l' = l.withId i) ∨
      ∃ l now, s.engine.armed.find? id = some l ∧ l.advance now = .ok l' := by
  cases hs.effect with
  | idle => exact .inl hl'
  | create _ hl =>
    rcases IdMap.find?_insert_cases hl' with ⟨-, rfl⟩ | ⟨-, hl'⟩
    · exact .inr (.inl ⟨_, _, _, _, rfl, hl, rfl⟩)
    · exact .inl hl'
  | @update t l hl _ =>
    rcases IdMap.find?_insert_cases hl' with ⟨-, rfl⟩ | ⟨-, hl'⟩
    · exact .inr (.inl ⟨_, _, _, l'.trigger.id, rfl, hl, rfl⟩)
    · exact .inl hl'
  | remove => exact .inl (IdMap.find?_erase_cases hl').2
  | decide _ hdecides =>
    obtain ⟨l, f, hf, hn⟩ := Findings.exists_of_find?_applyTo hdecides.about hl'
    have hl := Findings.find?_of_mem hdecides.about hf
    cases hdecides.finds hf with
    | expires => cases hn
    | waits =>
      cases hn
      exact .inl hl
    | retires => cases hn
    | advances _ _ ha =>
      cases hn
      exact .inr (.inr ⟨l, _, hl, ha⟩)
  | fire => exact .inl hl'
  | @settle f =>
    obtain ⟨store, he⟩ := s.engine.settle_eq f
    rw [he] at hl'
    exact .inl hl'
  | beginPoll => exact .inl hl'
  | answer a => rcases a with _ | _ | _ <;> exact .inl hl'

/-- No step changes which checkers there are, which one is armed, nor the data source. -/
theorem Step.settings_eq {s s' : System} {e : Event} (hs : Step s e s') :
    s'.engine.registry = s.engine.registry ∧ s'.engine.checkerType = s.engine.checkerType ∧
      s'.engine.dataSource = s.engine.dataSource := by
  cases hs.effect with
  | idle => exact ⟨rfl, rfl, rfl⟩
  | create => exact ⟨rfl, rfl, rfl⟩
  | update => exact ⟨rfl, rfl, rfl⟩
  | remove => exact ⟨rfl, rfl, rfl⟩
  | decide => exact ⟨rfl, rfl, rfl⟩
  | fire => exact ⟨rfl, rfl, rfl⟩
  | @settle f =>
    obtain ⟨store, he⟩ := s.engine.settle_eq f
    rw [he]
    exact ⟨rfl, rfl, rfl⟩
  | beginPoll => exact ⟨rfl, rfl, rfl⟩
  | answer a => rcases a with _ | _ | _ <;> exact ⟨rfl, rfl, rfl⟩

/-- A trigger that is not armed any more has been removed, or a cycle has found that it is done. -/
theorem Step.disarmed_cases {s s' : System} {e : Event} (hs : Step s e s') {id : Uuid}
    {l : Lifecycle} (hl : s.engine.armed.find? id = some l)
    (hnone : s'.engine.armed.find? id = none) :
    e = .removed id (.ok ()) ∨
      ∃ findings seen firing, e = .decided findings seen ∧ ((id, l), .retires firing) ∈ findings ∧
        (l.trigger.isExpiredAt s.engine.clock = true ∧ firing = none ∨
          l.fulfil id s.engine.clock = .retires firing) := by
  have hkept : ∀ {armed : IdMap Lifecycle}, armed.find? id = none → armed.find? id ≠ some l :=
    fun h h' => Option.some_ne_none l (h'.symm.trans h)
  cases hs.effect with
  | idle => exact absurd hl (hkept hnone)
  | @create fresh =>
    dsimp only at hnone
    rw [IdMap.find?_insert] at hnone
    split at hnone
    · cases hnone
    · exact absurd hl (hkept hnone)
  | @update t l' =>
    dsimp only at hnone
    rw [IdMap.find?_insert] at hnone
    split at hnone
    · cases hnone
    · exact absurd hl (hkept hnone)
  | @remove j =>
    dsimp only at hnone
    rw [IdMap.find?_erase] at hnone
    split at hnone
    · rename_i hid
      exact .inl (hid ▸ rfl)
    · exact absurd hl (hkept hnone)
  | @decide findings seen scheduler _ hdecides =>
    obtain ⟨f, hf⟩ := Findings.exists_mem hdecides.about hl
    have hnext : f.next? l = none := (Findings.find?_applyTo hdecides.about hf).symm.trans hnone
    cases f with
    | waits => cases hnext
    | advances => cases hnext
    | retires firing =>
      refine .inr ⟨findings, seen, firing, rfl, hf, ?_⟩
      rcases hdecides.finding_cases hf with ⟨hx, he⟩ | ⟨-, he | he⟩
      · cases he
        exact .inl ⟨hx, rfl⟩
      · cases he
      · exact .inr he.symm
  | fire => exact absurd hl (hkept hnone)
  | @settle f =>
    obtain ⟨store, he⟩ := s.engine.settle_eq f
    rw [he] at hnone
    exact absurd hl (hkept hnone)
  | beginPoll => exact absurd hl (hkept hnone)
  | answer a => rcases a with _ | _ | _ <;> exact absurd hl (hkept hnone)

/-! ## Loading -/

namespace Engine

theorem settings_load (e : Engine) :
    e.load.2.registry = e.registry ∧ e.load.2.dataSource = e.dataSource := by
  obtain ⟨store, armed, revisions, -, he⟩ := e.load_eq
  rw [he]
  exact ⟨rfl, rfl⟩

/-- A trigger that is armed after loading was armed before, or has been armed as one of the engine's
data source. -/
theorem find?_load_cases {e : Engine} {id : Uuid} {l : Lifecycle}
    (h : e.load.2.armed.find? id = some l) :
    e.armed.find? id = some l ∨
      ∃ revision t, t.dataSource = e.dataSource ∧
        Lifecycle.arm e.registry e.checkerType revision t = .ok l := by
  rcases e.load_cases with
    ⟨err, e', he, store, revisions, -, -, rfl⟩ | ⟨ls, revisions, -, harm, he⟩ <;> rw [he] at h
  · exact .inl h
  · rcases find?_foldl_insert h with h | ⟨hmem, -⟩
    · exact .inl h
    · obtain ⟨revision, -, -, t, hmem, ht⟩ := harm l hmem
      obtain ⟨-, hsource⟩ := Store.mem_ofSource_iff.1 hmem
      exact .inr ⟨revision, t, hsource, ht⟩

/-- Loading disarms no trigger. -/
theorem find?_load_ne_none {e : Engine} {id : Uuid} (h : e.armed.find? id ≠ none) :
    e.load.2.armed.find? id ≠ none := by
  rcases e.load_cases with
    ⟨err, e', he, store, revisions, -, -, rfl⟩ | ⟨ls, revisions, -, -, he⟩ <;> rw [he]
  · exact h
  · exact find?_foldl_insert_ne_none h

/-! ## Armed triggers stay in step with their checkers -/

/-- Each armed trigger agrees with its checker, and so will those that are armed later. -/
structure InStep (e : Engine) : Prop where
  registry : e.registry.OnlyData
  synced : ∀ id l, e.armed.find? id = some l → l.Synced

theorem InStep.load {e : Engine} (h : e.InStep) : e.load.2.InStep := by
  refine ⟨e.settings_load.1 ▸ h.registry, fun id l hl => ?_⟩
  rcases find?_load_cases hl with hl | ⟨revision, t, -, harm⟩
  · exact h.synced id l hl
  · exact .arm h.registry harm

theorem InStep.step {s s' : System} {e : Event} (h : s.engine.InStep) (hs : Step s e s') :
    s'.engine.InStep := by
  refine ⟨hs.settings_eq.1 ▸ h.registry, fun id l' hl' => ?_⟩
  rcases hs.armed_cases hl' with hl | ⟨revision, t, l, i, -, harm, rfl⟩ | ⟨l, now, hl, hadvance⟩
  · exact h.synced id l' hl
  · exact (Lifecycle.Synced.arm h.registry harm).withId i
  · exact ((h.synced id l hl).advance hadvance).1

theorem InStep.of_course {s₀ s : System} {history : List Moment} (h : s₀.engine.InStep)
    (hr : Course s₀ history s) : s.engine.InStep := by
  induction hr with
  | nil => exact h
  | step _ hs ih => exact ih.step hs
  | load _ ih => exact ih.load
  | cutShort _ ih => exact ⟨ih.registry, ih.synced⟩

end Engine

/-- A trigger that recurs goes on when its paths are all there. -/
theorem Lifecycle.Synced.exists_fulfil {l : Lifecycle} (h : l.Synced)
    (hr : l.trigger.recurrence = .recurring) (id : Uuid) (now : Instant) :
    ∃ next, l.advance now = .ok next ∧ l.fulfil id now = .advances next (l.firing id now) := by
  obtain ⟨next, hnext⟩ := h.exists_advance now
  refine ⟨next, hnext, ?_⟩
  unfold fulfil
  rw [hr, hnext]

/-- **Checkers and triggers never drift apart.** At any time in a course of an engine that is new,
an armed trigger waits for the keys of its present window and its checker has the same definition;
so it has a next window. If it recurs, it goes on when its paths are all there, and it is disarmed
only when it is removed or when a cycle finds that it has expired. -/
theorem Course.armed_synced {config : Config} {registry : Registry} {store : Store}
    {clock : Instant} {s : System} {history : List Moment} (hdata : registry.OnlyData)
    (hr : Course (.ofEngine (.new config registry store clock)) history s) {id : Uuid}
    {l : Lifecycle} (hl : s.engine.armed.find? id = some l) :
    l.trigger.checkKeys = .ok l.checkKeys ∧
    (l.checker.definition.patterns = l.trigger.patterns ∧
      l.checker.definition.principal = l.trigger.principal ∧
      l.checker.definition.vars = l.trigger.vars) ∧
    (∀ now, ∃ next, l.advance now = .ok next) ∧
    (l.trigger.recurrence = .recurring →
      (∀ now, ∃ next, l.fulfil id now = .advances next (l.firing id now)) ∧
      (∀ e s', Step s e s' → s'.engine.armed.find? id = none →
        e = .removed id (.ok ()) ∨ ∃ findings seen, e = .decided findings seen ∧
          ((id, l), .retires none) ∈ findings ∧ l.trigger.isExpiredAt s.engine.clock = true) ∧
      s.engine.load.2.armed.find? id ≠ none) := by
  have hnew : (System.ofEngine (.new config registry store clock)).engine.InStep :=
    ⟨hdata, fun id l hl => nomatch hl⟩
  have hs := (hnew.of_course hr).synced id l hl
  obtain ⟨type, hdefinition⟩ := hs.definition
  refine ⟨hs.checkKeys, ?_, hs.exists_advance, fun hrecurring => ⟨fun now => ?_, ?_, ?_⟩⟩
  · rw [hdefinition]
    exact ⟨rfl, rfl, rfl⟩
  · obtain ⟨next, -, hfulfil⟩ := hs.exists_fulfil hrecurring id now
    exact ⟨next, hfulfil⟩
  · intro e s' hstep hnone
    rcases hstep.disarmed_cases hl hnone with he | ⟨findings, seen, firing, he, hf, hcause⟩
    · exact .inl he
    · rcases hcause with ⟨hx, rfl⟩ | hfulfil
      · exact .inr ⟨findings, seen, he, hf, hx⟩
      · obtain ⟨next, -, hgoes⟩ := hs.exists_fulfil hrecurring id s.engine.clock
        rw [hgoes] at hfulfil
        cases hfulfil
  · exact Engine.find?_load_ne_none (hl ▸ Option.some_ne_none l)

namespace Sample

/-- Both triggers have been decided on. -/
def decided : System :=
  ((System.ofEngine engine).play decision).2

theorem isSome_first : (decided.engine.armed.find? first).isSome = true := by decide +kernel

/-- The first trigger in its second window. -/
def secondWindow : Lifecycle :=
  (decided.engine.armed.find? first).get isSome_first

theorem find?_first : decided.engine.armed.find? first = some secondWindow :=
  (Option.some_get isSome_first).symm

end Sample

/-- The first trigger has gone on to its second window, and so has its checker. -/
theorem Course.armed_synced_second_window :
    Sample.secondWindow.trigger.recurrence = .recurring ∧
      Sample.secondWindow.paths = ["/in/2"] ∧
      Sample.secondWindow.trigger.checkKeys = .ok Sample.secondWindow.checkKeys ∧
      Sample.secondWindow.checker.definition.vars = Sample.secondWindow.trigger.vars ∧
      ∃ next, Sample.secondWindow.advance .epoch = .ok next := by
  obtain ⟨hkeys, ⟨-, -, hvars⟩, hnext, -⟩ := Course.armed_synced (Registry.onlyData_register _)
    (.of_run (.of_play (.ofEngine Sample.engine) Sample.decision)) Sample.find?_first
  exact ⟨by decide +kernel, by decide +kernel, hkeys, hvars, hnext .epoch⟩

end Lookout
