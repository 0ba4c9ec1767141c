import Lookout.Proofs.Steps

/-!
# Pending keys of a running engine

Every pending key is waited for by a trigger that is armed at the time, none has an entry in the
cache, and there are no more than the configuration allows (`Run.pending_tracked`).

A trigger that goes on to its next window does not withdraw the keys of the one before. It need not:
all of them were found in the cache when it was surveyed, so none is pending, and later in the same
survey only the keys of other triggers become pending (`Engine.Surveys.mem_pending`).
-/

namespace Lookout

/-- Each pending key is waited for, and the scheduler for at most `n` keys is well-formed. -/
structure System.Tracked (s : System) (n : Nat) : Prop where
  wanted : ∀ k ∈ s.engine.scheduler.pending, ∃ id l, s.engine.armed.find? id = some l ∧
    k ∈ l.checkKeys
  wellFormed : s.engine.scheduler.WellFormed n

namespace System.Tracked

variable {s s' : System} {e : Event} {n : Nat}

theorem of_start {config : Config} {store : Store} {clock : Instant} {engine : Engine}
    (h : Engine.start config store clock = .ok engine) :
    (System.ofEngine engine).Tracked config.queueCapacity := by
  obtain ⟨-, hscheduler, -⟩ := Engine.start_ok h
  have hs : (System.ofEngine engine).engine.scheduler = engine.scheduler := rfl
  refine ⟨fun k hk => ?_, ?_⟩
  · rw [hs, hscheduler] at hk
    cases hk
  · rw [hs, hscheduler]
    exact .new

/-- One trigger is no longer armed as it was; its keys are withdrawn unless they are in use. -/
private theorem wanted_withdrawn {armed : IdMap Lifecycle} {id : Uuid} (h : s.Tracked n)
    (harmed : ∀ j, j ≠ id → armed.find? j = s.engine.armed.find? j) {k : CheckKey}
    (hk : k ∈ (Engine.withdrawn (s.engine.armed.find? id).toList armed
      s.engine.scheduler).pending) :
    ∃ j l, armed.find? j = some l ∧ k ∈ l.checkKeys := by
  obtain ⟨hk, huse⟩ := Engine.mem_pending_withdrawn.1 hk
  obtain ⟨j, l, hl, hkl⟩ := h.wanted k hk
  by_cases hj : j = id
  · subst hj
    have hmem : l ∈ (s.engine.armed.find? j).toList := by
      rw [hl]
      exact List.mem_singleton_self l
    exact Engine.mem_keysInUse.1 (huse l hmem hkl)
  · rw [← harmed j hj] at hl
    exact ⟨j, l, hl, hkl⟩

/-- A cycle has been decided. -/
private theorem wanted_conclude {findings : Findings} {seen : List Sighting}
    {scheduler : Scheduler} (h : s.Tracked n) (hs : s.engine.Decides findings seen scheduler)
    {k : CheckKey} (hk : k ∈ (s.engine.conclude findings scheduler).scheduler.pending) :
    ∃ id l, (findings.applyTo s.engine.armed).find? id = some l ∧ k ∈ l.checkKeys := by
  obtain ⟨hk, huse⟩ := Engine.mem_pending_withdrawn.1 hk
  obtain ⟨id, l, f, hf, hadvance, hkl⟩ := hs.mem_pending h.wellFormed h.wanted hk
  cases f with
  | waits => exact ⟨id, l, Findings.find?_applyTo hs.about hf, hkl⟩
  | retires firing =>
    have hretired := Findings.mem_retired.2 ⟨id, firing, hf⟩
    exact Engine.mem_keysInUse.1 (huse l hretired hkl)
  | advances next firing => cases hadvance

/-- **Each step keeps the pending keys tracked.** -/
theorem step (h : s.Tracked n) (hsound : s.Sound) (hs : Step s e s') : s'.Tracked n := by
  cases hs.effect with
  | idle => exact ⟨h.wanted, h.wellFormed⟩
  | @create fresh r d l hfresh hl =>
    refine ⟨fun k hk => ?_, h.wellFormed⟩
    obtain ⟨id, l', hl', hkl⟩ := h.wanted k hk
    -- Nothing was armed under the fresh identifier, so nothing is lost.
    have hne : id ≠ fresh := by
      intro he
      exact hfresh (he ▸ hsound.armed id l' hl')
    refine ⟨id, l', ?_, hkl⟩
    dsimp only
    rw [IdMap.find?_insert_of_ne _ _ hne]
    exact hl'
  | update hl hstored =>
    exact ⟨fun k hk => wanted_withdrawn h (fun j hj => IdMap.find?_insert_of_ne _ _ hj) hk,
      Engine.wellFormed_withdrawn h.wellFormed⟩
  | remove =>
    exact ⟨fun k hk => wanted_withdrawn h (fun j hj => IdMap.find?_erase_of_ne _ hj) hk,
      Engine.wellFormed_withdrawn h.wellFormed⟩
  | decide _ hdecides =>
    exact ⟨fun k hk => wanted_conclude h hdecides hk,
      Engine.wellFormed_withdrawn (hdecides.wellFormed h.wellFormed)⟩
  | fire => exact ⟨h.wanted, h.wellFormed⟩
  | @settle f =>
    obtain ⟨store, he⟩ := s.engine.settle_eq f
    rw [he]
    exact ⟨h.wanted, h.wellFormed⟩
  | beginPoll => exact ⟨h.wanted, h.wellFormed.beginPoll⟩
  | @answer k rest a =>
    rcases a with _ | _ | _
    · exact ⟨h.wanted, h.wellFormed⟩
    · exact ⟨h.wanted, h.wellFormed⟩
    · exact ⟨fun j hj => h.wanted j (Scheduler.mem_pending_confirm.1 hj).1, h.wellFormed.confirm⟩

theorem of_run {config : Config} {store : Store} {clock : Instant} {engine : Engine}
    {history : List Moment} (h : Engine.start config store clock = .ok engine)
    (hr : Run (.ofEngine engine) history s) : s.Tracked config.queueCapacity := by
  refine hr.invariant (P := fun _ s => s.Tracked config.queueCapacity) (of_start h) ?_
  intro past s e s' hpast ih hstep
  exact ih.step (.of_run h hpast) hstep

end System.Tracked

/-- **Pending keys are tracked** in each state of an engine that has been started: an armed trigger
waits for each of them, none is in the cache, and they are not too many. -/
theorem Run.pending_tracked {config : Config} {store : Store} {clock : Instant} {engine : Engine}
    {history : List Moment} {s : System} (h : Engine.start config store clock = .ok engine)
    (hr : Run (.ofEngine engine) history s) :
    (∀ k ∈ s.engine.scheduler.pending,
      (∃ id l, s.engine.armed.find? id = some l ∧ k ∈ l.checkKeys) ∧
        k ∉ s.engine.scheduler.cache.keys) ∧
      s.engine.scheduler.pending.length ≤ config.queueCapacity := by
  have ht := System.Tracked.of_run h hr
  exact ⟨fun k hk => ⟨ht.wanted k hk, ht.wellFormed.uncached k hk⟩, ht.wellFormed.bounded⟩

/-- Two triggers wait for a path. -/
theorem Run.pending_tracked_waiting :
    ((System.ofEngine Sample.engine).play Sample.waiting).2.engine.scheduler.pending =
        [⟨"/in/1", "etl"⟩] ∧
      (∀ k ∈ ((System.ofEngine Sample.engine).play Sample.waiting).2.engine.scheduler.pending,
        (∃ id l, ((System.ofEngine Sample.engine).play Sample.waiting).2.engine.armed.find? id =
            some l ∧ k ∈ l.checkKeys) ∧
          k ∉ ((System.ofEngine Sample.engine).play
            Sample.waiting).2.engine.scheduler.cache.keys) ∧
        ((System.ofEngine Sample.engine).play Sample.waiting).2.engine.scheduler.pending.length ≤
          Config.standard.queueCapacity :=
  ⟨by decide +kernel, Run.pending_tracked Sample.start (.of_play _ Sample.waiting)⟩

end Lookout
