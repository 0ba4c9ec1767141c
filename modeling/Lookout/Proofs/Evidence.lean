import Lookout.Proofs.Steps

/-!
# Why an action fires

An action is called only with evidence (`Run.fired_justified`): a cycle has decided so, at a time at
which the trigger had not expired, and for each path of its window the storage backend had answered
before that the path exists, recently enough.

- **Confirmations** (`Confirmed`): every entry of the cache goes back to an answer.
- **Justifications** (`Justified`): what a decision to carry out an action rests on. The decision
  and the call of the action are apart; no other cycle is decided between the two (`Decided`).
-/

namespace Lookout

/-- The storage backend has answered that the key exists, when the clock showed `c`. -/
def Confirmed (past : List Moment) (k : CheckKey) (c : Instant) : Prop :=
  ∃ m ∈ past, m.event = .answered k (.ok true) ∧ m.clock = c

/-- What the decision `d` to carry out an action for the armed trigger `l` rests on, where `seen`
are the keys that its cycle has found. -/
structure Justified (timeToLive : Duration) (past : List Moment) (d : Moment)
    (seen : List Sighting) (l : Lifecycle) (action : Action) (firing : Firing) : Prop where
  armed : d.state.engine.armed.find? firing.triggerId = some l
  action_eq : action = l.trigger.action
  firedAt : firing.firedAt = d.clock
  /-- The action is told the paths of the present window. -/
  paths : l.trigger.paths = .ok firing.paths
  /-- The storage backend has answered that each path exists, as the principal of the trigger; and
  the answer was not too old when the path was looked up. -/
  confirmed : ∀ path ∈ firing.paths, ∃ t c : Instant,
    ⟨firing.triggerId, ⟨path, l.trigger.principal⟩, t⟩ ∈ seen ∧
    Confirmed past ⟨path, l.trigger.principal⟩ c ∧ t.since c ≤ timeToLive.totalNanos
  /-- The trigger has not expired. -/
  inTime : ∀ deadline, l.trigger.expiresAt? = some deadline → ¬ deadline < d.clock

/-- The last cycle has decided to carry out an action, with a justification. -/
def Decided (timeToLive : Duration) (history : List Moment) (action : Action) (firing : Firing) :
    Prop :=
  ∃ past d between findings seen l, history = past ++ d :: between ∧
    d.event = .decided findings seen ∧ (∀ m ∈ between, m.event.isDecision = false) ∧
    Justified timeToLive past d seen l action firing

section

variable {timeToLive : Duration} {history : List Moment} {action : Action} {firing : Firing}
  {m : Moment} {k : CheckKey} {c : Instant}

theorem Confirmed.append (h : Confirmed history k c) (m : Moment) :
    Confirmed (history ++ [m]) k c := by
  obtain ⟨n, hn, hrest⟩ := h
  exact ⟨n, List.mem_append_left _ hn, hrest⟩

theorem Decided.append (h : Decided timeToLive history action firing)
    (hm : m.event.isDecision = false) : Decided timeToLive (history ++ [m]) action firing := by
  obtain ⟨past, d, between, findings, seen, l, rfl, hd, hbetween, hj⟩ := h
  refine ⟨past, d, between ++ [m], findings, seen, l, ?_, hd, fun n hn => ?_, hj⟩
  · rw [List.append_assoc, List.cons_append]
  · rcases List.mem_append.1 hn with hn | hn
    · exact hbetween n hn
    · rw [List.mem_singleton.1 hn]
      exact hm

end

/-- Each entry of the cache goes back to an answer, and each action to come to a decision. -/
structure System.Evidenced (s : System) (ttl : Duration) (history : List Moment) : Prop where
  timeToLive : s.engine.scheduler.cache.timeToLive ≤ ttl.totalNanos
  cached : ∀ k c, (k, c) ∈ s.engine.scheduler.cache.entries → Confirmed history k c
  decided : ∀ f ∈ s.followups, ∀ action firing, f.firing? = some (action, firing) →
    Decided ttl history action firing

namespace System.Evidenced

variable {s s' : System} {e : Event} {ttl : Duration} {history : List Moment}

theorem of_start {config : Config} {store : Store} {clock : Instant} {engine : Engine}
    (h : Engine.start config store clock = .ok engine) :
    (System.ofEngine engine).Evidenced config.cacheTtl [] := by
  obtain ⟨-, hscheduler, -⟩ := Engine.start_ok h
  have hs : (System.ofEngine engine).engine.scheduler = engine.scheduler := rfl
  refine ⟨?_, fun k c hk => ?_, fun f hf => absurd hf List.not_mem_nil⟩
  · rw [hs, hscheduler]
    have hmin : min config.cacheTtl.totalNanos maxSpan ≤ config.cacheTtl.totalNanos :=
      Nat.min_le_left _ _
    exact Int.ofNat_le.2 hmin
  · rw [hs, hscheduler] at hk
    cases hk

/-- A step that adds no entry to the cache and decides nothing. -/
private theorem of_shrinks {m : Moment} (h : s.Evidenced ttl history)
    (hc : Scheduler.CacheShrinks s.engine.scheduler s'.engine.scheduler)
    (hf : ∀ f ∈ s'.followups, f ∈ s.followups) (hm : m.event.isDecision = false) :
    s'.Evidenced ttl (history ++ [m]) := by
  refine ⟨?_, fun k c hk => (h.cached k c (hc.entries _ hk)).append m, ?_⟩
  · rw [hc.timeToLive]
    exact h.timeToLive
  · intro f hmem action firing ha
    exact (h.decided f (hf f hmem) action firing ha).append hm

/-- A finding from which an action follows is justified. -/
private theorem justified (h : s.Evidenced ttl history) (hsound : s.Sound) {findings : Findings}
    {seen : List Sighting} {scheduler : Scheduler}
    (hs : s.engine.Decides findings seen scheduler) {id : Uuid} {l : Lifecycle} {f : Finding}
    {action : Action} {firing : Firing} (hf : ((id, l), f) ∈ findings)
    (ha : f.firing? l = some (action, firing)) :
    Justified ttl history ⟨s, .decided findings seen⟩ seen l action firing := by
  have hl := Findings.find?_of_mem hs.about hf
  have hsynced := hsound.synced id l hl
  have hfinding : f ≠ .waits ∧ f ≠ .retires none ∧ l.trigger.isExpiredAt s.engine.clock = false ∧
      firing = l.firing id s.engine.clock ∧ action = l.trigger.action := by
    cases hs.finds hf with
    | expires => cases ha
    | waits => cases ha
    | retires hx =>
      cases ha
      exact ⟨nofun, nofun, hx, rfl, rfl⟩
    | advances hx _ hadvance =>
      cases ha
      refine ⟨nofun, nofun, hx, rfl, ?_⟩
      rw [(hsynced.advance hadvance).2]
      rfl
  obtain ⟨hwaits, hretires, hx, rfl, rfl⟩ := hfinding
  refine ⟨hl, rfl, rfl, hsynced.paths, fun path hpath => ?_, fun deadline hdeadline hlt => ?_⟩
  · obtain ⟨t, c, ht, hc, hle⟩ :=
      hs.exists_sighting hf hwaits hretires (hsynced.mem_checkKeys hpath)
    exact ⟨t, c, ht, h.cached _ c hc, Int.le_trans hle h.timeToLive⟩
  · have hexpired : l.trigger.isExpiredAt s.engine.clock = true := by
      unfold Trigger.isExpiredAt
      rw [hdeadline]
      exact decide_eq_true hlt
    rw [hx] at hexpired
    cases hexpired

/-- **Each step keeps the evidence.** -/
theorem step (h : s.Evidenced ttl history) (hsound : s.Sound) (hs : Step s e s') :
    s'.Evidenced ttl (history ++ [⟨s, e⟩]) := by
  cases hs.effect with
  | idle _ _ _ _ hdecision _ => exact h.of_shrinks (.refl _) (fun f hf => hf) hdecision
  | create => exact h.of_shrinks (.refl _) (fun f hf => hf) rfl
  | update =>
    exact h.of_shrinks (Engine.cacheShrinks_withdrawn _ _ _) (fun f hf => hf) rfl
  | remove =>
    exact h.of_shrinks (Engine.cacheShrinks_withdrawn _ _ _) (fun f hf => hf) rfl
  | @decide findings seen scheduler hf hdecides =>
    have hc := hdecides.cacheShrinks.trans (Engine.cacheShrinks_withdrawn findings.retired
      (findings.applyTo s.engine.armed) scheduler)
    refine ⟨?_, fun k c hk => (h.cached k c (hc.entries _ hk)).append _, ?_⟩
    · have htimeToLive : (s.engine.conclude findings scheduler).scheduler.cache.timeToLive =
          s.engine.scheduler.cache.timeToLive := hc.timeToLive
      rw [htimeToLive]
      exact h.timeToLive
    · intro fo hfo action firing ha
      obtain ⟨id, l, f, hmem, ha⟩ := Findings.exists_of_firing? hfo ha
      exact ⟨history, _, [], findings, seen, l, rfl, rfl, fun m hm => absurd hm List.not_mem_nil,
        h.justified hsound hdecides hmem ha⟩
  | fire => exact h.of_shrinks (.refl _) (fun f hf => hf) rfl
  | @settle f rest outcome hf _ =>
    obtain ⟨store, he⟩ := s.engine.settle_eq f
    rw [he]
    refine h.of_shrinks (.refl _) (fun f' hf' => ?_) rfl
    rw [hf]
    exact List.mem_cons_of_mem _ hf'
  | beginPoll =>
    exact h.of_shrinks (Scheduler.cacheShrinks_beginPoll _ _) (fun f hf => hf) rfl
  | @answer k rest a =>
    rcases a with _ | _ | _
    · exact h.of_shrinks (.refl _) (fun f hf => hf) rfl
    · exact h.of_shrinks (.refl _) (fun f hf => hf) rfl
    · -- The only step that adds an entry: its key has just been confirmed.
      refine ⟨?_, fun j c hj => ?_, fun f hf action firing ha => ?_⟩
      · exact h.timeToLive
      · rcases Cache.mem_put hj with heq | hj
        · cases heq
          exact ⟨_, List.mem_append_right _ List.mem_cons_self, rfl, rfl⟩
        · exact (h.cached j c hj).append _
      · exact (h.decided f hf action firing ha).append rfl

theorem of_run {config : Config} {store : Store} {clock : Instant} {engine : Engine}
    (h : Engine.start config store clock = .ok engine)
    (hr : Run (.ofEngine engine) history s) : s.Evidenced config.cacheTtl history := by
  refine hr.invariant (P := fun past s => s.Evidenced config.cacheTtl past) (of_start h) ?_
  intro past s e s' hpast ih hstep
  exact ih.step (.of_run h hpast) hstep

end System.Evidenced

/-- **No action without evidence**: an action that is called has been decided on in the last cycle,
with a justification. -/
theorem Run.fired_justified {config : Config} {store : Store} {clock : Instant} {engine : Engine}
    {history rest : List Moment} {s s' : System} {action : Action} {firing : Firing}
    (h : Engine.start config store clock = .ok engine)
    (hr : Run (.ofEngine engine) (history ++ ⟨s, .fired action firing⟩ :: rest) s') :
    ∃ past d between findings seen l, history = past ++ d :: between ∧
      d.event = .decided findings seen ∧ (∀ m ∈ between, m.event.isDecision = false) ∧
      Justified config.cacheTtl past d seen l action firing := by
  obtain ⟨hpast, s₁, hstep, -⟩ := hr.split
  have hevidence := System.Evidenced.of_run h hpast
  cases hstep with
  | @fire f rest _ _ hf _ ha =>
    refine hevidence.decided f ?_ action firing ha
    rw [hf]
    exact List.mem_cons_self

/-- The first call of the sample. -/
theorem Run.fired_justified_decision :
    ∃ past d between findings seen l,
      ((System.ofEngine Sample.engine).play Sample.decision).1 = past ++ d :: between ∧
      d.event = .decided findings seen ∧ (∀ m ∈ between, m.event.isDecision = false) ∧
      Justified Config.standard.cacheTtl past d seen l (.executeFlow 7 "load")
        { triggerId := Sample.first, paths := ["/in/1"], firedAt := .epoch } :=
  Run.fired_justified Sample.start ((Run.of_play _ Sample.decision).snoc
    (.fire (List.cons_head_tail (by decide +kernel)).symm (by decide +kernel)
      (by decide +kernel)))

end Lookout
