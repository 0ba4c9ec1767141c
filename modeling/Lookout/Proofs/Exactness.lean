import Lookout.Proofs.Evolution
import Lookout.Proofs.Loading
import Lookout.Proofs.Standing
import Lookout.Proofs.Synchrony
import Lookout.Proofs.Undisturbed

/-!
# What a cycle does, exactly

With a standing clock and nothing in between, the state of each armed trigger at the beginning of a
cycle (`Engine.inState`) tells what the cycle does: its report, its calls, and what is armed and
stored afterwards (`Lifecycle.successor?`). The order in which the cycle looks at the triggers does
not matter (`Course.cycle_exact`).

- **Report and calls** (`Findings.report_map`, `Findings.firings_perm`): read off the findings.
- **Armed and stored triggers** (`Engine.find?_cycle`, `Engine.Agrees.cycle`): once all follow-ups
  have been settled, they are the same.
- **Pending keys** (`Engine.mem_pending_cycle`): in ascending order, so it is enough to know which
  ones they are. If there is no room for all missing keys, it depends on the order which of them
  become pending.
-/

namespace Lookout

/-! ## Report and calls -/

namespace Lifecycle

variable {l next : Lifecycle} {id : Uuid} {now : Instant}

theorem count_fulfil (l : Lifecycle) (id : Uuid) (now : Instant) (r : CycleReport) :
    (l.fulfil id now).count r = { r with fired := r.fired + 1 } := by
  unfold fulfil
  split <;> rfl

/-- A trigger whose paths are all there calls its action, whether it goes on or not. -/
theorem firing?_fulfil (l : Lifecycle) (id : Uuid) (now : Instant) :
    (l.fulfil id now).firing? l = some (l.trigger.action, l.firing id now) := by
  unfold fulfil
  split
  · rename_i next _ hadvance
    have haction : next.trigger.action = l.trigger.action := by
      rw [(advance_ok hadvance).2.2]
      rfl
    rw [← haction]
    rfl
  · rfl

/-- The trigger that is armed after a cycle that has found it in a state: the same one, or the one
in the next window, in a new arming period. -/
def successor? (l : Lifecycle) (now : Instant) : Transition → Option Trigger
  | .pending => some l.trigger
  | .satisfied =>
    match l.trigger.recurrence with
    | .once => none
    | .recurring =>
      some { l.trigger with
        vars := l.trigger.vars.advance, armedAt := now, lastModifyTime := now }
  | .expired => none

theorem Synced.next?_finding (h : l.Synced) (id : Uuid) (now : Instant) (t : Transition) :
    ((l.finding id now t).next? l).map (·.trigger) = l.successor? now t := by
  cases t with
  | pending => rfl
  | expired => rfl
  | satisfied =>
    unfold finding successor?
    cases hr : l.trigger.recurrence with
    | once =>
      unfold fulfil
      rw [hr]
      rfl
    | recurring =>
      obtain ⟨next, hadvance, hfulfil⟩ := h.exists_fulfil hr id now
      rw [hfulfil]
      exact congrArg some (h.advance hadvance).2

end Lifecycle

namespace Findings

/-- The report counts the triggers in each state. -/
theorem report_map (armed : List (Uuid × Lifecycle)) (now : Instant)
    (state : Lifecycle → Transition) :
    report (armed.map fun p => (p, p.2.finding p.1 now (state p.2))) =
      { pending := (armed.filter fun p => state p.2 = .pending).length
        fired := (armed.filter fun p => state p.2 = .satisfied).length
        expired := (armed.filter fun p => state p.2 = .expired).length } := by
  have hfrom : ∀ r : CycleReport,
      (armed.map fun p => (p, p.2.finding p.1 now (state p.2))).foldl
          (fun r q => q.2.count r) r =
        { pending := r.pending + (armed.filter fun p => state p.2 = .pending).length
          fired := r.fired + (armed.filter fun p => state p.2 = .satisfied).length
          expired := r.expired + (armed.filter fun p => state p.2 = .expired).length } := by
    induction armed with
    | nil => exact fun r => rfl
    | cons p rest ih =>
      intro r
      rw [List.map_cons, List.foldl_cons, ih]
      cases hstate : state p.2 with
      | pending => simp [hstate, Lifecycle.finding, Finding.count]; omega
      | satisfied => simp [hstate, Lifecycle.finding, Lifecycle.count_fulfil]; omega
      | expired => simp [hstate, Lifecycle.finding, Finding.count]; omega
  refine (hfrom _).trans ?_
  simp

/-- The calls of the follow-ups are those of the findings; first come the triggers that go on. -/
theorem firings_perm (findings : Findings) :
    (findings.followups.filterMap (·.firing?)).Perm
      (findings.filterMap fun q => q.2.firing? q.1.2) := by
  unfold followups
  rw [List.filterMap_append, List.filterMap_filterMap, List.filterMap_filterMap]
  induction findings with
  | nil => exact .nil
  | cons q rest ih =>
    obtain ⟨⟨id, l⟩, f⟩ := q
    cases f with
    | waits => exact ih
    | advances next firing => exact ih.cons _
    | retires firing =>
      cases firing with
      | none => exact ih
      | some firing => exact List.perm_middle.trans (ih.cons _)

/-- Only triggers whose paths are all there call their actions. -/
theorem filterMap_firing? (armed : List (Uuid × Lifecycle)) (now : Instant)
    (state : Lifecycle → Transition) :
    (armed.map fun p => (p, p.2.finding p.1 now (state p.2))).filterMap
        (fun q => q.2.firing? q.1.2) =
      (armed.filter fun p => state p.2 = .satisfied).map fun (id, l) =>
        (l.trigger.action, l.firing id now) := by
  induction armed with
  | nil => rfl
  | cons p rest ih =>
    rw [List.map_cons]
    cases hstate : state p.2 with
    | pending =>
      rw [List.filterMap_cons_none rfl, List.filter_cons_of_neg (by simp [hstate])]
      exact ih
    | expired =>
      rw [List.filterMap_cons_none rfl, List.filter_cons_of_neg (by simp [hstate])]
      exact ih
    | satisfied =>
      have hcall : (p.2.finding p.1 now .satisfied).firing? p.2 =
          some (p.2.trigger.action, p.2.firing p.1 now) := p.2.firing?_fulfil p.1 now
      rw [List.filterMap_cons, hcall, ih, List.filter_cons_of_pos (by simp [hstate])]
      rfl

end Findings

namespace Engine

/-- The armed triggers that are in a state now. -/
def inState (e : Engine) (t : Transition) : List (Uuid × Lifecycle) :=
  e.armed.entries.filter fun p => p.2.transition e.clock e.scheduler.cache = t

/-- Each armed trigger is in one of the states. -/
theorem length_inState (e : Engine) :
    (e.inState .pending).length + (e.inState .satisfied).length + (e.inState .expired).length =
      e.armed.size := by
  unfold inState IdMap.size
  induction e.armed.entries with
  | nil => rfl
  | cons p rest ih =>
    cases h : p.2.transition e.clock e.scheduler.cache <;> simp [h] <;> omega

theorem Reordered.inState_perm {e e' : Engine} (h : e.Reordered e') (t : Transition) :
    (e'.inState t).Perm (e.inState t) := by
  obtain ⟨armed, hp, rfl⟩ := h
  exact hp.filter _

variable {e e' : Engine} {outcomes : List (Action × Firing) → Except ActionError Unit}

theorem report_cycle (e : Engine) :
    (e.cycle outcomes).1.1 =
      { pending := (e.inState .pending).length
        fired := (e.inState .satisfied).length
        expired := (e.inState .expired).length } := by
  rw [cycle_eq, beginCycle_eq]
  exact Findings.report_map _ _ fun l => l.transition e.clock e.scheduler.cache

theorem calls_cycle (e : Engine) :
    (e.cycle outcomes).2.Perm ((e.inState .satisfied).map fun (id, l) =>
      (l.trigger.action, l.firing id e.clock)) := by
  rw [cycle_eq, beginCycle_eq]
  have hcalls := Findings.filterMap_firing? e.armed.entries e.clock fun l =>
    l.transition e.clock e.scheduler.cache
  exact e.found.firings_perm.trans (.of_eq hcalls)

/-! ## Armed and stored triggers -/

/-- Follow-ups are settled in the engine that the decision has left. -/
theorem cycle_after (e : Engine) (outcomes : List (Action × Firing) → Except ActionError Unit) :
    ∃ store, (e.cycle outcomes).1.2 =
      { e.conclude e.found (survey e.clock e.armed.entries e.scheduler).2 with store } := by
  rw [cycle_eq, beginCycle_eq]
  exact foldl_settle_eq _ _

theorem find?_cycle (h : ∀ id l, e.armed.find? id = some l → l.Synced) (id : Uuid) :
    ((e.cycle outcomes).1.2.armed.find? id).map (·.trigger) = (e.armed.find? id).bind fun l =>
      l.successor? e.clock (l.transition e.clock e.scheduler.cache) := by
  obtain ⟨store, he⟩ := e.cycle_after outcomes
  rw [he]
  dsimp only
  rw [find?_conclude_found]
  cases hl : e.armed.find? id with
  | none => rfl
  | some l => exact (h id l hl).next?_finding id _ _

theorem Agrees.reordered {followups : List Followup} (h : e.Agrees followups)
    (he : e.Reordered e') : e'.Agrees followups := by
  obtain ⟨armed, hp, rfl⟩ := he
  have hfind := IdMap.find?_eq_of_perm hp
  refine ⟨h.reliable, fun id l hl => h.ids id l (hfind id ▸ hl),
    fun id l hl => h.stored id l (hfind id ▸ hl),
    fun id t ht hnone => h.armed id t ht (hfind id ▸ hnone),
    fun id l hl => h.fresh id l (hfind id ▸ hl), fun t revision firing hf => ?_⟩
  obtain ⟨hle, hcurrent⟩ := h.current t revision firing hf
  exact ⟨hle, fun l hl => hcurrent l (hfind t.id ▸ hl)⟩

theorem Agrees.foldl_settle {followups : List Followup} (h : e.Agrees followups) :
    (followups.foldl settle e).Agrees [] := by
  induction followups generalizing e with
  | nil => exact h
  | cons f rest ih =>
    cases f with
    | retire t firing => exact ih h.settle_retire
    | advance t revision firing => exact ih h.settle_advance

/-- Armed and stored triggers are the same again after a cycle. -/
theorem Agrees.cycle (h : e.Agrees []) : (e.cycle outcomes).1.2.Agrees [] := by
  rw [cycle_eq]
  exact (h.conclude (.of_survey e)).foldl_settle

/-! ## Pending keys -/

theorem mem_pending_cycle {W : Finset CheckKey} (h : e.scheduler.Within W)
    (hmissing : ∀ k ∈ missing e.clock e.armed.entries e.scheduler.cache, k ∈ W) {k : CheckKey} :
    k ∈ (e.cycle outcomes).1.2.scheduler.pending ↔
      (k ∈ e.scheduler.pending ∨ k ∈ missing e.clock e.armed.entries e.scheduler.cache) ∧
        ∀ l ∈ e.found.retired, k ∈ l.checkKeys → k ∈ keysInUse (e.found.applyTo e.armed) := by
  obtain ⟨store, he⟩ := e.cycle_after outcomes
  rw [he, ← (mem_pending_survey h hmissing).2 k]
  exact mem_pending_withdrawn

/-- The scheduler evolves in a cycle. -/
theorem evolves_cycle (e : Engine) : e.scheduler.Evolves (e.cycle outcomes).1.2.scheduler := by
  obtain ⟨store, he⟩ := e.cycle_after outcomes
  rw [he]
  exact (Surveys.of_survey _ _ _).evolves.trans (evolves_withdrawn _ _ _)

/-- If there is room for all missing keys, the order does not matter for the pending ones. -/
theorem Reordered.pending_cycle {n : Nat} (h : e.Reordered e') (ht : e.scheduler.Tidy n)
    (hroom : (e.scheduler.pending ++
      missing e.clock e.armed.entries e.scheduler.cache).toFinset.card ≤ e.scheduler.capacity)
    (outcomes' : List (Action × Firing) → Except ActionError Unit) :
    (e'.cycle outcomes).1.2.scheduler.pending = (e.cycle outcomes').1.2.scheduler.pending := by
  obtain ⟨armed, hp, rfl⟩ := h
  have hfind := IdMap.find?_eq_of_perm hp
  have hmissing : ∀ k, k ∈ missing e.clock armed.entries e.scheduler.cache ↔
      k ∈ missing e.clock e.armed.entries e.scheduler.cache := by
    intro k
    simp only [mem_missing, hp.mem_iff]
  have hwithin : e.scheduler.Within (e.scheduler.pending ++
      missing e.clock e.armed.entries e.scheduler.cache).toFinset :=
    ⟨ht.ascending, fun k hk => List.mem_toFinset.2 (List.mem_append_left _ hk), hroom⟩
  have hin : ∀ k ∈ missing e.clock e.armed.entries e.scheduler.cache, k ∈ (e.scheduler.pending ++
      missing e.clock e.armed.entries e.scheduler.cache).toFinset :=
    fun k hk => List.mem_toFinset.2 (List.mem_append_right _ hk)
  have hevolves : e.scheduler.Evolves
      (({ e with armed } : Engine).cycle outcomes).1.2.scheduler := evolves_cycle { e with armed }
  refine CheckKey.Ascending.ext (ht.of_evolves hevolves).ascending
    (ht.of_evolves e.evolves_cycle).ascending fun k => ?_
  have hretired : ∀ l, l ∈ ({ e with armed } : Engine).found.retired ↔ l ∈ e.found.retired := by
    intro l
    simp only [Findings.mem_retired, mem_found, hfind]
  have huse : k ∈ keysInUse (({ e with armed } : Engine).found.applyTo armed) ↔
      k ∈ keysInUse (e.found.applyTo e.armed) := by
    have hnext := fun id => ({ e with armed } : Engine).find?_conclude_found e.scheduler id
    have hnext' := fun id => e.find?_conclude_found e.scheduler id
    unfold conclude at hnext hnext'
    simp only [mem_keysInUse, hnext, hnext', hfind]
  rw [mem_pending_cycle hwithin hin, mem_pending_cycle (e := { e with armed }) hwithin
    fun k hk => hin k ((hmissing k).1 hk)]
  simp only [hmissing, hretired, huse]

end Engine

/-! ## Whole cycles -/

/-- **A cycle is exact and does not depend on the order of the armed triggers.** With a reliable
store, nothing in between and any outcomes of the actions, it reports how many triggers are in each
state; it calls the action of each one whose paths are all there, once, and no other; afterwards
the triggers that wait and the next windows of those that recur are armed and stored, and no others.
If there is room for all missing keys, the same keys are pending in whatever order the cycle looks
at the triggers. -/
theorem Course.cycle_exact {config : Config} {registry : Registry} {clock : Instant} {s : System}
    {history : List Moment} (hdata : registry.OnlyData)
    (hr : Course (.ofEngine (.new config registry Store.empty clock)) history s)
    (ho : ∀ m ∈ history, m.event.isOutage = false) (hf : s.followups = []) {e : Engine}
    (he : s.engine.Reordered e) (outcomes : List (Action × Firing) → Except ActionError Unit) :
    (e.cycle outcomes).1.1 =
        { pending := (s.engine.inState .pending).length
          fired := (s.engine.inState .satisfied).length
          expired := (s.engine.inState .expired).length } ∧
      (e.cycle outcomes).1.1.pending + (e.cycle outcomes).1.1.fired +
        (e.cycle outcomes).1.1.expired = s.engine.armed.size ∧
      (e.cycle outcomes).2.Perm ((s.engine.inState .satisfied).map fun (id, l) =>
        (l.trigger.action, l.firing id s.engine.clock)) ∧
      (∀ id, ((e.cycle outcomes).1.2.armed.find? id).map (·.trigger) =
        (s.engine.armed.find? id).bind fun l => l.successor? s.engine.clock
          (l.transition s.engine.clock s.engine.scheduler.cache)) ∧
      (∀ id, (e.cycle outcomes).1.2.store.find? id =
        ((e.cycle outcomes).1.2.armed.find? id).map (·.trigger)) ∧
      ((s.engine.scheduler.pending ++ Engine.missing s.engine.clock s.engine.armed.entries
            s.engine.scheduler.cache).toFinset.card ≤ s.engine.scheduler.capacity →
        ∀ outcomes', (e.cycle outcomes).1.2.scheduler.pending =
          (s.engine.cycle outcomes').1.2.scheduler.pending) := by
  have hnew : (System.ofEngine (.new config registry Store.empty clock)).engine.InStep :=
    ⟨hdata, fun id l hl => nomatch hl⟩
  have hsynced := (hnew.of_course hr).synced
  obtain ⟨hagrees, -⟩ := hr.agrees (Engine.Agrees.new config registry clock)
    (fun id t ht => nomatch ht) ho
  rw [hf] at hagrees
  have htidy := Scheduler.Tidy.new.of_evolves hr.evolves
  have hreport : (e.cycle outcomes).1.1 =
      { pending := (s.engine.inState .pending).length
        fired := (s.engine.inState .satisfied).length
        expired := (s.engine.inState .expired).length } := by
    rw [e.report_cycle, (he.inState_perm _).length_eq, (he.inState_perm _).length_eq,
      (he.inState_perm _).length_eq]
  refine ⟨hreport, ?_, ?_, fun id => ?_, fun id => ?_, fun hroom => he.pending_cycle htidy hroom⟩
  · rw [hreport]
    exact s.engine.length_inState
  · obtain ⟨armed, hp, rfl⟩ := id he
    exact (Engine.calls_cycle _).trans ((he.inState_perm _).map _)
  · obtain ⟨armed, hp, rfl⟩ := he
    have hfind := IdMap.find?_eq_of_perm hp
    rw [Engine.find?_cycle fun id l hl => hsynced id l (hfind id ▸ hl), hfind]
  · exact ((hagrees.reordered he).cycle.find?_eq id).symm

namespace Sample

/-- Both triggers wait, and their path is found to exist. -/
def confirmation : List Move :=
  waiting ++ [.beginPoll, .answer (.ok true)]

/-- No cycle has taken notice of the path yet. -/
def confirmed : System :=
  ((System.ofEngine engine).play confirmation).2

/-- The second trigger is looked at first. -/
def reversed : Engine :=
  { confirmed.engine with
    armed :=
      { entries := confirmed.engine.armed.entries.reverse
        nodup := List.map_reverse ▸ List.nodup_reverse.2 confirmed.engine.armed.nodup } }

/-- Actions are refused. -/
def refused (_ : List (Action × Firing)) : Except ActionError Unit :=
  .error (.request "refused")

end Sample

/-- Both triggers fire and only the first one goes on, in either order. -/
theorem Course.cycle_exact_reversed :
    (Sample.reversed.cycle Sample.refused).1.1 = { pending := 0, fired := 2, expired := 0 } ∧
      (Sample.reversed.cycle Sample.refused).2.map (·.2.triggerId) =
        [Sample.first, Sample.second] ∧
      (Sample.reversed.cycle Sample.refused).2.Perm
        ((Sample.confirmed.engine.inState .satisfied).map fun (id, l) =>
          (l.trigger.action, l.firing id Sample.confirmed.engine.clock)) ∧
      (Sample.reversed.cycle Sample.refused).1.2.scheduler.pending =
        (Sample.confirmed.engine.cycle Sample.refused).1.2.scheduler.pending := by
  obtain ⟨-, -, hcalls, -, -, hpending⟩ := Course.cycle_exact (Registry.onlyData_register _)
    (.of_run (.of_play (.ofEngine Sample.engine) Sample.confirmation)) (by decide +kernel)
    (by decide +kernel) ⟨Sample.reversed.armed, List.reverse_perm _, rfl⟩ Sample.refused
  exact ⟨by decide +kernel, by decide +kernel, hcalls, hpending (by decide +kernel) _⟩

end Lookout
