import Lookout.Proofs.Exactness
import Lookout.Proofs.Pending
import Lookout.Proofs.Recency

/-!
# One poll is enough

A trigger whose paths are all there fires at once, or in the cycle after the next poll
(`Run.fires_after_poll`). Nothing is assumed of the cache and of the pending keys, which may be
those of earlier windows; only that there is room for the keys that armed triggers wait for.
Triggers are loaded once, at the start: after a failure of the store, loading would arm some in
earlier windows, and the keys of the later ones would stay pending and take up the room.

- **The first cycle** (`Roomy.pending_or_recent_cycle`): the keys of a trigger that goes on waiting
  are pending, and those that have been found have entries that stay (`Cache.Recent`).
- **The poll** (`Engine.recent_polled`): the keys that are confirmed have entries that stay, too.
- **The second cycle** (`Engine.mem_calls_cycle`): all keys are found.
-/

namespace Lookout

namespace Engine

variable {e e' : Engine} {W : Finset CheckKey} {id : Uuid} {l : Lifecycle} {k : CheckKey}
  {outcomes : List (Action × Firing) → Except ActionError Unit}
  {answers : CheckKey → Except StorageError Bool}

/-- All keys of armed triggers are among those of `W`, and there is room for these. -/
structure Roomy (e : Engine) (W : Finset CheckKey) : Prop where
  within : e.scheduler.Within W
  tidy : e.scheduler.cache.Tidy W.card
  keys : ∀ id l, e.armed.find? id = some l → ∀ k ∈ l.checkKeys, k ∈ W

theorem Roomy.reordered (h : e.Roomy W) (he : e.Reordered e') : e'.Roomy W := by
  obtain ⟨armed, hp, rfl⟩ := he
  exact ⟨h.within, h.tidy, fun id l hl => h.keys id l (IdMap.find?_eq_of_perm hp id ▸ hl)⟩

theorem Roomy.missing (h : e.Roomy W)
    (hk : k ∈ missing e.clock e.armed.entries e.scheduler.cache) : k ∈ W := by
  obtain ⟨⟨id, l⟩, hp, -, hkey, -⟩ := mem_missing.1 hk
  exact h.keys id l (IdMap.mem_entries_iff.1 hp) k hkey

/-! ## Cycles -/

/-- A trigger whose keys are all known fires. -/
theorem mem_calls_cycle (hl : e.armed.find? id = some l)
    (hx : l.trigger.isExpiredAt e.clock = false)
    (hknown : ∀ k ∈ l.checkKeys, e.scheduler.cache.knows e.clock k = true) :
    (l.trigger.action, l.firing id e.clock) ∈ (e.cycle outcomes).2 := by
  have hstate : l.transition e.clock e.scheduler.cache = .satisfied := by
    unfold Lifecycle.transition
    rw [hx, if_neg Bool.false_ne_true, if_pos (List.all_eq_true.2 hknown)]
  have hmem : (id, l) ∈ e.inState .satisfied :=
    List.mem_filter.2 ⟨IdMap.mem_entries_iff.2 hl, decide_eq_true hstate⟩
  exact e.calls_cycle.mem_iff.2 (List.mem_map.2 ⟨(id, l), hmem, rfl⟩)

/-- A trigger whose keys are not all known stays armed. -/
theorem find?_cycle_of_unknown (outcomes : List (Action × Firing) → Except ActionError Unit)
    (hl : e.armed.find? id = some l)
    (hx : l.trigger.isExpiredAt e.clock = false)
    (hunknown : ¬ ∀ k ∈ l.checkKeys, e.scheduler.cache.knows e.clock k = true) :
    (e.cycle outcomes).1.2.armed.find? id = some l := by
  have hstate : l.transition e.clock e.scheduler.cache = .pending := by
    unfold Lifecycle.transition
    rw [hx, if_neg Bool.false_ne_true, if_neg fun h => hunknown (List.all_eq_true.1 h)]
  obtain ⟨store, he⟩ := e.cycle_after outcomes
  rw [he]
  dsimp only
  rw [find?_conclude_found, hl, Option.bind_some, hstate]
  rfl

theorem clock_cycle (e : Engine) (outcomes : List (Action × Firing) → Except ActionError Unit) :
    (e.cycle outcomes).1.2.clock = e.clock := by
  obtain ⟨store, he⟩ := e.cycle_after outcomes
  rw [he]
  rfl

/-- The cache is the one that the survey has left. -/
theorem cache_cycle (e : Engine) : (e.cycle outcomes).1.2.scheduler.cache =
    (survey e.clock e.armed.entries e.scheduler).2.cache := by
  obtain ⟨store, he⟩ := e.cycle_after outcomes
  rw [he]
  exact cache_withdrawn _ _ _

theorem Roomy.tidy_cycle (h : e.Roomy W) :
    (e.cycle outcomes).1.2.scheduler.cache.Tidy W.card :=
  (Scheduler.Tidy.of_evolves ⟨h.within.ascending, h.tidy⟩ e.evolves_cycle).cache

/-- Only keys of `W` are pending after a cycle. -/
theorem Roomy.pending_cycle (h : e.Roomy W)
    (hk : k ∈ (e.cycle outcomes).1.2.scheduler.pending) : k ∈ W := by
  obtain ⟨hbefore | hmissing, -⟩ := (mem_pending_cycle h.within fun _ => h.missing).1 hk
  · exact h.within.subset k hbefore
  · exact h.missing hmissing

/-- **The keys of a trigger that stays armed** are pending after a cycle, or their entries stay. -/
theorem Roomy.pending_or_recent_cycle (h : e.Roomy W) (hl : e.armed.find? id = some l)
    (hx : l.trigger.isExpiredAt e.clock = false)
    (hafter : (e.cycle outcomes).1.2.armed.find? id = some l) (hk : k ∈ l.checkKeys) :
    (e.cycle outcomes).1.2.scheduler.cache.Recent e.clock W k ∨
      k ∈ (e.cycle outcomes).1.2.scheduler.pending := by
  have hmem := IdMap.mem_entries_iff.2 hl
  cases hknows : e.scheduler.cache.knows e.clock k with
  | true =>
    left
    rw [cache_cycle]
    exact recent_survey (fun q hq => h.keys q.1 q.2 (IdMap.mem_entries_iff.1 hq)) hmem hx hk hknows
  | false =>
    have hmissing : k ∈ Engine.missing e.clock e.armed.entries e.scheduler.cache :=
      mem_missing.2 ⟨(id, l), hmem, hx, hk, hknows⟩
    obtain ⟨store, he⟩ := e.cycle_after outcomes
    rw [he] at hafter
    refine .inr ((mem_pending_cycle h.within fun _ => h.missing).2 ⟨.inr hmissing, fun _ _ _ => ?_⟩)
    exact mem_keysInUse.2 ⟨id, l, hafter, hk⟩

/-! ## Polls -/

/-- Answers change the scheduler only. -/
theorem foldl_answer_eq (answers : CheckKey → Except StorageError Bool) (keys : List CheckKey)
    (e : Engine) :
    ∃ scheduler, keys.foldl (fun e k => e.answer k (answers k)) e = { e with scheduler } := by
  induction keys generalizing e with
  | nil => exact ⟨e.scheduler, rfl⟩
  | cons k rest ih =>
    rw [List.foldl_cons]
    rcases answers k with _ | _ | _
    · exact ih e
    · exact ih e
    · exact ih (e.answer k (.ok true))

/-- Answers about keys of `W` leave recent entries recent, and make those recent that are
confirmed. -/
theorem recent_foldl_answer {keys : List CheckKey} (hkeys : ∀ j ∈ keys, j ∈ W)
    (ht : e.scheduler.cache.Tidy W.card) (hk : k ∈ W)
    (h : e.scheduler.cache.Recent e.clock W k ∨ k ∈ keys ∧ answers k = .ok true) :
    (keys.foldl (fun e k => e.answer k (answers k)) e).scheduler.cache.Recent e.clock W k := by
  induction keys generalizing e with
  | nil =>
    rcases h with h | ⟨hmem, -⟩
    · exact h
    · cases hmem
  | cons j rest ih =>
    have hrest : ∀ j ∈ rest, j ∈ W := fun j hj => hkeys j (List.mem_cons_of_mem _ hj)
    rw [List.foldl_cons]
    by_cases hj : answers j = .ok true
    · rw [hj]
      refine ih hrest (e := e.answer j (.ok true)) ht.put ?_
      rcases h with h | ⟨hmem, hanswer⟩
      · exact .inl (h.put ht hk (hkeys j List.mem_cons_self))
      · rcases List.mem_cons.1 hmem with rfl | hmem
        · exact .inl (Cache.recent_put W k ht.timeToLive)
        · exact .inr ⟨hmem, hanswer⟩
    · have hsame : e.answer j (answers j) = e := by
        rcases hanswer : answers j with _ | _ | _
        · rfl
        · rfl
        · exact absurd hanswer hj
      rw [hsame]
      refine ih hrest ht (h.imp_right ?_)
      rintro ⟨hmem, hanswer⟩
      refine ⟨?_, hanswer⟩
      rcases List.mem_cons.1 hmem with rfl | hmem
      · exact absurd hanswer hj
      · exact hmem

theorem polled_after (e : Engine) (answers : CheckKey → Except StorageError Bool) :
    ∃ scheduler, e.polled answers = { e with scheduler } := by
  obtain ⟨scheduler, he⟩ := foldl_answer_eq answers e.beginPoll.1 e.beginPoll.2
  rw [polled_eq, he]
  exact ⟨scheduler, rfl⟩

/-- **After a poll** those keys are known that are pending and exist, and those whose entries
stay. -/
theorem recent_polled (hpending : ∀ j ∈ e.scheduler.pending, j ∈ W)
    (ht : e.scheduler.cache.Tidy W.card) (hk : k ∈ W) (ha : answers k = .ok true)
    (h : e.scheduler.cache.Recent e.clock W k ∨ k ∈ e.scheduler.pending) :
    (e.polled answers).scheduler.cache.Recent e.clock W k := by
  rw [polled_eq]
  exact recent_foldl_answer hpending ht.purge hk (h.imp .purge fun hmem => ⟨hmem, ha⟩)

/-! ## Two cycles and a poll -/

/-- A trigger whose paths are all there fires in one of two cycles with a poll in between. -/
theorem Roomy.fires (h : e.Roomy W) (hl : e.armed.find? id = some l)
    (hx : l.trigger.isExpiredAt e.clock = false) (ha : ∀ k ∈ l.checkKeys, answers k = .ok true)
    {e₂ : Engine} (he : ((e.cycle outcomes).1.2.polled answers).Reordered e₂)
    (outcomes₂ : List (Action × Firing) → Except ActionError Unit) :
    (l.trigger.action, l.firing id e.clock) ∈ (e.cycle outcomes).2 ∨
      (l.trigger.action, l.firing id e.clock) ∈ (e₂.cycle outcomes₂).2 := by
  by_cases hknown : ∀ k ∈ l.checkKeys, e.scheduler.cache.knows e.clock k = true
  · exact .inl (mem_calls_cycle hl hx hknown)
  have hwaits := find?_cycle_of_unknown outcomes hl hx hknown
  have hclock := e.clock_cycle outcomes
  have hrecent : ∀ k ∈ l.checkKeys,
      ((e.cycle outcomes).1.2.polled answers).scheduler.cache.Recent e.clock W k := by
    intro k hk
    have hcycle := h.pending_or_recent_cycle hl hx hwaits hk
    rw [← hclock] at hcycle ⊢
    exact recent_polled (fun j => h.pending_cycle) h.tidy_cycle (h.keys id l hl k hk) (ha k hk)
      hcycle
  obtain ⟨armed, hp, rfl⟩ := he
  obtain ⟨scheduler, hpoll⟩ := (e.cycle outcomes).1.2.polled_after answers
  have hclock₂ : ((e.cycle outcomes).1.2.polled answers).clock = e.clock := by
    rw [hpoll]
    exact hclock
  have hl₂ : armed.find? id = some l := by
    rw [IdMap.find?_eq_of_perm hp, hpoll]
    exact hwaits
  right
  rw [← hclock₂] at hx hrecent ⊢
  exact mem_calls_cycle (e := { (e.cycle outcomes).1.2.polled answers with armed }) hl₂ hx
    fun k hk => (hrecent k hk).knows

end Engine

/-- There is room for the keys of the armed triggers if the configuration provides for so many. -/
theorem Engine.Roomy.of_run {config : Config} {store : Store} {clock : Instant} {engine : Engine}
    {history : List Moment} {s : System} (h : Engine.start config store clock = .ok engine)
    (hr : Run (.ofEngine engine) history s)
    (hqueue : (Engine.keysInUse s.engine.armed).toFinset.card ≤ config.queueCapacity)
    (hcache : (Engine.keysInUse s.engine.armed).toFinset.card ≤ config.cacheMaxEntries) :
    s.engine.Roomy (Engine.keysInUse s.engine.armed).toFinset := by
  have htracked := System.Tracked.of_run h hr
  have htidy : s.engine.scheduler.Tidy config.cacheMaxEntries := by
    refine Scheduler.Tidy.of_evolves ?_ (Course.of_run hr).evolves
    have hscheduler : (System.ofEngine engine).engine.scheduler = _ := (Engine.start_ok h).2.1
    rw [hscheduler]
    exact .new
  refine ⟨⟨htidy.ascending, fun k hk => ?_, ?_⟩, htidy.cache.mono hcache, fun id l hl k hk => ?_⟩
  · exact List.mem_toFinset.2 (Engine.mem_keysInUse.2 (htracked.wanted k hk))
  · rw [htracked.wellFormed.capacity]
    exact hqueue
  · exact List.mem_toFinset.2 (Engine.mem_keysInUse.2 ⟨id, l, hl, hk⟩)

/-- **One poll is enough.** Take any state of an engine that has been started, in which no more
keys are waited for than may be pending and than the cache has room for. A cycle, a poll and a
cycle, at a standing clock and with nothing in between, fire each armed trigger that has not
expired and whose keys all exist, whatever is answered about other keys and in whatever order the
cycles look at the triggers. -/
theorem Run.fires_after_poll {config : Config} {store : Store} {clock : Instant} {engine : Engine}
    {history : List Moment} {s : System} (h : Engine.start config store clock = .ok engine)
    (hr : Run (.ofEngine engine) history s)
    (hqueue : (Engine.keysInUse s.engine.armed).toFinset.card ≤ config.queueCapacity)
    (hcache : (Engine.keysInUse s.engine.armed).toFinset.card ≤ config.cacheMaxEntries)
    {id : Uuid} {l : Lifecycle} (hl : s.engine.armed.find? id = some l)
    (hx : l.trigger.isExpiredAt s.engine.clock = false)
    {answers : CheckKey → Except StorageError Bool} (ha : ∀ k ∈ l.checkKeys, answers k = .ok true)
    (outcomes₁ outcomes₂ : List (Action × Firing) → Except ActionError Unit) {e₁ e₂ : Engine}
    (he₁ : s.engine.Reordered e₁)
    (he₂ : ((e₁.cycle outcomes₁).1.2.polled answers).Reordered e₂) :
    (l.trigger.action, l.firing id s.engine.clock) ∈ (e₁.cycle outcomes₁).2 ∨
      (l.trigger.action, l.firing id s.engine.clock) ∈ (e₂.cycle outcomes₂).2 := by
  have hroomy := (Engine.Roomy.of_run h hr hqueue hcache).reordered he₁
  obtain ⟨armed, hp, rfl⟩ := he₁
  have hl₁ : armed.find? id = some l := (IdMap.find?_eq_of_perm hp id).trans hl
  exact hroomy.fires hl₁ hx ha he₂ outcomes₂

namespace Sample

/-- Both triggers fire in their first window. -/
def firstWindow : List Move :=
  decision ++ [.fire, .settle (.ok ()), .fire, .settle (.ok ())]

/-- The first trigger is in its second window; the cache holds the key of the first one. -/
def settled : System :=
  ((System.ofEngine engine).play firstWindow).2

theorem isSome_settled : (settled.engine.armed.find? first).isSome = true := by decide +kernel

/-- The first trigger. -/
def recurring : Lifecycle :=
  (settled.engine.armed.find? first).get isSome_settled

theorem find?_settled : settled.engine.armed.find? first = some recurring :=
  (Option.some_get isSome_settled).symm

/-- The path of the second window exists. All other questions fail. -/
def secondDay (k : CheckKey) : Except StorageError Bool :=
  if k.path = "/in/2" then .ok true else .error (.unavailable "try again later")

/-- A cycle and a poll. -/
def asked : Engine :=
  (settled.engine.cycle refused).1.2.polled secondDay

end Sample

/-- The first cycle fires nothing, so the second one fires the trigger. -/
theorem Run.fires_after_poll_second_window :
    (Sample.settled.engine.cycle Sample.refused).2 = [] ∧
      Sample.recurring.paths = ["/in/2"] ∧
      (Sample.recurring.trigger.action,
          Sample.recurring.firing Sample.first Sample.settled.engine.clock) ∈
        (Sample.asked.cycle Sample.refused).2 := by
  have hnone : (Sample.settled.engine.cycle Sample.refused).2 = [] := by decide +kernel
  have hanswers : ∀ k ∈ Sample.recurring.checkKeys, Sample.secondDay k = .ok true := by
    decide +kernel
  have hfires := Run.fires_after_poll Sample.start (.of_play _ Sample.firstWindow)
    (by decide +kernel) (by decide +kernel) Sample.find?_settled (by decide +kernel) hanswers
    Sample.refused Sample.refused (.refl Sample.settled.engine) (.refl Sample.asked)
  refine ⟨hnone, by decide +kernel, hfires.resolve_left ?_⟩
  rw [hnone]
  exact List.not_mem_nil

end Lookout
