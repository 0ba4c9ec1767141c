import Lookout.Proofs.Course

/-!
# No wait is lost

A pending key stays pending until the storage backend has answered that it exists, or until a
trigger has been replaced, has been removed or is done and no armed trigger waits for the key any
more (`Course.pending_until`).

- **Why a wait ends** (`WaitEnds`): what is true right after the event that ends it. Failed
  questions, answers that the key does not exist and polls that are cut short are not among these
  events.
- **One step** (`Step.pending_or_ends`): nothing is assumed of the state. The keys in use are looked
  up after the armed triggers have changed, so a key that another trigger or a new definition waits
  for is never withdrawn.
-/

namespace Lookout

/-- Why a key does not wait any more after an event that has led to the state `s`. -/
inductive WaitEnds (k : CheckKey) (s : System) : Event → Prop
  /-- The storage backend has answered that the key exists, and the cache says so. -/
  | confirmed (h : (k, s.engine.clock) ∈ s.engine.scheduler.cache.entries) :
      WaitEnds k s (.answered k (.ok true))
  | updated {t t' : Trigger}
      (h : ∀ id l, s.engine.armed.find? id = some l → k ∉ l.checkKeys) :
      WaitEnds k s (.updated t (.ok t'))
  | removed {id : Uuid} (h : ∀ id l, s.engine.armed.find? id = some l → k ∉ l.checkKeys) :
      WaitEnds k s (.removed id (.ok ()))
  | decided {findings : Findings} {seen : List Sighting}
      (h : ∀ id l, s.engine.armed.find? id = some l → k ∉ l.checkKeys) :
      WaitEnds k s (.decided findings seen)

/-- Withdrawing the keys of triggers leaves a key pending, or nobody waits for it. -/
theorem Engine.pending_or_unused {k : CheckKey} {previous : List Lifecycle}
    {armed : IdMap Lifecycle} {s : Scheduler} (h : k ∈ s.pending) :
    k ∈ (withdrawn previous armed s).pending ∨
      ∀ id l, armed.find? id = some l → k ∉ l.checkKeys := by
  by_cases huse : k ∈ keysInUse armed
  · exact .inl (mem_pending_withdrawn.2 ⟨h, fun _ _ _ => huse⟩)
  · exact .inr fun id l hl hk => huse (mem_keysInUse.2 ⟨id, l, hl, hk⟩)

/-- **A step** leaves a pending key pending, or its wait ends. -/
theorem Step.pending_or_ends {s s' : System} {e : Event} {k : CheckKey} (hs : Step s e s')
    (hk : k ∈ s.engine.scheduler.pending) :
    k ∈ s'.engine.scheduler.pending ∨ WaitEnds k s' e := by
  cases hs.effect with
  | idle => exact .inl hk
  | create => exact .inl hk
  | update => exact (Engine.pending_or_unused hk).imp_right .updated
  | remove => exact (Engine.pending_or_unused hk).imp_right .removed
  | decide _ hdecides =>
    exact (Engine.pending_or_unused (hdecides.pending_subset hk)).imp_right .decided
  | fire => exact .inl hk
  | @settle f =>
    obtain ⟨store, he⟩ := s.engine.settle_eq f
    rw [he]
    exact .inl hk
  | beginPoll => exact .inl hk
  | @answer j rest a =>
    rcases a with _ | _ | _
    · exact .inl hk
    · exact .inl hk
    · by_cases hj : k = j
      · subst hj
        exact .inr (.confirmed List.mem_cons_self)
      · exact .inl (Scheduler.mem_pending_confirm.2 ⟨hk, hj⟩)

/-- **No wait is lost.** A pending key is pending at each moment of a course, up to the first one at
which its wait ends. -/
theorem Course.pending_until {s₀ s : System} {history : List Moment} {k : CheckKey}
    (hr : Course s₀ history s) (hk : k ∈ s₀.engine.scheduler.pending) :
    (∀ m ∈ history, k ∈ m.state.engine.scheduler.pending) ∧ k ∈ s.engine.scheduler.pending ∨
      ∃ past m rest s', history = past ++ m :: rest ∧
        (∀ n ∈ past, k ∈ n.state.engine.scheduler.pending) ∧
        k ∈ m.state.engine.scheduler.pending ∧
        Step m.state m.event s' ∧ WaitEnds k s' m.event ∧ Course s' rest s := by
  induction hr with
  | nil => exact .inl ⟨fun m hm => absurd hm List.not_mem_nil, hk⟩
  | @step past s s' e _ hs ih =>
    rcases ih with ⟨hpast, hnow⟩ | ⟨before, m, rest, s₁, rfl, hbefore, hm, hstep, hends, hrest⟩
    · rcases hs.pending_or_ends hnow with hnext | hends
      · refine .inl ⟨fun m hm => ?_, hnext⟩
        rcases List.mem_append.1 hm with hm | hm
        · exact hpast m hm
        · cases List.mem_singleton.1 hm
          exact hnow
      · exact .inr ⟨past, ⟨s, e⟩, [], s', rfl, hpast, hnow, hs, hends, .nil⟩
    · refine .inr ⟨before, m, rest ++ [⟨s, e⟩], s₁, ?_, hbefore, hm, hstep, hends, .step hrest hs⟩
      rw [List.append_assoc, List.cons_append]
  | @load past s _ ih =>
    rcases ih with ⟨hpast, hnow⟩ | ⟨before, m, rest, s₁, he, hbefore, hm, hstep, hends, hrest⟩
    · exact .inl ⟨hpast, by rwa [Engine.scheduler_load]⟩
    · exact .inr ⟨before, m, rest, s₁, he, hbefore, hm, hstep, hends, .load hrest⟩
  | @cutShort past s _ ih =>
    rcases ih with hkept | ⟨before, m, rest, s₁, he, hbefore, hm, hstep, hends, hrest⟩
    · exact .inl hkept
    · exact .inr ⟨before, m, rest, s₁, he, hbefore, hm, hstep, hends, .cutShort hrest⟩

namespace Sample

/-- The path that both triggers wait for. -/
def key : CheckKey := { path := "/in/1", principal := "etl" }

/-- Both triggers wait, and a poll has begun. -/
def polling : List Moment × System :=
  ((System.ofEngine engine).play waiting).2.play [.beginPoll]

/-- The poll is cut short. After that the first trigger is removed, a whole poll does not find the
path, and the second trigger is removed. -/
def removals : List Moment × System :=
  { polling.2 with asking := [] }.play
    [.remove first, .beginPoll, .answer (.ok false), .remove second]

end Sample

/-- The wait ends when the second trigger is removed, and not before. -/
theorem Course.pending_until_removed :
    Sample.key ∈ ((System.ofEngine Sample.engine).play Sample.waiting).2.engine.scheduler.pending ∧
      Sample.key ∉ Sample.removals.2.engine.scheduler.pending ∧
      ((∀ m ∈ Sample.polling.1 ++ Sample.removals.1,
            Sample.key ∈ m.state.engine.scheduler.pending) ∧
          Sample.key ∈ Sample.removals.2.engine.scheduler.pending ∨
        ∃ past m rest s', Sample.polling.1 ++ Sample.removals.1 = past ++ m :: rest ∧
          (∀ n ∈ past, Sample.key ∈ n.state.engine.scheduler.pending) ∧
          Sample.key ∈ m.state.engine.scheduler.pending ∧ Step m.state m.event s' ∧
          WaitEnds Sample.key s' m.event ∧ Course s' rest Sample.removals.2) :=
  ⟨by decide +kernel, by decide +kernel,
    Course.pending_until ((Course.of_run (.of_play _ [.beginPoll])).cutShort.append
      (.of_run (.of_play _ _))) (by decide +kernel)⟩

end Lookout
