import Lookout.Proofs.System

/-!
# Cycles and polls with nothing in between

- **Actions** (`Engine.recording`): each call is written down, and its outcome may depend on all
  calls so far. While it is carried out, the engine stays as it is.
- **The storage backend** (`Engine.answering`): each key has one answer.
- **What is left behind** (`Engine.cycle_eq`, `Engine.polled_eq`): the decision of the cycle with
  all its follow-ups settled, and all answers of the poll taken notice of.
- **Order** (`Engine.Reordered`): the same armed triggers, to be looked at in another order.
-/

namespace Lookout

namespace Engine

/-- The engine with its armed triggers in some order. -/
def Reordered (e e' : Engine) : Prop :=
  ∃ armed, armed.entries.Perm e.armed.entries ∧ e' = { e with armed }

theorem Reordered.refl (e : Engine) : e.Reordered e :=
  ⟨e.armed, .refl _, rfl⟩

/-! ## Cycles -/

/-- Carries an action out by writing it down behind the calls so far. The outcome is that of the
calls up to this one. -/
def recording (outcomes : List (Action × Firing) → Except ActionError Unit) (action : Action)
    (firing : Firing) :
    StateT Engine (StateM (List (Action × Firing))) (Except ActionError Unit) := do
  modifyThe (List (Action × Firing)) (· ++ [(action, firing)])
  return outcomes (← getThe (List (Action × Firing)))

variable {outcomes : List (Action × Firing) → Except ActionError Unit}

/-- Follow-ups change the store only. -/
theorem foldl_settle_eq (e : Engine) (followups : List Followup) :
    ∃ store, followups.foldl settle e = { e with store } := by
  induction followups generalizing e with
  | nil => exact ⟨e.store, rfl⟩
  | cons f rest ih =>
    obtain ⟨store, he⟩ := e.settle_eq f
    obtain ⟨store', he'⟩ := ih (e.settle f)
    rw [List.foldl_cons, he', he]
    exact ⟨store', rfl⟩

private theorem after_carryOut (outcomes : List (Action × Firing) → Except ActionError Unit)
    (followups : List Followup) (e : Engine)
    (calls : List (Action × Firing)) :
    after (carryOut (recording outcomes) followups) e calls =
      (((), followups.foldl settle e), calls ++ followups.filterMap (·.firing?)) := by
  induction followups generalizing e calls with
  | nil =>
    rw [List.filterMap_nil, List.append_nil]
    rfl
  | cons f rest ih =>
    cases ha : f.firing? with
    | none =>
      have hstep : after (carryOut (recording outcomes) (f :: rest)) e calls =
          after (carryOut (recording outcomes) rest) (e.settle f) calls := by
        conv => lhs; unfold carryOut
        rw [ha]
        rfl
      rw [hstep, ih, List.filterMap_cons_none ha]
      rfl
    | some call =>
      have hstep : after (carryOut (recording outcomes) (f :: rest)) e calls =
          after (carryOut (recording outcomes) rest) (e.settle f) (calls ++ [call]) := by
        conv => lhs; unfold carryOut
        rw [ha]
        rfl
      rw [hstep, ih, List.filterMap_cons_some ha, List.append_assoc]
      rfl

/-- A cycle with nothing in between: its report, the engine after it, and the calls of actions. -/
def cycle (outcomes : List (Action × Firing) → Except ActionError Unit) (e : Engine) :
    (CycleReport × Engine) × List (Action × Firing) :=
  after (runCycle (recording outcomes)) e []

/-- **A cycle with nothing in between** reports what it has decided, calls the actions of all
follow-ups, and settles them. -/
theorem cycle_eq (e : Engine) :
    e.cycle outcomes = ((e.beginCycle.1, e.beginCycle.2.1.foldl settle e.beginCycle.2.2),
      e.beginCycle.2.1.filterMap (·.firing?)) := by
  have hcarry := after_carryOut outcomes e.beginCycle.2.1 e.beginCycle.2.2 []
  have hrun : e.cycle outcomes =
      ((e.beginCycle.1,
        (after (carryOut (recording outcomes) e.beginCycle.2.1) e.beginCycle.2.2 []).1.2),
        (after (carryOut (recording outcomes) e.beginCycle.2.1) e.beginCycle.2.2 []).2) := rfl
  rw [hrun, hcarry]
  rfl

/-! ## Polls -/

/-- Answers about each key once and for all. -/
def answering (answers : CheckKey → Except StorageError Bool) (k : CheckKey) :
    StateT Engine (StateM Unit) (Except StorageError Bool) :=
  return answers k

/-- The engine after a poll with nothing in between. -/
def polled (answers : CheckKey → Except StorageError Bool) (e : Engine) : Engine :=
  (after (poll (answering answers)) e ()).1.2

private theorem after_ask (answers : CheckKey → Except StorageError Bool) (keys : List CheckKey)
    (report : PollReport) (e : Engine) :
    (after (ask (answering answers) keys report) e ()).1.2 =
      keys.foldl (fun e k => e.answer k (answers k)) e := by
  induction keys generalizing e report with
  | nil => rfl
  | cons k rest ih => exact ih (report.count (answers k).toOption) (e.answer k (answers k))

/-- **A poll with nothing in between** asks about all pending keys and takes notice of the
answers. -/
theorem polled_eq (answers : CheckKey → Except StorageError Bool) (e : Engine) :
    e.polled answers =
      e.beginPoll.1.foldl (fun e k => e.answer k (answers k)) e.beginPoll.2 :=
  after_ask answers e.beginPoll.1 .none e.beginPoll.2

end Engine
end Lookout
