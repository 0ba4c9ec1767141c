import Lookout.Proofs.Operations
import Lookout.Proofs.Survey

/-!
# Runs of the engine

An engine with the cycle and the poll that are under way, as a system that takes steps.

- **Events** (`Event`): what is observed of a step. A cycle is decided in one step, in whatever
  order it looks at the armed triggers; then each of its actions is called, and after each call the
  store is brought up to date. A poll begins in one step; then each of its questions is answered.
  Between two steps of a cycle or a poll anything else may happen: operations, steps of the other
  one, outages of the store, moves of the clock.
- **Runs** (`Run`): the events of a run with the states in which they happened.
  `Run.split` takes a run apart at one of its events; `Run.invariant` is the induction.
- **Playing** (`System.play`): a run that can be evaluated. `Run.of_play` says that it is one.
- **Whole cycles and polls**: `run_runCycle` and `run_poll` say that `Engine.runCycle` and
  `Engine.poll` are runs, if the engine changes as in a run while they wait.
-/

namespace Lookout

/-- An engine with the cycle and the poll that are under way. -/
structure System where
  engine : Engine
  /-- What remains to be done in the cycle. -/
  followups : List Followup := []
  /-- The action of the first follow-up has been called. -/
  called : Bool := false
  /-- The keys that the poll has still to ask about. -/
  asking : List CheckKey := []
  /-- The identifiers that are not fresh. -/
  taken : List Uuid

/-- An engine with no cycle and no poll under way. -/
def System.ofEngine (e : Engine) : System :=
  { engine := e, taken := e.store.records.entries.map Prod.fst ++ e.armed.entries.map Prod.fst }

/-- What is observed of a step. -/
inductive Event
  | created (fresh : Uuid) (request : CreateRequest) (result : Except EngineError Trigger)
  | updated (trigger : Trigger) (result : Except EngineError Trigger)
  | removed (id : Uuid) (result : Except EngineError Unit)
  | listed (source : Option String)
  /-- Calls of the store are going to fail. -/
  | outage (call : StoreCall) (texts : List String)
  | clockSet (clock : Instant)
  /-- A cycle has looked at each armed trigger. -/
  | decided (findings : Findings) (seen : List Sighting)
  /-- An action is called. -/
  | fired (action : Action) (firing : Firing)
  /-- The store is up to date after a follow-up. Its action had this outcome, if it has one. -/
  | settled (followup : Followup) (outcome : Option (Except ActionError Unit))
  | pollBegun (keys : List CheckKey)
  /-- The storage backend has been asked about a key. -/
  | answered (key : CheckKey) (answer : Except StorageError Bool)

namespace Event

/-- Calls of the store are going to fail. -/
def isOutage : Event → Bool
  | outage _ _ => true
  | _ => false

/-- A cycle is decided. -/
def isDecision : Event → Bool
  | decided _ _ => true
  | _ => false

/-- The action that is called. -/
def firing? : Event → Option (Action × Firing)
  | fired action firing => some (action, firing)
  | _ => none

/-- The identifier of the trigger that is replaced. -/
def replaced? : Event → Option Uuid
  | updated t (.ok _) => some t.id
  | _ => none

end Event

/-- A step of the system. -/
inductive Step : System → Event → System → Prop
  | create {s : System} {fresh : Uuid} (r : CreateRequest) (h : fresh ∉ s.taken) :
      Step s (.created fresh r (s.engine.create fresh r).1)
        { s with engine := (s.engine.create fresh r).2, taken := fresh :: s.taken }
  | update {s : System} (t : Trigger) :
      Step s (.updated t (s.engine.update t).1) { s with engine := (s.engine.update t).2 }
  | remove {s : System} (id : Uuid) :
      Step s (.removed id (s.engine.remove id).1) { s with engine := (s.engine.remove id).2 }
  | list {s : System} (source : Option String) :
      Step s (.listed source) { s with engine := (s.engine.list source).2 }
  | outage {s : System} (call : StoreCall) (texts : List String) :
      Step s (.outage call texts)
        { s with engine := { s.engine with store := s.engine.store.addOutage call texts } }
  | setClock {s : System} (clock : Instant) :
      Step s (.clockSet clock) { s with engine := { s.engine with clock } }
  | decide {s : System} {findings : Findings} {seen : List Sighting} {scheduler : Scheduler}
      (h : s.followups = [])
      (hs : s.engine.Decides findings seen scheduler) :
      Step s (.decided findings seen)
        { s with
          engine := s.engine.conclude findings scheduler
          followups := findings.followups
          called := false }
  | fire {s : System} {f : Followup} {rest : List Followup} {action : Action} {firing : Firing}
      (h : s.followups = f :: rest) (hc : s.called = false)
      (hf : f.firing? = some (action, firing)) :
      Step s (.fired action firing) { s with called := true }
  | settle {s : System} {f : Followup} {rest : List Followup}
      {outcome : Option (Except ActionError Unit)} (h : s.followups = f :: rest)
      (hc : s.called = f.firing?.isSome) (ho : outcome.isSome = f.firing?.isSome) :
      Step s (.settled f outcome)
        { s with engine := s.engine.settle f, followups := rest, called := false }
  | beginPoll {s : System} (h : s.asking = []) :
      Step s (.pollBegun s.engine.beginPoll.1)
        { s with engine := s.engine.beginPoll.2, asking := s.engine.beginPoll.1 }
  | answer {s : System} {k : CheckKey} {rest : List CheckKey} (answer : Except StorageError Bool)
      (h : s.asking = k :: rest) :
      Step s (.answered k answer) { s with engine := s.engine.answer k answer, asking := rest }

namespace Step

variable {s s' : System}

theorem created_inv {fresh : Uuid} {r : CreateRequest} {result : Except EngineError Trigger}
    (hs : Step s (.created fresh r result) s') :
    fresh ∉ s.taken ∧ (s.engine.create fresh r).1 = result ∧
      s' = { s with engine := (s.engine.create fresh r).2, taken := fresh :: s.taken } := by
  cases hs with
  | create _ hfresh => exact ⟨hfresh, rfl, rfl⟩

theorem updated_inv {t : Trigger} {result : Except EngineError Trigger}
    (hs : Step s (.updated t result) s') :
    (s.engine.update t).1 = result ∧ s' = { s with engine := (s.engine.update t).2 } := by
  cases hs with
  | update _ => exact ⟨rfl, rfl⟩

theorem removed_inv {id : Uuid} {result : Except EngineError Unit}
    (hs : Step s (.removed id result) s') :
    (s.engine.remove id).1 = result ∧ s' = { s with engine := (s.engine.remove id).2 } := by
  cases hs with
  | remove _ => exact ⟨rfl, rfl⟩

end Step

/-- An event and the state in which it happens. -/
structure Moment where
  state : System
  event : Event

/-- The clock at the moment. -/
def Moment.clock (m : Moment) : Instant :=
  m.state.engine.clock

/-- A run from `s₀` with all its moments, the first one first. -/
inductive Run (s₀ : System) : List Moment → System → Prop
  | nil : Run s₀ [] s₀
  | snoc {past : List Moment} {s s' : System} {e : Event} (h : Run s₀ past s) (hs : Step s e s') :
      Run s₀ (past ++ [⟨s, e⟩]) s'

namespace Run

variable {s₀ s s' : System} {past rest history : List Moment} {m : Moment}

theorem single {e : Event} (h : Step s e s') : Run s [⟨s, e⟩] s' :=
  .snoc .nil h

theorem append (h : Run s₀ past s) (h' : Run s rest s') : Run s₀ (past ++ rest) s' := by
  induction h' with
  | nil =>
    rw [List.append_nil]
    exact h
  | snoc _ hs ih =>
    rw [← List.append_assoc]
    exact .snoc ih hs

/-- **Induction over a run**: a property of the past and the state that each step keeps. -/
theorem invariant {P : List Moment → System → Prop} (h : Run s₀ history s) (h₀ : P [] s₀)
    (hstep : ∀ past s e s', Run s₀ past s → P past s → Step s e s' → P (past ++ [⟨s, e⟩]) s') :
    P history s := by
  induction h with
  | nil => exact h₀
  | snoc h hs ih => exact hstep _ _ _ _ h ih hs

/-- A run is a run up to each of its moments, the step of that moment, and a run from there. -/
theorem split (h : Run s₀ (past ++ m :: rest) s) :
    Run s₀ past m.state ∧ ∃ s', Step m.state m.event s' ∧ Run s' rest s := by
  generalize hh : past ++ m :: rest = history at h
  induction h generalizing rest with
  | nil => cases past <;> cases hh
  | @snoc past' s s' e h hs ih =>
    rcases List.eq_nil_or_concat rest with rfl | ⟨rest, n, rfl⟩
    · obtain ⟨rfl, hm⟩ := List.append_inj' hh rfl
      cases hm
      exact ⟨h, s', hs, .nil⟩
    · rw [List.concat_eq_append] at hh ⊢
      rw [← List.cons_append, ← List.append_assoc] at hh
      obtain ⟨hinit, hlast⟩ := List.append_inj' hh rfl
      cases hlast
      obtain ⟨hpast, s₁, h₁, hrest⟩ := ih hinit
      exact ⟨hpast, s₁, h₁, .snoc hrest hs⟩

end Run

/-! ## Playing -/

/-- What happens next, as far as the outside decides it. -/
inductive Move
  | create (fresh : Uuid) (request : CreateRequest)
  | update (trigger : Trigger)
  | remove (id : Uuid)
  | list (source : Option String)
  | outage (call : StoreCall) (texts : List String)
  | setClock (clock : Instant)
  | decide
  | fire
  | settle (outcome : Except ActionError Unit)
  | beginPoll
  | answer (answer : Except StorageError Bool)

namespace System

/-- The step of a move, if it can be made. A cycle is decided at a standing clock. -/
def step? (s : System) : Move → Option (Event × System)
  | .create fresh r =>
    if fresh ∈ s.taken then none
    else
      let (result, engine) := s.engine.create fresh r
      some (.created fresh r result, { s with engine, taken := fresh :: s.taken })
  | .update t =>
    let (result, engine) := s.engine.update t
    some (.updated t result, { s with engine })
  | .remove id =>
    let (result, engine) := s.engine.remove id
    some (.removed id result, { s with engine })
  | .list source => some (.listed source, { s with engine := (s.engine.list source).2 })
  | .outage call texts =>
    some (.outage call texts,
      { s with engine := { s.engine with store := s.engine.store.addOutage call texts } })
  | .setClock clock => some (.clockSet clock, { s with engine := { s.engine with clock } })
  | .decide =>
    match s.followups with
    | [] =>
      let armed := s.engine.armed.entries
      let (findings, scheduler) := Engine.survey s.engine.clock armed s.engine.scheduler
      some (.decided findings (Engine.sightings s.engine.clock armed s.engine.scheduler),
        { s with
          engine := s.engine.conclude findings scheduler
          followups := findings.followups
          called := false })
    | _ :: _ => none
  | .fire =>
    match s.followups, s.called with
    | f :: _, false => f.firing?.map fun (a, firing) => (.fired a firing, { s with called := true })
    | _, _ => none
  | .settle outcome =>
    match s.followups with
    | f :: rest =>
      if s.called = f.firing?.isSome then
        some (.settled f (f.firing?.map fun _ => outcome),
          { s with engine := s.engine.settle f, followups := rest, called := false })
      else none
    | [] => none
  | .beginPoll =>
    match s.asking with
    | [] =>
      let (keys, engine) := s.engine.beginPoll
      some (.pollBegun keys, { s with engine, asking := keys })
    | _ :: _ => none
  | .answer a =>
    match s.asking with
    | k :: rest => some (.answered k a, { s with engine := s.engine.answer k a, asking := rest })
    | [] => none

/-- Makes moves one after the other, leaving out those that cannot be made. -/
def play (s : System) : List Move → List Moment × System
  | [] => ([], s)
  | move :: rest =>
    match s.step? move with
    | some (event, s') =>
      let (moments, last) := s'.play rest
      (⟨s, event⟩ :: moments, last)
    | none => s.play rest

theorem step_of_step? {s s' : System} {move : Move} {e : Event} (h : s.step? move = some (e, s')) :
    Step s e s' := by
  unfold step? at h
  split at h
  · split at h
    · cases h
    · rename_i hfresh
      cases h
      exact .create _ hfresh
  · cases h
    exact .update _
  · cases h
    exact .remove _
  · cases h
    exact .list _
  · cases h
    exact .outage _ _
  · cases h
    exact .setClock _
  · split at h
    · rename_i hf
      cases h
      exact .decide hf (.of_survey s.engine)
    · cases h
  · split at h
    · rename_i f rest hf hc
      obtain ⟨⟨a, firing⟩, ha, he⟩ := Option.map_eq_some_iff.1 h
      cases he
      exact .fire hf hc ha
    · cases h
  · split at h
    · rename_i f rest hf
      split at h
      · rename_i hc
        cases h
        exact .settle hf hc (Option.isSome_map)
      · cases h
    · cases h
  · split at h
    · rename_i ha
      cases h
      exact .beginPoll ha
    · cases h
  · split at h
    · rename_i k rest ha
      cases h
      exact .answer _ ha
    · cases h

end System

/-- What is played is a run. -/
theorem Run.of_play (s : System) (moves : List Move) : Run s (s.play moves).1 (s.play moves).2 := by
  induction moves generalizing s with
  | nil => exact .nil
  | cons move rest ih =>
    unfold System.play
    split
    · rename_i event s' h
      exact Run.append (.single (System.step_of_step? h)) (ih s')
    · exact ih s

/-! ## Whole cycles and polls

The outside is in a state of type `ω`, which actions and the storage backend may change. What they
rely on about the identifiers that are not fresh is `fits`. -/

section Programs

variable {ω : Type} {fits : List Uuid → ω → Prop} {s : System} {w : ω}
  {fire : Action → Firing → StateT Engine (StateM ω) (Except ActionError Unit)}
  {exists? : CheckKey → StateT Engine (StateM ω) (Except StorageError Bool)}

/-- The answer of a program, the engine after it, and the outside after it. -/
def Engine.after {α : Type} (program : StateT Engine (StateM ω) α) (e : Engine) (w : ω) :
    (α × Engine) × ω :=
  (program.run e).run w

/-- While a cycle waits for an action, the engine changes as in a run. -/
def Interludes (fits : List Uuid → ω → Prop)
    (fire : Action → Firing → StateT Engine (StateM ω) (Except ActionError Unit)) : Prop :=
  ∀ (s : System) w action firing, s.called = true → fits s.taken w →
    ∃ history asking taken,
      Run s history
        { s with engine := (Engine.after (fire action firing) s.engine w).1.2, asking, taken } ∧
      fits taken (Engine.after (fire action firing) s.engine w).2

/-- While a poll waits for an answer, the engine changes as in a run. -/
def PollInterludes (fits : List Uuid → ω → Prop)
    (exists? : CheckKey → StateT Engine (StateM ω) (Except StorageError Bool)) : Prop :=
  ∀ (s : System) w k, fits s.taken w →
    ∃ history followups called taken,
      Run s history
        { engine := (Engine.after (exists? k) s.engine w).1.2
          followups, called, asking := s.asking, taken } ∧
      fits taken (Engine.after (exists? k) s.engine w).2

private theorem run_carryOut (hfire : Interludes fits fire) (followups : List Followup)
    (hf : s.followups = followups) (hc : s.called = false) (hw : fits s.taken w) :
    ∃ history asking taken,
      Run s history
        { engine := (Engine.after (Engine.carryOut fire followups) s.engine w).1.2
          asking, taken } ∧
      fits taken (Engine.after (Engine.carryOut fire followups) s.engine w).2 := by
  induction followups generalizing s w with
  | nil =>
    refine ⟨[], s.asking, s.taken, ?_, hw⟩
    obtain ⟨e, followups, called, asking, taken⟩ := s
    cases hf
    cases hc
    exact .nil
  | cons f rest ih =>
    cases ha : f.firing? with
    | none =>
      have hstep : Step s (.settled f none)
          { s with engine := s.engine.settle f, followups := rest, called := false } :=
        .settle hf (by rw [hc, ha]; rfl) (by rw [ha]; rfl)
      have hbind : Engine.after (Engine.carryOut fire (f :: rest)) s.engine w =
          Engine.after (Engine.carryOut fire rest) (s.engine.settle f) w := by
        conv => lhs; unfold Engine.carryOut
        rw [ha]
        rfl
      rw [hbind]
      obtain ⟨history, asking, taken, hr, hfits⟩ := ih (w := w) (s := { s with
        engine := s.engine.settle f, followups := rest, called := false }) rfl rfl hw
      exact ⟨_, asking, taken, (Run.single hstep).append hr, hfits⟩
    | some p =>
      obtain ⟨action, firing⟩ := p
      have hcall : Step s (.fired action firing) { s with called := true } := .fire hf hc ha
      have hbind : Engine.after (Engine.carryOut fire (f :: rest)) s.engine w =
          Engine.after (Engine.carryOut fire rest)
            ((Engine.after (fire action firing) s.engine w).1.2.settle f)
            (Engine.after (fire action firing) s.engine w).2 := by
        conv => lhs; unfold Engine.carryOut
        rw [ha]
        rfl
      rw [hbind]
      obtain ⟨h₁, asking₁, taken₁, hr₁, hw₁⟩ :=
        hfire { s with called := true } w action firing rfl hw
      generalize Engine.after (fire action firing) s.engine w = out at hr₁ hw₁ ⊢
      obtain ⟨⟨result, e⟩, w₁⟩ := out
      have hstep : Step _ (.settled f (some result)) _ := .settle
        (s := { s with engine := e, called := true, asking := asking₁, taken := taken₁ })
        hf (by rw [ha]; rfl) (by rw [ha]; rfl)
      obtain ⟨history, asking, taken, hr, hfits⟩ := ih (w := w₁) (s := { s with
        engine := e.settle f, followups := rest, called := false, asking := asking₁
        taken := taken₁ }) rfl rfl hw₁
      exact ⟨_, asking, taken,
        (((Run.single hcall).append hr₁).append (.single hstep)).append hr, hfits⟩

/-- **A whole cycle is a run**, if the engine changes as in a run while it waits for actions. -/
theorem run_runCycle (hfire : Interludes fits fire) (hf : s.followups = [])
    (hw : fits s.taken w) :
    ∃ history asking taken,
      Run s history
        { engine := (Engine.after (Engine.runCycle fire) s.engine w).1.2, asking, taken } ∧
      fits taken (Engine.after (Engine.runCycle fire) s.engine w).2 := by
  have hdecide := Step.decide hf (.of_survey s.engine)
  obtain ⟨history, asking, taken, hr, hfits⟩ := run_carryOut hfire _ (s := { s with
    engine := s.engine.beginCycle.2.2, followups := s.engine.beginCycle.2.1, called := false })
    rfl rfl hw
  exact ⟨_, asking, taken, (Run.single hdecide).append hr, hfits⟩

private theorem run_ask (hexists : PollInterludes fits exists?) (keys : List CheckKey)
    (report : PollReport) (ha : s.asking = keys) (hw : fits s.taken w) :
    ∃ history followups called taken,
      Run s history
        { engine := (Engine.after (Engine.ask exists? keys report) s.engine w).1.2
          followups, called, asking := [], taken } ∧
      fits taken (Engine.after (Engine.ask exists? keys report) s.engine w).2 := by
  induction keys generalizing s w report with
  | nil =>
    refine ⟨[], s.followups, s.called, s.taken, ?_, hw⟩
    obtain ⟨e, followups, called, asking, taken⟩ := s
    cases ha
    exact .nil
  | cons k rest ih =>
    obtain ⟨h₁, followups₁, called₁, taken₁, hr₁, hw₁⟩ := hexists s w k hw
    have hbind : Engine.after (Engine.ask exists? (k :: rest) report) s.engine w =
        let out := Engine.after (exists? k) s.engine w
        Engine.after (Engine.ask exists? rest (report.count out.1.1.toOption))
          (out.1.2.answer k out.1.1) out.2 := rfl
    rw [hbind]
    generalize Engine.after (exists? k) s.engine w = out at hr₁ hw₁ ⊢
    obtain ⟨⟨found, e⟩, w₁⟩ := out
    have hstep := Step.answer (s := { s with
      engine := e, followups := followups₁, called := called₁, taken := taken₁ }) found ha
    obtain ⟨history, followups, called, taken, hr, hfits⟩ := ih (report.count found.toOption)
      (w := w₁) (s := { engine := e.answer k found, followups := followups₁, called := called₁
                        asking := rest, taken := taken₁ }) rfl hw₁
    exact ⟨_, followups, called, taken, (hr₁.append (.single hstep)).append hr, hfits⟩

/-- **A whole poll is a run**, if the engine changes as in a run while it waits for answers. -/
theorem run_poll (hexists : PollInterludes fits exists?) (ha : s.asking = [])
    (hw : fits s.taken w) :
    ∃ history followups called taken,
      Run s history
        { engine := (Engine.after (Engine.poll exists?) s.engine w).1.2
          followups, called, asking := [], taken } ∧
      fits taken (Engine.after (Engine.poll exists?) s.engine w).2 := by
  have hbegin := Step.beginPoll ha
  obtain ⟨history, followups, called, taken, hr, hfits⟩ := run_ask hexists s.engine.beginPoll.1
    .none (s := { s with engine := s.engine.beginPoll.2, asking := s.engine.beginPoll.1 }) rfl hw
  exact ⟨_, followups, called, taken, (Run.single hbegin).append hr, hfits⟩

end Programs

/-! ## A sample

A small engine with two triggers that wait for the same path at first. -/

namespace Sample

theorem eq_ok_of_toOption {ε α : Type} {x : Except ε α} {a : α} (h : x.toOption = some a) :
    x = .ok a := by
  cases x <;> cases h
  rfl

/-- The engine that has been started with an empty store. -/
def engine : Engine :=
  .new .standard (Registry.empty.register Config.standard.checkerType .data) Store.empty .epoch

theorem start : Engine.start .standard Store.empty .epoch = .ok engine :=
  Engine.start_empty Config.validate_standard .epoch

def first : Uuid := { value := 1 }

def second : Uuid := { value := 2 }

/-- Waits for the first day, then for the second, and so on. -/
def daily : CreateRequest :=
  { patterns := [⟨"/in/$\x7bDAY\x7d"⟩]
    principal := "etl"
    vars := { entries := [("DAY", { value := 1, increment := 1 })] }
    timeToExpire := none
    projectId := 7
    flowName := "load"
    webhookUrl := none
    recurrence := .recurring
    submitUser := "ops" }

/-- Waits for the first day only. -/
def single : CreateRequest :=
  { daily with recurrence := .once }

/-- Takes the place of the second trigger. -/
def replacement : Trigger :=
  { engine.triggerOf single (Duration.ofSecs 60) with id := second, patterns := [⟨"/out"⟩] }

/-- Both triggers wait, and their path is pending. -/
def waiting : List Move :=
  [.create first daily, .create second single, .decide]

/-- The path is found to exist, and a cycle decides that both triggers fire. -/
def decision : List Move :=
  waiting ++ [.beginPoll, .answer (.ok true), .decide]

/-- While the action of the first trigger is carried out, the second one is replaced. -/
def overlap : List Move :=
  decision ++ [.fire, .update replacement, .settle (.ok ()), .fire,
    .settle (.error (.request "refused"))]

end Sample
end Lookout
