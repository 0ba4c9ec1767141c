import Lookout.Engine
import Lookout.Firing
import Lookout.Storage

/-!
# Cycles of the engine

A cycle looks at each armed trigger once. All that it finds is decided at its beginning; then the
actions are carried out one after the other, and after each the store is brought up to date.

* `Engine.survey`: what a cycle finds about each armed trigger.
* `Engine.beginCycle`: what a cycle decides, as a report and a list of follow-ups. Triggers that
  are done are disarmed, those that go on are in their next window (`Engine.conclude`).
* `Followup.firing?`: the action of a follow-up. While it is carried out the engine may change.
* `Engine.settle`: brings the store up to date after the action of a follow-up, whether it failed or
  not. A trigger that has been changed meanwhile is left alone.
* `Engine.runCycle`: a whole cycle, with the actions carried out by `fire`.
* `Engine.poll`: a whole poll, with the storage backend asked by `exists?`.
-/

namespace Lookout

/-- The numbers of triggers that go on waiting, that fire, and that have expired. -/
structure CycleReport where
  pending : Nat
  fired : Nat
  expired : Nat
  deriving DecidableEq, Repr

/-- What is to be done after a cycle has looked at a trigger. -/
inductive Followup
  /-- The trigger is done. -/
  | retire (trigger : Trigger) (firing : Option Firing)
  /-- The trigger waits for its next window. -/
  | advance (trigger : Trigger) (revision : Nat) (firing : Firing)
  deriving DecidableEq, Repr

namespace Followup

/-- The trigger. -/
def trigger : Followup → Trigger
  | retire t _ => t
  | advance t _ _ => t

/-- The action that is to be carried out. -/
def firing? : Followup → Option (Action × Firing)
  | retire t firing => firing.map fun f => (t.action, f)
  | advance t _ firing => some (t.action, firing)

end Followup

/-- What a cycle finds about an armed trigger. -/
inductive Finding
  /-- The trigger goes on waiting. -/
  | waits
  /-- The trigger is done. -/
  | retires (firing : Option Firing)
  /-- The trigger waits for its next window. -/
  | advances (next : Lifecycle) (firing : Firing)

namespace Finding

/-- One more finding in a report. -/
def count (r : CycleReport) : Finding → CycleReport
  | waits => { r with pending := r.pending + 1 }
  | retires none => { r with expired := r.expired + 1 }
  | retires (some _) => { r with fired := r.fired + 1 }
  | advances _ _ => { r with fired := r.fired + 1 }

/-- The armed triggers after a finding about one of them. -/
def apply (armed : IdMap Lifecycle) (id : Uuid) : Finding → IdMap Lifecycle
  | waits => armed
  | retires _ => armed.erase id
  | advances next _ => armed.insert id next

/-- The follow-up of a trigger that goes on. -/
def advance? : Finding → Option Followup
  | advances next firing => some (.advance next.trigger next.revision firing)
  | _ => none

/-- The follow-up of a trigger that is done. -/
def retire? (l : Lifecycle) : Finding → Option Followup
  | retires firing => some (.retire l.trigger firing)
  | _ => none

/-- The trigger is done. -/
def isRetirement : Finding → Bool
  | retires _ => true
  | _ => false

end Finding

/-- What the action of a trigger is told when it fires in its present window. -/
def Lifecycle.firing (l : Lifecycle) (id : Uuid) (now : Instant) : Firing :=
  { triggerId := id, paths := l.paths, firedAt := now }

/-- What a cycle finds about a trigger whose paths are all there. A trigger whose next window cannot
be found is done once it has fired. -/
def Lifecycle.fulfil (l : Lifecycle) (id : Uuid) (now : Instant) : Finding :=
  match l.trigger.recurrence, l.advance now with
  | .recurring, .ok next => .advances next (l.firing id now)
  | _, _ => .retires (some (l.firing id now))

/-- What a cycle finds about a trigger in a given state. -/
def Lifecycle.finding (l : Lifecycle) (id : Uuid) (now : Instant) : Transition → Finding
  | .pending => .waits
  | .expired => .retires none
  | .satisfied => l.fulfil id now

/-- What a cycle finds about one armed trigger. -/
def Lifecycle.find (l : Lifecycle) (id : Uuid) (now : Instant) (s : Scheduler) :
    Finding × Scheduler :=
  let (transition, s) := l.poll now now s
  (l.finding id now transition, s)

/-- Armed triggers by their identifiers, with what a cycle finds about each. -/
abbrev Findings := List ((Uuid × Lifecycle) × Finding)

namespace Findings

/-- The numbers of triggers that go on waiting, that fire, and that have expired. -/
def report (findings : Findings) : CycleReport :=
  findings.foldl (fun r (_, f) => f.count r) { pending := 0, fired := 0, expired := 0 }

/-- What is to be done: first for the triggers that go on, then for those that are done. -/
def followups (findings : Findings) : List Followup :=
  findings.filterMap (fun (_, f) => f.advance?) ++
    findings.filterMap fun ((_, l), f) => f.retire? l

/-- The triggers that are done. -/
def retired (findings : Findings) : List Lifecycle :=
  (findings.filter fun (_, f) => f.isRetirement).map fun ((_, l), _) => l

/-- The armed triggers after the findings. -/
def applyTo (findings : Findings) (armed : IdMap Lifecycle) : IdMap Lifecycle :=
  findings.foldl (fun armed ((id, _), f) => f.apply armed id) armed

end Findings

namespace Engine

/-- What a cycle finds about armed triggers, one after the other. -/
def survey (now : Instant) : List (Uuid × Lifecycle) → Scheduler → Findings × Scheduler
  | [], s => ([], s)
  | (id, l) :: rest, s =>
    let (finding, s) := l.find id now s
    let (others, s) := survey now rest s
    (((id, l), finding) :: others, s)

/-- Puts findings into effect: triggers that are done are disarmed and their keys withdrawn, unless
another trigger waits for them; those that go on are in their next window. -/
def conclude (e : Engine) (findings : Findings) (scheduler : Scheduler) : Engine :=
  let armed := findings.applyTo e.armed
  let inUse := keysInUse armed
  { e with armed, scheduler := findings.retired.foldl (fun s l => l.release inUse s) scheduler }

/-- Looks at each armed trigger once. -/
def beginCycle (e : Engine) : CycleReport × List Followup × Engine :=
  let (findings, scheduler) := survey e.clock e.armed.entries e.scheduler
  (findings.report, findings.followups, e.conclude findings scheduler)

/-- Brings the store up to date after a follow-up. A trigger that is done stays stored if it has
been armed again; one that goes on is stored only if it is still armed under the same revision. -/
def settle (e : Engine) : Followup → Engine
  | .retire t _ =>
    if e.armed.contains t.id then e else { e with store := (e.store.remove t.id).2 }
  | .advance t revision _ =>
    if (e.armed.find? t.id).map (·.revision) = some revision then
      { e with store := (e.store.update t).2 }
    else e

variable {m : Type → Type} [Monad m]

/-- Carries out follow-ups one after the other. -/
def carryOut (fire : Action → Firing → StateT Engine m (Except ActionError Unit)) :
    List Followup → StateT Engine m Unit
  | [] => pure ()
  | f :: rest => do
    match f.firing? with
    | some (action, firing) =>
      let _ ← fire action firing
      pure ()
    | none => pure ()
    modify fun e => e.settle f
    carryOut fire rest

/-- A whole cycle. -/
def runCycle (fire : Action → Firing → StateT Engine m (Except ActionError Unit)) :
    StateT Engine m CycleReport := do
  let (report, followups, e) := (← getThe Engine).beginCycle
  set e
  carryOut fire followups
  return report

/-! ## Polls -/

/-- The keys that a poll asks about. -/
def beginPoll (e : Engine) : List CheckKey × Engine :=
  let (keys, scheduler) := e.scheduler.beginPoll e.clock
  (keys, { e with scheduler })

/-- Takes notice of an answer about a key: one that exists is confirmed. -/
def answer (e : Engine) (k : CheckKey) : Except StorageError Bool → Engine
  | .ok true => { e with scheduler := e.scheduler.confirm e.clock k }
  | _ => e

/-- Asks about keys one after the other. -/
def ask (exists? : CheckKey → StateT Engine m (Except StorageError Bool)) :
    List CheckKey → PollReport → StateT Engine m PollReport
  | [], report => pure report
  | k :: rest, report => do
    let found ← exists? k
    modify fun e => e.answer k found
    ask exists? rest (report.count found.toOption)

/-- A whole poll. -/
def poll (exists? : CheckKey → StateT Engine m (Except StorageError Bool)) :
    StateT Engine m PollReport := do
  let (keys, e) := (← getThe Engine).beginPoll
  set e
  ask exists? keys .none

end Engine
end Lookout
