import Lookout.Checker

/-!
# Lifecycles

An armed trigger: the trigger and the checker that waits for its data.

* `Lifecycle.arm`: arms a trigger.
* `Lifecycle.poll`: tells whether the trigger has expired, is satisfied, or goes on waiting. Expiry
  comes first.
* `Lifecycle.advance`: goes on to the next window and starts a new arming period.
-/

namespace Lookout

/-- What a poll finds. -/
inductive Transition
  | pending
  | satisfied
  | expired
  deriving DecidableEq, Repr

/-- An armed trigger. -/
structure Lifecycle where
  trigger : Trigger
  checker : Checker
  /-- Tells apart the armings of one trigger. -/
  revision : Nat

namespace Lifecycle

/-- Arms a trigger with a checker of the given type. -/
def arm (registry : Registry) (checkerType : String) (revision : Nat) (t : Trigger) :
    Except EngineError Lifecycle :=
  match registry.create (t.definition checkerType) with
  | .ok checker => .ok { trigger := t, checker, revision }
  | .error e => .error e

/-- The same lifecycle under another identifier. -/
def withId (l : Lifecycle) (id : Uuid) : Lifecycle :=
  { l with trigger := { l.trigger with id } }

/-- The keys that the trigger waits for. -/
def checkKeys (l : Lifecycle) : List CheckKey :=
  l.checker.keys

/-- The paths that the trigger waits for. -/
def paths (l : Lifecycle) : List String :=
  l.checker.keys.map (·.path)

/-- The state of the trigger at a time. The scheduler is asked as of `now`. -/
def poll (l : Lifecycle) (time now : Instant) (s : Scheduler) : Transition × Scheduler :=
  if l.trigger.isExpiredAt time then (.expired, s)
  else
    match l.checker.evaluate now s with
    | (true, s) => (.satisfied, s)
    | (false, s) => (.pending, s)

/-- The next window, in a new arming period. -/
def advance (l : Lifecycle) (now : Instant) : Except EngineError Lifecycle :=
  match l.checker.reset with
  | .ok checker =>
    .ok
      { l with
        checker
        trigger := ({ l.trigger with vars := checker.definition.vars }).rearm now }
  | .error e => .error e

/-- Withdraws the keys of the trigger that are not in use. -/
def release (l : Lifecycle) (inUse : List CheckKey) (s : Scheduler) : Scheduler :=
  l.checker.release inUse s

end Lifecycle
end Lookout
