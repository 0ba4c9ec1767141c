import Lookout.Error
import Lookout.Scheduler

/-!
# Checkers

A checker waits for the keys of its definition.

* `Checker.evaluate`: all keys are in the cache; those that are not are submitted.
* `Checker.reset`: goes on to the next window. If that fails, the checker stays as it was.
* `Checker.release`: withdraws the keys that nobody else uses.
* `CheckerKind`: how the next window of a checker is found. `CheckerKind.data` advances the
  variables.
* `Registry`: the kinds of checkers by the type of their definitions.
-/

namespace Lookout

/-- A kind of checkers: the definition of the next window. -/
structure CheckerKind where
  next : Definition → Except EngineError Definition

/-- The kind that waits for data: the next window has the next variables. -/
def CheckerKind.data : CheckerKind :=
  { next := fun d => .ok d.advance }

/-- A checker. -/
structure Checker where
  kind : CheckerKind
  definition : Definition
  keys : List CheckKey

namespace Checker

/-- A checker for a definition. -/
def new (kind : CheckerKind) (d : Definition) : Except EngineError Checker :=
  match d.checkKeys with
  | .ok keys => .ok { kind, definition := d, keys }
  | .error e => .error (.pattern e)

/-- Looks one key up, and submits it if it is not there. -/
def evaluateKey (now : Instant) (k : CheckKey) (s : Scheduler) : Bool × Scheduler :=
  match s.lookup now k with
  | (true, s) => (true, s)
  | (false, s) => (false, (s.submit now k).2)

/-- Looks all keys up, and submits those that are not there. -/
def evaluateKeys (now : Instant) : List CheckKey → Scheduler → Bool × Scheduler
  | [], s => (true, s)
  | k :: rest, s =>
    let (found, s) := evaluateKey now k s
    let (all, s) := evaluateKeys now rest s
    (found && all, s)

/-- All keys of the checker are in the cache; those that are not are submitted. -/
def evaluate (c : Checker) (now : Instant) (s : Scheduler) : Bool × Scheduler :=
  evaluateKeys now c.keys s

/-- The checker of the next window. -/
def reset (c : Checker) : Except EngineError Checker :=
  match c.kind.next c.definition with
  | .ok d => new c.kind d
  | .error e => .error e

/-- Withdraws the keys of the checker that are not in use. -/
def release (c : Checker) (inUse : List CheckKey) (s : Scheduler) : Scheduler :=
  (s.forget (c.keys.filter fun k => !inUse.contains k)).2

end Checker

/-- The kinds of checkers by type. -/
structure Registry where
  kinds : List (String × CheckerKind)

namespace Registry

/-- No kinds. -/
def empty : Registry :=
  { kinds := [] }

/-- Registers a kind; one of the same type is replaced. -/
def register (r : Registry) (type : String) (kind : CheckerKind) : Registry :=
  { kinds := (type, kind) :: r.kinds }

/-- The type is registered. -/
def isRegistered (r : Registry) (type : String) : Bool :=
  (r.kinds.lookup type).isSome

/-- The checker of a definition. -/
def create (r : Registry) (d : Definition) : Except EngineError Checker :=
  match r.kinds.lookup d.type with
  | some kind => Checker.new kind d
  | none => .error (.unknownCheckerType d.type)

/-- The checker of a definition in JSON. -/
def createFromJson (r : Registry) (j : Json) : Except EngineError Checker :=
  match Definition.ofJson j with
  | .ok d => r.create d
  | .error e => .error (.definition (.malformed e))

end Registry
end Lookout
