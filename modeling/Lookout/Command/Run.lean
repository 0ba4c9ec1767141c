import Lookout.Client
import Lookout.Command.Arguments
import Lookout.Command.Reference
import Lookout.Command.Report
import Lookout.Variable.Window

/-!
# Running commands

* `Command.windows`: the paths of a pattern in the present window and in some that follow it.
* `Command.preview`: these paths, if a list has room for them.
* `Change.apply`: a trigger after a change.
* `Invocation.run`: runs a command. It prints nothing unless all of it succeeds.
-/

namespace Lookout.Command

/-- The reasons for which a command fails. -/
inductive Failure
  | client (error : ClientError)
  /-- The triggers that a reference may mean could not be listed. -/
  | lookup (error : ClientError)
  | reference (error : ReferenceError)
  | period (error : PeriodError)
  | pattern (error : PatternError)
  /-- More paths are asked for than a list has room for. The program stops at once. -/
  | capacity
  deriving DecidableEq, Repr

/-- The wording of a failure. -/
def Failure.message : Failure → String
  | .client e => e.message
  | .lookup e => "Failed to fetch triggers for ID resolution: " ++ e.message
  | .reference e => e.message
  | .period e => e.message
  | .pattern e => e.message
  | .capacity => "capacity overflow"

/-! ## Previews -/

/-- The paths of a pattern in a window and in those that follow it. -/
def windows (p : Pattern) (vars : VariableSet) : (following : Nat) →
    Except PatternError (List String)
  | 0 => (p.resolve vars).map fun path => [path]
  | n + 1 =>
    match p.resolve vars with
    | .error e => .error e
    | .ok path => (windows p vars.advance n).map fun paths => path :: paths

/-- The most paths that a list has room for: each takes 24 bytes, of at most `2^63 - 1`. -/
def maxPaths : Nat := 9223372036854775807 / 24

/-- What a preview shows. Room for all paths is made before any of them is known. -/
def preview (p : Pattern) (vars : VariableSet) (following : Nat) : Except Failure (List String) :=
  if following + 1 ≤ maxPaths then (windows p vars following).mapError .pattern
  else .error .capacity

/-! ## Changes -/

/-- An action that launches a flow, with another flow. -/
def withFlow (flowName : String) : Action → Action
  | .executeFlow projectId _ => .executeFlow projectId flowName
  | action => action

/-- A trigger with another flow. -/
def changeFlow (t : Trigger) : Option String → Trigger
  | none => t
  | some flowName => { t with flowName, action := withFlow flowName t.action }

/-- A trigger with other patterns. -/
def changePatterns (t : Trigger) : List Pattern → Trigger
  | [] => t
  | patterns => { t with patterns }

/-- A trigger with another time to expire. -/
def changeExpiry (t : Trigger) : Option String → Except PeriodError Trigger
  | none => .ok t
  | some text => (Duration.ofPeriod text).map fun timeToExpire => { t with timeToExpire }

/-- A trigger after a change. -/
def Change.apply (c : Change) (t : Trigger) : Except PeriodError Trigger :=
  (changeExpiry (changePatterns t c.patterns) c.expire).map fun t => changeFlow t c.flowName

/-! ## Commands -/

variable {m : Type → Type} [Monad m]

open Http

/-- A call of the client as a step of a command. -/
def call {α : Type} (answer : m (Except ClientError α)) : ExceptT Failure m α :=
  ExceptT.mk (return (← answer).mapError .client)

/-- The identifier that a reference means. Only one that is not complete has to be looked for. -/
def findId (c : Client) (send : Exchange m) : Reference → ExceptT Failure m Uuid
  | .id id => return id
  | .start text => do
    let summaries ← ExceptT.mk (return (← c.list send none).mapError .lookup)
    ExceptT.mk (return (Reference.pick (summaries.map (·.id)) text).mapError .reference)

/-- The identifier that an argument means. -/
def findArgument (c : Client) (send : Exchange m) (reference : String) : ExceptT Failure m Uuid :=
  findId c send (Reference.ofText reference)

/-- Changes a trigger: it is fetched, changed, and sent back as a whole. -/
def runUpdate (c : Client) (send : Exchange m) (reference : String) (change : Change) :
    ExceptT Failure m Trigger := do
  let id ← findArgument c send reference
  let t ← call (c.get send id)
  let t ← ExceptT.mk (return (change.apply t).mapError .period)
  call (c.update send id t)

/-- Runs a command and returns the lines that it prints. The address is only printed. -/
def run (c : Client) (send : Exchange m) (address : String) (now : Instant) :
    Command → ExceptT Failure m (List String)
  | .create request => return Report.created (← call (c.create send request))
  | .list source => return Report.listing (← call (c.list send source))
  | .get reference => do
    let id ← findArgument c send reference
    return Report.details (← call (c.get send id))
  | .update reference change => return Report.updated (← runUpdate c send reference change)
  | .remove reference => do
    let id ← findArgument c send reference
    call (c.remove send id)
    return Report.removed id
  | .resolve pattern vars following =>
    ExceptT.mk (return preview pattern (vars.fillCalendar now) following)
  | .status => do
    call (c.health send)
    return Report.status address (← call (c.status send))

end Command

/-- Runs a command on its server. -/
def Invocation.run {m : Type → Type} [Monad m] (i : Invocation) (send : Http.Exchange m)
    (now : Instant) : m (Except Command.Failure (List String)) :=
  (Command.run (Client.new i.address) send i.address now i.command).run

end Lookout
