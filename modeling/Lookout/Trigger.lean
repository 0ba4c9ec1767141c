import Lookout.Checker.Definition
import Lookout.Uuid

/-!
# Triggers

A trigger waits for all of its paths to exist and then has its action carried out. It expires when
they do not appear in time.

* `Trigger.checkKeys`: the keys that the trigger waits for.
* `Trigger.expiresAt?`: the end of its arming period, none if that is past the last time stamp.
* `Trigger.isExpiredAt`: the end has passed.
* `Trigger.rearm`: starts a new arming period.
-/

namespace Lookout

/-- What is done when the data of a trigger is there. -/
inductive Action
  /-- Launches a flow of a project. -/
  | executeFlow (projectId : Int64) (flowName : String)
  /-- Sends a notice to an address. -/
  | webhook (url : String)
  deriving DecidableEq, Repr

/-- What becomes of a trigger once it has fired. -/
inductive Recurrence
  /-- It is removed. -/
  | once
  /-- It waits for the next window. -/
  | recurring
  deriving DecidableEq, Repr

/-- A trigger. -/
structure Trigger where
  id : Uuid
  dataSource : String
  patterns : List Pattern
  vars : VariableSet
  principal : String
  timeToExpire : Duration
  action : Action
  recurrence : Recurrence
  projectId : Int64
  flowName : String
  lastModifyTime : Instant
  submitTime : Instant
  /-- The start of the arming period. -/
  armedAt : Instant
  submitUser : String
  deriving DecidableEq, Repr

namespace Trigger

/-- The trigger in a few words. -/
def description (t : Trigger) : String :=
  "Data trigger " ++ t.id.text

/-- Fails at the first pattern with a variable that is not declared. -/
def validatePatterns (t : Trigger) : Except PatternError Unit :=
  t.patterns.foldl
    (fun found p => match found with
      | .ok () => p.check t.vars
      | .error e => .error e)
    (.ok ())

/-- The keys of the present window. -/
def checkKeys (t : Trigger) : Except PatternError (List CheckKey) :=
  CheckKey.ofPatterns t.vars t.principal t.patterns

/-- The end of the arming period, if it is a time stamp. -/
def expiresAt? (t : Trigger) : Option Instant :=
  t.armedAt.add? t.timeToExpire

/-- The arming period has ended. -/
def isExpiredAt (t : Trigger) (now : Instant) : Bool :=
  match t.expiresAt? with
  | some deadline => deadline < now
  | none => false

/-- Starts a new arming period. -/
def rearm (t : Trigger) (now : Instant) : Trigger :=
  { t with armedAt := now, lastModifyTime := now }

/-- The trigger in the next window of its variables. -/
def advanceVariables (t : Trigger) : Trigger :=
  { t with vars := t.vars.advance }

/-- The definition of the checker that waits for the data of the trigger. -/
def definition (t : Trigger) (type : String) : Definition :=
  { type
    id := t.dataSource ++ "DataChecker"
    patterns := t.patterns
    principal := t.principal
    vars := t.vars }

end Trigger
end Lookout
