import Lookout.Command.Assignment
import Lookout.Command.Grammar
import Lookout.Trigger.Request

/-!
# The commands

* `Command`: what a user may ask for.
* `Invocation.ofArguments`: reads the command line.

```text
[--server-url URL] trigger create -p PATTERN.. --principal P --project N --flow F
                                  [-v VAR].. [-e PERIOD] [--webhook URL] [--recurring] [--user U]
                   trigger list [-s SOURCE]
                   trigger get ID
                   trigger update ID [-p PATTERN].. [-e PERIOD] [--flow F]
                   trigger remove ID
                   pattern resolve PATTERN [-v VAR].. [-w WINDOWS]
                   status
```
-/

namespace Lookout.Command

/-- What is to be changed in a trigger. -/
structure Change where
  /-- The new patterns; none for no change. -/
  patterns : List Pattern
  /-- The new time to expire as a period, which is not read yet. -/
  expire : Option String
  flowName : Option String
  deriving DecidableEq, Repr

end Command

open Command

/-- What a user may ask for. -/
inductive Command
  | create (request : CreateRequest)
  | list (source : Option String)
  | get (reference : String)
  | update (reference : String) (change : Change)
  | remove (reference : String)
  | resolve (pattern : Pattern) (vars : VariableSet) (windows : Nat)
  | status
  deriving DecidableEq, Repr

/-- A command and the address of the server. -/
structure Invocation where
  address : String
  command : Command
  deriving DecidableEq, Repr

namespace Command

/-! ## Grammar -/

/-- The error of a reader as a reason for which a value is refused. -/
def reason {ε α : Type} (message : ε → String) : Except ε α → Option String
  | .ok _ => none
  | .error e => some (message e)

/-- Reads a count of windows. -/
def readWindows (s : String) : Except Text.IntegerError Nat :=
  Text.readNat Text.maxCount s.toList

/-- Reads the number of a project. -/
def readProject (s : String) : Except Text.IntegerError Int64 :=
  Text.readInt64 s.toList

/-- Variables, any number of them. -/
def variableRule : OptionRule :=
  { name := "var", letter := some 'v', arity := .repeated
    refuses := fun s => reason AssignmentError.message (readAssignment s) }

/-- Patterns, any number of them. -/
def patternRule : OptionRule :=
  { name := "pattern", letter := some 'p', arity := .repeated }

/-- A time to expire. -/
def expireRule : OptionRule :=
  { name := "expire", letter := some 'e', arity := .single }

/-- A flow. -/
def flowRule : OptionRule :=
  { name := "flow", arity := .single }

/-- The options of a new trigger. -/
def createRules : List OptionRule :=
  [{ patternRule with needed := true },
   { name := "principal", arity := .single, needed := true },
   variableRule,
   expireRule,
   { name := "project", arity := .single, needed := true
     refuses := fun s => reason Text.IntegerError.message (readProject s) },
   { flowRule with needed := true },
   { name := "webhook", arity := .single },
   { name := "recurring", arity := .flag },
   { name := "user", arity := .single }]

/-- The options of a preview. -/
def resolveRules : List OptionRule :=
  [variableRule,
   { name := "windows", letter := some 'w', arity := .single
     refuses := fun s => reason Text.IntegerError.message (readWindows s) }]

/-- The commands about triggers. -/
def triggerMenu : Grammar :=
  .menu []
    [("create", .leaf createRules []),
     ("list", .leaf [{ name := "source", letter := some 's', arity := .single }] []),
     ("get", .leaf [] ["id"]),
     ("update", .leaf [patternRule, expireRule, flowRule] ["id"]),
     ("remove", .leaf [] ["id"])]

/-- The command line. -/
def grammar : Grammar :=
  .menu [{ name := "server-url", arity := .single }]
    [("trigger", triggerMenu),
     ("pattern", .menu [] [("resolve", .leaf resolveRules ["pattern"])]),
     ("status", .leaf [] [])]

/-! ## From arguments to commands -/

/-- The variables that are given. -/
def givenVariables (r : Reading) : VariableSet :=
  VariableSet.ofList ((r.values "var").filterMap fun s => (readAssignment s).toOption)

/-- The patterns that are given. -/
def patterns (r : Reading) : List Pattern :=
  (r.values "pattern").map Pattern.mk

/-- The new trigger that is asked for. Without a user it is submitted by `user`. -/
def createRequest (user : String) (r : Reading) : CreateRequest :=
  { patterns := patterns r
    principal := (r.value? "principal").getD ""
    vars := givenVariables r
    timeToExpire := r.value? "expire"
    projectId := ((r.value? "project").bind fun s => (readProject s).toOption).getD 0
    flowName := (r.value? "flow").getD ""
    webhookUrl := r.value? "webhook"
    recurrence := if r.has "recurring" then .recurring else .once
    submitUser := (r.value? "user").getD user }

/-- The change that is asked for. -/
def change (r : Reading) : Change :=
  { patterns := patterns r, expire := r.value? "expire", flowName := r.value? "flow" }

/-- The first word. -/
def firstWord (r : Reading) : String :=
  r.words.headD ""

/-- The command that is asked for, if it is one of the grammar. -/
def ofReading? (user : String) (r : Reading) : Option Command :=
  match r.commands with
  | ["trigger", "create"] => some (.create (createRequest user r))
  | ["trigger", "list"] => some (.list (r.value? "source"))
  | ["trigger", "get"] => some (.get (firstWord r))
  | ["trigger", "update"] => some (.update (firstWord r) (change r))
  | ["trigger", "remove"] => some (.remove (firstWord r))
  | ["pattern", "resolve"] =>
    some
      (.resolve { text := firstWord r } (givenVariables r)
        (((r.value? "windows").bind fun s => (readWindows s).toOption).getD 0))
  | ["status"] => some .status
  | _ => none

end Command

/-- The user if nothing else is known. -/
def defaultUser : String := "datawatch"

/-- The address of the server if nothing else is known. -/
def defaultAddress : String := "http://localhost:8080"

/-- Reads the command line. The environment may tell the user and the address of the server. -/
def Invocation.ofArguments (user address : Option String) (args : List String) :
    Except UsageError Invocation :=
  match grammar.read args with
  | .error e => .error e
  | .ok r =>
    match Command.ofReading? (user.getD defaultUser) r with
    | none => .error .unknownCommand
    | some command =>
      .ok { address := (r.value? "server-url").getD (address.getD defaultAddress), command }

end Lookout
