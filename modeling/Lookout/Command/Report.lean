import Lookout.Calendar.Timestamp
import Lookout.Trigger.Request

/-!
# What the commands print

Lines for a reader about triggers, in the order in which they are printed.
-/

namespace Lookout

open Text in
/-- Date and time of day, to the second. -/
def Instant.clockText (t : Instant) : String :=
  let leap := if t.inLeapSecond then 1 else 0
  String.ofList
    (yearText t.date.year ++ '-' :: padded 2 t.date.month ++ '-' :: padded 2 t.date.day ++
      ' ' :: padded 2 (t.second / 3600) ++ ':' :: padded 2 (t.second / 60 % 60) ++
      ':' :: padded 2 (t.second % 60 + leap))

namespace Command.Report

/-- A flow: the project and the name. -/
def flowText (projectId : Int64) (flowName : String) : String :=
  Text.showInt projectId.toInt ++ ":" ++ flowName

/-- A text with blanks up to a width. -/
def padEnd (width : Nat) (s : String) : String :=
  String.ofList (s.toList ++ List.replicate (width - s.toList.length) ' ')

/-- An integer with its sign. -/
def signed (n : Int) : String :=
  (if 0 ≤ n then "+" else "") ++ Text.showInt n

/-- A variable: name, value and increment. -/
def variableLine (name : String) (v : Variable) : String :=
  padEnd 8 name ++ " " ++ Text.showInt v.value.toInt ++ " (" ++ signed v.increment.toInt ++ ")"

/-- A new trigger. -/
def created (t : Trigger) : List String :=
  ["✓ Trigger created successfully!",
   "  ID:       " ++ t.id.text,
   "  Flow:     " ++ flowText t.projectId t.flowName] ++
    (t.patterns.map fun p => "  Pattern:  " ++ p.text) ++
    (t.expiresAt?.map fun deadline => "  Expires:  " ++ deadline.clockText).toList

/-- A trigger that was changed. -/
def updated (t : Trigger) : List String :=
  ("✓ Trigger " ++ t.id.text ++ " updated successfully!") ::
    t.patterns.map fun p => "  Pattern:  " ++ p.text

/-- A trigger that was removed. -/
def removed (id : Uuid) : List String :=
  ["✓ Trigger " ++ id.text ++ " removed successfully!"]

/-- One trigger of a listing. -/
def summary (s : Summary) : List String :=
  ["  ▸ " ++ flowText s.projectId s.flowName,
   "    ID:       " ++ s.id.text,
   "    Source:   " ++ s.dataSource,
   "    Patterns: " ++ Text.showNat s.patterns.length,
   "    Armed:    " ++ s.armedAt.clockText] ++
    (s.expiresAt.map fun deadline => "    Expires:  " ++ deadline.clockText).toList ++ [""]

/-- A listing. -/
def listing : List Summary → List String
  | [] => ["No triggers found."]
  | summaries =>
    ["Found " ++ Text.showNat summaries.length ++ " trigger(s):", ""] ++ summaries.flatMap summary

/-- The name of a recurrence for a reader. -/
def recurrenceText : Recurrence → String
  | .once => "Once"
  | .recurring => "Recurring"

/-- An action for a reader. -/
def actionText : Action → String
  | .executeFlow projectId flowName => "execute flow " ++ flowText projectId flowName
  | .webhook url => "webhook " ++ url

/-- A pattern and its path, or why it has none. -/
def patternLine (t : Trigger) (p : Pattern) : String :=
  let path := match p.resolve t.vars with
    | .ok path => path
    | .error e => e.message
  "  " ++ p.text ++ " → " ++ path

/-- The variables of a trigger, if it has any. -/
def variableLines (vars : VariableSet) : List String :=
  match vars.entries with
  | [] => []
  | entries => ["", "Variables:"] ++ entries.map fun (name, v) => "  " ++ variableLine name v

/-- All about a trigger. -/
def details (t : Trigger) : List String :=
  ["Trigger Details:",
   "  ID:          " ++ t.id.text,
   "  Description: " ++ t.description,
   "  Flow:        " ++ flowText t.projectId t.flowName,
   "  Source:      " ++ t.dataSource,
   "  Principal:   " ++ t.principal,
   "  Submitted:   " ++ t.submitTime.clockText ++ " by " ++ t.submitUser,
   "  Armed:       " ++ t.armedAt.clockText,
   "  Recurrence:  " ++ recurrenceText t.recurrence,
   "  Action:      " ++ actionText t.action,
   "",
   "Patterns:"] ++
    t.patterns.map (patternLine t) ++ variableLines t.vars

/-- The state of a server. -/
def status (address : String) (s : Status) : List String :=
  ["✓ " ++ address,
   "  Armed triggers:  " ++ Text.showNat s.armedTriggers,
   "  Pending checks:  " ++ Text.showNat s.pendingChecks,
   "  Cached entries:  " ++ Text.showNat s.cachedEntries]

end Command.Report
end Lookout
