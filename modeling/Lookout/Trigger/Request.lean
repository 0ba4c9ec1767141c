import Lookout.Trigger.Json

/-!
# What clients send and receive

* `CreateRequest`: what a new trigger is made of. Its time to expire is a text that is not read yet.
* `Summary`: what a listing tells about a trigger.
* `Status`: the numbers of cached entries, pending checks and armed triggers.
-/

namespace Lookout

/-- What a new trigger is made of. -/
structure CreateRequest where
  patterns : List Pattern
  principal : String
  vars : VariableSet
  timeToExpire : Option String
  projectId : Int64
  flowName : String
  webhookUrl : Option String
  recurrence : Recurrence
  submitUser : String
  deriving DecidableEq, Repr

namespace CreateRequest

open Trigger (textField patternsField recurrenceField projectField)

/-- The field of the variables, none if it is missing. -/
def variablesField : Json.Field VariableSet :=
  { name := "variables", decode := VariableSet.ofJson, absence := .anywhere VariableSet.empty }

/-- A field that holds a string or null, null if it is missing. -/
def optionalField (name : String) : Json.Field (Option String) :=
  { name, decode := Json.asOption Json.asString, absence := .anywhere none }

/-- The fields in their order. -/
def slots : List Json.Slot :=
  [patternsField.slot, (textField "principal").slot, variablesField.slot,
   (optionalField "time_to_expire").slot, projectField.slot, (textField "flow_name").slot,
   (optionalField "webhook_url").slot, recurrenceField.slot, (textField "submit_user").slot]

/-- Takes the fields out of a row. -/
def ofRow (row : Json.Row) : Except DecodeError CreateRequest := do
  let patterns ← row.get patternsField
  let principal ← row.get (textField "principal")
  let vars ← row.get variablesField
  let timeToExpire ← row.get (optionalField "time_to_expire")
  let projectId ← row.get projectField
  let flowName ← row.get (textField "flow_name")
  let webhookUrl ← row.get (optionalField "webhook_url")
  let recurrence ← row.get recurrenceField
  let submitUser ← row.get (textField "submit_user")
  return { patterns, principal, vars, timeToExpire, projectId, flowName, webhookUrl,
           recurrence, submitUser }

/-- Requests as records. -/
def record : Json.Record CreateRequest :=
  { description := "struct CreateTrigger", slots, ofRow }

/-- Reads a request. -/
def ofJson : Json → Except DecodeError CreateRequest :=
  Json.asRecord record

/-- Writes a request. -/
def toJson (r : CreateRequest) : Json :=
  .object
    [("path_patterns", .array (r.patterns.map Pattern.toJson)),
     ("principal", .string r.principal),
     ("variables", r.vars.toJson),
     ("time_to_expire", Json.ofOption .string r.timeToExpire),
     ("project_id", .integer r.projectId.toInt),
     ("flow_name", .string r.flowName),
     ("webhook_url", Json.ofOption .string r.webhookUrl),
     ("recurrence", r.recurrence.toJson),
     ("submit_user", .string r.submitUser)]

end CreateRequest

/-- What a listing tells about a trigger. -/
structure Summary where
  id : Uuid
  description : String
  dataSource : String
  principal : String
  patterns : List Pattern
  projectId : Int64
  flowName : String
  recurrence : Recurrence
  submitUser : String
  submitTime : Instant
  armedAt : Instant
  expiresAt : Option Instant
  deriving DecidableEq, Repr

namespace Summary

open Trigger (textField timeField idField patternsField projectField)

/-- The field of the recurrence. -/
def recurrenceField : Json.Field Recurrence :=
  { name := "recurrence", decode := Recurrence.ofJson }

/-- The field of the end of the arming period; in an object it may be missing. -/
def expiresField : Json.Field (Option Instant) :=
  { name := "expires_at", decode := Json.asOption Instant.ofJson, absence := .inObject none }

/-- The fields in their order. -/
def slots : List Json.Slot :=
  [idField.slot, (textField "description").slot, (textField "data_source").slot,
   (textField "principal").slot, patternsField.slot, projectField.slot,
   (textField "flow_name").slot, recurrenceField.slot, (textField "submit_user").slot,
   (timeField "submit_time").slot, (timeField "armed_at").slot, expiresField.slot]

/-- Takes the fields out of a row. -/
def ofRow (row : Json.Row) : Except DecodeError Summary := do
  let id ← row.get idField
  let description ← row.get (textField "description")
  let dataSource ← row.get (textField "data_source")
  let principal ← row.get (textField "principal")
  let patterns ← row.get patternsField
  let projectId ← row.get projectField
  let flowName ← row.get (textField "flow_name")
  let recurrence ← row.get recurrenceField
  let submitUser ← row.get (textField "submit_user")
  let submitTime ← row.get (timeField "submit_time")
  let armedAt ← row.get (timeField "armed_at")
  let expiresAt ← row.get expiresField
  return { id, description, dataSource, principal, patterns, projectId, flowName, recurrence,
           submitUser, submitTime, armedAt, expiresAt }

/-- Summaries as records. -/
def record : Json.Record Summary :=
  { description := "struct TriggerSummary", slots, ofRow }

/-- Reads a summary. -/
def ofJson : Json → Except DecodeError Summary :=
  Json.asRecord record

/-- Writes a summary. -/
def toJson (s : Summary) : Json :=
  .object
    [("id", s.id.toJson),
     ("description", .string s.description),
     ("data_source", .string s.dataSource),
     ("principal", .string s.principal),
     ("path_patterns", .array (s.patterns.map Pattern.toJson)),
     ("project_id", .integer s.projectId.toInt),
     ("flow_name", .string s.flowName),
     ("recurrence", s.recurrence.toJson),
     ("submit_user", .string s.submitUser),
     ("submit_time", s.submitTime.toJson),
     ("armed_at", s.armedAt.toJson),
     ("expires_at", Json.ofOption Instant.toJson s.expiresAt)]

end Summary

/-- The summary of a trigger. -/
def Trigger.summary (t : Trigger) : Summary :=
  { id := t.id
    description := t.description
    dataSource := t.dataSource
    principal := t.principal
    patterns := t.patterns
    projectId := t.projectId
    flowName := t.flowName
    recurrence := t.recurrence
    submitUser := t.submitUser
    submitTime := t.submitTime
    armedAt := t.armedAt
    expiresAt := t.expiresAt? }

/-- How much there is in the engine. -/
structure Status where
  cachedEntries : Nat
  pendingChecks : Nat
  armedTriggers : Nat
  deriving DecidableEq, Repr

namespace Status

/-- A field that holds a count. -/
def countField (name : String) : Json.Field Nat :=
  { name, decode := Json.asCount }

/-- The fields in their order. -/
def slots : List Json.Slot :=
  [(countField "cached_entries").slot, (countField "pending_checks").slot,
   (countField "armed_triggers").slot]

/-- Takes the fields out of a row. -/
def ofRow (row : Json.Row) : Except DecodeError Status := do
  let cachedEntries ← row.get (countField "cached_entries")
  let pendingChecks ← row.get (countField "pending_checks")
  let armedTriggers ← row.get (countField "armed_triggers")
  return { cachedEntries, pendingChecks, armedTriggers }

/-- Statuses as records. -/
def record : Json.Record Status :=
  { description := "struct CheckerStatus", slots, ofRow }

/-- Reads a status. -/
def ofJson : Json → Except DecodeError Status :=
  Json.asRecord record

/-- Writes a status. -/
def toJson (s : Status) : Json :=
  .object
    [("cached_entries", .integer s.cachedEntries),
     ("pending_checks", .integer s.pendingChecks),
     ("armed_triggers", .integer s.armedTriggers)]

end Status
end Lookout
