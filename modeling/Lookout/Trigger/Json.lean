import Lookout.Calendar.Timestamp
import Lookout.Trigger

/-!
# Triggers in JSON

* Instants are time stamps, durations are periods, recurrences are names.
* An action is an object whose member `type` names it; `["webhook", url]` is read too.
-/

namespace Lookout

/-! ## Instants and durations -/

/-- An instant as a time stamp. -/
def Instant.toJson (t : Instant) : Json :=
  .string t.timestamp

/-- An instant from a time stamp. -/
def Instant.ofJson : Json → Except DecodeError Instant
  | .string s =>
    match Instant.ofTimestamp? s with
    | some t => .ok t
    | none => .error .timestamp
  | j => .error (j.wrongType "an RFC 3339 formatted date and time string")

/-- A duration as a period, without its nanoseconds. -/
def Duration.toJson (d : Duration) : Json :=
  .string d.period

/-- A duration from a period. -/
def Duration.ofJson (j : Json) : Except DecodeError Duration :=
  match Json.asString j with
  | .error e => .error e
  | .ok s =>
    match Duration.ofPeriod s with
    | .ok d => .ok d
    | .error e => .error (.period e)

/-! ## Recurrences -/

namespace Recurrence

/-- The name of a recurrence. -/
def name : Recurrence → String
  | once => "once"
  | recurring => "recurring"

/-- The recurrences. -/
def all : List Recurrence :=
  [once, recurring]

/-- The recurrence of a name. -/
def ofName (s : String) : Except DecodeError Recurrence :=
  match all.find? fun r => r.name == s with
  | some r => .ok r
  | none => .error (.unknownVariant s (all.map name))

/-- Writes the name. -/
def toJson (r : Recurrence) : Json :=
  .string r.name

/-- Reads the member of an object that has the name and is null. -/
def ofMember (s : String) (j : Json) : Except DecodeError Recurrence :=
  match ofName s, j with
  | .error e, _ => .error e
  | .ok r, .null => .ok r
  | .ok _, j => .error (j.wrongType "unit")

/-- Reads a name, or an object whose only member has the name and is null. -/
def ofJson : Json → Except DecodeError Recurrence
  | .string s => ofName s
  | .object [] => .error (.notSingleKey true)
  | .object ((_, .unreadable (some instead)) :: _) =>
    .error (instead.wrongType "variant identifier")
  | .object [(s, j)] => ofMember s j
  | .object ((s, j) :: _ :: _) => .error (.notSingleKey (ofMember s j).isOk)
  | j => .error (.notNameOrMap j.describe)

end Recurrence

/-! ## Actions -/

namespace Action

/-- The kinds of actions. -/
inductive Kind
  | executeFlow
  | webhook
  deriving DecidableEq, Repr

/-- The name of a kind. -/
def Kind.name : Kind → String
  | executeFlow => "execute_flow"
  | webhook => "webhook"

/-- The kinds. -/
def Kind.all : List Kind :=
  [executeFlow, webhook]

/-- Reads the name of a kind. -/
def Kind.ofJson : Json → Except DecodeError Kind
  | .string s =>
    match all.find? fun k => k.name == s with
    | some k => .ok k
    | none => .error (.unknownVariant s (all.map name))
  | j => .error (j.wrongType "variant identifier")

/-- The member that names the kind. -/
def kindName : String := "type"

/-- The field of the project. -/
def projectField : Json.Field Int64 :=
  { name := "project_id", decode := Json.asInt64 }

/-- The field of the flow. -/
def flowField : Json.Field String :=
  { name := "flow_name", decode := Json.asString }

/-- The field of the address. -/
def urlField : Json.Field String :=
  { name := "url", decode := Json.asString }

/-- The fields of a kind. -/
def Kind.slots : Kind → List Json.Slot
  | executeFlow => [projectField.slot, flowField.slot]
  | webhook => [urlField.slot]

/-- The description of a kind. -/
def Kind.description : Kind → String
  | executeFlow => "struct variant TriggerAction::ExecuteFlow"
  | webhook => "struct variant TriggerAction::Webhook"

/-- Takes the fields of a kind out of a row. -/
def Kind.ofRow (row : Json.Row) : Kind → Except DecodeError Action
  | executeFlow => do
    let projectId ← row.get projectField
    let flowName ← row.get flowField
    return .executeFlow projectId flowName
  | webhook => do
    let url ← row.get urlField
    return .webhook url

/-- The kind among members, and the other members. A second kind is refused, and the values of the
other members must be readable, whatever they are. -/
def splitKind : List (String × Json) → (kind : Option Kind) → (others : List (String × Json)) →
    Except DecodeError (Option Kind × List (String × Json))
  | [], kind, others => .ok (kind, others)
  | (name, j) :: rest, kind, others =>
    if name = kindName then
      if kind.isSome then .error (.duplicateField kindName)
      else
        match Kind.ofJson j with
        | .error e => .error e
        | .ok k => splitKind rest (some k) others
    else if j.isReadable then splitKind rest kind (others ++ [(name, j)])
    else .error .unreadable

/-- Reads an action. -/
def ofJson : Json → Except DecodeError Action
  | .object members => do
    match ← splitKind members none [] with
    | (none, _) => .error (.missingField kindName)
    | (some kind, others) => kind.ofRow (← Json.rowOfObject kind.slots others)
  | .array [] => .error (.missingField kindName)
  | .array (j :: items) => do
    let kind ← Kind.ofJson j
    if !Json.areReadable items then .error .unreadable
    else
      let action ← kind.ofRow (Json.rowOfArray kind.description kind.slots items)
      if kind.slots.length < items.length then
        .error (.invalidLength items.length (Json.elements kind.slots.length ++ " in sequence"))
      else return action
  | j => .error (j.wrongType "internally tagged enum TriggerAction")

/-- Writes an action. -/
def toJson : Action → Json
  | executeFlow projectId flowName =>
    .object
      [(kindName, .string Kind.executeFlow.name),
       (projectField.name, .integer projectId.toInt),
       (flowField.name, .string flowName)]
  | webhook url =>
    .object [(kindName, .string Kind.webhook.name), (urlField.name, .string url)]

end Action

/-! ## Triggers -/

namespace Trigger

/-- A field that holds a string. -/
def textField (name : String) : Json.Field String :=
  { name, decode := Json.asString }

/-- A field that holds an instant. -/
def timeField (name : String) : Json.Field Instant :=
  { name, decode := Instant.ofJson }

/-- The field of the identifier. -/
def idField : Json.Field Uuid :=
  { name := "id", decode := Uuid.ofJson }

/-- The field of the patterns. -/
def patternsField : Json.Field (List Pattern) :=
  { name := "path_patterns", decode := Json.asList Pattern.ofJson }

/-- The field of the variables. -/
def variablesField : Json.Field VariableSet :=
  { name := "variables", decode := VariableSet.ofJson }

/-- The field of the time to expire. -/
def timeToExpireField : Json.Field Duration :=
  { name := "time_to_expire", decode := Duration.ofJson }

/-- The field of the action. -/
def actionField : Json.Field Action :=
  { name := "action", decode := Action.ofJson }

/-- The field of the recurrence, `once` if it is missing. -/
def recurrenceField : Json.Field Recurrence :=
  { name := "recurrence", decode := Recurrence.ofJson, absence := .anywhere .once }

/-- The field of the project. -/
def projectField : Json.Field Int64 :=
  { name := "project_id", decode := Json.asInt64 }

/-- The fields in their order. -/
def slots : List Json.Slot :=
  [idField.slot, (textField "data_source").slot, patternsField.slot, variablesField.slot,
   (textField "principal").slot, timeToExpireField.slot, actionField.slot, recurrenceField.slot,
   projectField.slot, (textField "flow_name").slot, (timeField "last_modify_time").slot,
   (timeField "submit_time").slot, (timeField "armed_at").slot, (textField "submit_user").slot]

/-- Takes the fields out of a row. -/
def ofRow (row : Json.Row) : Except DecodeError Trigger := do
  let id ← row.get idField
  let dataSource ← row.get (textField "data_source")
  let patterns ← row.get patternsField
  let vars ← row.get variablesField
  let principal ← row.get (textField "principal")
  let timeToExpire ← row.get timeToExpireField
  let action ← row.get actionField
  let recurrence ← row.get recurrenceField
  let projectId ← row.get projectField
  let flowName ← row.get (textField "flow_name")
  let lastModifyTime ← row.get (timeField "last_modify_time")
  let submitTime ← row.get (timeField "submit_time")
  let armedAt ← row.get (timeField "armed_at")
  let submitUser ← row.get (textField "submit_user")
  return { id, dataSource, patterns, vars, principal, timeToExpire, action, recurrence,
           projectId, flowName, lastModifyTime, submitTime, armedAt, submitUser }

/-- Triggers as records. -/
def record : Json.Record Trigger :=
  { description := "struct Trigger", slots, ofRow }

/-- Reads a trigger. -/
def ofJson : Json → Except DecodeError Trigger :=
  Json.asRecord record

/-- Writes a trigger. -/
def toJson (t : Trigger) : Json :=
  .object
    [("id", t.id.toJson),
     ("data_source", .string t.dataSource),
     ("path_patterns", .array (t.patterns.map Pattern.toJson)),
     ("variables", t.vars.toJson),
     ("principal", .string t.principal),
     ("time_to_expire", t.timeToExpire.toJson),
     ("action", t.action.toJson),
     ("recurrence", t.recurrence.toJson),
     ("project_id", .integer t.projectId.toInt),
     ("flow_name", .string t.flowName),
     ("last_modify_time", t.lastModifyTime.toJson),
     ("submit_time", t.submitTime.toJson),
     ("armed_at", t.armedAt.toJson),
     ("submit_user", .string t.submitUser)]

end Trigger
end Lookout
