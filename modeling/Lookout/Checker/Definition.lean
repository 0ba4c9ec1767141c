import Lookout.CheckKey
import Lookout.Variable.Json
import Lookout.Variable.Window

/-!
# Checker definitions

What a checker waits for: the paths of some patterns, checked as one principal.

* `Definition.toJson`, `Definition.ofJson`: the exchange format. On reading, the fields
  `pathPatterns` and `principal` may also be called `dataPathPatterns` and `hdfsUser`.
* `Definition.ofJsonAs`: reads a definition that must be of a given type.
-/

namespace Lookout

/-- What a checker waits for. -/
structure Definition where
  type : String
  id : String
  patterns : List Pattern
  principal : String
  vars : VariableSet
  deriving DecidableEq, Repr

/-- The reasons for which a definition is refused. -/
inductive DefinitionError
  | malformed (error : DecodeError)
  | wrongType (expected found : String)
  deriving DecidableEq, Repr

/-- The wording of a definition error. -/
def DefinitionError.message : DefinitionError → String
  | .malformed e => "malformed checker definition: " ++ e.message
  | .wrongType expected found =>
    "cannot create checker of type '" ++ expected ++ "' from definition of type '" ++ found ++ "'"

/-- A pattern as a JSON string. -/
def Pattern.toJson (p : Pattern) : Json :=
  .string p.text

/-- A pattern from a JSON string. -/
def Pattern.ofJson (j : Json) : Except DecodeError Pattern :=
  (Json.asString j).map Pattern.mk

namespace Definition

/-- The keys that the definition waits for. -/
def checkKeys (d : Definition) : Except PatternError (List CheckKey) :=
  CheckKey.ofPatterns d.vars d.principal d.patterns

/-- The definition for the next window. -/
def advance (d : Definition) : Definition :=
  { d with vars := d.vars.advance }

/-! ## Exchange format -/

/-- The field of the type. -/
def typeField : Json.Field String :=
  { name := "type", decode := Json.asString }

/-- The field of the name. -/
def idField : Json.Field String :=
  { name := "checkerId", decode := Json.asString }

/-- The field of the patterns. -/
def patternsField : Json.Field (List Pattern) :=
  { name := "pathPatterns", otherName := some "dataPathPatterns"
    decode := Json.asList Pattern.ofJson }

/-- The field of the principal. -/
def principalField : Json.Field String :=
  { name := "principal", otherName := some "hdfsUser", decode := Json.asString }

/-- The field of the variables, none if it is missing. -/
def variablesField : Json.Field VariableSet :=
  { name := "variables", decode := VariableSet.ofJson, absence := .anywhere VariableSet.empty }

/-- The fields in their order. -/
def slots : List Json.Slot :=
  [typeField.slot, idField.slot, patternsField.slot, principalField.slot, variablesField.slot]

/-- Takes the fields out of a row. -/
def ofRow (row : Json.Row) : Except DecodeError Definition := do
  let type ← row.get typeField
  let id ← row.get idField
  let patterns ← row.get patternsField
  let principal ← row.get principalField
  let vars ← row.get variablesField
  return { type, id, patterns, principal, vars }

/-- Definitions as records. -/
def record : Json.Record Definition :=
  { description := "struct CheckerDefinition", slots, ofRow }

/-- Reads a definition. -/
def ofJson : Json → Except DecodeError Definition :=
  Json.asRecord record

/-- Writes a definition. -/
def toJson (d : Definition) : Json :=
  .object
    [(typeField.name, .string d.type),
     (idField.name, .string d.id),
     (patternsField.name, .array (d.patterns.map Pattern.toJson)),
     (principalField.name, .string d.principal),
     (variablesField.name, d.vars.toJson)]

/-- Reads a definition that must be of type `expected`. -/
def ofJsonAs (expected : String) (j : Json) : Except DefinitionError Definition :=
  match ofJson j with
  | .error e => .error (.malformed e)
  | .ok d => if d.type = expected then .ok d else .error (.wrongType expected d.type)

end Definition
end Lookout
