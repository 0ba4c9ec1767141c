import Lookout.Json
import Lookout.Period
import Lookout.Text.Quoted

/-!
# Decoding JSON values

* `DecodeError`: the reasons for which a JSON value does not stand for a value of a type, and their
  wording.
* `Json.asString`, `Json.asInt64`, `Json.asList`, `Json.asOption`: the plain types.
* `Json.Record`: a type of records with named fields.
* `Json.asRecord`: a record of such a type. It is given as an object, whose members are looked at in
  their order: the first wrong or doubled one decides, names that are no field are skipped, and only
  then are missing fields looked for in the order of the fields. Or it is given as an array of its
  fields in their order.

All of them look at a value from left to right. Of a value that could be read only in part, they
tell what is wrong with that part, and if nothing is, that it is unreadable.
-/

namespace Lookout

/-- The reasons for which a JSON value is refused. -/
inductive DecodeError
  /-- A value that is needed could not be read. -/
  | unreadable
  /-- A value of another kind. -/
  | invalidType (got expected : String)
  /-- A value of the right kind outside the range. -/
  | invalidValue (got expected : String)
  | missingField (name : String)
  | duplicateField (name : String)
  | unknownVariant (found : String) (known : List String)
  /-- An array that does not have the items that are expected; it is said how many there are, or
  which one is missing. -/
  | invalidLength (length : Nat) (expected : String)
  /-- An array with too many items. -/
  | surplus (given : Nat)
  /-- An object that should have one member and has another number. It may have begun well: with a
  member that could have been the one, or with none. -/
  | notSingleKey (begunWell : Bool)
  /-- A value that is neither the name of a variant nor an object that holds one. -/
  | notNameOrMap (got : String)
  /-- A value of none of the kinds that are possible in its place. -/
  | noVariant (type : String)
  | notInteger (text : String)
  | period (error : PeriodError)
  | uuid
  | timestamp
  deriving DecidableEq, Repr

namespace DecodeError

/-- Names with `or` between them. -/
def alternatives : List String → String
  | [] => "there are no variants"
  | names => "expected " ++ " or ".intercalate (names.map fun name => "`" ++ name ++ "`")

/-- The wording of a decoding error. -/
def message : DecodeError → String
  | unreadable => "malformed JSON"
  | invalidType got expected => "invalid type: " ++ got ++ ", expected " ++ expected
  | invalidValue got expected => "invalid value: " ++ got ++ ", expected " ++ expected
  | missingField name => "missing field `" ++ name ++ "`"
  | duplicateField name => "duplicate field `" ++ name ++ "`"
  | unknownVariant found known => "unknown variant `" ++ found ++ "`, " ++ alternatives known
  | invalidLength length expected =>
    "invalid length " ++ Text.showNat length ++ ", expected " ++ expected
  | surplus given =>
    "invalid length " ++ Text.showNat given ++ ", expected fewer elements in array"
  | notSingleKey _ => "invalid value: map, expected map with a single key"
  | notNameOrMap got => "invalid type: " ++ got ++ ", expected string or map"
  | noVariant type => "data did not match any variant of untagged enum " ++ type
  | notInteger text => "'" ++ text ++ "' is not an integer"
  | period error => error.message
  | uuid => "bad UUID"
  | timestamp => "bad timestamp"

/-- The faults for which a text counts as no JSON at all rather than as JSON of another shape. -/
def isSyntactic : DecodeError → Bool
  | unreadable => true
  | surplus _ => true
  | notSingleKey begunWell => begunWell
  | notNameOrMap _ => true
  | _ => false

end DecodeError

namespace Json

/-- The kind of a value, with the value of a scalar. -/
def describe : Json → String
  | .null => "null"
  | .bool true => "boolean `true`"
  | .bool false => "boolean `false`"
  | .integer n => "integer `" ++ Text.showInt n ++ "`"
  | .real x => "floating point `" ++ x.text ++ "`"
  | .string s => "string " ++ Text.quoted s
  | .array _ => "sequence"
  | .object _ => "map"
  | .unreadable _ => "nothing"

/-- The error for a value of another kind than `expected`. -/
def wrongType (j : Json) (expected : String) : DecodeError :=
  match j with
  | .unreadable _ => .unreadable
  | j => .invalidType j.describe expected

/-! ## Plain types -/

/-- A string. -/
def asString : Json → Except DecodeError String
  | .string s => .ok s
  | j => .error (j.wrongType "a string")

/-- The integer lies in the range of 64 bits with a sign. -/
def fitsInt64 (n : Int) : Bool :=
  -9223372036854775808 ≤ n && n < 9223372036854775808

/-- An integer of 64 bits. -/
def asInt64 : Json → Except DecodeError Int64
  | .integer n =>
    if fitsInt64 n then .ok (Int64.ofInt n)
    else .error (.invalidValue (describe (.integer n)) "i64")
  | j => .error (j.wrongType "i64")

/-- A count of 64 bits. -/
def asCount : Json → Except DecodeError Nat
  | .integer n =>
    if 0 ≤ n then .ok n.toNat
    else .error (.invalidValue (describe (.integer n)) "usize")
  | j => .error (j.wrongType "usize")

/-- Each item of a list, the first wrong one deciding. -/
def decodeAll {α : Type} (decode : Json → Except DecodeError α) :
    List Json → Except DecodeError (List α)
  | [] => .ok []
  | j :: rest =>
    match decode j with
    | .error e => .error e
    | .ok a =>
      match decodeAll decode rest with
      | .error e => .error e
      | .ok as => .ok (a :: as)

/-- A list. -/
def asList {α : Type} (decode : Json → Except DecodeError α) : Json → Except DecodeError (List α)
  | .array items => decodeAll decode items
  | j => .error (j.wrongType "a sequence")

/-- A value, or null. -/
def asOption {α : Type} (decode : Json → Except DecodeError α) :
    Json → Except DecodeError (Option α)
  | .null => .ok none
  | j => (decode j).map some

/-- Null for no value. -/
def ofOption {α : Type} (encode : α → Json) : Option α → Json
  | none => .null
  | some a => encode a

/-! ## Records -/

/-- What stands for a field that is not given. -/
inductive Absence (α : Type)
  /-- The field is needed. -/
  | refused
  /-- A value, in an object only. -/
  | inObject (value : α)
  /-- A value, in an object and at the end of an array. -/
  | anywhere (value : α)

/-- A field of a record. -/
structure Field (α : Type) where
  name : String
  decode : Json → Except DecodeError α
  /-- A second name under which the field may be given. -/
  otherName : Option String := none
  absence : Absence α := .refused

/-- A field without the type of its value. -/
structure Slot where
  name : String
  otherName : Option String
  check : Json → Except DecodeError Unit

/-- The field, its value only checked. -/
def Field.slot {α : Type} (f : Field α) : Slot :=
  { name := f.name, otherName := f.otherName, check := fun j => (f.decode j).map fun _ => () }

/-- The names under which the field may be given. -/
def Slot.names (s : Slot) : List String :=
  s.name :: s.otherName.toList

/-- How the fields of a record are given. -/
inductive Form
  | asObject
  /-- An array of the fields of these names for a record of that description. -/
  | asArray (names : List String) (expected : String)

/-- The fields that are given, by their names. -/
structure Row where
  entries : List (String × Json)
  form : Form

/-- The members that are fields; the first wrong, doubled or unreadable one decides. -/
def rowEntries (slots : List Slot) :
    List (String × Json) → (seen : List (String × Json)) → Except DecodeError (List (String × Json))
  | [], seen => .ok seen
  | (name, j) :: rest, seen =>
    match slots.find? fun slot => slot.names.contains name with
    | none => if j.isReadable then rowEntries slots rest seen else .error .unreadable
    | some slot =>
      if (seen.lookup slot.name).isSome then .error (.duplicateField slot.name)
      else
        match slot.check j with
        | .error e => .error e
        | .ok () => rowEntries slots rest (seen ++ [(slot.name, j)])

/-- The value of a field of a row. -/
def Row.get {α : Type} (row : Row) (f : Field α) : Except DecodeError α :=
  match row.entries.lookup f.name, row.form, f.absence with
  | some j, _, _ => f.decode j
  | none, .asObject, .inObject value => .ok value
  | none, _, .anywhere value => .ok value
  | none, .asObject, .refused => .error (.missingField f.name)
  | none, .asArray names expected, _ => .error (.invalidLength (names.idxOf f.name) expected)

/-- `1 element` or `3 elements`. -/
def elements (n : Nat) : String :=
  if n = 1 then "1 element" else Text.showNat n ++ " elements"

/-- The row of an object. -/
def rowOfObject (slots : List Slot) (members : List (String × Json)) : Except DecodeError Row :=
  (rowEntries slots members []).map fun entries => { entries, form := .asObject }

/-- The row of an array; what it is expected to be is described by `type`. -/
def rowOfArray (type : String) (slots : List Slot) (items : List Json) : Row :=
  let names := slots.map (·.name)
  { entries := names.zip items
    form := .asArray names (type ++ " with " ++ elements slots.length) }

/-- A type of records. -/
structure Record (α : Type) where
  /-- What a value of the type is called. -/
  description : String
  /-- The fields in their order. -/
  slots : List Slot
  /-- Takes the fields out of a row in their order. -/
  ofRow : Row → Except DecodeError α

/-- The names of the fields. -/
def Record.names {α : Type} (r : Record α) : List String :=
  r.slots.flatMap Slot.names

/-- A record. -/
def asRecord {α : Type} (r : Record α) : Json → Except DecodeError α
  | .object members =>
    match rowOfObject r.slots members with
    | .error e => .error e
    | .ok row => r.ofRow row
  | .array items =>
    match r.ofRow (rowOfArray r.description r.slots items) with
    | .error e => .error e
    | .ok a => if r.slots.length < items.length then .error (.surplus items.length) else .ok a
  | j => .error (j.wrongType r.description)

end Json
end Lookout
