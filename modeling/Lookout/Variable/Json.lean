import Lookout.Json.Decode
import Lookout.Variable

/-!
# Variables in JSON

A variable is the pair `[value, increment]`, and variables are an object of such pairs. On reading,
each component may also be a string that holds the integer between blanks.
-/

namespace Lookout

/-- A component of a pair: an integer or a text. -/
inductive PairComponent
  | integer (n : Int64)
  | text (s : String)

namespace PairComponent

/-- An integer of 64 bits or a string. Any other value is refused, once it is read to its end. -/
def ofJson : Json → Except DecodeError PairComponent
  | .string s => .ok (.text s)
  | .integer n =>
    if Json.fitsInt64 n then .ok (.integer (Int64.ofInt n)) else .error (.noVariant "PairComponent")
  | j => .error (if j.isReadable then .noVariant "PairComponent" else .unreadable)

/-- The integer, read from the text between blanks if it is one. -/
def toInt64 : PairComponent → Except DecodeError Int64
  | .integer n => .ok n
  | .text s =>
    match Text.readInt64 (Text.trim s.toList) with
    | .ok n => .ok n
    | .error _ => .error (.notInteger s)

end PairComponent

namespace Variable

/-- The pair of value and increment. -/
def toJson (v : Variable) : Json :=
  .array [.integer v.value.toInt, .integer v.increment.toInt]

/-- The description of a pair. -/
def pairDescription : String :=
  "an array of length 2"

/-- Reads a pair. Both components are looked at before either text is read. -/
def ofJson : Json → Except DecodeError Variable
  | .array [] => .error (.invalidLength 0 pairDescription)
  | .array [j] => do
    let _ ← PairComponent.ofJson j
    .error (.invalidLength 1 pairDescription)
  | .array (j :: k :: rest) => do
    let value ← PairComponent.ofJson j
    let increment ← PairComponent.ofJson k
    if rest.isEmpty then
      return { value := ← value.toInt64, increment := ← increment.toInt64 }
    else .error (.surplus (rest.length + 2))
  | j => .error (j.wrongType pairDescription)

end Variable

namespace VariableSet

/-- An object with a pair for each variable. -/
def toJson (vars : VariableSet) : Json :=
  .object (vars.entries.map fun (name, v) => (name, v.toJson))

/-- Declares the variables of members in their order. -/
def insertMembers : List (String × Json) → VariableSet → Except DecodeError VariableSet
  | [], vars => .ok vars
  | (name, j) :: rest, vars =>
    match Variable.ofJson j with
    | .error e => .error e
    | .ok v => insertMembers rest (vars.insert name v)

/-- Reads an object of pairs. -/
def ofJson : Json → Except DecodeError VariableSet
  | .object members => insertMembers members empty
  | j => .error (j.wrongType "a map")

end VariableSet
end Lookout
