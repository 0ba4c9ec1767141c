import Lookout.Json.Skip

/-!
# Reading JSON texts

* `Json.read`: reads the value at the start of a text from left to right and stops at the first
  fault. The outcome is a `Reading`: the value as far as it could be read, and the text after it.
  Arrays and objects nest at most 127 deep.
* `Shape`: what is known about a value before it is read. Of a record, members that are no fields
  are passed over; all that is found out about them is where they end.
* `Json.parse?`: the value of a text that is one JSON value with blanks around it.
-/

namespace Lookout.Json

/-- What is known about a value before it is read. -/
inductive Shape
  | any
  /-- Of an object, only the members of these names matter. -/
  | record (names : List String)
  /-- If the value is an array, its items have this shape. -/
  | list (item : Shape)

/-- The shape of the items of an array. -/
def Shape.item : Shape → Shape
  | list item => item
  | _ => any

/-- The member of this name does not matter. -/
def Shape.skips (name : String) : Shape → Bool
  | record names => !names.contains name
  | _ => false

/-- What comes of reading a value. -/
structure Reading where
  /-- The value as far as it could be read. -/
  value : Json
  /-- The text after the value, none if there was a fault in it. -/
  rest? : Option (List Char)

namespace Reading

/-- Reading came to an end in a value of which this much could be read. -/
def stopped (value : Json) : Reading :=
  { value, rest? := none }

/-- Nothing could be read. -/
def nothing : Reading :=
  stopped (.unreadable none)

/-- A value could be read if there is one. -/
def ofOption : Option (Json × List Char) → Reading
  | some (value, rest) => { value, rest? := some rest }
  | none => nothing

end Reading

/-- Reads a value that is neither array nor object. -/
def readScalar : List Char → Reading
  | 'n' :: 'u' :: 'l' :: 'l' :: r => { value := .null, rest? := some r }
  | 't' :: 'r' :: 'u' :: 'e' :: r => { value := .bool true, rest? := some r }
  | 'f' :: 'a' :: 'l' :: 's' :: 'e' :: r => { value := .bool false, rest? := some r }
  | '"' :: r => .ofOption ((readString? r).map fun (s, r) => (.string s, r))
  | s => .ofOption ((Numeral.read? s).bind fun (n, r) => n.value?.map (·, r))

/-- Passes over a value; nothing is known of it but whether it can be read. -/
def readSkipped (fuel : Nat) (s : List Char) : Reading :=
  .ofOption ((skipValue? fuel s).map (.null, ·))

mutual

/-- Reads a value. With `fuel` at least `2 * s.length + 2` the fuel does not run out. -/
def readValue : (fuel depth : Nat) → Shape → List Char → Reading
  | 0, _, _, _ => .nothing
  | fuel + 1, depth, shape, s =>
    match skipSpace s with
    | '[' :: r =>
      if depth ≤ 1 then .nothing
      else
        match skipSpace r with
        | ']' :: r => { value := .array [], rest? := some r }
        | r => readItems fuel (depth - 1) shape.item r []
    | '\x7b' :: r =>
      if depth ≤ 1 then .nothing
      else
        match skipSpace r with
        | '\x7d' :: r => { value := .object [], rest? := some r }
        | r => readMembers fuel (depth - 1) shape r []
    | r => readScalar r

/-- Reads the items of an array up to the closing bracket, after those in `acc`, which are in
reverse. -/
def readItems : (fuel depth : Nat) → Shape → List Char → (acc : List Json) → Reading
  | 0, _, _, _, _ => .nothing
  | fuel + 1, depth, shape, s, acc =>
    match readValue fuel depth shape s with
    | { value, rest? := none } => .stopped (.array (value :: acc).reverse)
    | { value, rest? := some r } =>
      match skipSpace r with
      | ',' :: r => readItems fuel depth shape r (value :: acc)
      | ']' :: r => { value := .array (value :: acc).reverse, rest? := some r }
      | _ => .stopped (.array (.unreadable none :: value :: acc).reverse)

/-- Reads the members of an object up to the closing brace, after those in `acc`, which are in
reverse. -/
def readMembers : (fuel depth : Nat) → Shape → List Char → (acc : List (String × Json)) → Reading
  | 0, _, _, _, _ => .nothing
  | fuel + 1, depth, shape, s, acc =>
    let nameless (instead : Json) : Reading :=
      .stopped (.object (("", .unreadable (some instead)) :: acc).reverse)
    match skipSpace s with
    | '"' :: r =>
      match readString? r with
      | none => nameless (.unreadable none)
      | some (name, r) =>
        match skipSpace r with
        | ':' :: r =>
          let reading :=
            if shape.skips name then readSkipped fuel r else readValue fuel depth .any r
          match reading with
          | { value, rest? := none } => .stopped (.object ((name, value) :: acc).reverse)
          | { value, rest? := some r } =>
            let acc := (name, value) :: acc
            match skipSpace r with
            | ',' :: r => readMembers fuel depth shape r acc
            | '\x7d' :: r => { value := .object acc.reverse, rest? := some r }
            | _ => .stopped (.object (("", .unreadable none) :: acc).reverse)
        | _ => .stopped (.object ((name, .unreadable none) :: acc).reverse)
    | r => nameless (readValue fuel depth .any r).value

end

/-- The deepest nesting, and one. -/
def maxDepth : Nat := 128

/-- Reads the value at the start of a text. -/
def read (shape : Shape) (s : List Char) : Reading :=
  readValue (2 * s.length + 2) maxDepth shape s

/-- Reads a text that is one value. -/
def parse? (text : String) : Option Json :=
  match read .any text.toList with
  | { value, rest? := some rest } => if (skipSpace rest).isEmpty then some value else none
  | { value := _, rest? := none } => none

end Lookout.Json
