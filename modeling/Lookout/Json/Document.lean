import Lookout.Json.Decode
import Lookout.Json.Reader

/-!
# Values in JSON texts

A value of a type is read from a text while the text itself is read, from left to right. So of two
faults the first one counts, be it one of the text or one of the value; what follows the value is
looked at last.

* `Json.Record.ofText`: a record.
* `Json.Record.listOfText`: a list of records.
-/

namespace Lookout.Json

/-- Reads a value of that shape from a text. -/
def decodeText {α : Type} (shape : Shape) (decode : Json → Except DecodeError α) (text : String) :
    Except DecodeError α :=
  let reading := read shape text.toList
  match decode reading.value with
  | .error e => .error e
  | .ok a => if reading.rest?.any fun r => (skipSpace r).isEmpty then .ok a else .error .unreadable

namespace Record

/-- The shape of a record. -/
def shape {α : Type} (r : Record α) : Shape :=
  .record r.names

/-- Reads a record from a text. -/
def ofText {α : Type} (r : Record α) : String → Except DecodeError α :=
  decodeText r.shape (asRecord r)

/-- Reads a list of records from a text. -/
def listOfText {α : Type} (r : Record α) : String → Except DecodeError (List α) :=
  decodeText (.list r.shape) (asList (asRecord r))

end Record
end Lookout.Json
