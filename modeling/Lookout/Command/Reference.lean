import Lookout.Text.LowerCase
import Lookout.Uuid

/-!
# References to triggers

A trigger is referred to by its identifier, or by the first characters of it.

* `Reference.ofText` reads a reference: whatever is an identifier refers to itself.
* `Reference.pick` finds the identifier that begins with the given characters, in any case. There
  must be exactly one.
-/

namespace Lookout.Command

/-- A reference to a trigger. -/
inductive Reference
  | id (id : Uuid)
  /-- The first characters of an identifier. -/
  | start (text : String)
  deriving DecidableEq, Repr

/-- The reasons for which a reference does not name a trigger; the text is in lower case. -/
inductive ReferenceError
  | unknown (text : String)
  | ambiguous (text : String) (ids : List Uuid)
  deriving DecidableEq, Repr

/-- The wording of a reference error. -/
def ReferenceError.message : ReferenceError → String
  | .unknown text => "No trigger found with ID starting with '" ++ text ++ "'"
  | .ambiguous text ids =>
    "Ambiguous prefix '" ++ text ++ "' matches multiple triggers: " ++
      ", ".intercalate (ids.map Uuid.text)

namespace Reference

/-- Reads a reference. -/
def ofText (s : String) : Reference :=
  match Uuid.ofText? s with
  | some u => .id u
  | none => .start s

/-- The identifier, if the reference is one. -/
def uuid? : Reference → Option Uuid
  | .id u => some u
  | .start _ => none

/-- The text of a reference. -/
def text : Reference → String
  | .id u => u.text
  | .start s => s

/-- The identifiers that begin with a text. -/
def startingWith (text : String) (ids : List Uuid) : List Uuid :=
  ids.filter fun u => text.toList.isPrefixOf u.chars

/-- The one identifier that begins with a text, in any case. -/
def pick (ids : List Uuid) (text : String) : Except ReferenceError Uuid :=
  let text := Text.lowered text
  match startingWith text ids with
  | [] => .error (.unknown text)
  | [u] => .ok u
  | found => .error (.ambiguous text found)

end Reference
end Lookout.Command
