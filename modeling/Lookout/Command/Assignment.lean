import Lookout.Text.Blank
import Lookout.Text.Pieces
import Lookout.Variable

/-!
# Variables on the command line

A variable is given as `NAME=VALUE` or `NAME=VALUE:INCREMENT`. The name ends at the first equals
sign, the value at the first colon after it; both integers may stand between blanks.
-/

namespace Lookout.Command

/-- The reasons for which a text is no assignment. -/
inductive AssignmentError
  | noEquals (text : String)
  | noName (text : String)
  | badValue (name value : String)
  | badIncrement (name increment : String)
  deriving DecidableEq, Repr

/-- The wording of an assignment error. -/
def AssignmentError.message : AssignmentError → String
  | .noEquals text => "invalid NAME=VALUE[:INC]: no `=` found in `" ++ text ++ "`"
  | .noName text => "variable name is empty in `" ++ text ++ "`"
  | .badValue name value => "invalid value for " ++ name ++ ": `" ++ value ++ "`"
  | .badIncrement name increment => "invalid increment for " ++ name ++ ": `" ++ increment ++ "`"

/-- Reads an integer between blanks. -/
def readInteger? (s : List Char) : Option Int64 :=
  (Text.readInt64 (Text.trim s)).toOption

/-- Reads a variable of a name from value and increment. -/
def readVariable (name : String) (value increment : List Char) :
    Except AssignmentError (String × Variable) :=
  match readInteger? value with
  | none => .error (.badValue name (String.ofList value))
  | some v =>
    match readInteger? increment with
    | none => .error (.badIncrement name (String.ofList increment))
    | some i => .ok (name, { value := v, increment := i })

/-- Reads a variable with its name. -/
def readAssignment (text : String) : Except AssignmentError (String × Variable) :=
  match Text.splitFirst? '=' text.toList with
  | none => .error (.noEquals text)
  | some (name, rest) =>
    if name.isEmpty then .error (.noName text)
    else
      match Text.splitFirst? ':' rest with
      | some (value, increment) => readVariable (String.ofList name) value increment
      | none => readVariable (String.ofList name) rest ['0']

end Lookout.Command
