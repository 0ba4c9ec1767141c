import Lookout.Trigger.Json

/-!
# Firings

What the action of a trigger is told when it is carried out, and how it may fail.
-/

namespace Lookout

/-- What an action is told about the firing. -/
structure Firing where
  triggerId : Uuid
  /-- The paths that were waited for. -/
  paths : List String
  firedAt : Instant
  deriving DecidableEq, Repr

namespace Firing

/-- The members of a firing in JSON. -/
def members (f : Firing) : List (String × Json) :=
  [("trigger_id", f.triggerId.toJson),
   ("paths", .array (f.paths.map .string)),
   ("fired_at", f.firedAt.toJson)]

/-- Writes a firing. -/
def toJson (f : Firing) : Json :=
  .object f.members

end Firing

/-- The ways in which an action fails. -/
inductive ActionError
  /-- No answer could be had. -/
  | request (reason : String)
  /-- The answer was not one of success. -/
  | rejected (status : Nat) (message : String)
  deriving DecidableEq, Repr

/-- The wording of an action error. -/
def ActionError.message : ActionError → String
  | .request reason => "action request failed: " ++ reason
  | .rejected status message =>
    "action rejected (status " ++ Text.showNat status ++ "): " ++ message

end Lookout
