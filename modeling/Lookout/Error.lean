import Lookout.Store

/-!
# Errors of the engine

* `EngineError.message` is their wording.
* `EngineError.isInvalidInput` tells those for which the caller is to blame.
-/

namespace Lookout

/-- The reasons for which an operation of the engine fails. -/
inductive EngineError
  | pattern (error : PatternError)
  | definition (error : DefinitionError)
  | period (error : PeriodError)
  | notFound (id : Uuid)
  /-- The store failed for a reason of its own. -/
  | storeBackend (text : String)
  | unknownCheckerType (type : String)
  | unknownBackendType (type : String)
  | invalidConfig (reason : String)
  deriving DecidableEq, Repr

namespace EngineError

/-- The wording of an engine error. -/
def message : EngineError → String
  | pattern e => e.message
  | definition e => e.message
  | period e => "invalid time to expire: " ++ e.message
  | notFound id => (StoreError.notFound id).message
  | storeBackend text => (StoreError.backend text).message
  | unknownCheckerType type => "unknown checker type '" ++ type ++ "'"
  | unknownBackendType type => "unknown storage backend type '" ++ type ++ "'"
  | invalidConfig reason => "invalid configuration: " ++ reason

/-- The caller gave something invalid. -/
def isInvalidInput : EngineError → Bool
  | pattern _ | definition _ | period _ => true
  | _ => false

/-- What a failure of the store is for the engine. -/
def ofStore : StoreError → EngineError
  | .notFound id => notFound id
  | .backend text => storeBackend text

end EngineError
end Lookout
