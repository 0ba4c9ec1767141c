import Lookout.Config
import Lookout.Error
import Lookout.Storage

/-!
# Registered storage backends

The storage backends that a configuration may name.

* `BackendRegistry.builtIn`: `local`, whose root must be a directory, and `memory`.
* `BackendRegistry.create`: the backend that a configuration names.
-/

namespace Lookout

/-- Makes a storage backend for a configuration. -/
abbrev BackendFactory := Config → Except EngineError Backend

/-- The storage backends by their names. -/
structure BackendRegistry where
  factories : List (String × BackendFactory)

namespace BackendRegistry

/-- No storage backends. -/
def empty : BackendRegistry :=
  { factories := [] }

/-- Registers a storage backend; one of the same name is replaced. -/
def register (r : BackendRegistry) (name : String) (factory : BackendFactory) : BackendRegistry :=
  { factories := (name, factory) :: r.factories }

/-- The backend for the files of a tree under the root of the configuration. -/
def localFactory (tree : FileTree) : BackendFactory := fun config =>
  if tree.isDirectoryPath config.storageRoot then
    .ok (.files tree config.storageRoot)
  else
    .error (.invalidConfig ("storage root " ++ config.storageRoot ++ " is not a directory"))

/-- The backend without keys. -/
def memoryFactory : BackendFactory := fun _ =>
  .ok (.memory [])

/-- The backends that are always there, for the files of a tree. -/
def builtIn (tree : FileTree) : BackendRegistry :=
  (empty.register "local" (localFactory tree)).register "memory" memoryFactory

/-- The backend that a configuration names. -/
def create (r : BackendRegistry) (config : Config) : Except EngineError Backend :=
  match r.factories.lookup config.storageBackend with
  | some factory => factory config
  | none => .error (.unknownBackendType config.storageBackend)

end BackendRegistry
end Lookout
