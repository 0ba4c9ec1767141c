import Lookout.CheckKey
import Lookout.Storage.FileTree

/-!
# Storage backends

A storage backend tells whether a path exists for a principal.

* `Backend.files`: the files of a tree under a root. What is asked about lies at or under the root,
  whatever the path says: `Backend.resolve` leaves out all that would lead elsewhere.
* `Backend.memory`: a list of keys.
-/

namespace Lookout

/-- The ways in which an existence check fails. -/
inductive StorageError
  /-- The file tree refused the path. -/
  | io (path : String) (reason : LookupError)
  | unavailable (text : String)
  deriving DecidableEq, Repr

/-- The wording of a storage error. -/
def StorageError.message : StorageError → String
  | .io path reason => "I/O error checking '" ++ path ++ "': " ++ reason.message
  | .unavailable text => "storage backend unavailable: " ++ text

/-- A storage backend. -/
inductive Backend
  /-- The files of a tree under a root. -/
  | files (tree : FileTree) (root : String)
  /-- The keys of a list. -/
  | memory (keys : List CheckKey)

namespace Backend

/-- The files of a tree under a place, which is given by its parts from the top. -/
def fileTree (tree : FileTree) (place : List String) : Backend :=
  .files tree (FileTree.pathTo place)

/-- The path of a file: the root, and then the names in the path. What else is in the path is left
out. -/
def resolve (root path : String) : String :=
  ((Path.components path).filterMap Path.Component.name?).foldl Path.join root

/-- The path exists for the principal. -/
def exists? (k : CheckKey) : Backend → Except StorageError Bool
  | .files tree root =>
    (tree.lookup (tree.partsFromTop (resolve root k.path))).mapError (.io k.path)
  | .memory keys => .ok (keys.contains k)

/-- A backend in memory with one more key. -/
def add (k : CheckKey) : Backend → Backend
  | .memory keys => .memory (k :: keys)
  | b => b

/-- A backend in memory without a key. -/
def remove (k : CheckKey) : Backend → Backend
  | .memory keys => .memory (keys.filter (· != k))
  | b => b

end Backend
end Lookout
