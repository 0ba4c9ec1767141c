import Lookout.Storage.Path

/-!
# File trees

The directories and files there are at some moment.

* `FileTree.parts`: the parts of a path; `FileTree.pathTo`: the path from the top with these parts.
* `FileTree.lookup`: looks for a file or directory, from the top of the tree down. What is missing
  ends the search with `false`; a path that goes on below a file, has an overlong part, or contains
  a zero character is refused.
* `FileTree.addDirectory`, `FileTree.addFile`: more directories and files, with all directories
  above them.
-/

namespace Lookout

/-- The reasons for which a path is refused. -/
inductive LookupError
  | notDirectory
  | nameTooLong
  | zeroCharacter
  deriving DecidableEq, Repr

/-- The wording of a lookup error. -/
def LookupError.message : LookupError → String
  | .notDirectory => "Not a directory (os error 20)"
  | .nameTooLong => "File name too long (os error 36)"
  | .zeroCharacter => "file name contained an unexpected NUL byte"

/-- Directories and files by their parts below the top of the tree. -/
structure FileTree where
  directories : List (List String)
  files : List (List String)
  /-- Where paths begin that do not begin with a slash. -/
  workingDirectory : List String := []

namespace FileTree

/-! ## Paths -/

/-- The parts of a path that are not empty. -/
def parts (path : String) : List String :=
  ((Text.pieces '/' path.toList).filter fun p => !p.isEmpty).map String.ofList

/-- The path with these parts from the top of the tree. -/
def pathTo (parts : List String) : String :=
  parts.foldl Path.join "/"

/-- The most bytes of a part. -/
def maxPartSize : Nat := 255

/-- The most bytes of a path. -/
def maxPathSize : Nat := 4095

/-- The bytes of a path with these parts. -/
def pathSize (parts : List String) : Nat :=
  parts.foldl (fun size part => size + part.utf8ByteSize + 1) 0

/-! ## Looking up -/

/-- Only the top of the tree. -/
def empty : FileTree :=
  { directories := [], files := [] }

/-- The parts lead to a directory. -/
def hasDirectory (t : FileTree) (parts : List String) : Bool :=
  parts.isEmpty || t.directories.contains parts

/-- The parts lead to a file or directory. -/
def has (t : FileTree) (parts : List String) : Bool :=
  t.hasDirectory parts || t.files.contains parts

/-- What the parts lead to from a place that is there: its place, or none if something is
missing. -/
def descend (t : FileTree) : (place : List String) → List String →
    Except LookupError (Option (List String))
  | place, [] => .ok (some place)
  | place, part :: rest =>
    if !t.hasDirectory place then .error .notDirectory
    else if part = "." then t.descend place rest
    else if part = ".." then t.descend place.dropLast rest
    else if maxPartSize < part.utf8ByteSize then .error .nameTooLong
    else if t.has (place ++ [part]) then t.descend (place ++ [part]) rest
    else .ok none

/-- The place to which the parts lead from the top. -/
def find (t : FileTree) (parts : List String) : Except LookupError (Option (List String)) :=
  if parts.any fun part => part.toList.contains '\x00' then .error .zeroCharacter
  else if maxPathSize < pathSize parts then .error .nameTooLong
  else t.descend [] parts

/-- The parts lead to a file or directory. -/
def lookup (t : FileTree) (parts : List String) : Except LookupError Bool :=
  (t.find parts).map Option.isSome

/-- The parts lead to a directory. -/
def isDirectory (t : FileTree) (parts : List String) : Bool :=
  match t.find parts with
  | .ok (some place) => t.hasDirectory place
  | _ => false

/-- The parts of a path from the top of the tree. -/
def partsFromTop (t : FileTree) (path : String) : List String :=
  if Path.isAbsolute path then parts path else t.workingDirectory ++ parts path

/-- The path, which must not be empty, leads to a directory. -/
def isDirectoryPath (t : FileTree) (path : String) : Bool :=
  !path.isEmpty && t.isDirectory (t.partsFromTop path)

/-! ## Building -/

/-- The tree with a directory and those above it. -/
def addDirectory (t : FileTree) (parts : List String) : FileTree :=
  { t with directories := (List.range (parts.length + 1)).map parts.take ++ t.directories }

/-- The tree with a file and the directories above it. -/
def addFile (t : FileTree) (parts : List String) : FileTree :=
  { t.addDirectory parts.dropLast with files := parts :: t.files }

end FileTree
end Lookout
