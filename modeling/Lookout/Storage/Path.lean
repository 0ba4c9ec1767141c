import Lookout.Text.Pieces

/-!
# Paths

The texts of paths, as they are read and put together.

* `Path.components`: what a path consists of. Slashes that are repeated or at the end do not count,
  and neither do single dots, except for one at the very beginning.
* `Path.join`: a path that goes on with another one.
-/

namespace Lookout.Path

/-- What a path consists of. -/
inductive Component
  /-- The top of the tree. -/
  | top
  /-- The directory in which a path begins. -/
  | current
  /-- The directory above. -/
  | parent
  /-- Something inside a directory. -/
  | name (text : String)
  deriving DecidableEq, Repr

/-- The text of a component that is a name. -/
def Component.name? : Component → Option String
  | name text => some text
  | _ => none

/-! ## Reading -/

/-- The path begins at the top of the tree. -/
def isAbsolute (path : String) : Bool :=
  path.toList.head? == some '/'

/-- Where a path begins, if it says so. -/
def start? (path : String) : Option Component :=
  if isAbsolute path then some .top
  else if (Text.pieces '/' path.toList).head? = some ['.'] then some .current
  else none

/-- The component that stands between slashes, if there is one. -/
def component? (piece : List Char) : Option Component :=
  if piece = [] ∨ piece = ['.'] then none
  else if piece = ['.', '.'] then some .parent
  else some (.name (String.ofList piece))

/-- The components of a path. -/
def components (path : String) : List Component :=
  (start? path).toList ++ (Text.pieces '/' path.toList).filterMap component?

/-! ## Joining -/

/-- A path that goes on with another one. One that begins at the top of the tree takes its place. -/
def join (base rest : String) : String :=
  if isAbsolute rest then rest
  else if base.isEmpty ∨ base.toList.getLast? = some '/' then base ++ rest
  else base ++ "/" ++ rest

end Lookout.Path
