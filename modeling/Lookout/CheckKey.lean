import Lookout.Pattern

/-!
# Check keys

A path together with the principal as whom its existence is checked.

* Keys are ordered by the text of the principal followed by the path, then by the principal, then by
  the path, so that keys compare equal only if they are equal.
* `CheckKey.ofPatterns`: the keys of patterns, in their order.
-/

namespace Lookout

/-- A path and the principal as whom it is checked. -/
structure CheckKey where
  path : String
  principal : String
  deriving DecidableEq, Repr

namespace CheckKey

/-- The principal followed by the path. -/
def joined (k : CheckKey) : String :=
  k.principal ++ k.path

instance : Ord CheckKey :=
  ⟨fun a b =>
    (compare a.joined b.joined).then
      ((compare a.principal b.principal).then (compare a.path b.path))⟩

/-- The text of a key for a reader. -/
def display (k : CheckKey) : String :=
  k.path ++ " (as " ++ k.principal ++ ")"

/-- The keys of resolved patterns; the first pattern with an undeclared variable decides. -/
def ofPatterns (vars : VariableSet) (principal : String) :
    List Pattern → Except PatternError (List CheckKey)
  | [] => .ok []
  | p :: rest =>
    match p.resolve vars with
    | .error e => .error e
    | .ok path =>
      match ofPatterns vars principal rest with
      | .error e => .error e
      | .ok keys => .ok ({ path, principal } :: keys)

/-- Puts a key into its place among keys in ascending order, once. -/
def insertSorted (k : CheckKey) : List CheckKey → List CheckKey
  | [] => [k]
  | j :: rest =>
    match compare k j with
    | .lt => k :: j :: rest
    | .eq => j :: rest
    | .gt => j :: insertSorted k rest

/-- The keys of a list in ascending order, each once. -/
def sortedDistinct (keys : List CheckKey) : List CheckKey :=
  keys.foldr insertSorted []

end CheckKey
end Lookout
