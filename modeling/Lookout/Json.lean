import Lookout.Decimal.Binary64

/-!
# JSON values

* `Json`: a JSON value. Whole numbers that fit into 64 bits, signed or not, are integers, all other
  numbers are doubles. Members keep their order, and a name may come twice.
* `Json.unreadable`: marks the place at which reading a text came to an end. A text that breaks off
  or goes wrong thus still has a value, which tells all that stands in front of the fault.
* `Json.isReadable`: there is no such place in the value.
* `Json.sorted`: the value with the members of each object in ascending order of their names; of
  members of one name the last one stays.
-/

namespace Lookout

/-- A JSON value. -/
inductive Json
  | null
  | bool (b : Bool)
  | integer (n : Int)
  | real (x : Binary64)
  | string (s : String)
  | array (items : List Json)
  | object (members : List (String × Json))
  /-- A place in a text where no value can be read. If it is the name of a member that cannot be
  read, the member is nameless, and what stands in place of the name is `instead`. -/
  | unreadable (instead : Option Json)
  deriving Inhabited

namespace Json

/-- The first member of a name. -/
def member? (name : String) : Json → Option Json
  | .object members => members.lookup name
  | _ => none

/-! ## Readable values -/

mutual

/-- All of the value could be read. -/
def isReadable : Json → Bool
  | .array items => areReadable items
  | .object members => membersAreReadable members
  | .unreadable _ => false
  | _ => true

/-- All of each item could be read. -/
def areReadable : List Json → Bool
  | [] => true
  | j :: rest => j.isReadable && areReadable rest

/-- All of each member could be read. -/
def membersAreReadable : List (String × Json) → Bool
  | [] => true
  | (_, j) :: rest => j.isReadable && membersAreReadable rest

end

theorem areReadable_eq_all (items : List Json) : areReadable items = items.all isReadable := by
  induction items with
  | nil => rfl
  | cons j rest ih => simp [areReadable, ih]

theorem membersAreReadable_eq_all (members : List (String × Json)) :
    membersAreReadable members = members.all fun m => m.2.isReadable := by
  induction members with
  | nil => rfl
  | cons m rest ih => simp [membersAreReadable, ih]

/-! ## Order of members -/

/-- Puts a member into its place among members in ascending order; a member of that name is
replaced. -/
def insertMember (name : String) (value : Json) : List (String × Json) → List (String × Json)
  | [] => [(name, value)]
  | (n, v) :: rest =>
    if name < n then (name, value) :: (n, v) :: rest
    else if name = n then (name, value) :: rest
    else (n, v) :: insertMember name value rest

mutual

/-- The value with sorted members. -/
def sorted : Json → Json
  | .array items => .array (sortedItems items)
  | .object members => .object (sortedMembers members [])
  | j => j

/-- `sorted` in each item. -/
def sortedItems : List Json → List Json
  | [] => []
  | j :: rest => j.sorted :: sortedItems rest

/-- Members put into ascending order, onto those already placed. -/
def sortedMembers : List (String × Json) → List (String × Json) → List (String × Json)
  | [], placed => placed
  | (name, value) :: rest, placed => sortedMembers rest (insertMember name value.sorted placed)

end

end Json
end Lookout
