import Lookout.IdMap
import Lookout.Trigger

/-!
# The trigger store

The triggers that outlive the engine.

* `Store.insert`, `Store.update`, `Store.remove`, `Store.listBySource`: each tells what it did and
  returns the store after it. A call that fails leaves the triggers as they were.
* `Outages`: calls of the store that will fail because its backend is not available. Each kind of
  call uses up its outages one by one; a store in memory has none.
-/

namespace Lookout

/-- The reasons for which a call of the store fails. -/
inductive StoreError
  | notFound (id : Uuid)
  /-- The backend of the store is not available. -/
  | backend (text : String)
  deriving DecidableEq, Repr

/-- The wording of a store error. -/
def StoreError.message : StoreError → String
  | .notFound id => "trigger " ++ id.text ++ " not found"
  | .backend text => "trigger store error: " ++ text

/-- The kinds of calls. -/
inductive StoreCall
  | insert
  | update
  | remove
  | list
  deriving DecidableEq, Repr

/-- The next failures of each kind of call, with their texts. -/
structure Outages where
  insert : List String := []
  update : List String := []
  remove : List String := []
  list : List String := []
  deriving DecidableEq, Repr

namespace Outages

/-- The failures of a kind of call. -/
def of (o : Outages) : StoreCall → List String
  | .insert => o.insert
  | .update => o.update
  | .remove => o.remove
  | .list => o.list

/-- Other failures for a kind of call. -/
def set (o : Outages) (texts : List String) : StoreCall → Outages
  | .insert => { o with insert := texts }
  | .update => { o with update := texts }
  | .remove => { o with remove := texts }
  | .list => { o with list := texts }

end Outages

/-- The trigger store. -/
structure Store where
  records : IdMap Trigger
  outages : Outages := {}

namespace Store

/-- A store without triggers and without outages. -/
def empty : Store :=
  { records := IdMap.empty }

/-- The number of triggers. -/
def size (s : Store) : Nat :=
  s.records.size

/-- The stored trigger of an identifier. -/
def find? (s : Store) (id : Uuid) : Option Trigger :=
  s.records.find? id

/-- More failures for a kind of call, after those that are still to come. -/
def addOutage (s : Store) (call : StoreCall) (texts : List String) : Store :=
  { s with outages := s.outages.set (s.outages.of call ++ texts) call }

/-- Runs a call unless it fails for an outage. -/
def attempt {α : Type} (s : Store) (call : StoreCall) (run : Store → Except StoreError α × Store) :
    Except StoreError α × Store :=
  match s.outages.of call with
  | [] => run s
  | text :: rest => (.error (.backend text), { s with outages := s.outages.set rest call })

/-- Stores a new trigger under an identifier. -/
def insert (s : Store) (id : Uuid) (t : Trigger) : Except StoreError Uuid × Store :=
  s.attempt .insert fun s => (.ok id, { s with records := s.records.insert id { t with id } })

/-- Replaces a trigger that is stored. -/
def update (s : Store) (t : Trigger) : Except StoreError Unit × Store :=
  s.attempt .update fun s =>
    if s.records.contains t.id then (.ok (), { s with records := s.records.insert t.id t })
    else (.error (.notFound t.id), s)

/-- Removes a trigger that is stored. -/
def remove (s : Store) (id : Uuid) : Except StoreError Unit × Store :=
  s.attempt .remove fun s =>
    if s.records.contains id then (.ok (), { s with records := s.records.erase id })
    else (.error (.notFound id), s)

/-- The time of submission, then the identifier. -/
def submittedBefore (a b : Trigger) : Bool :=
  match compare a.submitTime b.submitTime with
  | .lt => true
  | .eq => a.id.value ≤ b.id.value
  | .gt => false

/-- The triggers of a data source, the oldest submission first. -/
def ofSource (s : Store) (source : String) : List Trigger :=
  (s.records.values.filter fun t => t.dataSource == source).mergeSort submittedBefore

/-- Lists the triggers of a data source. -/
def listBySource (s : Store) (source : String) : Except StoreError (List Trigger) × Store :=
  s.attempt .list fun s => (.ok (s.ofSource source), s)

end Store
end Lookout
