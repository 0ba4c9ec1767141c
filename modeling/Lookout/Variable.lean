import Lookout.Calendar.Hour

/-!
# Path variables

Named integers that are put into path patterns. Each has an increment, by which it moves from one
window to the next.

* `Variable.advance`: adds the increment, stopping at the ends of the range of 64 bits.
* `VariableSet`: variables in ascending order of their names, one of a name.
* `VariableSet.fillCalendar`: declares those of `YEAR`, `MONTH`, `DAY` and `HOUR` that are missing.
-/

namespace Lookout

/-- The integer of 64 bits nearest to `n`. -/
def saturate (n : Int) : Int64 :=
  if n < -9223372036854775808 then Int64.minValue
  else if 9223372036854775808 ≤ n then Int64.maxValue
  else Int64.ofInt n

/-- A path variable. -/
structure Variable where
  value : Int64
  increment : Int64
  deriving DecidableEq, Repr

namespace Variable

/-- A variable that does not move. -/
def fixed (value : Int64) : Variable :=
  { value, increment := 0 }

/-- The variable of the next window. -/
def advance (v : Variable) : Variable :=
  { v with value := saturate (v.value.toInt + v.increment.toInt) }

end Variable

/-- Path variables in ascending order of their names. -/
structure VariableSet where
  entries : List (String × Variable)
  ascending : entries.Pairwise fun a b => a.1 < b.1 := by simp
  deriving DecidableEq, Repr

namespace VariableSet

/-- No variables. -/
def empty : VariableSet :=
  { entries := [] }

/-- The variable of a name. -/
def find? (vars : VariableSet) (name : String) : Option Variable :=
  vars.entries.lookup name

/-- The value of a variable. -/
def value? (vars : VariableSet) (name : String) : Option Int64 :=
  (vars.find? name).map (·.value)

/-- The name is declared. -/
def contains (vars : VariableSet) (name : String) : Bool :=
  (vars.find? name).isSome

/-- The number of variables. -/
def size (vars : VariableSet) : Nat :=
  vars.entries.length

/-- Puts a variable into its place; one of the same name is replaced. -/
def insertEntry (name : String) (v : Variable) :
    List (String × Variable) → List (String × Variable)
  | [] => [(name, v)]
  | (n, w) :: rest =>
    if name < n then (name, v) :: (n, w) :: rest
    else if name = n then (name, v) :: rest
    else (n, w) :: insertEntry name v rest

theorem mem_insertEntry {name : String} {v : Variable} {e : String × Variable} :
    ∀ {l : List (String × Variable)}, e ∈ insertEntry name v l → e.1 = name ∨ e ∈ l
  | [], h => by
    simp only [insertEntry, List.mem_singleton] at h
    exact .inl (h ▸ rfl)
  | (n, w) :: rest, h => by
    unfold insertEntry at h
    split at h
    · rcases List.mem_cons.1 h with h | h
      · exact .inl (h ▸ rfl)
      · exact .inr h
    · split at h
      · rcases List.mem_cons.1 h with h | h
        · exact .inl (h ▸ rfl)
        · exact .inr (List.mem_cons_of_mem _ h)
      · rcases List.mem_cons.1 h with h | h
        · exact .inr (h ▸ List.mem_cons_self)
        · rcases mem_insertEntry h with h | h
          · exact .inl h
          · exact .inr (List.mem_cons_of_mem _ h)

theorem pairwise_insertEntry (name : String) (v : Variable) :
    ∀ {l : List (String × Variable)}, l.Pairwise (fun a b => a.1 < b.1) →
      (insertEntry name v l).Pairwise fun a b => a.1 < b.1
  | [], _ => by simp [insertEntry]
  | (n, w) :: rest, h => by
    obtain ⟨hn, hrest⟩ := List.pairwise_cons.1 h
    unfold insertEntry
    split
    · rename_i hlt
      refine List.pairwise_cons.2 ⟨fun e he => ?_, h⟩
      rcases List.mem_cons.1 he with he | he
      · exact he ▸ hlt
      · exact String.lt_trans hlt (hn e he)
    · rename_i hlt
      split
      · rename_i heq
        exact List.pairwise_cons.2 ⟨fun e he => heq ▸ hn e he, hrest⟩
      · rename_i hne
        refine List.pairwise_cons.2 ⟨fun e he => ?_, pairwise_insertEntry name v hrest⟩
        rcases mem_insertEntry he with he | he
        · have hle : n ≤ name := String.not_lt.1 hlt
          rw [he]
          exact Decidable.byContradiction fun hnot =>
            hne (String.le_antisymm (String.not_lt.1 hnot) hle)
        · exact hn e he

/-- Declares a variable; one of the same name is replaced. -/
def insert (vars : VariableSet) (name : String) (v : Variable) : VariableSet :=
  { entries := insertEntry name v vars.entries
    ascending := pairwise_insertEntry name v vars.ascending }

/-- The variables of a list; of those of one name the last one stays. -/
def ofList (l : List (String × Variable)) : VariableSet :=
  l.foldl (fun vars (name, v) => vars.insert name v) empty

/-- Changes each variable. -/
def mapValues (f : String → Variable → Variable) (vars : VariableSet) : VariableSet :=
  { entries := vars.entries.map fun (name, v) => (name, f name v)
    ascending := List.pairwise_map.2 vars.ascending }

/-- Declares a variable that is not declared yet. -/
def insertIfNew (vars : VariableSet) (name : String) (v : Variable) : VariableSet :=
  if vars.contains name then vars else vars.insert name v

/-! ## The calendar variables -/

/-- The four variables that move together as one calendar hour. -/
inductive CalendarName
  | year
  | month
  | day
  | hour
  deriving DecidableEq, Repr

namespace CalendarName

/-- The name of a calendar variable. -/
def name : CalendarName → String
  | year => "YEAR"
  | month => "MONTH"
  | day => "DAY"
  | hour => "HOUR"

/-- The calendar variables. -/
def all : List CalendarName :=
  [year, month, day, hour]

/-- The calendar variable of a name. -/
def ofName? (name : String) : Option CalendarName :=
  all.find? fun c => c.name == name

/-- The field of a calendar hour. -/
def field (t : CalendarHour) : CalendarName → Int64
  | year => Int64.ofInt t.date.year
  | month => Int64.ofNat t.date.month
  | day => Int64.ofNat t.date.day
  | hour => Int64.ofNat t.hour

end CalendarName

/-- Declares the calendar variables that are missing, with the fields of an instant and without an
increment. -/
def fillCalendar (vars : VariableSet) (now : Instant) : VariableSet :=
  CalendarName.all.foldl
    (fun vars c =>
      vars.insertIfNew c.name (Variable.fixed (c.field (CalendarHour.ofInstant now))))
    vars

end VariableSet
end Lookout
