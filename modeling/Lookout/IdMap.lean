import Lookout.Uuid

/-!
# Maps from identifiers

`IdMap α` holds at most one value for each identifier. Its entries are in no particular order, and
nothing that is observed may depend on it.

* `IdMap.find?`, `IdMap.insert`, `IdMap.erase`, `IdMap.size`: an inserted value takes the place of
  the one with the same identifier, if there is one.
-/

namespace Lookout

/-- A map from identifiers. -/
structure IdMap (α : Type) where
  entries : List (Uuid × α)
  nodup : (entries.map Prod.fst).Nodup := by simp

namespace IdMap

variable {α : Type}

/-- The map without entries. -/
def empty : IdMap α :=
  { entries := [] }

/-- The value of an identifier. -/
def find? (m : IdMap α) (id : Uuid) : Option α :=
  m.entries.lookup id

/-- The identifier has a value. -/
def contains (m : IdMap α) (id : Uuid) : Bool :=
  (m.find? id).isSome

/-- The number of entries. -/
def size (m : IdMap α) : Nat :=
  m.entries.length

/-- The values. -/
def values (m : IdMap α) : List α :=
  m.entries.map Prod.snd

/-- Puts a value in the place of the one with the same identifier, or at the end. -/
def insertEntry (id : Uuid) (a : α) : List (Uuid × α) → List (Uuid × α)
  | [] => [(id, a)]
  | (i, b) :: rest => if i = id then (id, a) :: rest else (i, b) :: insertEntry id a rest

theorem map_fst_insertEntry (id : Uuid) (a : α) : ∀ l : List (Uuid × α),
    (insertEntry id a l).map Prod.fst
      = if id ∈ l.map Prod.fst then l.map Prod.fst else l.map Prod.fst ++ [id]
  | [] => by simp [insertEntry]
  | (i, b) :: rest => by
    unfold insertEntry
    by_cases h : i = id
    · simp [h]
    · have h' : ¬ id = i := fun e => h e.symm
      simp only [h, if_false, List.map_cons, map_fst_insertEntry id a rest, List.mem_cons, h',
        false_or]
      split <;> rfl

theorem nodup_insertEntry (id : Uuid) (a : α) {l : List (Uuid × α)}
    (h : (l.map Prod.fst).Nodup) : ((insertEntry id a l).map Prod.fst).Nodup := by
  rw [map_fst_insertEntry]
  split
  · exact h
  · rename_i hid
    refine List.nodup_append.2 ⟨h, by simp, ?_⟩
    intro x hx y hy hxy
    rw [List.mem_singleton] at hy
    exact hid (hy ▸ hxy ▸ hx)

/-- Gives an identifier a value. -/
def insert (m : IdMap α) (id : Uuid) (a : α) : IdMap α :=
  { entries := insertEntry id a m.entries
    nodup := nodup_insertEntry id a m.nodup }

/-- Takes the value of an identifier away. -/
def erase (m : IdMap α) (id : Uuid) : IdMap α :=
  { entries := m.entries.filter fun e => e.1 != id
    nodup := m.nodup.sublist ((List.filter_sublist).map Prod.fst) }

end IdMap
end Lookout
