import Lookout.IdMap

/-!
# Look-ups in maps from identifiers

A map is seen through `IdMap.find?`. All other operations are told in terms of it.

* `find?_insert`, `find?_erase`: what an operation does to each identifier.
* `find?_insert_cases`, `find?_erase_cases`: where a value comes from that is found afterwards.
* `mem_entries_iff`, `mem_values_iff`: the entries are those that are found.
-/

namespace Lookout.IdMap

variable {α : Type}

theorem contains_iff {m : IdMap α} {id : Uuid} :
    m.contains id = true ↔ ∃ a, m.find? id = some a := by
  unfold contains
  exact Option.isSome_iff_exists

theorem contains_eq_false_iff {m : IdMap α} {id : Uuid} :
    m.contains id = false ↔ m.find? id = none := by
  unfold contains
  exact Option.isSome_eq_false_iff.trans Option.isNone_iff_eq_none

private theorem lookup_cons_of_ne {id j : Uuid} {a : α} {l : List (Uuid × α)} (h : j ≠ id) :
    ((id, a) :: l).lookup j = l.lookup j := by
  rw [List.lookup_cons, beq_eq_false_iff_ne.2 h]

private theorem lookup_insertEntry (id j : Uuid) (a : α) (l : List (Uuid × α)) :
    (insertEntry id a l).lookup j = if j = id then some a else l.lookup j := by
  induction l with
  | nil =>
    by_cases hj : j = id
    · simp [insertEntry, hj]
    · simp [insertEntry, hj, lookup_cons_of_ne hj]
  | cons e rest ih =>
    obtain ⟨i, b⟩ := e
    unfold insertEntry
    by_cases hi : i = id
    · subst hi
      by_cases hj : j = i
      · simp [hj]
      · simp [hj, lookup_cons_of_ne hj]
    · rw [if_neg hi]
      by_cases hj : j = i
      · subst hj
        simp [hi]
      · rw [lookup_cons_of_ne hj, lookup_cons_of_ne hj, ih]

/-- A value with a new identifier is put at the end. -/
theorem entries_insert_of_none {m : IdMap α} {id : Uuid} (a : α) (h : m.find? id = none) :
    (m.insert id a).entries = m.entries ++ [(id, a)] := by
  obtain ⟨entries, nodup⟩ := m
  unfold find? insert at *
  dsimp only at *
  clear nodup
  induction entries with
  | nil => rfl
  | cons e rest ih =>
    obtain ⟨i, b⟩ := e
    have hne : id ≠ i := by
      rintro rfl
      rw [List.lookup_cons_self] at h
      cases h
    rw [lookup_cons_of_ne hne] at h
    unfold insertEntry
    rw [if_neg hne.symm, ih h, List.cons_append]

/-- An inserted value is found under its identifier; what is found under others stays. -/
theorem find?_insert (m : IdMap α) (id j : Uuid) (a : α) :
    (m.insert id a).find? j = if j = id then some a else m.find? j :=
  lookup_insertEntry id j a m.entries

@[simp] theorem find?_insert_self (m : IdMap α) (id : Uuid) (a : α) :
    (m.insert id a).find? id = some a := by
  rw [find?_insert, if_pos rfl]

theorem find?_insert_of_ne (m : IdMap α) {id j : Uuid} (a : α) (h : j ≠ id) :
    (m.insert id a).find? j = m.find? j := by
  rw [find?_insert, if_neg h]

/-- What is found after an insertion has been inserted, or was there under another identifier. -/
theorem find?_insert_cases {m : IdMap α} {id j : Uuid} {a b : α}
    (h : (m.insert id a).find? j = some b) : j = id ∧ b = a ∨ j ≠ id ∧ m.find? j = some b := by
  by_cases hj : j = id
  · subst hj
    rw [find?_insert_self] at h
    cases h
    exact .inl ⟨rfl, rfl⟩
  · rw [find?_insert_of_ne m a hj] at h
    exact .inr ⟨hj, h⟩

private theorem lookup_filter_ne (id j : Uuid) (l : List (Uuid × α)) :
    (l.filter fun e => e.1 != id).lookup j = if j = id then none else l.lookup j := by
  induction l with
  | nil => simp
  | cons e rest ih =>
    obtain ⟨i, b⟩ := e
    by_cases hi : i = id
    · subst hi
      rw [List.filter_cons_of_neg (by simp), ih]
      by_cases hj : j = i
      · simp [hj]
      · rw [lookup_cons_of_ne hj]
    · rw [List.filter_cons_of_pos (by simp [hi])]
      by_cases hj : j = i
      · subst hj
        simp [hi]
      · rw [lookup_cons_of_ne hj, lookup_cons_of_ne hj, ih]

/-- An erased identifier has no value; what is found under others stays. -/
theorem find?_erase (m : IdMap α) (id j : Uuid) :
    (m.erase id).find? j = if j = id then none else m.find? j :=
  lookup_filter_ne id j m.entries

@[simp] theorem find?_erase_self (m : IdMap α) (id : Uuid) : (m.erase id).find? id = none := by
  rw [find?_erase, if_pos rfl]

theorem find?_erase_of_ne (m : IdMap α) {id j : Uuid} (h : j ≠ id) :
    (m.erase id).find? j = m.find? j := by
  rw [find?_erase, if_neg h]

/-- What is found after an erasure was there under another identifier. -/
theorem find?_erase_cases {m : IdMap α} {id j : Uuid} {b : α}
    (h : (m.erase id).find? j = some b) : j ≠ id ∧ m.find? j = some b := by
  by_cases hj : j = id
  · subst hj
    rw [find?_erase_self] at h
    cases h
  · rw [find?_erase_of_ne m hj] at h
    exact ⟨hj, h⟩

/-- In a list whose keys are distinct, each entry is what is found under its key. -/
theorem lookup_eq_some_of_mem {κ : Type} [DecidableEq κ] {k : κ} {a : α} {l : List (κ × α)}
    (hn : (l.map Prod.fst).Nodup) (h : (k, a) ∈ l) : l.lookup k = some a := by
  obtain ⟨l₁, l₂, rfl⟩ := List.append_of_mem h
  rw [List.map_append, List.map_cons, List.nodup_append] at hn
  refine List.lookup_eq_some_iff.2 ⟨l₁, l₂, rfl, fun e he => bne_iff_ne.2 ?_⟩
  exact (hn.2.2 e.1 (List.mem_map_of_mem he) k List.mem_cons_self).symm

/-- With distinct identifiers, an entry is what is found. -/
theorem mem_entries_iff {m : IdMap α} {id : Uuid} {a : α} :
    (id, a) ∈ m.entries ↔ m.find? id = some a := by
  constructor
  · exact lookup_eq_some_of_mem m.nodup
  · intro h
    obtain ⟨l₁, l₂, hl, -⟩ := List.lookup_eq_some_iff.1 h
    rw [hl]
    exact List.mem_append_right _ List.mem_cons_self

/-- The order of the entries does not matter. -/
theorem find?_eq_of_perm {m m' : IdMap α} (h : m'.entries.Perm m.entries) (id : Uuid) :
    m'.find? id = m.find? id := by
  refine Option.ext fun a => ?_
  rw [← mem_entries_iff, ← mem_entries_iff]
  exact h.mem_iff

theorem mem_values_iff {m : IdMap α} {a : α} : a ∈ m.values ↔ ∃ id, m.find? id = some a := by
  constructor
  · intro h
    obtain ⟨⟨id, b⟩, hb, rfl⟩ := List.mem_map.1 h
    exact ⟨id, mem_entries_iff.1 hb⟩
  · rintro ⟨id, h⟩
    exact List.mem_map.2 ⟨(id, a), mem_entries_iff.2 h, rfl⟩

private theorem mem_keys_iff {m : IdMap α} {id : Uuid} :
    id ∈ m.entries.map Prod.fst ↔ m.contains id = true := by
  rw [contains_iff, List.mem_map]
  constructor
  · rintro ⟨⟨i, a⟩, ha, rfl⟩
    exact ⟨a, mem_entries_iff.1 ha⟩
  · rintro ⟨a, ha⟩
    exact ⟨(id, a), mem_entries_iff.2 ha, rfl⟩

/-- Maps with the same identifiers have the same size. -/
theorem size_eq_of_contains {β : Type} {m : IdMap α} {m' : IdMap β}
    (h : ∀ id, m.contains id = m'.contains id) : m.size = m'.size := by
  have hperm : (m.entries.map Prod.fst).Perm (m'.entries.map Prod.fst) :=
    (List.perm_ext_iff_of_nodup m.nodup m'.nodup).2 fun id => by
      rw [mem_keys_iff, mem_keys_iff, h id]
  unfold size
  rw [← List.length_map Prod.fst, hperm.length_eq, List.length_map]

end Lookout.IdMap
