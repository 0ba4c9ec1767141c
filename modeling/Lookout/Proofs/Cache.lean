import Lookout.Cache

/-!
# The entries of the existence cache

What each operation of the cache does to its entries, old ones included.

* `Cache.keys`: the keys that have an entry, whether it still counts or not.
* `get_cases`, `put_cases`: a look-up does one of three things, and so does a confirmation.
* `mem_put`, `mem_of_get`, `mem_of_purge`: only a confirmation adds an entry.
-/

namespace Lookout.Cache

/-- The keys that have an entry, old ones included. -/
def keys (c : Cache) : List CheckKey :=
  c.entries.map Prod.fst

variable {c c' : Cache} {now t : Instant} {k j : CheckKey} {e : CheckKey × Instant}

theorem mem_keys_iff : k ∈ c.keys ↔ ∃ t, (k, t) ∈ c.entries := by
  unfold keys
  constructor
  · intro h
    obtain ⟨⟨i, t⟩, ht, rfl⟩ := List.mem_map.1 h
    exact ⟨t, ht⟩
  · rintro ⟨t, ht⟩
    exact List.mem_map.2 ⟨(k, t), ht, rfl⟩

theorem mem_keys_of_mem (h : (k, t) ∈ c.entries) : k ∈ c.keys :=
  mem_keys_iff.2 ⟨t, h⟩

theorem confirmedAt?_eq_none_iff : c.confirmedAt? k = none ↔ k ∉ c.keys := by
  unfold confirmedAt? keys
  simp only [List.lookup_eq_none_iff, List.mem_map, not_exists, not_and, bne_iff_ne]
  exact ⟨fun h e he hk => h e he hk.symm, fun h e he hk => h e he hk.symm⟩

theorem mem_of_confirmedAt? (h : c.confirmedAt? k = some t) : (k, t) ∈ c.entries := by
  obtain ⟨l₁, l₂, hl, -⟩ := List.lookup_eq_some_iff.1 h
  rw [hl]
  exact List.mem_append_right _ List.mem_cons_self

theorem mem_others_iff {l : List (CheckKey × Instant)} : e ∈ others k l ↔ e ∈ l ∧ e.1 ≠ k := by
  unfold others
  rw [List.mem_filter, bne_iff_ne]

/-! ## Look-ups -/

/-- A look-up finds no entry, or one that counts and that becomes the most recent, or one that no
longer counts and that goes. -/
theorem get_cases (c : Cache) (now : Instant) (k : CheckKey) :
    (k ∉ c.keys ∧ c.get now k = (false, c)) ∨
    (∃ t, (k, t) ∈ c.entries ∧ c.isFresh now t = true ∧
      c.get now k = (true, { c with entries := (k, t) :: others k c.entries })) ∨
    (∃ t, (k, t) ∈ c.entries ∧ c.isFresh now t = false ∧
      c.get now k = (false, { c with entries := others k c.entries })) := by
  unfold get
  cases h : c.confirmedAt? k with
  | none => exact .inl ⟨confirmedAt?_eq_none_iff.1 h, rfl⟩
  | some t =>
    have hmem := mem_of_confirmedAt? h
    cases hf : c.isFresh now t with
    | true => exact .inr (.inl ⟨t, hmem, hf, by simp only [hf, if_true]⟩)
    | false =>
      exact .inr (.inr ⟨t, hmem, hf, by simp only [hf, if_false, Bool.false_eq_true]⟩)

/-- A key that is found has an entry that counts. -/
theorem exists_fresh_of_get (h : c.get now k = (true, c')) :
    ∃ t, (k, t) ∈ c.entries ∧ c.isFresh now t = true := by
  obtain ⟨-, hg⟩ | ⟨t, ht, hf, -⟩ | ⟨t, -, -, hg⟩ := get_cases c now k
  · rw [hg] at h; cases h
  · exact ⟨t, ht, hf⟩
  · rw [hg] at h; cases h

/-- A look-up adds no entry. -/
theorem mem_of_get {b : Bool} (h : c.get now k = (b, c')) (he : e ∈ c'.entries) :
    e ∈ c.entries := by
  obtain ⟨-, hg⟩ | ⟨t, ht, -, hg⟩ | ⟨t, -, -, hg⟩ := get_cases c now k
  · rw [hg] at h; cases h; exact he
  · rw [hg] at h; cases h
    rcases List.mem_cons.1 he with rfl | he
    · exact ht
    · exact (mem_others_iff.1 he).1
  · rw [hg] at h; cases h
    exact (mem_others_iff.1 he).1

theorem mem_keys_of_get {b : Bool} (h : c.get now k = (b, c')) (hj : j ∈ c'.keys) : j ∈ c.keys := by
  obtain ⟨t, ht⟩ := mem_keys_iff.1 hj
  exact mem_keys_of_mem (mem_of_get h ht)

/-- A look-up that finds its key takes no key away. -/
theorem keys_subset_of_get (h : c.get now k = (true, c')) (hj : j ∈ c.keys) : j ∈ c'.keys := by
  obtain ⟨-, hg⟩ | ⟨t, -, -, hg⟩ | ⟨t, -, -, hg⟩ := get_cases c now k
  · rw [hg] at h; cases h
  · rw [hg] at h; cases h
    obtain ⟨u, hu⟩ := mem_keys_iff.1 hj
    by_cases hk : j = k
    · exact hk ▸ mem_keys_of_mem List.mem_cons_self
    · exact mem_keys_of_mem (List.mem_cons_of_mem _ (mem_others_iff.2 ⟨hu, hk⟩))
  · rw [hg] at h; cases h

/-- A key that is found has an entry afterwards. -/
theorem mem_keys_of_get_true (h : c.get now k = (true, c')) : k ∈ c'.keys := by
  obtain ⟨t, ht, -⟩ := exists_fresh_of_get h
  exact keys_subset_of_get h (mem_keys_of_mem ht)

/-- A key that is not found has no entry afterwards. -/
theorem not_mem_keys_of_get (h : c.get now k = (false, c')) : k ∉ c'.keys := by
  obtain ⟨hk, hg⟩ | ⟨t, -, -, hg⟩ | ⟨t, -, -, hg⟩ := get_cases c now k
  · rw [hg] at h; cases h; exact hk
  · rw [hg] at h; cases h
  · rw [hg] at h; cases h
    intro hk
    obtain ⟨u, hu⟩ := mem_keys_iff.1 hk
    exact (mem_others_iff.1 hu).2 rfl

theorem timeToLive_of_get {b : Bool} (h : c.get now k = (b, c')) :
    c'.timeToLive = c.timeToLive := by
  obtain ⟨-, hg⟩ | ⟨t, -, -, hg⟩ | ⟨t, -, -, hg⟩ := get_cases c now k <;>
    · rw [hg] at h; cases h; rfl

/-! ## Confirmations and purges -/

/-- A confirmation finds an entry of its key and replaces it, or finds room, or drops the entry that
was used least recently. -/
theorem put_cases (c : Cache) (now : Instant) (k : CheckKey) :
    (k ∈ c.keys ∧ (c.put now k).entries = (k, now) :: others k c.entries) ∨
    (k ∉ c.keys ∧ c.entries.length < c.capacity ∧
      (c.put now k).entries = (k, now) :: c.entries) ∨
    (k ∉ c.keys ∧ c.capacity ≤ c.entries.length ∧ ∃ front last,
      c.entries = front ++ [last] ∧ (c.put now k).entries = (k, now) :: front) := by
  by_cases hk : k ∈ c.keys
  · have hsome : (c.confirmedAt? k).isSome := by
      rw [Option.isSome_iff_ne_none]
      exact fun hnone => confirmedAt?_eq_none_iff.1 hnone hk
    exact .inl ⟨hk, by simp [put, hsome]⟩
  · have hnone := confirmedAt?_eq_none_iff.2 hk
    by_cases hfull : c.capacity ≤ c.entries.length
    · have hne : c.entries ≠ [] := by
        have hpos := c.capacity_pos
        exact List.length_pos_iff.1 (by omega)
      exact .inr (.inr ⟨hk, hfull, _, _, (List.dropLast_concat_getLast hne).symm,
        by simp [put, hnone, hfull]⟩)
    · exact .inr (.inl ⟨hk, by omega, by simp [put, hnone, hfull]⟩)

/-- A confirmation adds one entry, of its key and its time. -/
theorem mem_put (h : e ∈ (c.put now k).entries) : e = (k, now) ∨ e ∈ c.entries := by
  rcases List.mem_cons.1 h with rfl | h
  · exact .inl rfl
  · right
    split at h
    · exact (mem_others_iff.1 h).1
    · split at h
      · exact (List.dropLast_sublist _).mem h
      · exact h

theorem mem_keys_put (h : j ∈ (c.put now k).keys) : j = k ∨ j ∈ c.keys := by
  obtain ⟨t, ht⟩ := mem_keys_iff.1 h
  rcases mem_put ht with he | he
  · cases he; exact .inl rfl
  · exact .inr (mem_keys_of_mem he)

/-- A purge adds no entry. -/
theorem mem_of_purge (h : e ∈ (c.purge now).2.entries) : e ∈ c.entries :=
  (List.mem_filter.1 h).1

theorem mem_keys_of_purge (h : j ∈ (c.purge now).2.keys) : j ∈ c.keys := by
  obtain ⟨t, ht⟩ := mem_keys_iff.1 h
  exact mem_keys_of_mem (mem_of_purge ht)

end Lookout.Cache
