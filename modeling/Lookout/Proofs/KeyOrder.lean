import Lookout.CheckKey

/-!
# Keys in ascending order

- **The order**: `compare` on keys is a linear order (`Std.TransOrd`, `Std.LawfulEqOrd`): it goes by
  `joined`, then by `principal`, then by `path`.
- **Ascending lists** (`CheckKey.Ascending`): a set of keys has one ascending list
  (`Ascending.ext`). `insertSorted` adds a key to it (`mem_insertSorted`,
  `Ascending.insertSorted`), and `sortedDistinct` is the one of all keys of a list.
-/

namespace Lookout.CheckKey

instance : Std.TransOrd CheckKey :=
  inferInstanceAs (Std.TransCmp (compareLex (compareOn joined)
    (compareLex (compareOn principal) (compareOn path))))

/-- Keys that compare equal are equal: `joined` alone would not tell where the path begins. -/
instance : Std.LawfulEqOrd CheckKey where
  eq_of_compare {a b} h := by
    obtain ⟨-, h⟩ := Ordering.then_eq_eq.1 h
    obtain ⟨hprincipal, hpath⟩ := Ordering.then_eq_eq.1 h
    cases a
    cases b
    rw [mk.injEq]
    exact ⟨Std.LawfulEqOrd.eq_of_compare hpath, Std.LawfulEqOrd.eq_of_compare hprincipal⟩

/-- Each key comes before all that follow it. -/
def Ascending (keys : List CheckKey) : Prop :=
  keys.Pairwise fun a b => compare a b = .lt

variable {j k : CheckKey} {keys keys' : List CheckKey}

theorem ne_of_lt (h : compare j k = .lt) : j ≠ k := by
  rintro rfl
  rw [Std.ReflOrd.compare_self] at h
  cases h

theorem Ascending.nodup (h : Ascending keys) : keys.Nodup :=
  List.Pairwise.imp ne_of_lt h

theorem Ascending.sublist (h : Ascending keys) (hs : keys'.Sublist keys) : Ascending keys' :=
  List.Pairwise.sublist hs h

/-- Ascending lists of the same keys are equal. -/
theorem Ascending.ext (h : Ascending keys) (h' : Ascending keys')
    (hmem : ∀ k, k ∈ keys ↔ k ∈ keys') : keys = keys' := by
  have hperm : keys.Perm keys' := (List.perm_ext_iff_of_nodup h.nodup h'.nodup).2 hmem
  refine hperm.eq_of_pairwise (fun a b _ _ hab hba => ?_) h h'
  rw [Std.OrientedOrd.eq_swap, hba] at hab
  cases hab

/-! ## Insertion -/

theorem mem_insertSorted : j ∈ k.insertSorted keys ↔ j = k ∨ j ∈ keys := by
  induction keys with
  | nil => exact List.mem_cons
  | cons i rest ih =>
    unfold insertSorted
    split
    · exact List.mem_cons
    · rename_i heq
      rw [Std.LawfulEqOrd.eq_of_compare heq, List.mem_cons, or_self_left]
    · rw [List.mem_cons, List.mem_cons, ih, or_left_comm]

theorem length_insertSorted_le (k : CheckKey) (keys : List CheckKey) :
    (k.insertSorted keys).length ≤ keys.length + 1 := by
  induction keys with
  | nil => exact Nat.le_refl _
  | cons i rest ih =>
    unfold insertSorted
    split
    · exact Nat.le_refl _
    · exact Nat.le_succ _
    · exact Nat.succ_le_succ ih

theorem Ascending.insertSorted (h : Ascending keys) (k : CheckKey) :
    Ascending (k.insertSorted keys) := by
  induction keys with
  | nil => exact List.pairwise_singleton _ _
  | cons i rest ih =>
    obtain ⟨hi, hrest⟩ := List.pairwise_cons.1 h
    unfold CheckKey.insertSorted
    split
    · rename_i hlt
      refine List.pairwise_cons.2 ⟨fun j hj => ?_, h⟩
      rcases List.mem_cons.1 hj with rfl | hj
      · exact hlt
      · exact Std.TransCmp.lt_trans hlt (hi j hj)
    · exact h
    · rename_i hgt
      refine List.pairwise_cons.2 ⟨fun j hj => ?_, ih hrest⟩
      rcases mem_insertSorted.1 hj with rfl | hj
      · rw [Std.OrientedOrd.eq_swap, hgt]
        rfl
      · exact hi j hj

theorem mem_sortedDistinct : k ∈ sortedDistinct keys ↔ k ∈ keys := by
  induction keys with
  | nil => exact Iff.rfl
  | cons j rest ih =>
    have hcons : sortedDistinct (j :: rest) = j.insertSorted (sortedDistinct rest) := rfl
    rw [hcons, mem_insertSorted, List.mem_cons, ih]

theorem ascending_sortedDistinct (keys : List CheckKey) : Ascending (sortedDistinct keys) := by
  induction keys with
  | nil => exact List.Pairwise.nil
  | cons j rest ih => exact ih.insertSorted j

end Lookout.CheckKey
