import Lookout.Text.Utf8

/-!
# The order of bytes

Texts in the order of their characters are in the order of their bytes in UTF-8, so a comparison may
look at either.

- `Utf8.encodeChar_append_lt`: the bytes of a smaller character come first, whatever follows them.
- `Utf8.encode_lt_iff`: texts are in the order of their bytes.
- `Utf8.encode_inj`: so no two texts have the same bytes.
-/

namespace Lookout.Text.Utf8

variable {c d : Char} {s t : List Char} {f : Nat → List Nat}

/-! ## Characters -/

/-- Of two numbers that are turned into bytes, those of the smaller one come first, whatever
follows. -/
def IsOrdered (f : Nat → List Nat) : Prop :=
  ∀ m n, m < n → ∀ rest rest', f m ++ rest < f n ++ rest'

theorem isOrdered_first (base : Nat) : IsOrdered fun n => [base + n] :=
  fun _ _ h _ _ => List.cons_lt_cons_iff.2 (.inl (Nat.add_lt_add_left h base))

/-- One more byte holds the last six bits. -/
theorem IsOrdered.next (hf : IsOrdered f) : IsOrdered fun n => f (n / 64) ++ [0x80 + n % 64] := by
  intro m n h rest rest'
  have hle : m / 64 ≤ n / 64 := Nat.div_le_div_right (Nat.le_of_lt h)
  dsimp only
  rw [List.append_assoc, List.append_assoc]
  rcases Nat.lt_or_eq_of_le hle with hlt | heq
  · exact hf _ _ hlt _ _
  · rw [heq]
    exact List.append_left_lt (List.cons_lt_cons_iff.2 (.inl (by omega)))

private theorem isOrdered_two : IsOrdered fun n => [0xC0 + n / 64, 0x80 + n % 64] :=
  (isOrdered_first 0xC0).next

private theorem isOrdered_three : IsOrdered fun n =>
    [0xE0 + n / 4096, 0x80 + n / 64 % 64, 0x80 + n % 64] := by
  have h := (isOrdered_first 0xE0).next.next
  simp only [Nat.div_div_eq_div_mul] at h
  exact h

private theorem isOrdered_four : IsOrdered fun n =>
    [0xF0 + n / 262144, 0x80 + n / 4096 % 64, 0x80 + n / 64 % 64, 0x80 + n % 64] := by
  have h := (isOrdered_first 0xF0).next.next.next
  simp only [Nat.div_div_eq_div_mul] at h
  exact h

/-- The bytes of a smaller character come first. If they are fewer, the first byte tells. -/
theorem encodeChar_append_lt (h : c < d) (rest rest' : List Nat) :
    encodeChar c ++ rest < encodeChar d ++ rest' := by
  have hfirst : ∀ {a b : Nat} {s t : List Nat}, a < b → a :: s < b :: t :=
    fun h => List.cons_lt_cons_iff.2 (.inl h)
  have hnat : c.toNat < d.toNat := h
  unfold encodeChar
  dsimp only
  generalize c.toNat = m at hnat ⊢
  generalize d.toNat = n at hnat ⊢
  split
  · split
    · exact hfirst hnat
    · split
      · exact hfirst (by omega)
      · split <;> exact hfirst (by omega)
  · rw [if_neg (show ¬ n < 0x80 by omega)]
    split
    · split
      · exact isOrdered_two _ _ hnat _ _
      · split <;> exact hfirst (by omega)
    · rw [if_neg (show ¬ n < 0x800 by omega)]
      split
      · split
        · exact isOrdered_three _ _ hnat _ _
        · exact hfirst (by omega)
      · rw [if_neg (show ¬ n < 0x10000 by omega)]
        exact isOrdered_four _ _ hnat _ _

/-! ## Texts -/

theorem encodeChar_ne_nil (c : Char) : encodeChar c ≠ [] := by
  unfold encodeChar
  dsimp only
  repeat' split
  all_goals exact List.cons_ne_nil _ _

theorem encode_cons (c : Char) (s : List Char) : encode (c :: s) = encodeChar c ++ encode s :=
  List.flatMap_cons

theorem encode_lt_encode (h : s < t) : encode s < encode t := by
  induction s generalizing t with
  | nil =>
    cases t with
    | nil => exact absurd h (List.lt_irrefl _)
    | cons d t =>
      obtain ⟨b, rest, hbytes⟩ := List.exists_cons_of_ne_nil (encodeChar_ne_nil d)
      rw [encode_cons, hbytes]
      exact List.nil_lt_cons _ _
  | cons c s ih =>
    cases t with
    | nil => exact absurd h (List.not_lt_nil _)
    | cons d t =>
      rw [encode_cons, encode_cons]
      rcases List.cons_lt_cons_iff.1 h with hlt | ⟨rfl, hlt⟩
      · exact encodeChar_append_lt hlt _ _
      · exact List.append_left_lt (ih hlt)

/-- **Texts are in the order of their bytes.** -/
theorem encode_lt_iff : encode s < encode t ↔ s < t := by
  refine ⟨fun h => Decidable.byContradiction fun hnot => ?_, encode_lt_encode⟩
  rcases List.le_iff_lt_or_eq.1 (List.not_lt.1 hnot) with hlt | rfl
  · exact List.lt_asymm h (encode_lt_encode hlt)
  · exact List.lt_irrefl _ h

theorem encode_inj : encode s = encode t ↔ s = t := by
  refine ⟨fun h => ?_, congrArg encode⟩
  have hst : ¬ s < t := fun hlt => List.lt_irrefl _ (h ▸ encode_lt_encode hlt)
  have hts : ¬ t < s := fun hlt => List.lt_irrefl _ (h ▸ encode_lt_encode hlt)
  exact List.le_antisymm (List.not_lt.1 hts) (List.not_lt.1 hst)

end Lookout.Text.Utf8
