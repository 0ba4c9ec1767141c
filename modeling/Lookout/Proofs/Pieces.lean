import Lookout.Text.Pieces
import Mathlib.Data.List.TakeWhile

/-!
# Texts in pieces

- `splitFirst?_eq_some_iff`, `splitFirst?_eq_none_iff`: a text is cut in two at its first mark.
- `pieces_append`: a mark between two texts is one between their pieces.
- `pieces_eq_splitOn`: the pieces are those of `List.splitOn`.
-/

namespace Lookout.Text

variable {mark : Char} {s front rest : List Char}

theorem forall_bne (h : mark ∉ s) : ∀ c ∈ s, (c != mark) = true := by
  intro c hc
  refine bne_iff_ne.2 ?_
  rintro rfl
  exact h hc

/-! ## The first mark -/

theorem splitFirst?_of_not_mem (h : mark ∉ front) (rest : List Char) :
    splitFirst? mark (front ++ mark :: rest) = some (front, rest) := by
  have hfront := forall_bne h
  have hmark : (mark != mark) = false := bne_self_eq_false mark
  unfold splitFirst?
  rw [List.dropWhile_append_of_pos hfront, List.takeWhile_append_of_pos hfront, List.dropWhile_cons,
    List.takeWhile_cons, hmark]
  exact congrArg (fun front => some (front, rest)) (List.append_nil front)

/-- A text without the mark is not cut. -/
theorem splitFirst?_eq_none_iff : splitFirst? mark s = none ↔ mark ∉ s := by
  constructor
  · intro h hmem
    obtain ⟨front, rest, rfl, hfront⟩ := List.eq_append_cons_of_mem hmem
    rw [splitFirst?_of_not_mem hfront] at h
    cases h
  · intro h
    unfold splitFirst?
    rw [List.dropWhile_eq_nil_iff.2 (forall_bne h)]

/-- A text is cut at its first mark. -/
theorem splitFirst?_eq_some_iff :
    splitFirst? mark s = some (front, rest) ↔ mark ∉ front ∧ s = front ++ mark :: rest := by
  constructor
  · intro h
    have hmem : mark ∈ s := Decidable.byContradiction fun hnot => by
      rw [splitFirst?_eq_none_iff.2 hnot] at h
      cases h
    obtain ⟨front', rest', rfl, hfront⟩ := List.eq_append_cons_of_mem hmem
    rw [splitFirst?_of_not_mem hfront] at h
    cases h
    exact ⟨hfront, rfl⟩
  · rintro ⟨hfront, rfl⟩
    exact splitFirst?_of_not_mem hfront rest

/-! ## All marks -/

theorem pieces_cons_self (mark : Char) (s : List Char) :
    pieces mark (mark :: s) = [] :: pieces mark s :=
  if_pos rfl

theorem pieces_cons_of_ne {c : Char} (h : c ≠ mark) (s : List Char) :
    pieces mark (c :: s) = consPiece c (pieces mark s) :=
  if_neg h

theorem pieces_of_not_mem (h : mark ∉ s) : pieces mark s = [s] := by
  induction s with
  | nil => rfl
  | cons c s ih =>
    rw [List.mem_cons, not_or] at h
    rw [pieces_cons_of_ne (Ne.symm h.1), ih h.2]
    rfl

/-- The pieces of two texts with a mark between them. -/
theorem pieces_append (mark : Char) (s t : List Char) :
    pieces mark (s ++ mark :: t) = pieces mark s ++ pieces mark t := by
  induction s with
  | nil => exact pieces_cons_self mark t
  | cons c s ih =>
    by_cases hc : c = mark
    · rw [hc, List.cons_append, pieces_cons_self, pieces_cons_self, ih]
      rfl
    · rw [List.cons_append, pieces_cons_of_ne hc, pieces_cons_of_ne hc, ih]
      cases hs : pieces mark s with
      | nil => exact absurd hs (pieces_ne_nil mark s)
      | cons piece rest => rfl

theorem pieces_eq_splitOn (mark : Char) (s : List Char) : pieces mark s = s.splitOn mark := by
  induction s with
  | nil => exact (List.splitOn_nil mark).symm
  | cons c s ih =>
    have hsplit : (c :: s).splitOn mark =
        if c == mark then [] :: s.splitOn mark else (s.splitOn mark).modifyHead (List.cons c) :=
      List.splitOnP_cons_eq_if_modifyHead c s
    rw [hsplit, ← ih]
    by_cases hc : c = mark
    · rw [hc, pieces_cons_self, if_pos (beq_self_eq_true mark)]
    · rw [pieces_cons_of_ne hc, if_neg (by rwa [beq_iff_eq])]
      cases hs : pieces mark s with
      | nil => exact absurd hs (pieces_ne_nil mark s)
      | cons piece rest => rfl

/-- There is no mark in a piece. -/
theorem not_mem_of_mem_pieces {piece : List Char} (h : piece ∈ pieces mark s) : mark ∉ piece := by
  induction s generalizing piece with
  | nil =>
    cases List.mem_singleton.1 h
    exact List.not_mem_nil
  | cons c s ih =>
    by_cases hc : c = mark
    · rw [hc, pieces_cons_self] at h
      rcases List.mem_cons.1 h with rfl | h
      · exact List.not_mem_nil
      · exact ih h
    · rw [pieces_cons_of_ne hc] at h
      cases hs : pieces mark s with
      | nil => exact absurd hs (pieces_ne_nil mark s)
      | cons first rest =>
        rw [hs] at h ih
        rcases List.mem_cons.1 h with rfl | h
        · exact List.not_mem_cons_of_ne_of_not_mem (Ne.symm hc) (ih List.mem_cons_self)
        · exact ih (List.mem_cons_of_mem _ h)

end Lookout.Text
