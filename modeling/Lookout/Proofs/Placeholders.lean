import Lookout.Proofs.Declared

/-!
# Placeholders in a text

Where the placeholders of a text are is said of each position by itself: one stands there if the
text goes on with `${NAME}` (`Pattern.PlaceholderAt`), whatever is in front of it. Nothing is
assumed about stray or unclosed openings. Two placeholders never overlap, since only the first
character of one is a `$`.

- **Cutting**: the placeholders among the segments of a pattern, with their positions
  (`Segment.placed`), are all that stand in its text and no others (`mem_placed_segments`).
- **Resolving**: each character of a pattern stands for a text (`StandsFor`): the first one of a
  placeholder for a value, the others of it for nothing, and all other characters for themselves.

`Pattern.resolve_replaces` joins them.
-/

namespace Lookout

/-! ## Positions among segments -/

namespace Segment

@[simp] theorem length_chars_placeholder (name : List Char) :
    (placeholder name).chars.length = name.length + 3 := by
  simp [chars]

/-- The placeholders among segments with their positions, if the first segment begins at `i`. -/
def placed (i : Nat) : List Segment → List (Nat × List Char)
  | [] => []
  | literal text :: rest => placed (i + text.length) rest
  | placeholder name :: rest => (i, name) :: placed (i + (name.length + 3)) rest

variable {i j : Nat} {name : List Char} {segments : List Segment}

theorem le_of_mem_placed (h : (j, name) ∈ placed i segments) : i ≤ j := by
  fun_induction placed i segments with
  | case1 => cases h
  | case2 i text rest ih =>
    have := ih h
    omega
  | case3 i first rest ih =>
    rcases List.mem_cons.1 h with he | h
    · cases he
      exact Nat.le_refl j
    · have := ih h
      omega

/-- The placeholders are in their order, each behind the end of the one before. -/
theorem pairwise_placed (i : Nat) (segments : List Segment) :
    (placed i segments).Pairwise fun a b => a.1 + (a.2.length + 3) ≤ b.1 := by
  fun_induction placed i segments with
  | case1 => exact .nil
  | case2 i text rest ih => exact ih
  | case3 i name rest ih =>
    exact List.pairwise_cons.2 ⟨fun b hb => le_of_mem_placed hb, ih⟩

theorem exists_mem_placed (i : Nat) (h : placeholder name ∈ segments) :
    ∃ j, (j, name) ∈ placed i segments := by
  fun_induction placed i segments with
  | case1 => cases h
  | case2 i text rest ih => exact ih (List.mem_of_ne_of_mem (by simp) h)
  | case3 i first rest ih =>
    rcases List.mem_cons.1 h with he | h
    · cases he
      exact ⟨i, List.mem_cons_self⟩
    · obtain ⟨j, hj⟩ := ih h
      exact ⟨j, List.mem_cons_of_mem _ hj⟩

theorem placed_consLiteral (i : Nat) (c : Char) (segments : List Segment) :
    placed i (Pattern.consLiteral c segments) = placed (i + 1) segments := by
  fun_cases Pattern.consLiteral c segments with
  | case1 text rest =>
    simp only [placed, List.length_cons]
    congr 1
    omega
  | case2 => rfl

end Segment

namespace Pattern

/-! ## Positions in a text -/

/-- A run of characters of names that is not empty. -/
structure IsName (name : List Char) : Prop where
  ne_nil : name ≠ []
  chars : ∀ c ∈ name, isNameChar c = true

/-- The placeholder `${NAME}` stands at a position of a text. -/
structure PlaceholderAt (text : List Char) (i : Nat) (name : List Char) : Prop where
  isName : IsName name
  isPrefix : (Segment.placeholder name).chars <+: text.drop i

variable {text name other : List Char} {i j n : Nat}

/-- What is read at the start of a text is the placeholder that stands there. -/
theorem placeholderAt?_eq_some_iff :
    placeholderAt? (text.drop i) = some name ↔ PlaceholderAt text i name := by
  constructor
  · intro h
    suffices hread : IsName name ∧ (Segment.placeholder name).chars <+: text.drop i from
      ⟨hread.1, hread.2⟩
    generalize text.drop i = t at h ⊢
    unfold placeholderAt? at h
    split at h
    · rename_i rest
      dsimp only at h
      split at h
      · rename_i tail htail
        split at h
        · cases h
        · rename_i hempty
          cases h
          refine ⟨⟨by simpa using hempty, List.all_eq_true.1 List.all_takeWhile⟩, tail, ?_⟩
          have hrest := List.takeWhile_append_dropWhile (p := isNameChar) (l := rest)
          rw [htail] at hrest
          simp [Segment.chars, hrest]
      · cases h
    · cases h
  · rintro ⟨hname, tail, htail⟩
    generalize text.drop i = t at htail ⊢
    have ht : t = '$' :: '\x7b' :: (name ++ '\x7d' :: tail) := by
      simpa [Segment.chars] using htail.symm
    have htake : (name ++ '\x7d' :: tail).takeWhile isNameChar = name := by
      rw [List.takeWhile_append_of_pos hname.chars, List.takeWhile_cons_of_neg (by decide),
        List.append_nil]
    have hdrop : (name ++ '\x7d' :: tail).dropWhile isNameChar = '\x7d' :: tail := by
      rw [List.dropWhile_append_of_pos hname.chars, List.dropWhile_cons_of_neg (by decide)]
    subst ht
    unfold placeholderAt?
    simp [htake, hdrop, hname.ne_nil]

namespace PlaceholderAt

/-- At most one placeholder stands at a position. -/
theorem unique (h : PlaceholderAt text i name) (h' : PlaceholderAt text i other) :
    name = other := by
  rw [← placeholderAt?_eq_some_iff] at h h'
  exact Option.some.inj (h.symm.trans h')

theorem drop_iff (text : List Char) (n : Nat) :
    PlaceholderAt (text.drop n) i name ↔ PlaceholderAt text (n + i) name := by
  rw [← placeholderAt?_eq_some_iff, List.drop_drop, placeholderAt?_eq_some_iff]

/-- A placeholder begins with a `$`. -/
theorem getElem?_eq (h : PlaceholderAt text i name) : text[i]? = some '$' := by
  obtain ⟨tail, htail⟩ := h.isPrefix
  have hfirst : (text.drop i)[0]? = some '$' := by rw [← htail]; rfl
  rwa [List.getElem?_drop] at hfirst

/-- Behind its first character a placeholder has no `$`. -/
theorem getElem?_ne (h : PlaceholderAt text i name) (hi : i < j) (hj : j < i + (name.length + 3)) :
    text[j]? ≠ some '$' := by
  obtain ⟨tail, htail⟩ := h.isPrefix
  obtain ⟨k, rfl⟩ : ∃ k, j = i + (k + 1) := ⟨j - i - 1, by omega⟩
  rw [← List.getElem?_drop, ← htail]
  have hinner : ('\x7b' :: name ++ ['\x7d'])[k]? ≠ some '$' := by
    intro hk
    have hmem := List.mem_of_getElem? hk
    simp only [List.cons_append, List.mem_cons, List.mem_append, List.not_mem_nil, or_false] at hmem
    rcases hmem with hc | hc | hc
    · exact absurd hc (by decide)
    · exact absurd (h.isName.chars _ hc) (by decide)
    · exact absurd hc (by decide)
  have hlt : k < ('\x7b' :: name ++ ['\x7d']).length := by
    simp
    omega
  have hcons : (Segment.placeholder name).chars ++ tail =
      '$' :: (('\x7b' :: name ++ ['\x7d']) ++ tail) := rfl
  rw [hcons, List.getElem?_cons_succ, List.getElem?_append_left hlt]
  exact hinner

/-- Two placeholders do not overlap. -/
theorem le_of_lt (h : PlaceholderAt text i name) (h' : PlaceholderAt text j other) (hij : i < j) :
    i + (name.length + 3) ≤ j := by
  refine Nat.le_of_not_lt fun hlt => ?_
  exact h.getElem?_ne hij hlt h'.getElem?_eq

end PlaceholderAt

/-! ## Cutting a pattern -/

variable {c : Char} {rest : List Char} {skip : Nat} {s : Segment} {segments : List Segment}

theorem flatMap_chars_consLiteral (c : Char) (segments : List Segment) :
    (consLiteral c segments).flatMap Segment.chars = c :: segments.flatMap Segment.chars := by
  fun_cases consLiteral c segments with
  | case1 text rest => rfl
  | case2 => rfl

theorem mem_consLiteral (h : s ∈ consLiteral c segments) :
    (∃ text, s = .literal (c :: text)) ∨ s ∈ segments := by
  unfold consLiteral at h
  split at h
  · rename_i text rest
    rcases List.mem_cons.1 h with rfl | h
    · exact .inl ⟨text, rfl⟩
    · exact .inr (List.mem_cons_of_mem _ h)
  · rcases List.mem_cons.1 h with rfl | h
    · exact .inl ⟨[], rfl⟩
    · exact .inr h

/-- A placeholder in front, and what is behind it. -/
theorem drop_eq_of_placeholderAt? (h : placeholderAt? (c :: rest) = some name) :
    c :: rest = (Segment.placeholder name).chars ++ rest.drop (name.length + 2) := by
  have hfirst : PlaceholderAt (c :: rest) 0 name := placeholderAt?_eq_some_iff.1 h
  obtain ⟨tail, htail⟩ := hfirst.isPrefix
  rw [List.drop_zero] at htail
  have hdrop := congrArg (List.drop (name.length + 3)) htail
  rw [List.drop_left' (Segment.length_chars_placeholder name)] at hdrop
  rw [← List.drop_succ_cons (a := c), ← hdrop]
  exact htail.symm

/-- The segments are the text once more. -/
theorem flatMap_chars_segmentsAfter (skip : Nat) (text : List Char) :
    (segmentsAfter skip text).flatMap Segment.chars = text.drop skip := by
  fun_induction segmentsAfter skip text with
  | case1 => simp
  | case2 skip c rest ih => exact ih
  | case3 c rest name h ih =>
    rw [List.flatMap_cons, ih, List.drop_zero]
    exact (drop_eq_of_placeholderAt? h).symm
  | case4 c rest h ih => rw [flatMap_chars_consLiteral, ih]; rfl

theorem length_le_of_ne_nil (h : ∀ s ∈ segments, s.chars ≠ []) :
    segments.length ≤ (segments.flatMap Segment.chars).length := by
  induction segments with
  | nil => exact Nat.le_refl 0
  | cons s rest ih =>
    have hs := List.length_pos_iff.2 (h s List.mem_cons_self)
    have hrest := ih fun s hs => h s (List.mem_cons_of_mem _ hs)
    rw [List.flatMap_cons, List.length_append, List.length_cons]
    omega

theorem flatMap_chars_segments (p : Pattern) :
    p.segments.flatMap Segment.chars = p.text.toList :=
  flatMap_chars_segmentsAfter 0 p.text.toList

/-- No segment is empty. -/
theorem chars_ne_nil (h : s ∈ segmentsAfter skip text) : s.chars ≠ [] := by
  fun_induction segmentsAfter skip text with
  | case1 => cases h
  | case2 skip c rest ih => exact ih h
  | case3 c rest name _ ih =>
    rcases List.mem_cons.1 h with rfl | h
    · exact List.cons_ne_nil _ _
    · exact ih h
  | case4 c rest _ ih =>
    rcases mem_consLiteral h with ⟨text, rfl⟩ | h
    · exact List.cons_ne_nil _ _
    · exact ih h

/-- The placeholders among the segments are those that stand in the text. -/
theorem mem_placed_segmentsAfter (i : Nat) (skip : Nat) (text : List Char) :
    (j, name) ∈ Segment.placed i (segmentsAfter skip text) ↔
      ∃ k, j = i + k ∧ PlaceholderAt (text.drop skip) k name := by
  fun_induction segmentsAfter skip text generalizing i with
  | case1 =>
    refine ⟨fun h => absurd h List.not_mem_nil, ?_⟩
    rintro ⟨k, -, hk⟩
    have hdollar := hk.getElem?_eq
    simp at hdollar
  | case2 skip c rest ih => exact ih i
  | case3 c rest first h ih =>
    have hfirst : PlaceholderAt (c :: rest) 0 first := placeholderAt?_eq_some_iff.1 h
    have hshift : ∀ k, PlaceholderAt (rest.drop (first.length + 2)) k name ↔
        PlaceholderAt (c :: rest) (first.length + 3 + k) name :=
      fun k => PlaceholderAt.drop_iff (c :: rest) (first.length + 3)
    simp only [Segment.placed, List.mem_cons, Prod.mk.injEq, ih, hshift, List.drop_zero]
    constructor
    · rintro (⟨rfl, rfl⟩ | ⟨k, rfl, hk⟩)
      · exact ⟨0, rfl, hfirst⟩
      · exact ⟨_, by omega, hk⟩
    · rintro ⟨k, rfl, hk⟩
      -- The next placeholder is not before the end of the first one.
      rcases Nat.eq_zero_or_pos k with rfl | hpos
      · exact .inl ⟨rfl, hk.unique hfirst⟩
      · have hle := hfirst.le_of_lt hk hpos
        refine .inr ⟨k - (first.length + 3), by omega, ?_⟩
        rwa [show first.length + 3 + (k - (first.length + 3)) = k by omega]
  | case4 c rest h ih =>
    rw [Segment.placed_consLiteral, ih]
    have hshift : ∀ k, PlaceholderAt rest k name ↔ PlaceholderAt (c :: rest) (1 + k) name :=
      fun k => PlaceholderAt.drop_iff (c :: rest) 1
    simp only [List.drop_zero, hshift]
    constructor
    · rintro ⟨k, rfl, hk⟩
      exact ⟨1 + k, by omega, hk⟩
    · rintro ⟨k, rfl, hk⟩
      rcases Nat.eq_zero_or_pos k with rfl | hpos
      · rw [← placeholderAt?_eq_some_iff, List.drop_zero, h] at hk
        cases hk
      · exact ⟨k - 1, by omega, by rwa [show 1 + (k - 1) = k by omega]⟩

/-! ## Resolving -/

/-- What a character of a text stands for. -/
inductive StandsFor (vars : VariableSet) (text : List Char) (i : Nat) : List Char → Prop
  /-- A placeholder is the decimal value of its variable. -/
  | value {name : List Char} {v : Int64} (h : PlaceholderAt text i name)
      (hv : vars.value? (String.ofList name) = some v) : StandsFor vars text i (Text.ofInt v.toInt)
  /-- The other characters of a placeholder add nothing. -/
  | inside {j : Nat} {name : List Char} (h : PlaceholderAt text j name) (hj : j < i)
      (hi : i < j + (name.length + 3)) : StandsFor vars text i []
  /-- A character that belongs to no placeholder stays. -/
  | self {c : Char} (hc : text[i]? = some c)
      (h : ∀ j name, PlaceholderAt text j name → j ≤ i → j + (name.length + 3) ≤ i) :
      StandsFor vars text i [c]

end Pattern

namespace Segment

/-- The text of a segment, if its variable is declared. -/
def textWith (vars : VariableSet) : Segment → List Char
  | literal text => text
  | placeholder name =>
    ((vars.value? (String.ofList name)).map fun v => Text.ofInt v.toInt).getD []

/-- The text of a segment, cut into as many pieces as the segment has characters. -/
def pieces (vars : VariableSet) : Segment → List (List Char)
  | literal text => text.map fun c => [c]
  | placeholder name =>
    (placeholder name).textWith vars :: List.replicate (name.length + 2) []

variable {vars : VariableSet} {piece : List Char} {k : Nat} {segments : List Segment}

theorem length_pieces (vars : VariableSet) (s : Segment) :
    (s.pieces vars).length = s.chars.length := by
  cases s <;> simp [pieces, chars]

theorem flatten_pieces (vars : VariableSet) (s : Segment) :
    (s.pieces vars).flatten = s.textWith vars := by
  cases s with
  | literal text => exact List.flatMap_def.symm.trans (List.flatMap_singleton' text)
  | placeholder name => simp [pieces]

/-- A piece is the value of a placeholder, lies inside one, or is a character outside of all. -/
theorem piece_cases (i : Nat) (h : (segments.flatMap (pieces vars))[k]? = some piece) :
    (∃ name, (i + k, name) ∈ placed i segments ∧ piece = (placeholder name).textWith vars) ∨
    (∃ j name, (j, name) ∈ placed i segments ∧ j < i + k ∧ i + k < j + (name.length + 3) ∧
      piece = []) ∨
    ∃ c, (segments.flatMap chars)[k]? = some c ∧ piece = [c] ∧
      ∀ j name, (j, name) ∈ placed i segments → j ≤ i + k → j + (name.length + 3) ≤ i + k := by
  fun_induction placed i segments generalizing k with
  | case1 => cases h
  | case2 i text rest ih =>
    have htext : (literal text).chars.length = text.length := rfl
    rw [List.flatMap_cons, List.getElem?_append, length_pieces, htext] at h
    rw [List.flatMap_cons, List.getElem?_append, htext]
    by_cases hlt : k < text.length
    · rw [if_pos hlt] at h ⊢
      rw [pieces, List.getElem?_map, Option.map_eq_some_iff] at h
      obtain ⟨c, hc, rfl⟩ := h
      refine .inr (.inr ⟨c, hc, rfl, fun j name hmem hle => ?_⟩)
      have := le_of_mem_placed hmem
      omega
    · rw [if_neg hlt] at h ⊢
      have hk : i + text.length + (k - text.length) = i + k := by omega
      have hrest := ih h
      rwa [hk] at hrest
  | case3 i first rest ih =>
    rw [List.flatMap_cons, List.getElem?_append, length_pieces, length_chars_placeholder] at h
    rw [List.flatMap_cons, List.getElem?_append, length_chars_placeholder]
    by_cases hlt : k < first.length + 3
    · rw [if_pos hlt] at h ⊢
      rcases k with _ | k
      · cases h
        exact .inl ⟨first, List.mem_cons_self, rfl⟩
      · rw [pieces, List.getElem?_cons_succ] at h
        have hnil := List.eq_of_mem_replicate (List.mem_of_getElem? h)
        exact .inr (.inl ⟨i, first, List.mem_cons_self, by omega, by omega, hnil⟩)
    · rw [if_neg hlt] at h ⊢
      have hk : i + (first.length + 3) + (k - (first.length + 3)) = i + k := by omega
      have hrest := ih h
      rw [hk] at hrest
      rcases hrest with ⟨name, hmem, he⟩ | ⟨j, name, hmem, he⟩ | ⟨c, hc, he, hout⟩
      · exact .inl ⟨name, List.mem_cons_of_mem _ hmem, he⟩
      · exact .inr (.inl ⟨j, name, List.mem_cons_of_mem _ hmem, he⟩)
      · refine .inr (.inr ⟨c, hc, he, fun j name hmem hle => ?_⟩)
        rcases List.mem_cons.1 hmem with he | hmem
        · cases he
          omega
        · exact hout j name hmem hle

end Segment

namespace Pattern

variable {p : Pattern} {vars vars' : VariableSet} {segments : List Segment}

/-- Segments with declared variables stand for their texts. -/
theorem resolveSegments_eq
    (h : ∀ name, .placeholder name ∈ segments → vars.contains (String.ofList name) = true) :
    p.resolveSegments vars segments = .ok (segments.flatMap (·.textWith vars)) := by
  induction segments with
  | nil => rfl
  | cons s rest ih =>
    have hrest := ih fun name hname => h name (List.mem_cons_of_mem _ hname)
    have hs : p.resolveSegment vars s = .ok (s.textWith vars) := by
      cases s with
      | literal text => rfl
      | placeholder name =>
        obtain ⟨v, hv⟩ := VariableSet.contains_iff_value?.1 (h name List.mem_cons_self)
        simp [resolveSegment, Segment.textWith, hv]
    simp [resolveSegments, hs, hrest]

/-- What segments stand for depends on the values of their variables. -/
theorem resolveSegments_congr
    (h : ∀ name, .placeholder name ∈ segments →
      vars'.value? (String.ofList name) = vars.value? (String.ofList name)) :
    p.resolveSegments vars' segments = p.resolveSegments vars segments := by
  induction segments with
  | nil => rfl
  | cons s rest ih =>
    have hs : p.resolveSegment vars' s = p.resolveSegment vars s := by
      cases s with
      | literal text => rfl
      | placeholder name => simp only [resolveSegment, h name List.mem_cons_self]
    simp only [resolveSegments, hs, ih fun name hname => h name (List.mem_cons_of_mem _ hname)]

/-- The placeholders of a pattern with their positions. -/
theorem mem_placed_segments {i : Nat} {name : List Char} :
    (i, name) ∈ Segment.placed 0 p.segments ↔ PlaceholderAt p.text.toList i name := by
  refine (mem_placed_segmentsAfter 0 0 p.text.toList).trans ?_
  simp

/-- A piece of a resolved pattern is what the character at its position stands for. -/
theorem standsFor_pieces {i : Nat} {piece : List Char}
    (hd : ∀ i name, PlaceholderAt p.text.toList i name →
      vars.contains (String.ofList name) = true)
    (h : (p.segments.flatMap (·.pieces vars))[i]? = some piece) :
    StandsFor vars p.text.toList i piece := by
  have hcases := Segment.piece_cases 0 h
  simp only [Nat.zero_add, mem_placed_segments] at hcases
  rcases hcases with ⟨name, hname, rfl⟩ | ⟨j, name, hname, hj, hi, rfl⟩ | ⟨c, hc, rfl, hout⟩
  · obtain ⟨v, hv⟩ := VariableSet.contains_iff_value?.1 (hd i name hname)
    have htext : (Segment.placeholder name).textWith vars = Text.ofInt v.toInt := by
      simp [Segment.textWith, hv]
    rw [htext]
    exact .value hname hv
  · exact .inside hname hj hi
  · exact .self ((flatMap_chars_segments p) ▸ hc) hout

theorem exists_placeholderAt {name : List Char} (h : .placeholder name ∈ p.segments) :
    ∃ i, PlaceholderAt p.text.toList i name := by
  obtain ⟨i, hi⟩ := Segment.exists_mem_placed 0 h
  exact ⟨i, mem_placed_segments.1 hi⟩

theorem placeholders_eq (p : Pattern) :
    p.placeholders = (Segment.placed 0 p.segments).map fun a => String.ofList a.2 := by
  unfold placeholders
  generalize 0 = i
  fun_induction Segment.placed i p.segments with
  | case1 => rfl
  | case2 i text rest ih => exact ih
  | case3 i name rest ih => simp [ih]

/-- **Resolving replaces the placeholders and changes nothing else.** The segments of a pattern are
its text once more, cut into pieces that are not empty. The placeholders among them are those that
stand in the text, from left to right. With variables that declare them all, the pattern resolves
to its text with the value of a variable for each placeholder and all other characters as they are;
so the result depends on the values of these variables only. -/
theorem resolve_replaces (p : Pattern) :
    p.segments.flatMap Segment.chars = p.text.toList ∧
    (∀ s ∈ p.segments, s.chars ≠ []) ∧ p.segments.length ≤ p.text.toList.length ∧
    (∀ i name, (i, name) ∈ Segment.placed 0 p.segments ↔ PlaceholderAt p.text.toList i name) ∧
    ((Segment.placed 0 p.segments).Pairwise fun a b => a.1 + (a.2.length + 3) ≤ b.1) ∧
    p.placeholders = ((Segment.placed 0 p.segments).map fun a => String.ofList a.2) ∧
    ∀ vars : VariableSet,
      (∀ i name, PlaceholderAt p.text.toList i name → vars.contains (String.ofList name) = true) →
      (∃ pieces : List (List Char), pieces.length = p.text.toList.length ∧
        (∀ i piece, pieces[i]? = some piece → StandsFor vars p.text.toList i piece) ∧
        p.resolve vars = .ok (String.ofList pieces.flatten)) ∧
      ∀ vars' : VariableSet,
        (∀ i name, PlaceholderAt p.text.toList i name →
          vars'.value? (String.ofList name) = vars.value? (String.ofList name)) →
        p.resolve vars' = p.resolve vars := by
  have hchars := p.flatMap_chars_segments
  refine ⟨hchars, fun s hs => chars_ne_nil hs, ?_, fun i name => mem_placed_segments,
    Segment.pairwise_placed 0 p.segments, p.placeholders_eq, fun vars hdeclared => ⟨?_, ?_⟩⟩
  · rw [← hchars]
    exact length_le_of_ne_nil fun s hs => chars_ne_nil hs
  · have hnames : ∀ name, .placeholder name ∈ p.segments →
        vars.contains (String.ofList name) = true := by
      intro name hname
      obtain ⟨i, hi⟩ := exists_placeholderAt hname
      exact hdeclared i name hi
    refine ⟨p.segments.flatMap (·.pieces vars), ?_, fun i piece h => ?_, ?_⟩
    · rw [← hchars, List.length_flatMap, List.length_flatMap]
      simp only [Segment.length_pieces]
    · exact standsFor_pieces hdeclared h
    · have hflatten : (p.segments.flatMap (·.pieces vars)).flatten =
          p.segments.flatMap (·.textWith vars) := by
        rw [← List.flatMap_id, List.flatMap_assoc]
        simp only [List.flatMap_id, Segment.flatten_pieces]
      rw [hflatten]
      unfold resolve
      rw [resolveSegments_eq hnames]
      rfl
  · intro vars' hvalues
    unfold resolve
    rw [resolveSegments_congr fun name hname => ?_]
    obtain ⟨i, hi⟩ := exists_placeholderAt hname
    exact hvalues i name hi

end Pattern

namespace Sample

/-- An opening without an end, around a placeholder. -/
def nested : Pattern :=
  ⟨"/a/$\x7bX$\x7bYEAR\x7d\x7d"⟩

/-- The year 2024. -/
def inYear : VariableSet :=
  { entries := [("YEAR", .fixed 2024)] }

end Sample

/-- Of nested openings the inner one is a placeholder. -/
theorem Pattern.resolve_replaces_nested :
    (∀ i name, PlaceholderAt Sample.nested.text.toList i name →
      Sample.inYear.contains (String.ofList name) = true) ∧
    (Sample.nested.resolve Sample.inYear).toOption = some "/a/$\x7bX2024\x7d" ∧
    ∃ pieces : List (List Char), pieces.length = Sample.nested.text.toList.length ∧
      (∀ i piece, pieces[i]? = some piece →
        StandsFor Sample.inYear Sample.nested.text.toList i piece) ∧
      Sample.nested.resolve Sample.inYear = .ok (String.ofList pieces.flatten) := by
  have h := Sample.nested.resolve_replaces
  have hplaced : Segment.placed 0 Sample.nested.segments = [(6, "YEAR".toList)] := by
    decide +kernel
  have hdeclared : ∀ i name, PlaceholderAt Sample.nested.text.toList i name →
      Sample.inYear.contains (String.ofList name) = true := by
    intro i name hname
    rw [← h.2.2.2.1, hplaced, List.mem_singleton] at hname
    cases hname
    decide +kernel
  exact ⟨hdeclared, by decide +kernel, (h.2.2.2.2.2.2 _ hdeclared).1⟩

end Lookout
