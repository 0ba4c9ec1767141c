import Lookout.Proofs.Placeholders
import Lookout.Proofs.Preview
import Lookout.Proofs.Restart
import Mathlib.Data.List.Forall2

/-!
# Validation of triggers

Whether the placeholders of a trigger are declared is found out in three ways: by a look at their
names, when the keys of the trigger are made, and when a checker is made for it.

* `Pattern.Declares`, `Pattern.FirstUndeclared`: what is declared, in terms of the text.
* `Pattern.check_ok_iff`, `Pattern.check_error_iff`: what the check of a pattern finds.
* `CheckKey.ofPatterns_ok_iff`, `CheckKey.ofPatterns_error_iff`: what becomes of the keys.
* `Trigger.validation_agrees`: the three ways come to the same.
-/

namespace Lookout

variable {vars : VariableSet}

/-! ## Patterns -/

namespace Pattern

variable {p : Pattern} {e : PatternError} {i : Nat} {name : List Char}

/-- The variables of all placeholders of the pattern are declared. -/
def Declares (vars : VariableSet) (p : Pattern) : Prop :=
  ∀ i name, PlaceholderAt p.text.toList i name → vars.contains (String.ofList name) = true

/-- The leftmost placeholder with a variable that is not declared. -/
structure FirstUndeclared (vars : VariableSet) (p : Pattern) (i : Nat) (name : List Char) :
    Prop where
  placed : PlaceholderAt p.text.toList i name
  undeclared : vars.contains (String.ofList name) = false
  leftmost : ∀ j other, j < i → PlaceholderAt p.text.toList j other →
    vars.contains (String.ofList other) = true

/-- The first placeholder in the list of segments is the leftmost one of the text. -/
theorem firstUndeclared_iff :
    FirstUndeclared vars p i name ↔
      vars.contains (String.ofList name) = false ∧
        ∃ before after, Segment.placed 0 p.segments = before ++ (i, name) :: after ∧
          ∀ a ∈ before, vars.contains (String.ofList a.2) = true := by
  have hordered := Segment.pairwise_placed 0 p.segments
  constructor
  · intro h
    obtain ⟨before, after, hplaced⟩ := List.append_of_mem (mem_placed_segments.2 h.placed)
    refine ⟨h.undeclared, before, after, hplaced, ?_⟩
    rintro ⟨j, other⟩ ha
    rw [hplaced] at hordered
    have hj := (List.pairwise_append.1 hordered).2.2 _ ha _ List.mem_cons_self
    have hmem : (j, other) ∈ Segment.placed 0 p.segments :=
      hplaced ▸ List.mem_append_left _ ha
    exact h.leftmost j other (by dsimp only at hj; omega) (mem_placed_segments.1 hmem)
  · rintro ⟨hundeclared, before, after, hplaced, hbefore⟩
    refine ⟨mem_placed_segments.1 (hplaced ▸ List.mem_append_right _ List.mem_cons_self),
      hundeclared, ?_⟩
    intro j other hj hother
    have hmem := mem_placed_segments.2 hother
    rw [hplaced] at hmem hordered
    rcases List.mem_append.1 hmem with hmem | hmem
    · exact hbefore _ hmem
    · -- A placeholder from here on does not stand to the left.
      exfalso
      rcases List.mem_cons.1 hmem with heq | hmem
      · cases heq
        exact Nat.lt_irrefl _ hj
      · have hle := List.rel_of_pairwise_cons (List.pairwise_append.1 hordered).2.1 hmem
        dsimp only at hle
        omega

/-- The check fails at the leftmost placeholder that is not declared, and quotes the pattern. -/
theorem check_error_iff :
    p.check vars = .error e ↔
      ∃ i name, FirstUndeclared vars p i name ∧ e = p.undeclared (String.ofList name) := by
  unfold check
  rw [placeholders_eq, List.find?_map]
  constructor
  · intro h
    split at h
    · rename_i first hfirst
      obtain ⟨⟨i, name⟩, hfind, rfl⟩ := Option.map_eq_some_iff.1 hfirst
      obtain ⟨hundeclared, before, after, hplaced, hbefore⟩ :=
        List.find?_eq_some_iff_append.1 hfind
      cases h
      refine ⟨i, name, firstUndeclared_iff.2 ⟨by simpa using hundeclared, before, after, hplaced,
        fun a ha => by simpa using hbefore a ha⟩, rfl⟩
    · cases h
  · rintro ⟨i, name, hfirst, rfl⟩
    obtain ⟨hundeclared, before, after, hplaced, hbefore⟩ := firstUndeclared_iff.1 hfirst
    have hfind : (Segment.placed 0 p.segments).find?
        ((fun name => !vars.contains name) ∘ fun a => String.ofList a.2) = some (i, name) :=
      List.find?_eq_some_iff_append.2
        ⟨by simpa using hundeclared, before, after, hplaced,
          fun a ha => by simpa using hbefore a ha⟩
    rw [hfind]
    rfl

/-- The check succeeds if and only if all placeholders are declared. -/
theorem check_ok_iff : p.check vars = .ok () ↔ Declares vars p := by
  unfold check
  rw [placeholders_eq]
  constructor
  · intro h i name hplaced
    split at h
    · cases h
    · rename_i hnone
      have hname := List.find?_eq_none.1 hnone (String.ofList name)
        (List.mem_map.2 ⟨(i, name), mem_placed_segments.2 hplaced, rfl⟩)
      simpa using hname
  · intro h
    have hnone : ((Segment.placed 0 p.segments).map fun a => String.ofList a.2).find?
        (fun name => !vars.contains name) = none := by
      refine List.find?_eq_none.2 fun name hname => ?_
      obtain ⟨⟨i, name⟩, hmem, rfl⟩ := List.mem_map.1 hname
      simpa using h i name (mem_placed_segments.1 hmem)
    rw [hnone]

/-- A pattern resolves if and only if the check succeeds. -/
theorem exists_resolve_iff : (∃ path, p.resolve vars = .ok path) ↔ Declares vars p := by
  rw [← check_ok_iff, check_eq]
  cases p.resolve vars with
  | error e => simp [Except.map]
  | ok path => simp [Except.map]

/-- Resolving fails with the same error as the check. -/
theorem resolve_error_iff :
    p.resolve vars = .error e ↔
      ∃ i name, FirstUndeclared vars p i name ∧ e = p.undeclared (String.ofList name) := by
  rw [← check_error_iff, check_eq]
  cases p.resolve vars with
  | error e' => simp [Except.map]
  | ok path => simp [Except.map]

end Pattern

/-! ## Keys -/

/-- The error is about the leftmost placeholder that is not declared, of the first pattern that has
one, and quotes this pattern. -/
inductive PatternError.IsFirst (vars : VariableSet) : List Pattern → PatternError → Prop
  | intro (before after : List Pattern) {p : Pattern} {i : Nat} {name : List Char}
      (hbefore : ∀ q ∈ before, q.Declares vars) (h : p.FirstUndeclared vars i name) :
      IsFirst vars (before ++ p :: after) { name := String.ofList name, pattern := p.text }

namespace CheckKey

variable {principal : String} {patterns : List Pattern} {keys : List CheckKey} {e : PatternError}

/-- A key of each pattern, in their order. -/
theorem ofPatterns_ok_iff :
    ofPatterns vars principal patterns = .ok keys ↔
      List.Forall₂ (fun p k => p.resolve vars = .ok k.path ∧ k.principal = principal) patterns
        keys := by
  induction patterns generalizing keys with
  | nil =>
    rw [List.forall₂_nil_left_iff]
    exact ⟨fun h => by cases h; rfl, fun h => by rw [h]; rfl⟩
  | cons p rest ih =>
    rw [List.forall₂_cons_left_iff]
    unfold ofPatterns
    constructor
    · intro h
      split at h
      · cases h
      · rename_i path hpath
        split at h
        · cases h
        · rename_i others hothers
          cases h
          exact ⟨_, others, ⟨hpath, rfl⟩, ih.1 hothers, rfl⟩
    · rintro ⟨k, others, ⟨hpath, rfl⟩, hothers, rfl⟩
      rw [hpath, ih.2 hothers]

/-- The first pattern that does not resolve decides. -/
theorem ofPatterns_error_iff :
    ofPatterns vars principal patterns = .error e ↔ e.IsFirst vars patterns := by
  induction patterns with
  | nil =>
    constructor
    · intro h
      cases h
    · intro h
      generalize hp : ([] : List Pattern) = patterns at h
      cases h
      simp at hp
  | cons p rest ih =>
    unfold ofPatterns
    constructor
    · intro h
      split at h
      · rename_i e' hresolve
        cases h
        obtain ⟨i, name, hfirst, rfl⟩ := Pattern.resolve_error_iff.1 hresolve
        exact .intro [] rest (List.forall_mem_nil _) hfirst
      · rename_i path hpath
        split at h
        · rename_i e' hrest
          cases h
          obtain ⟨before, after, hbefore, hfirst⟩ := ih.1 hrest
          refine .intro (p :: before) after (List.forall_mem_cons.2 ⟨?_, hbefore⟩) hfirst
          exact Pattern.exists_resolve_iff.1 ⟨path, hpath⟩
        · cases h
    · intro h
      generalize hp : p :: rest = patterns at h
      obtain @⟨before, after, q, i, name, hbefore, hfirst⟩ := h
      cases before with
      | nil =>
        cases hp
        rw [Pattern.resolve_error_iff.2 ⟨i, name, hfirst, rfl⟩]
        rfl
      | cons q' before =>
        cases hp
        obtain ⟨hq, hbefore⟩ := List.forall_mem_cons.1 hbefore
        obtain ⟨path, hpath⟩ := Pattern.exists_resolve_iff.2 hq
        rw [hpath, ih.2 (.intro before after hbefore hfirst)]

end CheckKey

/-! ## Checkers -/

namespace Checker

variable {kind : CheckerKind} {d : Definition}

theorem new_of_checkKeys {keys : List CheckKey} (h : d.checkKeys = .ok keys) :
    new kind d = .ok { kind, definition := d, keys } := by
  unfold new
  rw [h]

theorem new_eq_error_iff {e : EngineError} :
    new kind d = .error e ↔ ∃ e', d.checkKeys = .error e' ∧ e = .pattern e' := by
  unfold new
  cases d.checkKeys <;> simp [eq_comm]

end Checker

/-! ## Triggers -/

namespace Trigger

variable {t : Trigger}

theorem validatePatterns_eq_ok_iff :
    t.validatePatterns = .ok () ↔ ∃ keys, t.checkKeys = .ok keys := by
  rw [validatePatterns_eq]
  cases t.checkKeys <;> simp [Except.map]

theorem validatePatterns_eq_error_iff {e : PatternError} :
    t.validatePatterns = .error e ↔ t.checkKeys = .error e := by
  rw [validatePatterns_eq]
  cases t.checkKeys <;> simp [Except.map]

theorem exists_checkKeys_iff :
    (∃ keys, t.checkKeys = .ok keys) ↔ ∀ p ∈ t.patterns, p.Declares t.vars := by
  have hresolve : t.checkKeys.isOk = true ↔ ∀ p ∈ t.patterns, p.Declares t.vars :=
    CheckKey.isOk_ofPatterns.trans (forall₂_congr fun _ _ => Pattern.exists_resolve_iff)
  rw [← hresolve]
  cases t.checkKeys <;> simp [Except.isOk, Except.toBool]

/-- **Three ways to the same result**: the validation of a trigger, its keys, and its checker. -/
theorem validation_agrees (t : Trigger) (type : String) :
    (t.validatePatterns = .ok () ↔ ∀ p ∈ t.patterns, p.Declares t.vars) ∧
    (t.validatePatterns = .ok () ↔ ∃ keys, t.checkKeys = .ok keys) ∧
    (t.validatePatterns = .ok () ↔
      ∃ checker, Checker.new .data (t.definition type) = .ok checker) ∧
    (∀ keys checker, t.checkKeys = .ok keys →
      Checker.new .data (t.definition type) = .ok checker →
        checker.keys = keys ∧
        List.Forall₂ (fun p k => p.resolve t.vars = .ok k.path ∧ k.principal = t.principal)
          t.patterns keys) ∧
    (∀ e, t.validatePatterns = .error e ↔ e.IsFirst t.vars t.patterns) ∧
    (∀ e, t.checkKeys = .error e ↔ e.IsFirst t.vars t.patterns) ∧
    ∀ e, Checker.new .data (t.definition type) = .error e ↔
      ∃ e', e'.IsFirst t.vars t.patterns ∧ e = .pattern e' := by
  -- A checker is made from the same patterns and variables.
  have hdefinition : (t.definition type).checkKeys = t.checkKeys := rfl
  have herror : ∀ e, t.checkKeys = .error e ↔ e.IsFirst t.vars t.patterns := fun _ =>
    CheckKey.ofPatterns_error_iff
  refine ⟨validatePatterns_eq_ok_iff.trans exists_checkKeys_iff, validatePatterns_eq_ok_iff, ?_, ?_,
    fun e => validatePatterns_eq_error_iff.trans (herror e), herror, fun e => ?_⟩
  · rw [validatePatterns_eq_ok_iff, ← hdefinition]
    constructor
    · rintro ⟨keys, hkeys⟩
      exact ⟨_, Checker.new_of_checkKeys hkeys⟩
    · rintro ⟨checker, hnew⟩
      exact ⟨checker.keys, (Checker.new_ok hnew).2.2⟩
  · intro keys checker hkeys hnew
    have hsame : Except.ok keys = Except.ok checker.keys :=
      hkeys.symm.trans (Checker.new_ok hnew).2.2
    exact ⟨(Except.ok.inj hsame).symm, CheckKey.ofPatterns_ok_iff.1 hkeys⟩
  · rw [Checker.new_eq_error_iff, hdefinition]
    exact exists_congr fun e' => and_congr_left' (herror e')

end Trigger
end Lookout
