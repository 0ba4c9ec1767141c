import Lookout.Proofs.Arming
import Lookout.Proofs.NextWindow

/-!
# Declared names

Whether patterns resolve depends on the names that are declared, not on their values, and going on
to the next window declares the same names.

* `Pattern.resolve_of_declared`, `CheckKey.ofPatterns_of_declared`: what resolves with some
  variables resolves with all that declare the same names or more.
* `Lifecycle.Synced.exists_advance`: a trigger and its checker always have a next window.
-/

namespace Lookout

variable {vars vars' : VariableSet}

namespace Pattern

variable {p : Pattern}

private theorem resolveSegment_of_declared (hd : ∀ name, vars.contains name → vars'.contains name)
    {s : Segment} {text : List Char} (h : p.resolveSegment vars s = .ok text) :
    ∃ text', p.resolveSegment vars' s = .ok text' := by
  cases s with
  | literal text => exact ⟨text, rfl⟩
  | placeholder name =>
    unfold resolveSegment at h ⊢
    dsimp only at h ⊢
    split at h
    · rename_i value hvalue
      have hname := hd _ (VariableSet.contains_iff_value?.2 ⟨value, hvalue⟩)
      obtain ⟨value', hvalue'⟩ := VariableSet.contains_iff_value?.1 hname
      rw [hvalue']
      exact ⟨_, rfl⟩
    · cases h

private theorem resolveSegments_of_declared (hd : ∀ name, vars.contains name → vars'.contains name)
    {segments : List Segment} {text : List Char}
    (h : p.resolveSegments vars segments = .ok text) :
    ∃ text', p.resolveSegments vars' segments = .ok text' := by
  induction segments generalizing text with
  | nil => exact ⟨[], rfl⟩
  | cons s rest ih =>
    unfold resolveSegments at h ⊢
    split at h
    · cases h
    · rename_i first hfirst
      split at h
      · cases h
      · rename_i others hothers
        obtain ⟨first', hfirst'⟩ := resolveSegment_of_declared hd hfirst
        obtain ⟨others', hothers'⟩ := ih hothers
        rw [hfirst', hothers']
        exact ⟨_, rfl⟩

/-- A pattern resolves whenever its placeholders are declared. -/
theorem resolve_of_declared (hd : ∀ name, vars.contains name → vars'.contains name)
    {path : String} (h : p.resolve vars = .ok path) : ∃ path', p.resolve vars' = .ok path' := by
  unfold resolve at h ⊢
  cases hs : p.resolveSegments vars p.segments with
  | error e =>
    rw [hs] at h
    cases h
  | ok text =>
    obtain ⟨text', htext'⟩ := resolveSegments_of_declared hd hs
    rw [htext']
    exact ⟨_, rfl⟩

end Pattern

theorem CheckKey.ofPatterns_of_declared (hd : ∀ name, vars.contains name → vars'.contains name)
    {principal : String} {patterns : List Pattern} {keys : List CheckKey}
    (h : ofPatterns vars principal patterns = .ok keys) :
    ∃ keys', ofPatterns vars' principal patterns = .ok keys' := by
  induction patterns generalizing keys with
  | nil => exact ⟨[], rfl⟩
  | cons p rest ih =>
    unfold ofPatterns at h ⊢
    split at h
    · cases h
    · rename_i path hpath
      split at h
      · cases h
      · rename_i others hothers
        obtain ⟨path', hpath'⟩ := Pattern.resolve_of_declared hd hpath
        obtain ⟨others', hothers'⟩ := ih hothers
        rw [hpath', hothers']
        exact ⟨_, rfl⟩

/-- A trigger that is armed can always go on to its next window. -/
theorem Lifecycle.Synced.exists_advance {l : Lifecycle} (h : l.Synced) (now : Instant) :
    ∃ next, l.advance now = .ok next := by
  have hnames : ∀ name, l.checker.definition.vars.contains name →
      l.checker.definition.vars.advance.contains name := by
    intro name hname
    rw [VariableSet.contains_advance]
    exact hname
  obtain ⟨keys, hkeys⟩ := CheckKey.ofPatterns_of_declared hnames h.keys
  have hreset : l.checker.reset = Checker.new .data l.checker.definition.advance := by
    unfold Checker.reset
    rw [h.kind]
    rfl
  have hnext : l.checker.definition.advance.checkKeys = .ok keys := hkeys
  unfold Lifecycle.advance
  rw [hreset]
  unfold Checker.new
  rw [hnext]
  exact ⟨_, rfl⟩

end Lookout
