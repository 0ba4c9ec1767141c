import Lookout.Lifecycle
import Mathlib.Logic.Function.Iterate

/-!
# Armed triggers and their checkers

A trigger and the checker that waits for its data hold the variables twice. They stay the same.

* `Trigger.paths`: the patterns of a trigger, resolved with its present variables.
* `Lifecycle.Synced`: the checker waits for the paths of the trigger, as its principal.
* `Synced.arm`, `Synced.advance`: arming and going on to the next window keep it.
* `arm_ok`, `advance_ok`: what holds after any kind of checker has been armed or has gone on.
* `arm_eq`: when a trigger can be armed.
-/

namespace Lookout

/-- The patterns of the trigger, resolved with its present variables. -/
def Trigger.paths (t : Trigger) : Except PatternError (List String) :=
  t.patterns.mapM (·.resolve t.vars)

/-- The trigger `n` windows later, armed and changed at the given times. -/
def Trigger.windowAfter (t : Trigger) (n : Nat) (armedAt lastModifyTime : Instant) : Trigger :=
  { t with vars := VariableSet.advance^[n] t.vars, armedAt, lastModifyTime }

theorem CheckKey.ofPatterns_ok {vars : VariableSet} {principal : String} {patterns : List Pattern}
    {keys : List CheckKey} (h : ofPatterns vars principal patterns = .ok keys) :
    patterns.mapM (·.resolve vars) = .ok (keys.map (·.path)) ∧
      ∀ k ∈ keys, k.principal = principal := by
  induction patterns generalizing keys with
  | nil => cases h; exact ⟨rfl, fun k hk => absurd hk List.not_mem_nil⟩
  | cons p rest ih =>
    unfold ofPatterns at h
    split at h
    · cases h
    · rename_i path hp
      split at h
      · cases h
      · rename_i others hrest
        cases h
        obtain ⟨hpaths, hprincipal⟩ := ih hrest
        refine ⟨?_, fun k hk => ?_⟩
        · rw [List.mapM_cons, hp, hpaths]
          rfl
        · rcases List.mem_cons.1 hk with rfl | hk
          · rfl
          · exact hprincipal k hk

theorem Checker.new_ok {kind : CheckerKind} {d : Definition} {c : Checker}
    (h : Checker.new kind d = .ok c) :
    c.kind = kind ∧ c.definition = d ∧ d.checkKeys = .ok c.keys := by
  unfold Checker.new at h
  split at h
  · rename_i keys hk
    cases h
    exact ⟨rfl, rfl, hk⟩
  · cases h

/-- Only checkers that wait for data are registered. -/
def Registry.OnlyData (r : Registry) : Prop :=
  ∀ type kind, r.kinds.lookup type = some kind → kind = .data

theorem Registry.onlyData_register (type : String) :
    (Registry.empty.register type .data).OnlyData := by
  intro type' kind h
  obtain ⟨l₁, l₂, hl, -⟩ := List.lookup_eq_some_iff.1 h
  have hmem : (type', kind) ∈ (Registry.empty.register type .data).kinds := by
    rw [hl]
    exact List.mem_append_right _ List.mem_cons_self
  cases List.mem_singleton.1 hmem
  rfl

theorem Registry.create_ok {r : Registry} (hr : r.OnlyData) {d : Definition} {c : Checker}
    (h : r.create d = .ok c) : Checker.new .data d = .ok c := by
  unfold Registry.create at h
  split at h
  · rename_i kind hk
    rwa [hr _ kind hk] at h
  · cases h

namespace Lifecycle

variable {r : Registry} {checkerType : String} {revision : Nat} {t : Trigger} {l next : Lifecycle}
  {now : Instant}

theorem arm_ok (h : arm r checkerType revision t = .ok l) :
    l.trigger = t ∧ l.revision = revision ∧
      r.create (t.definition checkerType) = .ok l.checker := by
  unfold arm at h
  split at h
  · rename_i c hc
    cases h
    exact ⟨rfl, rfl, hc⟩
  · cases h

/-- With a registered type, a trigger can be armed if its patterns resolve. -/
theorem arm_eq {kind : CheckerKind} (hk : r.kinds.lookup checkerType = some kind) :
    arm r checkerType revision t =
      match t.checkKeys with
      | .ok keys =>
        .ok
          { trigger := t
            checker := { kind, definition := t.definition checkerType, keys }
            revision }
      | .error err => .error (.pattern err) := by
  have hlookup : r.kinds.lookup (t.definition checkerType).type = some kind := hk
  have hkeys : (t.definition checkerType).checkKeys = t.checkKeys := rfl
  unfold arm Registry.create
  rw [hlookup]
  dsimp only
  unfold Checker.new
  rw [hkeys]
  cases t.checkKeys <;> rfl

/-- Going on to the next window starts a new arming period; of the trigger, nothing else than the
variables may change. -/
theorem advance_ok (h : l.advance now = .ok next) :
    l.checker.reset = .ok next.checker ∧ next.revision = l.revision ∧
      next.trigger = ({ l.trigger with vars := next.checker.definition.vars }).rearm now := by
  unfold advance at h
  split at h
  · rename_i c hc
    cases h
    exact ⟨hc, rfl, rfl⟩
  · cases h

theorem id_advance (h : l.advance now = .ok next) : next.trigger.id = l.trigger.id := by
  rw [(advance_ok h).2.2]
  rfl

/-- The checker waits for the paths of the trigger, as its principal. -/
structure Synced (l : Lifecycle) : Prop where
  kind : l.checker.kind = .data
  definition : ∃ checkerType, l.checker.definition = l.trigger.definition checkerType
  keys : l.checker.definition.checkKeys = .ok l.checkKeys

theorem Synced.of_new {c : Checker} (h : Checker.new .data (t.definition checkerType) = .ok c)
    (hc : l.checker = c) (ht : l.trigger.definition checkerType = t.definition checkerType) :
    l.Synced := by
  obtain ⟨hkind, hdef, hkeys⟩ := Checker.new_ok h
  subst hc
  exact ⟨hkind, ⟨checkerType, hdef.trans ht.symm⟩, by rw [hdef]; exact hkeys⟩

theorem Synced.arm (hr : r.OnlyData) (h : arm r checkerType revision t = .ok l) : l.Synced := by
  obtain ⟨ht, -, hc⟩ := arm_ok h
  exact .of_new (Registry.create_ok hr hc) rfl (by rw [ht])

theorem Synced.withId (h : l.Synced) (id : Uuid) : (l.withId id).Synced :=
  ⟨h.kind, h.definition, h.keys⟩

/-- The next window has the next variables, and the checker waits for its paths. -/
theorem Synced.advance (hs : l.Synced) (h : l.advance now = .ok next) :
    next.Synced ∧ next.trigger = ({ l.trigger with vars := l.trigger.vars.advance }).rearm now := by
  obtain ⟨hreset, -, htrigger⟩ := advance_ok h
  obtain ⟨checkerType, hdef⟩ := hs.definition
  unfold Checker.reset at hreset
  rw [hs.kind] at hreset
  obtain ⟨hkind, hnext, hkeys⟩ := Checker.new_ok hreset
  have hvars : next.checker.definition.vars = l.trigger.vars.advance := by
    rw [hnext, hdef]
    rfl
  rw [hvars] at htrigger
  refine ⟨⟨hkind, ⟨checkerType, ?_⟩, by rw [hnext]; exact hkeys⟩, htrigger⟩
  rw [hnext, htrigger, hdef]
  rfl

/-- The checker of a synced trigger waits for the keys of the trigger. -/
theorem Synced.checkKeys (hs : l.Synced) : l.trigger.checkKeys = .ok l.checkKeys := by
  obtain ⟨checkerType, hdef⟩ := hs.definition
  have h := hs.keys
  rw [hdef] at h
  exact h

theorem Synced.paths (hs : l.Synced) : l.trigger.paths = .ok l.paths :=
  (CheckKey.ofPatterns_ok hs.checkKeys).1

/-- The path of each key is checked as the principal of the trigger. -/
theorem Synced.mem_checkKeys (hs : l.Synced) {path : String} (h : path ∈ l.paths) :
    { path, principal := l.trigger.principal } ∈ l.checkKeys := by
  obtain ⟨k, hk, rfl⟩ := List.mem_map.1 h
  rw [← (CheckKey.ofPatterns_ok hs.checkKeys).2 k hk]
  exact hk

end Lifecycle
end Lookout
