import Lookout.Command.Run
import Lookout.Proofs.Synchrony
import Lookout.Proofs.Windows

/-!
# Previews

What a preview of a pattern shows, and what the engine waits for once a trigger has been created
with that pattern (`Run.previewed`).

- **Windows** (`windows_ok`, `windows_error_iff`): the paths are those of the windows one after the
  other. Resolving fails only in the first one, since all windows declare the same names.
- **The preview** (`preview_ok`, `preview_error_iff`): it shows these paths. It fails only as
  resolving does, as long as there is room for as many paths as are asked for. If there is not, it
  does not get as far as resolving (`Run.preview_overflows`).
- **Validation** (`Pattern.check_eq`, `Trigger.validatePatterns_eq`): it fails where resolving
  would, and with the same error.
- **Creation** (`Engine.create_eq`): in an engine that can arm its checkers, a request is granted
  or refused for its patterns. Otherwise the store is not available.
- **Waiting** (`Run.waits_in_window`): the window of a trigger is as far from its first one as there
  have been calls.
-/

namespace Lookout

/-! ## The preview -/

namespace Command

variable {p : Pattern} {vars : VariableSet} {n : Nat}

/-- The paths are those of the windows. -/
theorem windows_ok {paths : List String} (h : windows p vars n = .ok paths) :
    paths.length = n + 1 ∧ ∀ i path, paths[i]? = some path →
      p.resolve (VariableSet.advance^[i] vars) = .ok path := by
  induction n generalizing vars paths with
  | zero =>
    unfold windows at h
    cases hp : p.resolve vars with
    | error e =>
      rw [hp] at h
      cases h
    | ok path =>
      rw [hp] at h
      cases h
      refine ⟨rfl, fun i other hi => ?_⟩
      cases i with
      | zero =>
        cases hi
        exact hp
      | succ i => cases hi
  | succ n ih =>
    unfold windows at h
    cases hp : p.resolve vars with
    | error e =>
      rw [hp] at h
      cases h
    | ok path =>
      rw [hp] at h
      dsimp only at h
      cases hrest : windows p vars.advance n with
      | error e =>
        rw [hrest] at h
        cases h
      | ok others =>
        rw [hrest] at h
        cases h
        obtain ⟨hlength, hpaths⟩ := ih hrest
        refine ⟨congrArg (· + 1) hlength, fun i other hi => ?_⟩
        cases i with
        | zero =>
          cases hi
          exact hp
        | succ i => exact hpaths i other hi

/-- Resolving fails only in the first window. -/
theorem windows_error_iff {e : PatternError} :
    windows p vars n = .error e ↔ p.resolve vars = .error e := by
  induction n generalizing vars e with
  | zero =>
    unfold windows
    cases p.resolve vars with
    | error e' => constructor <;> intro h <;> cases h <;> rfl
    | ok path => constructor <;> intro h <;> cases h
  | succ n ih =>
    unfold windows
    cases hp : p.resolve vars with
    | error e' => constructor <;> intro h <;> cases h <;> rfl
    | ok path =>
      have hnames : ∀ name, vars.contains name → vars.advance.contains name :=
        fun name hname => (vars.contains_advance name).trans hname
      obtain ⟨next, hnext⟩ := Pattern.resolve_of_declared hnames hp
      dsimp only
      cases hrest : windows p vars.advance n with
      | error e' => cases hnext.symm.trans (ih.1 hrest)
      | ok others => constructor <;> intro h <;> cases h

/-- A preview shows the paths of its windows. -/
theorem preview_ok {paths : List String} (h : preview p vars n = .ok paths) :
    paths.length = n + 1 ∧ ∀ i path, paths[i]? = some path →
      p.resolve (VariableSet.advance^[i] vars) = .ok path := by
  unfold preview at h
  split at h
  · cases hw : windows p vars n with
    | error e =>
      rw [hw] at h
      cases h
    | ok others =>
      rw [hw] at h
      cases h
      exact windows_ok hw
  · cases h

/-- A preview with room for its paths fails only if the pattern does not resolve in the first
window. -/
theorem preview_error_iff (hroom : n + 1 ≤ maxPaths) {failure : Failure} :
    preview p vars n = .error failure ↔ ∃ e, failure = .pattern e ∧ p.resolve vars = .error e := by
  unfold preview
  rw [if_pos hroom]
  cases hw : windows p vars n with
  | error e =>
    have hfirst : p.resolve vars = .error e := windows_error_iff.1 hw
    rw [hfirst]
    constructor
    · rintro ⟨⟩
      exact ⟨e, rfl, rfl⟩
    · rintro ⟨_, rfl, ⟨⟩⟩
      rfl
  | ok paths =>
    constructor
    · rintro ⟨⟩
    · rintro ⟨e, -, he⟩
      cases hw.symm.trans (windows_error_iff.2 he)

end Command

/-! ## Validation -/

/-- A pattern is found valid if it resolves; else both tell the same error. -/
theorem Pattern.check_eq (p : Pattern) (vars : VariableSet) :
    p.check vars = (p.resolve vars).map fun _ => () := by
  unfold check placeholders resolve
  generalize p.segments = segments
  induction segments with
  | nil => rfl
  | cons s rest ih =>
    cases s with
    | literal text =>
      rw [List.filterMap_cons]
      dsimp only
      rw [ih]
      simp only [resolveSegments, resolveSegment]
      cases p.resolveSegments vars rest <;> rfl
    | placeholder name =>
      rw [List.filterMap_cons]
      dsimp only
      rw [List.find?_cons]
      simp only [resolveSegments, resolveSegment]
      cases hv : vars.value? (String.ofList name) with
      | none =>
        have hc : vars.contains (String.ofList name) = false := by
          rw [Bool.eq_false_iff, Ne, VariableSet.contains_iff_value?, hv]
          rintro ⟨v, h⟩
          cases h
        rw [hc]
        rfl
      | some v =>
        have hc : vars.contains (String.ofList name) = true :=
          VariableSet.contains_iff_value?.2 ⟨v, hv⟩
        rw [hc, Bool.not_true]
        dsimp only
        rw [ih]
        cases p.resolveSegments vars rest <;> rfl

/-- The patterns of a trigger are found valid if they all resolve; else both tell the same error. -/
theorem Trigger.validatePatterns_eq (t : Trigger) :
    t.validatePatterns = t.checkKeys.map fun _ => () := by
  unfold validatePatterns checkKeys
  induction t.patterns with
  | nil => rfl
  | cons p rest ih =>
    rw [List.foldl_cons]
    unfold CheckKey.ofPatterns
    dsimp only
    rw [p.check_eq]
    cases p.resolve t.vars with
    | error e =>
      -- The patterns that follow do not matter any more.
      dsimp only [Except.map]
      clear ih
      induction rest with
      | nil => rfl
      | cons q rest ih => exact ih
    | ok path =>
      dsimp only [Except.map]
      rw [ih]
      cases CheckKey.ofPatterns t.vars t.principal rest <;> rfl

/-! ## Creation -/

namespace Engine

variable {e : Engine}

/-- The engine can arm its checkers. -/
def Arms (e : Engine) : Prop :=
  e.registry.kinds.lookup e.checkerType = some .data

theorem Arms.of_start {config : Config} {store : Store} {clock : Instant}
    (h : start config store clock = .ok e) : e.Arms := by
  obtain ⟨-, n, hload⟩ := start_eq_ok_iff.1 h
  obtain ⟨hregistry, htype, -⟩ := load_ok hload
  unfold Arms
  rw [hregistry, htype]
  exact List.lookup_cons_self

theorem Arms.of_run {s₀ s : System} {history : List Moment} (h : s₀.engine.Arms)
    (hr : Run s₀ history s) : s.engine.Arms := by
  refine hr.invariant (P := fun _ s => s.engine.Arms) h ?_
  intro past s e s' _ ih hs
  obtain ⟨hregistry, htype, -⟩ := hs.settings_eq
  unfold Arms
  rw [hregistry, htype]
  exact ih

/-- **What a request with a time to expire that can be read comes to**: the trigger, unless one of
its patterns does not resolve or the store is not available. -/
theorem create_eq (h : e.Arms) {r : CreateRequest} {d : Duration} (hd : e.timeToExpire r = .ok d)
    (fresh : Uuid) :
    (e.create fresh r).1 =
      match (e.triggerOf r d).checkKeys, e.store.outages.insert with
      | .error err, _ => .error (.pattern err)
      | .ok _, text :: _ => .error (.storeBackend text)
      | .ok _, [] => .ok { e.triggerOf r d with id := fresh } := by
  unfold create beginCreate
  rw [hd]
  dsimp only [arm]
  rw [Trigger.validatePatterns_eq, Lifecycle.arm_eq h]
  cases (e.triggerOf r d).checkKeys with
  | error err => rfl
  | ok keys =>
    dsimp only [Except.map]
    unfold Store.insert Store.attempt
    dsimp only [Outages.of]
    cases e.store.outages.insert <;> rfl

end Engine

/-! ## What comes after a preview -/

/-- A single pattern has a single key. -/
theorem CheckKey.ofPatterns_single (vars : VariableSet) (principal : String) (p : Pattern) :
    ofPatterns vars principal [p] = (p.resolve vars).map fun path => [{ path, principal }] := by
  unfold ofPatterns
  cases p.resolve vars <;> rfl

/-- A trigger that has been created, and has not been replaced, waits in the window after as many
calls of its action as have been decided. -/
theorem Run.waits_in_window {config : Config} {store : Store} {clock : Instant} {engine : Engine}
    {past rest : List Moment} {s s₁ s' : System} {fresh : Uuid} {r : CreateRequest} {t : Trigger}
    {l : Lifecycle} (h : Engine.start config store clock = .ok engine)
    (hpast : Run (.ofEngine engine) past s) (hs : Step s (.created fresh r (.ok t)) s₁)
    (hrest : Run s₁ rest s') (hu : ∀ m ∈ rest, m.event.replaced? ≠ some fresh)
    (hl : s'.engine.armed.find? fresh = some l) :
    CheckKey.ofPatterns
        (VariableSet.advance^[(firingsOf fresh rest ++ s'.remaining fresh).length] t.vars)
        t.principal t.patterns = .ok l.checkKeys := by
  obtain ⟨rfl, hfresh, -⟩ := hs.created
  have hcalls : firingsOf t.id (past ++ [⟨s, .created t.id r (.ok t)⟩] ++ rest) =
      firingsOf t.id rest := by
    rw [firingsOf_append, firingsOf_append, (hpast.firingsOf_fresh h hfresh).1, firingsOf_singleton]
    rfl
  obtain ⟨armedAt, lastModifyTime, hwindow⟩ :=
    (System.Reached.of_run h hpast hs hrest hu).armed l hl
  have hsound : s'.Sound := .of_run h ((hpast.snoc hs).append hrest)
  have hkeys := (hsound.synced _ l hl).checkKeys
  rw [hwindow, hcalls] at hkeys
  exact hkeys

/-- **A preview shows what the engine will wait for**, for any number of windows whose paths there
is room for. It fails if and only if the engine, at that time, would refuse a trigger with this
pattern and these variables for the pattern, and with the same error; otherwise only the store can
fail. The path that is shown for a window is that of the one key for which the trigger, once it has
been created, waits after as many calls of its action have been decided, if it has not been
replaced. -/
theorem Run.previewed {config : Config} {store : Store} {clock : Instant} {engine : Engine}
    {past : List Moment} {s : System} {r : CreateRequest} {p : Pattern} {d : Duration} {n : Nat}
    (h : Engine.start config store clock = .ok engine) (hr : Run (.ofEngine engine) past s)
    (hp : r.patterns = [p]) (hd : s.engine.timeToExpire r = .ok d)
    (hroom : n + 1 ≤ Command.maxPaths) (fresh : Uuid) :
    (∀ failure, Command.preview p (r.vars.fillCalendar s.engine.clock) n = .error failure ↔
      ∃ err, failure = .pattern err ∧ (s.engine.create fresh r).1 = .error (.pattern err)) ∧
    (∀ err, (s.engine.create fresh r).1 = .error err →
      (∃ e, err = .pattern e) ∨ ∃ text ∈ s.engine.store.outages.insert, err = .storeBackend text) ∧
    ∀ paths, Command.preview p (r.vars.fillCalendar s.engine.clock) n = .ok paths →
      paths.length = n + 1 ∧
      ∀ t s₁ rest s' l, Step s (.created fresh r (.ok t)) s₁ → Run s₁ rest s' →
        (∀ m ∈ rest, m.event.replaced? ≠ some fresh) → s'.engine.armed.find? fresh = some l →
        ∀ path, paths[(firingsOf fresh rest ++ s'.remaining fresh).length]? = some path →
          l.checkKeys = [{ path, principal := r.principal }] := by
  have hstart : (System.ofEngine engine).engine.Arms := .of_start h
  have ha := hstart.of_run hr
  have hkeys : (s.engine.triggerOf r d).checkKeys =
      (p.resolve (r.vars.fillCalendar s.engine.clock)).map
        fun path => [{ path, principal := r.principal }] := by
    rw [← CheckKey.ofPatterns_single, ← hp]
    rfl
  have hcreate := Engine.create_eq ha hd fresh
  rw [hkeys] at hcreate
  have hrefused : ∀ err, p.resolve (r.vars.fillCalendar s.engine.clock) = .error err ↔
      (s.engine.create fresh r).1 = .error (.pattern err) := by
    intro err
    rw [hcreate]
    cases p.resolve (r.vars.fillCalendar s.engine.clock) with
    | error e => constructor <;> intro h <;> cases h <;> rfl
    | ok path =>
      cases s.engine.store.outages.insert <;> constructor <;> intro h <;> cases h
  refine ⟨fun failure => ?_, fun err herr => ?_, fun paths hpaths => ?_⟩
  · simp only [Command.preview_error_iff hroom, hrefused]
  · rw [hcreate] at herr
    split at herr
    · cases herr
      exact .inl ⟨_, rfl⟩
    · rename_i text rest _ ho
      cases herr
      rw [ho]
      exact .inr ⟨text, List.mem_cons_self, rfl⟩
    · cases herr
  · obtain ⟨hlength, hresolve⟩ := Command.preview_ok hpaths
    refine ⟨hlength, fun t s₁ rest s' l hs hrest hu hl path hpath => ?_⟩
    have hwaits := Run.waits_in_window h hr hs hrest hu hl
    obtain ⟨d, -, rfl⟩ := hs.created_eq
    have hpatterns : (s.engine.triggerOf r d).patterns = [p] := hp
    have hvars : (s.engine.triggerOf r d).vars = r.vars.fillCalendar s.engine.clock := rfl
    dsimp only at hwaits
    rw [hpatterns, hvars, CheckKey.ofPatterns_single, hresolve _ path hpath] at hwaits
    exact (Except.ok.inj hwaits).symm

namespace Sample

/-- The first trigger has fired once, and its second call has been decided. -/
def onward : List Moment × System :=
  creation.2.play [.decide, .beginPoll, .answer (.ok true), .decide, .fire, .settle (.ok ()),
    .decide, .beginPoll, .answer (.ok true), .decide]

theorem isSome_onward : (onward.2.engine.armed.find? first).isSome = true := by decide +kernel

/-- The first trigger in its third window. -/
def thirdWindow : Lifecycle :=
  (onward.2.engine.armed.find? first).get isSome_onward

theorem find?_onward : onward.2.engine.armed.find? first = some thirdWindow :=
  (Option.some_get isSome_onward).symm

end Sample

/-- The preview of three days, and the key for which the trigger waits on the third one. -/
theorem Run.previewed_third_window :
    Command.preview ⟨"/in/$\x7bDAY\x7d"⟩ (Sample.daily.vars.fillCalendar .epoch) 2 =
        .ok ["/in/1", "/in/2", "/in/3"] ∧
      Sample.thirdWindow.checkKeys = [{ path := "/in/3", principal := "etl" }] := by
  have hpreview : Command.preview ⟨"/in/$\x7bDAY\x7d"⟩ (Sample.daily.vars.fillCalendar .epoch) 2 =
      .ok ["/in/1", "/in/2", "/in/3"] := Sample.eq_ok_of_toOption (by decide +kernel)
  have hthird : (["/in/1", "/in/2", "/in/3"] : List String)[(firingsOf Sample.first
      Sample.onward.1 ++ Sample.onward.2.remaining Sample.first).length]? = some "/in/3" := by
    decide +kernel
  obtain ⟨-, -, hwindows⟩ := Run.previewed (r := Sample.daily) (n := 2) Sample.start .nil rfl rfl
    (by decide) Sample.first
  obtain ⟨-, hwaits⟩ := hwindows _ hpreview
  exact ⟨hpreview, hwaits _ _ _ _ _ Sample.step_creation (.of_play _ _) (by decide +kernel)
    Sample.find?_onward _ hthird⟩

namespace Sample

/-- Names a variable that is not declared. -/
def regional : CreateRequest :=
  { daily with patterns := [⟨"/$\x7bREGION\x7d"⟩] }

/-- The error of the placeholder. -/
def regionMissing : PatternError :=
  { name := "REGION", pattern := "/$\x7bREGION\x7d" }

theorem create_regional : (engine.create first regional).1 = .error (.pattern regionMissing) :=
  rfl

end Sample

/-- Without room for its paths a preview does not fail as the engine does. The number of windows is
one that a command can ask for, and the pattern names a variable that is not declared. -/
theorem Run.preview_overflows :
    ¬ ∀ (config : Config) (store : Store) (clock : Instant) (engine : Engine) (past : List Moment)
      (s : System) (r : CreateRequest) (p : Pattern) (d : Duration) (n : Nat) (fresh : Uuid),
      Engine.start config store clock = .ok engine → Run (.ofEngine engine) past s →
      r.patterns = [p] → s.engine.timeToExpire r = .ok d → n ≤ Text.maxCount →
      ∀ failure, Command.preview p (r.vars.fillCalendar s.engine.clock) n = .error failure ↔
        ∃ err, failure = .pattern err ∧
          (s.engine.create fresh r).1 = .error (.pattern err) := by
  intro hpredicts
  have hrefused := (hpredicts _ _ _ _ _ _ Sample.regional _ _ 9223372036854775807 Sample.first
    Sample.start .nil rfl rfl (by decide) _).2 ⟨_, rfl, Sample.create_regional⟩
  unfold Command.preview at hrefused
  rw [if_neg (by decide)] at hrefused
  cases hrefused

end Lookout
