import Lookout.Proofs.Digits
import Lookout.Proofs.Placeholders
import Lookout.Proofs.Windows

/-!
# Windows that look alike

The action of a trigger is called once for each window at most, but nothing keeps two windows from
having the same paths: then the action is called twice for the same data.

- **Paths of two windows** (`Pattern.resolve_ne`): they differ if the values of one variable differ
  and those of the other variables of the pattern do not. What is put in for the others is the same,
  so that two equal paths have the same room for the value, and then the same value.
- **Counters** (`VariableSet.value?_iterate_advance_ne`): a variable that does not belong to the
  calendar has another value in each window until it leaves the 64 bits.
- **Calls** (`Run.calls_alike_iff`): two calls have the same paths if and only if each pattern has
  the same path in both windows. `Run.calls_alike_steady` has two such calls.
-/

namespace Lookout

/-! ## Numbers -/

/-- Different integers have different texts. -/
theorem Text.ofInt_injective : Function.Injective Text.ofInt := by
  have hdigits : ∀ {m n : Nat}, digits m = digits n → m = n := by
    intro m n h
    rw [← ofDigits_digits m, h, ofDigits_digits]
  have hsign : ∀ m n : Nat, '-' :: digits m ≠ digits n := by
    intro m n h
    have hminus := areDigits_digits n '-' (h ▸ List.mem_cons_self)
    exact absurd hminus (by decide)
  intro a b h
  cases a with
  | ofNat m =>
    cases b with
    | ofNat n => exact congrArg Int.ofNat (hdigits h)
    | negSucc n => exact absurd h.symm (hsign _ _)
  | negSucc m =>
    cases b with
    | ofNat n => exact absurd h (hsign _ _)
    | negSucc n =>
      have hsucc : m + 1 = n + 1 := hdigits (List.cons.inj h).2
      exact congrArg Int.negSucc (Nat.succ.inj hsucc)

/-! ## Texts of one variable -/

section Texts

variable {f g : Segment → List Char} {x : Segment} {segments : List Segment}

theorem length_flatMap_add (h : ∀ s ∈ segments, s ≠ x → f s = g s) :
    (segments.flatMap f).length + segments.count x * (g x).length =
      (segments.flatMap g).length + segments.count x * (f x).length := by
  induction segments with
  | nil => simp
  | cons s rest ih =>
    have hrest := ih fun s hs => h s (List.mem_cons_of_mem _ hs)
    simp only [List.flatMap_cons, List.length_append]
    by_cases hs : s = x
    · subst hs
      simp only [List.count_cons_self, Nat.succ_mul]
      omega
    · rw [List.count_cons_of_ne hs, h s List.mem_cons_self hs]
      omega

/-- Two rows of texts that differ only in the text of `x` are the same only if they do not differ
at all. -/
theorem eq_of_flatMap_eq (h : ∀ s ∈ segments, s ≠ x → f s = g s) (hx : x ∈ segments)
    (heq : segments.flatMap f = segments.flatMap g) : f x = g x := by
  have hlength : (f x).length = (g x).length := by
    -- The rows are of the same length, and `x` is all that can make a difference.
    have hsum := length_flatMap_add h
    rw [heq, Nat.add_left_cancel_iff] at hsum
    exact (Nat.eq_of_mul_eq_mul_left (List.count_pos_iff.2 hx) hsum).symm
  -- All texts are of the same length now, so that equal rows are equal text by text.
  induction segments with
  | nil => cases hx
  | cons s rest ih =>
    have hs : (f s).length = (g s).length := by
      by_cases hsx : s = x
      · exact hsx ▸ hlength
      · exact congrArg List.length (h s List.mem_cons_self hsx)
    obtain ⟨hfirst, hothers⟩ := List.append_inj heq hs
    rcases List.mem_cons.1 hx with rfl | hx
    · exact hfirst
    · exact ih (fun s hs => h s (List.mem_cons_of_mem _ hs)) hx hothers

end Texts

/-! ## Paths of two windows -/

namespace Pattern

variable {p : Pattern} {vars vars' : VariableSet} {segments : List Segment} {path path' : String}

/-- Segments that stand for a text have declared variables. -/
theorem resolveSegments_ok {text : List Char} (h : p.resolveSegments vars segments = .ok text) :
    text = segments.flatMap (·.textWith vars) ∧
      ∀ name, .placeholder name ∈ segments → ∃ v, vars.value? (String.ofList name) = some v := by
  induction segments generalizing text with
  | nil => cases h; exact ⟨rfl, fun _ hname => absurd hname List.not_mem_nil⟩
  | cons s rest ih =>
    unfold resolveSegments at h
    split at h
    · cases h
    · rename_i first hfirst
      split at h
      · cases h
      · rename_i others hothers
        cases h
        obtain ⟨htext, hdeclared⟩ := ih hothers
        have hs : first = s.textWith vars ∧
            ∀ name, s = .placeholder name → ∃ v, vars.value? (String.ofList name) = some v := by
          cases s with
          | literal text => cases hfirst; exact ⟨rfl, fun _ hname => by cases hname⟩
          | placeholder name =>
            unfold resolveSegment at hfirst
            cases hv : vars.value? (String.ofList name) with
            | none => simp [hv] at hfirst
            | some v =>
              simp only [hv, Except.ok.injEq] at hfirst
              refine ⟨by simp [Segment.textWith, hv, hfirst], fun name' hname => ?_⟩
              cases hname
              exact ⟨v, hv⟩
        refine ⟨by rw [List.flatMap_cons, htext, hs.1], fun name hname => ?_⟩
        rcases List.mem_cons.1 hname with hname | hname
        · exact hs.2 name hname.symm
        · exact hdeclared name hname

theorem resolve_ok (h : p.resolve vars = .ok path) :
    path = String.ofList (p.segments.flatMap (·.textWith vars)) ∧
      ∀ name, .placeholder name ∈ p.segments → ∃ v, vars.value? (String.ofList name) = some v := by
  unfold resolve at h
  cases hs : p.resolveSegments vars p.segments with
  | error e =>
    rw [hs] at h
    cases h
  | ok text =>
    rw [hs] at h
    cases h
    obtain ⟨htext, hdeclared⟩ := resolveSegments_ok hs
    exact ⟨congrArg String.ofList htext, hdeclared⟩

theorem mem_placeholders {name : String} :
    name ∈ p.placeholders ↔ .placeholder name.toList ∈ p.segments := by
  unfold placeholders
  rw [List.mem_filterMap]
  constructor
  · rintro ⟨s, hs, hname⟩
    cases s with
    | literal text => cases hname
    | placeholder chars =>
      cases hname
      rwa [String.toList_ofList]
  · intro h
    exact ⟨_, h, congrArg some String.ofList_toList⟩

/-- **Paths of two windows** that differ in one variable of the pattern are different. -/
theorem resolve_ne {name : String} (hname : name ∈ p.placeholders)
    (h : p.resolve vars = .ok path) (h' : p.resolve vars' = .ok path')
    (hvalue : vars.value? name ≠ vars'.value? name)
    (hothers : ∀ other ∈ p.placeholders, other ≠ name → vars.value? other = vars'.value? other) :
    path ≠ path' := by
  obtain ⟨hpath, hdeclared⟩ := resolve_ok h
  obtain ⟨hpath', hdeclared'⟩ := resolve_ok h'
  have hx := mem_placeholders.1 hname
  have hsame : ∀ s ∈ p.segments, s ≠ .placeholder name.toList →
      s.textWith vars = s.textWith vars' := by
    intro s hs hne
    cases s with
    | literal text => rfl
    | placeholder other =>
      have hother : String.ofList other ∈ p.placeholders :=
        mem_placeholders.2 (by rwa [String.toList_ofList])
      have hne' : String.ofList other ≠ name := by
        rintro rfl
        exact hne (by rw [String.toList_ofList])
      simp only [Segment.textWith, hothers _ hother hne']
  rintro rfl
  have htexts := String.ofList_inj.1 (hpath.symm.trans hpath')
  have htext := eq_of_flatMap_eq hsame hx htexts
  obtain ⟨v, hv⟩ := hdeclared _ hx
  obtain ⟨v', hv'⟩ := hdeclared' _ hx
  simp only [Segment.textWith, hv, hv', Option.map_some, Option.getD_some] at htext
  rw [String.ofList_toList] at hv hv'
  rw [hv, hv', Int64.toInt_inj.1 (Text.ofInt_injective htext)] at hvalue
  exact hvalue rfl

/-- Patterns resolve to paths one by one. -/
theorem mapM_resolve_cons {patterns : List Pattern} {paths : List String}
    (h : (p :: patterns).mapM (·.resolve vars) = .ok paths) :
    ∃ path others, p.resolve vars = .ok path ∧ patterns.mapM (·.resolve vars) = .ok others ∧
      paths = path :: others := by
  rw [List.mapM_cons] at h
  cases hp : p.resolve vars with
  | error e => rw [hp] at h; cases h
  | ok path =>
    cases hrest : patterns.mapM (·.resolve vars) with
    | error e => rw [hp, hrest] at h; cases h
    | ok others =>
      rw [hp, hrest] at h
      cases h
      exact ⟨path, others, rfl, rfl, rfl⟩

theorem exists_resolve_of_mapM {patterns : List Pattern} {paths : List String}
    (h : patterns.mapM (·.resolve vars) = .ok paths) (hp : p ∈ patterns) :
    ∃ path, p.resolve vars = .ok path := by
  induction patterns generalizing paths with
  | nil => cases hp
  | cons q rest ih =>
    obtain ⟨path, others, hq, hrest, -⟩ := mapM_resolve_cons h
    rcases List.mem_cons.1 hp with rfl | hp
    · exact ⟨path, hq⟩
    · exact ih hrest hp

/-- The paths of two windows are the same if each pattern has the same path in both. -/
theorem mapM_resolve_eq_iff {patterns : List Pattern} {paths paths' : List String}
    (h : patterns.mapM (·.resolve vars) = .ok paths)
    (h' : patterns.mapM (·.resolve vars') = .ok paths') :
    paths = paths' ↔ ∀ p ∈ patterns, p.resolve vars = p.resolve vars' := by
  induction patterns generalizing paths paths' with
  | nil => cases h; cases h'; simp
  | cons p rest ih =>
    obtain ⟨path, others, hp, hrest, rfl⟩ := mapM_resolve_cons h
    obtain ⟨path', others', hp', hrest', rfl⟩ := mapM_resolve_cons h'
    rw [List.cons.injEq, List.forall_mem_cons, ih hrest hrest', hp, hp', Except.ok.injEq]

end Pattern

/-! ## Counters -/

/-- The value that a variable would have `k` windows later fits into 64 bits. -/
def Variable.Fits (v : Variable) (k : Nat) : Prop :=
  -9223372036854775808 ≤ v.value.toInt + k * v.increment.toInt ∧
    v.value.toInt + k * v.increment.toInt < 9223372036854775808

/-- As long as it fits, a variable is one increment further in each window. -/
theorem Variable.Fits.toInt_iterate_advance {v : Variable} {k : Nat} (h : v.Fits k) :
    (Variable.advance^[k] v).increment = v.increment ∧
      (Variable.advance^[k] v).value.toInt = v.value.toInt + k * v.increment.toInt := by
  induction k with
  | zero => simp
  | succ k ih =>
    have hlow := v.value.le_toInt
    have hhigh := v.value.toInt_lt
    have hsucc : ((k + 1 : Nat) : Int) * v.increment.toInt =
        k * v.increment.toInt + v.increment.toInt := by
      rw [Int.natCast_add, Int.add_mul, Int.natCast_one, Int.one_mul]
    unfold Fits at h
    rw [hsucc, ← Int.add_assoc] at h
    -- It lies between its first value and the one of the next window.
    have hk : v.Fits k := by
      unfold Fits
      rcases Int.le_total 0 v.increment.toInt with hpos | hneg
      · have hmul := Int.mul_nonneg (Int.natCast_nonneg k) hpos
        omega
      · have hmul := Int.mul_nonpos_of_nonneg_of_nonpos (Int.natCast_nonneg k) hneg
        omega
    obtain ⟨hincrement, hvalue⟩ := ih hk
    rw [Function.iterate_succ_apply']
    refine ⟨hincrement, ?_⟩
    have hnext : (Variable.advance^[k] v).advance.value =
        saturate ((Variable.advance^[k] v).value.toInt +
          (Variable.advance^[k] v).increment.toInt) := rfl
    rw [hnext, hincrement, hvalue, toInt_saturate, hsucc, ← Int.add_assoc]
    omega

namespace VariableSet

variable {vars : VariableSet} {name : String} {v : Variable} {i j : Nat}

theorem find?_iterate_advance (hname : CalendarName.ofName? name = none) (k : Nat) :
    (advance^[k] vars).find? name = (vars.find? name).map Variable.advance^[k] := by
  induction k with
  | zero => simp
  | succ k ih =>
    rw [Function.iterate_succ_apply', find?_advance hname, ih, Option.map_map,
      Function.iterate_succ']

/-- **A counter has another value in each window**, as long as it fits. -/
theorem value?_iterate_advance_ne (hname : CalendarName.ofName? name = none)
    (hv : vars.find? name = some v) (hmoves : v.increment ≠ 0) (hi : v.Fits i) (hj : v.Fits j)
    (hij : i ≠ j) : (advance^[i] vars).value? name ≠ (advance^[j] vars).value? name := by
  unfold value?
  rw [find?_iterate_advance hname, find?_iterate_advance hname, hv]
  simp only [Option.map_some, ne_eq, Option.some.injEq]
  intro heq
  have hvalue := congrArg Int64.toInt heq
  rw [hi.toInt_iterate_advance.2, hj.toInt_iterate_advance.2, Int.add_right_inj] at hvalue
  have hzero : v.increment.toInt ≠ 0 := fun h => hmoves (Int64.toInt_inj.1 h)
  exact hij (Int.ofNat_inj.1 (Int.eq_of_mul_eq_mul_right hzero hvalue))

end VariableSet

/-! ## Calls -/

/-- **Calls that are alike.** In a run in which a created trigger is not replaced, each call is for
a window of its own, and two calls have the same paths if and only if each pattern has the same path
in both windows. They are different if a pattern names a variable that differs and no other one
that does, such as a counter that fits. -/
theorem Run.calls_alike_iff {config : Config} {store : Store} {clock : Instant} {engine : Engine}
    {history past rest : List Moment} {s s' : System} {fresh : Uuid} {r : CreateRequest}
    {t : Trigger} (h : Engine.start config store clock = .ok engine)
    (hr : Run (.ofEngine engine) history s')
    (hcreated : history = past ++ ⟨s, .created fresh r (.ok t)⟩ :: rest)
    (hu : ∀ m ∈ rest, m.event.replaced? ≠ some t.id) {i j : Nat} {a b : Action × Firing}
    (ha : (firingsOf t.id history)[i]? = some a) (hb : (firingsOf t.id history)[j]? = some b) :
    t.pathsAfter i = .ok a.2.paths ∧
    (a.2.paths = b.2.paths ↔ ∀ p ∈ t.patterns,
      p.resolve (VariableSet.advance^[i] t.vars) = p.resolve (VariableSet.advance^[j] t.vars)) ∧
    ∀ p ∈ t.patterns, ∀ name ∈ p.placeholders,
      (∀ other ∈ p.placeholders, other ≠ name →
        (VariableSet.advance^[i] t.vars).value? other =
          (VariableSet.advance^[j] t.vars).value? other) →
      ((VariableSet.advance^[i] t.vars).value? name ≠
          (VariableSet.advance^[j] t.vars).value? name → a.2.paths ≠ b.2.paths) ∧
      ∀ v, VariableSet.CalendarName.ofName? name = none → t.vars.find? name = some v →
        v.increment ≠ 0 → v.Fits i → v.Fits j → i ≠ j → a.2.paths ≠ b.2.paths := by
  subst hcreated
  obtain ⟨hpast, s₁, hcreate, hrest⟩ := hr.split
  have hend := System.Reached.of_run h hpast hcreate hrest hu
  rw [List.append_assoc, List.singleton_append] at hend
  have hpaths : ∀ {k c}, (firingsOf t.id (past ++ ⟨s, .created fresh r (.ok t)⟩ :: rest))[k]? =
      some c → t.pathsAfter k = .ok c.2.paths := by
    intro k c hc
    refine (hend.calls k c.1 c.2 ?_).2
    rw [List.getElem?_append_left (List.getElem?_eq_some_iff.1 hc).1]
    exact hc
  have hsame := Pattern.mapM_resolve_eq_iff (hpaths ha) (hpaths hb)
  refine ⟨hpaths ha, hsame, fun p hp name hname hothers => ?_⟩
  obtain ⟨path, hpath⟩ := Pattern.exists_resolve_of_mapM (hpaths ha) hp
  obtain ⟨path', hpath'⟩ := Pattern.exists_resolve_of_mapM (hpaths hb) hp
  have hdiffer : (VariableSet.advance^[i] t.vars).value? name ≠
      (VariableSet.advance^[j] t.vars).value? name → a.2.paths ≠ b.2.paths := by
    intro hvalue hab
    have hne := Pattern.resolve_ne hname hpath hpath' hvalue hothers
    have heq := hsame.1 hab p hp
    rw [hpath, hpath', Except.ok.injEq] at heq
    exact hne heq
  refine ⟨hdiffer, fun v hcalendar hv hmoves hi hj hij => hdiffer ?_⟩
  exact VariableSet.value?_iterate_advance_ne hcalendar hv hmoves hi hj hij

/-- The calls of the first two days are for different paths. -/
theorem Run.calls_alike_iff_daily :
    ∃ a b, (firingsOf Sample.first Sample.twice)[0]? = some a ∧
      (firingsOf Sample.first Sample.twice)[1]? = some b ∧ a.2.paths ≠ b.2.paths := by
  have hr : Run (.ofEngine Sample.engine) Sample.twice _ :=
    (Run.single Sample.step_creation).append (.of_play _ _)
  have hcreated : Sample.twice = [] ++ Sample.creation.1 :: Sample.twice.tail := rfl
  have hlength : (firingsOf Sample.first Sample.twice).length = 2 := by decide +kernel
  have ha := List.getElem?_eq_getElem (show 0 < _ by rw [hlength]; decide)
  have hb := List.getElem?_eq_getElem (show 1 < _ by rw [hlength]; decide)
  obtain ⟨-, -, hdiffer⟩ :=
    Run.calls_alike_iff Sample.start hr hcreated (by decide +kernel) ha hb
  refine ⟨_, _, ha, hb, (hdiffer _ List.mem_cons_self "DAY" (by decide +kernel) ?_).1 ?_⟩
  · decide +kernel
  · decide +kernel

namespace Sample

/-- Waits for the same path in each window. -/
def steady : CreateRequest :=
  { daily with patterns := [⟨"/in"⟩] }

/-- The trigger. -/
def steadyTrigger : Trigger :=
  { engine.triggerOf steady Config.standard.defaultTimeToExpire with id := first }

/-- The moment in which it is created, and the state after it. -/
def steadyCreation : Moment × System :=
  (⟨.ofEngine engine, .created first steady (.ok steadyTrigger)⟩,
    { engine := (engine.create first steady).2, taken := [first] })

theorem step_steadyCreation :
    Step steadyCreation.1.state steadyCreation.1.event steadyCreation.2 :=
  .create steady (by decide +kernel)

/-- It fires in its first window, and at once in its second one. -/
def steadyRun : List Moment × System :=
  steadyCreation.2.play [.decide, .beginPoll, .answer (.ok true), .decide, .fire, .settle (.ok ()),
    .decide, .fire]

end Sample

/-- **Two windows can be alike**: then the action is called twice with the same paths. -/
theorem Run.calls_alike_steady :
    ¬ ∀ (config : Config) (store : Store) (clock : Instant) (engine : Engine)
      (history past rest : List Moment) (s s' : System) (fresh : Uuid) (r : CreateRequest)
      (t : Trigger), Engine.start config store clock = .ok engine →
      Run (.ofEngine engine) history s' →
      history = past ++ ⟨s, .created fresh r (.ok t)⟩ :: rest → t.recurrence = .recurring →
      (∀ m ∈ rest, m.event.replaced? ≠ some t.id) →
      ((firingsOf t.id history).map (·.2.paths)).Nodup := by
  intro hdistinct
  have hr : Run (.ofEngine Sample.engine) (Sample.steadyCreation.1 :: Sample.steadyRun.1) _ :=
    (Run.single Sample.step_steadyCreation).append (.of_play _ _)
  have hnodup := hdistinct _ _ _ _ _ [] _ _ _ _ _ _ Sample.start hr rfl rfl (by decide +kernel)
  have hpaths : (firingsOf Sample.first (Sample.steadyCreation.1 :: Sample.steadyRun.1)).map
      (·.2.paths) = [["/in"], ["/in"]] := by decide +kernel
  have htwice : ¬ [["/in"], ["/in"]].Nodup := by decide
  exact htwice (hpaths ▸ hnodup)

end Lookout
