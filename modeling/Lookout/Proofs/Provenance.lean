import Lookout.Proofs.Declared
import Lookout.Proofs.Windows
import Mathlib.Data.List.Induction
import Mathlib.Data.List.Nodup

/-!
# Where armed triggers come from

What is armed under an identifier follows from the events that have concerned it.

- **Definitions** (`Event.defines?`): creations and replacements put a trigger under an identifier.
  The last one is in force (`Engine.inForce?`).
- **Arming periods** (`Moment.begins?`): a creation, a replacement and the step to the next window
  each begin one. A replacement brings the start of its period with it.
- **Where an armed trigger comes from** (`Run.armed_from`): it is the definition in force, some
  windows later, in the arming period that has begun last.
-/

namespace Lookout

/-! ## The last value of a history -/

section Histories

variable {α : Type} {f g : Moment → Option α} {past history : List Moment} {m : Moment} {a : α}

/-- The value that the moments of a history give last, if any gives one. -/
def lastOf (f : Moment → Option α) (history : List Moment) : Option α :=
  (history.filterMap f).getLast?

theorem lastOf_append_singleton (f : Moment → Option α) (past : List Moment) (m : Moment) :
    lastOf f (past ++ [m]) = (f m).or (lastOf f past) := by
  unfold lastOf
  rw [List.filterMap_append, List.getLast?_append]
  cases h : f m <;> simp [h]

/-- The last value comes from a moment that no other one with a value follows. -/
theorem lastOf_eq_some_iff :
    lastOf f history = some a ↔
      ∃ past m rest, history = past ++ m :: rest ∧ f m = some a ∧ ∀ n ∈ rest, f n = none := by
  constructor
  · intro h
    induction history using List.reverseRecOn with
    | nil => cases h
    | append_singleton past m ih =>
      rw [lastOf_append_singleton] at h
      cases hm : f m with
      | some b =>
        rw [hm] at h
        exact ⟨past, m, [], rfl, hm.trans h, fun n hn => absurd hn List.not_mem_nil⟩
      | none =>
        rw [hm, Option.none_or] at h
        obtain ⟨before, n, rest, rfl, hn, hrest⟩ := ih h
        refine ⟨before, n, rest ++ [m], by simp, hn, fun n' hn' => ?_⟩
        rcases List.mem_append.1 hn' with hn' | hn'
        · exact hrest n' hn'
        · cases List.mem_singleton.1 hn'
          exact hm
  · rintro ⟨past, m, rest, rfl, hm, hrest⟩
    have hnil : rest.filterMap f = [] := List.filterMap_eq_nil_iff.2 hrest
    unfold lastOf
    rw [List.filterMap_append, List.filterMap_cons_some hm, hnil, List.getLast?_concat]

theorem lastOf_congr (h : ∀ m ∈ history, f m = g m) : lastOf f history = lastOf g history := by
  unfold lastOf
  rw [List.filterMap_congr h]

end Histories

/-! ## What an event means for one identifier -/

/-- The trigger that an event puts under an identifier. -/
def Event.defines? (id : Uuid) : Event → Option Trigger
  | .created _ _ (.ok t) => if t.id = id then some t else none
  | .updated _ (.ok t) => if t.id = id then some t else none
  | _ => none

/-- The trigger under the identifier goes on to its next window. -/
def Findings.goesOn (findings : Findings) (id : Uuid) : Bool :=
  findings.any fun ((i, _), f) => i = id && f.advance?.isSome

/-- The start of the arming period that a moment begins for an identifier. A replacement brings it
with it. -/
def Moment.begins? (id : Uuid) (m : Moment) : Option Instant :=
  match m.event with
  | .created _ _ (.ok t) => if t.id = id then some m.clock else none
  | .updated t (.ok _) => if t.id = id then some t.armedAt else none
  | .decided findings _ => if findings.goesOn id then some m.clock else none
  | _ => none

/-- The trigger that has been put under an identifier last; in the beginning it is the one that is
armed under it. -/
def Engine.inForce? (e : Engine) (id : Uuid) (history : List Moment) : Option Trigger :=
  (lastOf (·.event.defines? id) history).or ((e.armed.find? id).map (·.trigger))

/-- The start of the arming period that has begun last; in the beginning it is the one of the
trigger that is armed. -/
def Engine.periodStart? (e : Engine) (id : Uuid) (history : List Moment) : Option Instant :=
  (lastOf (·.begins? id) history).or ((e.armed.find? id).map (·.trigger.armedAt))

variable {s s' : System} {e : Event} {id : Uuid} {l l' : Lifecycle}

theorem Findings.goesOn_eq {findings : Findings} {armed : IdMap Lifecycle} {f : Finding}
    (h : findings.About armed) (hf : ((id, l), f) ∈ findings) :
    findings.goesOn id = f.advance?.isSome := by
  rw [Bool.eq_iff_iff]
  unfold goesOn
  rw [List.any_eq_true]
  constructor
  · rintro ⟨⟨⟨i, l'⟩, f'⟩, hf', hgoes⟩
    simp only [Bool.and_eq_true, decide_eq_true_eq] at hgoes
    obtain ⟨rfl, hadvance⟩ := hgoes
    have hsame : ((i, l'), f') = ((i, l), f) :=
      List.inj_on_of_nodup_map (nodup_ids h) hf' hf rfl
    cases hsame
    exact hadvance
  · exact fun hadvance => ⟨_, hf, by simp [hadvance]⟩

/-! ## Steps -/

/-- A trigger that is armed after a step was armed before, and the step means nothing for it; or it
is what the step has put under its identifier; or it has gone on to its next window. -/
theorem Step.armed_from (hs : Step s e s') (hl' : s'.engine.armed.find? id = some l') :
    s.engine.armed.find? id = some l' ∧ e.defines? id = none ∧ Moment.begins? id ⟨s, e⟩ = none ∨
      e.defines? id = some l'.trigger ∧ Moment.begins? id ⟨s, e⟩ = some l'.trigger.armedAt ∨
      ∃ l, s.engine.armed.find? id = some l ∧ l.advance s.engine.clock = .ok l' ∧
        e.defines? id = none ∧ Moment.begins? id ⟨s, e⟩ = some s.engine.clock := by
  cases hs with
  | create r hfresh =>
    rename_i fresh
    rcases s.engine.create_cases fresh r with ⟨err, engine, hc, _, _, -, -, rfl⟩ | ⟨d, l, hl, hc⟩ <;>
      rw [hc] at hl' ⊢
    · exact .inl ⟨hl', rfl, rfl⟩
    · have hid : (l.withId fresh).trigger.id = fresh := rfl
      rcases IdMap.find?_insert_cases hl' with ⟨rfl, rfl⟩ | ⟨hne, hl'⟩
      · have hstart : (l.withId id).trigger.armedAt = s.engine.clock := by
          show l.trigger.armedAt = _
          rw [(Lifecycle.arm_ok hl).1]
          rfl
        refine .inr (.inl ⟨if_pos hid, ?_⟩)
        rw [hstart]
        exact if_pos hid
      · have hother : (l.withId fresh).trigger.id ≠ id := fun h => hne (h.symm.trans hid)
        exact .inl ⟨hl', if_neg hother, if_neg hother⟩
  | update t =>
    rcases s.engine.update_cases t with ⟨err, engine, hc, _, _, -, -, rfl⟩ | ⟨l, hl, -, hc⟩ <;>
      rw [hc] at hl' ⊢
    · exact .inl ⟨hl', rfl, rfl⟩
    · obtain ⟨ht, -, -⟩ := Lifecycle.arm_ok hl
      have hid : l.trigger.id = t.id := by rw [ht]
      rcases IdMap.find?_insert_cases hl' with ⟨rfl, rfl⟩ | ⟨hne, hl'⟩
      · have hstart : l'.trigger.armedAt = t.armedAt := by rw [ht]
        refine .inr (.inl ⟨if_pos hid, ?_⟩)
        rw [hstart]
        exact if_pos rfl
      · exact .inl ⟨hl', if_neg fun h => hne (h.symm.trans hid), if_neg (Ne.symm hne)⟩
  | remove j =>
    rcases s.engine.remove_cases j with ⟨err, engine, hc, _, _, -, -, rfl⟩ | ⟨-, hc⟩ <;>
      rw [hc] at hl'
    · exact .inl ⟨hl', rfl, rfl⟩
    · exact .inl ⟨(IdMap.find?_erase_cases hl').2, rfl, rfl⟩
  | list source =>
    obtain ⟨_, _, -, -, he⟩ := s.engine.list_idles source
    rw [he] at hl'
    exact .inl ⟨hl', rfl, rfl⟩
  | decide _ hdecides =>
    obtain ⟨l, f, hf, hn⟩ := Findings.exists_of_find?_applyTo hdecides.about hl'
    have hl := Findings.find?_of_mem hdecides.about hf
    have hgoes := Findings.goesOn_eq hdecides.about hf
    cases hdecides.finds hf with
    | expires => cases hn
    | waits =>
      cases hn
      exact .inl ⟨hl, rfl, if_neg (by rw [hgoes]; exact Bool.false_ne_true)⟩
    | retires => cases hn
    | advances _ _ ha =>
      cases hn
      exact .inr (.inr ⟨l, hl, ha, rfl, if_pos hgoes⟩)
  | settle =>
    rename_i f _ _ _ _ _
    obtain ⟨store, he⟩ := s.engine.settle_eq f
    rw [he] at hl'
    exact .inl ⟨hl', rfl, rfl⟩
  | answer a =>
    refine .inl ⟨?_, rfl, rfl⟩
    rcases a with _ | _ | _ <;> exact hl'
  | _ => exact .inl ⟨hl', rfl, rfl⟩

/-! ## Runs -/

/-- **Where an armed trigger comes from**: it is the definition in force, some windows later, in the
arming period that has begun last. -/
theorem Run.armed_from {config : Config} {store : Store} {clock : Instant} {engine : Engine}
    {history : List Moment} (h : Engine.start config store clock = .ok engine)
    (hr : Run (.ofEngine engine) history s) (hl : s.engine.armed.find? id = some l) :
    engine.periodStart? id history = some l.trigger.armedAt ∧
      ∃ t, engine.inForce? id history = some t ∧ ∃ k, l.trigger =
        t.windowAfter k l.trigger.armedAt l.trigger.lastModifyTime := by
  refine hr.invariant (P := fun past s => ∀ l, s.engine.armed.find? id = some l →
    engine.periodStart? id past = some l.trigger.armedAt ∧
      ∃ t, engine.inForce? id past = some t ∧ ∃ k, l.trigger =
        t.windowAfter k l.trigger.armedAt l.trigger.lastModifyTime) (fun l hl => ?_) ?_ l hl
  · have hinitial : engine.armed.find? id = some l := hl
    unfold Engine.periodStart? Engine.inForce?
    rw [hinitial]
    exact ⟨rfl, l.trigger, rfl, 0, rfl⟩
  intro past s e s' hpast ih hs l' hl'
  unfold Engine.periodStart? Engine.inForce? at ih ⊢
  rw [lastOf_append_singleton, lastOf_append_singleton, Option.or_assoc, Option.or_assoc]
  rcases hs.armed_from hl' with ⟨hl, hdefines, hbegins⟩ | ⟨hdefines, hbegins⟩ |
    ⟨l, hl, hadvance, hdefines, hbegins⟩ <;> rw [hdefines, hbegins]
  · exact ih l' hl
  · exact ⟨rfl, l'.trigger, rfl, 0, rfl⟩
  · obtain ⟨-, t, ht, k, hk⟩ := ih l hl
    have hnext := ((System.Sound.of_run h hpast).synced id l hl).advance hadvance
    refine ⟨?_, t, ht, k + 1, ?_⟩
    · rw [hnext.2]
      rfl
    · rw [hnext.2, hk]
      unfold Trigger.windowAfter
      rw [Function.iterate_succ_apply']
      rfl

end Lookout
