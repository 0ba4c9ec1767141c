import Lookout.Engine.Cycle
import Lookout.Proofs.Arming
import Lookout.Proofs.IdMap
import Lookout.Proofs.Scheduler

/-!
# What an operation can do

One statement for each operation of the store and of the engine: it has failed, and then little has
changed (`Store.Idles`, `Engine.Idles`), or it has done all of its work.

* `insert_cases`, `update_cases`, `remove_cases`: calls of the store, and operations of the engine.
* `Engine.withdrawn`: the keys of triggers that are no longer armed as they were.
* `settle_retire_cases`, `settle_advance_cases`: the store after the action of a follow-up.
* `start_eq_ok_iff`, `start_ok`: an engine that has just been started.
-/

namespace Lookout

/-! ## The store -/

namespace Store

variable {s s' : Store} {id : Uuid} {t : Trigger}

/-- A call that fails leaves the triggers as they were, and may use up an outage. -/
structure Idles (s s' : Store) : Prop where
  records : s'.records = s.records
  reliable : s.outages = {} → s'.outages = {}

theorem Idles.refl (s : Store) : s.Idles s :=
  ⟨rfl, id⟩

private theorem of_reliable (h : s.outages = {}) (call : StoreCall) : s.outages.of call = [] := by
  rw [h]
  cases call <;> rfl

/-- A call is carried out, or it fails for an outage. -/
theorem attempt_cases {α : Type} (s : Store) (call : StoreCall)
    (run : Store → Except StoreError α × Store) :
    s.attempt call run = run s ∨
      s.outages ≠ {} ∧ ∃ err s', s.attempt call run = (.error err, s') ∧ s.Idles s' := by
  unfold attempt
  cases ho : s.outages.of call with
  | nil => exact .inl rfl
  | cons text rest =>
    have hne : s.outages ≠ {} := by
      intro h
      rw [of_reliable h] at ho
      cases ho
    exact .inr ⟨hne, _, _, rfl, rfl, fun h => absurd h hne⟩

theorem insert_cases (s : Store) (id : Uuid) (t : Trigger) :
    s.insert id t = (.ok id, { s with records := s.records.insert id { t with id } }) ∨
      ∃ err s', s.insert id t = (.error err, s') ∧ s.Idles s' := by
  unfold insert
  rcases s.attempt_cases .insert fun s =>
    (.ok id, { s with records := s.records.insert id { t with id } }) with h | ⟨-, h⟩
  · exact .inl h
  · exact .inr h

theorem update_cases (s : Store) (t : Trigger) :
    s.records.contains t.id = true ∧
        s.update t = (.ok (), { s with records := s.records.insert t.id t }) ∨
      ∃ err s', s.update t = (.error err, s') ∧ s.Idles s' ∧
        (s.outages = {} → s.records.contains t.id = false) := by
  unfold update
  rcases s.attempt_cases .update fun s =>
    if s.records.contains t.id then (.ok (), { s with records := s.records.insert t.id t })
    else (.error (.notFound t.id), s) with h | ⟨ho, err, s', h, hs⟩
  · cases hc : s.records.contains t.id with
    | true =>
      rw [if_pos hc] at h
      exact .inl ⟨rfl, h⟩
    | false =>
      rw [if_neg (by rw [hc]; exact Bool.false_ne_true)] at h
      exact .inr ⟨_, s, h, .refl s, fun _ => rfl⟩
  · exact .inr ⟨err, s', h, hs, fun hr => absurd hr ho⟩

theorem remove_cases (s : Store) (id : Uuid) :
    s.records.contains id = true ∧
        s.remove id = (.ok (), { s with records := s.records.erase id }) ∨
      ∃ err s', s.remove id = (.error err, s') ∧ s.Idles s' ∧
        (s.outages = {} → s.records.contains id = false) := by
  unfold remove
  rcases s.attempt_cases .remove fun s =>
    if s.records.contains id then (.ok (), { s with records := s.records.erase id })
    else (.error (.notFound id), s) with h | ⟨ho, err, s', h, hs⟩
  · cases hc : s.records.contains id with
    | true =>
      rw [if_pos hc] at h
      exact .inl ⟨rfl, h⟩
    | false =>
      rw [if_neg (by rw [hc]; exact Bool.false_ne_true)] at h
      exact .inr ⟨_, s, h, .refl s, fun _ => rfl⟩
  · exact .inr ⟨err, s', h, hs, fun hr => absurd hr ho⟩

/-- The triggers of a data source are those stored triggers that have it. -/
theorem mem_ofSource_iff {source : String} :
    t ∈ s.ofSource source ↔ (∃ id, s.records.find? id = some t) ∧ t.dataSource = source := by
  unfold ofSource
  rw [List.mem_mergeSort, List.mem_filter, IdMap.mem_values_iff, beq_iff_eq]

theorem listBySource_cases (s : Store) (source : String) :
    s.listBySource source = (.ok (s.ofSource source), s) ∨
      ∃ err s', s.listBySource source = (.error err, s') ∧ s.Idles s' := by
  unfold listBySource
  rcases s.attempt_cases .list fun s => (.ok (s.ofSource source), s) with h | ⟨-, h⟩
  · exact .inl h
  · exact .inr h

end Store

/-! ## Withdrawn keys -/

namespace Engine

/-- The scheduler once triggers are no longer armed as they were: their keys are withdrawn, unless
they are in use. -/
def withdrawn (previous : List Lifecycle) (armed : IdMap Lifecycle) (s : Scheduler) : Scheduler :=
  previous.foldl (fun s l => l.release (keysInUse armed) s) s

variable {previous : List Lifecycle} {armed : IdMap Lifecycle} {s : Scheduler} {k : CheckKey}
  {n : Nat}

theorem mem_keysInUse :
    k ∈ keysInUse armed ↔ ∃ id l, armed.find? id = some l ∧ k ∈ l.checkKeys := by
  unfold keysInUse
  rw [List.mem_flatMap]
  constructor
  · rintro ⟨l, hl, hk⟩
    obtain ⟨id, hid⟩ := IdMap.mem_values_iff.1 hl
    exact ⟨id, l, hid, hk⟩
  · rintro ⟨id, l, hid, hk⟩
    exact ⟨l, IdMap.mem_values_iff.2 ⟨id, hid⟩, hk⟩

/-- Of the pending keys, those stay that are in use or that none of the triggers waits for. -/
theorem mem_pending_withdrawn :
    k ∈ (withdrawn previous armed s).pending ↔
      k ∈ s.pending ∧ ∀ l ∈ previous, k ∈ l.checkKeys → k ∈ keysInUse armed := by
  induction previous generalizing s with
  | nil => simp [withdrawn]
  | cons l rest ih =>
    have hl : k ∈ (l.release (keysInUse armed) s).pending ↔
        k ∈ s.pending ∧ (k ∈ l.checkKeys → k ∈ keysInUse armed) := by
      refine Scheduler.mem_pending_forget.trans (and_congr_right fun _ => ?_)
      rw [List.mem_filter, Bool.not_eq_true', List.contains_eq_mem, decide_eq_false_iff_not,
        not_and_not_right]
      rfl
    rw [List.forall_mem_cons, ← and_assoc, ← hl]
    exact ih

theorem wellFormed_withdrawn (hs : s.WellFormed n) :
    (withdrawn previous armed s).WellFormed n := by
  induction previous generalizing s with
  | nil => exact hs
  | cons l rest ih => exact ih hs.forget

theorem cache_withdrawn (previous : List Lifecycle) (armed : IdMap Lifecycle) (s : Scheduler) :
    (withdrawn previous armed s).cache = s.cache := by
  induction previous generalizing s with
  | nil => rfl
  | cons l rest ih =>
    have hrelease : (l.release (keysInUse armed) s).cache = s.cache := by
      unfold Lifecycle.release Checker.release
      rw [Scheduler.forget_eq]
    exact (ih _).trans hrelease

theorem cacheShrinks_withdrawn (previous : List Lifecycle) (armed : IdMap Lifecycle)
    (s : Scheduler) : Scheduler.CacheShrinks s (withdrawn previous armed s) := by
  induction previous generalizing s with
  | nil => exact .refl s
  | cons l rest ih => exact (Scheduler.cacheShrinks_forget s _).trans (ih _)

end Engine

/-! ## Operations -/

namespace Engine

variable {e e' : Engine}

/-- Outages of the store and revisions may have been used up; nothing else has changed. -/
def Idles (e e' : Engine) : Prop :=
  ∃ store revisions, e.store.Idles store ∧ e.revisions ≤ revisions ∧
    e' = { e with store, revisions }

theorem Idles.refl (e : Engine) : e.Idles e :=
  ⟨e.store, e.revisions, .refl _, Nat.le_refl _, rfl⟩

/-- A new trigger is armed and stored under the fresh identifier. -/
theorem create_cases (e : Engine) (fresh : Uuid) (r : CreateRequest) :
    (∃ err e', e.create fresh r = (.error err, e') ∧ e.Idles e') ∨
      ∃ d l, Lifecycle.arm e.registry e.checkerType (e.revisions + 1) (e.triggerOf r d) = .ok l ∧
        e.create fresh r =
          (.ok (l.withId fresh).trigger,
            { e with
              store :=
                { e.store with
                  records := e.store.records.insert fresh (l.withId fresh).trigger }
              armed := e.armed.insert fresh (l.withId fresh)
              revisions := e.revisions + 1 }) := by
  unfold create beginCreate
  cases e.timeToExpire r with
  | error err => exact .inl ⟨_, e, rfl, .refl e⟩
  | ok d =>
    dsimp only
    cases (e.triggerOf r d).validatePatterns with
    | error err => exact .inl ⟨_, e, rfl, .refl e⟩
    | ok _ =>
      dsimp only [arm]
      cases hl : Lifecycle.arm e.registry e.checkerType (e.revisions + 1) (e.triggerOf r d) with
      | error err => exact .inl ⟨_, _, rfl, e.store, _, .refl _, Nat.le_succ _, rfl⟩
      | ok l =>
        dsimp only
        rcases e.store.insert_cases fresh l.trigger with h | ⟨err, store, h, hs⟩
        · rw [h]
          exact .inr ⟨d, l, hl, rfl⟩
        · rw [h]
          exact .inl ⟨_, _, rfl, store, _, hs, Nat.le_succ _, rfl⟩

/-- The new trigger is the one of its request. -/
theorem create_ok {fresh : Uuid} {r : CreateRequest} {t : Trigger}
    (h : (e.create fresh r).1 = .ok t) :
    ∃ d, e.timeToExpire r = .ok d ∧ t = { e.triggerOf r d with id := fresh } := by
  unfold create beginCreate at h
  cases hd : e.timeToExpire r with
  | error err =>
    rw [hd] at h
    cases h
  | ok d =>
    rw [hd] at h
    dsimp only at h
    cases hp : (e.triggerOf r d).validatePatterns with
    | error err =>
      rw [hp] at h
      cases h
    | ok _ =>
      rw [hp] at h
      dsimp only [arm] at h
      cases hl : Lifecycle.arm e.registry e.checkerType (e.revisions + 1) (e.triggerOf r d) with
      | error err =>
        rw [hl] at h
        cases h
      | ok l =>
        rw [hl] at h
        dsimp only at h
        rcases e.store.insert_cases fresh l.trigger with hs | ⟨err, store, hs, -⟩ <;> rw [hs] at h
        · cases h
          refine ⟨d, rfl, ?_⟩
          show { l.trigger with id := fresh } = _
          rw [(Lifecycle.arm_ok hl).1]
        · cases h

/-- A stored trigger is armed anew and replaced in the store. -/
theorem update_cases (e : Engine) (t : Trigger) :
    (∃ err e', e.update t = (.error err, e') ∧ e.Idles e') ∨
      ∃ l, Lifecycle.arm e.registry e.checkerType (e.revisions + 1)
          { t with dataSource := e.dataSource, lastModifyTime := e.clock } = .ok l ∧
        e.store.records.contains t.id = true ∧
        e.update t =
          (.ok l.trigger,
            { e with
              store := { e.store with records := e.store.records.insert t.id l.trigger }
              armed := e.armed.insert t.id l
              revisions := e.revisions + 1
              scheduler :=
                withdrawn (e.armed.find? t.id).toList (e.armed.insert t.id l) e.scheduler }) := by
  unfold update
  dsimp only
  cases ({ t with dataSource := e.dataSource, lastModifyTime := e.clock }).validatePatterns with
  | error err => exact .inl ⟨_, e, rfl, .refl e⟩
  | ok _ =>
    dsimp only [arm]
    cases hl : Lifecycle.arm e.registry e.checkerType (e.revisions + 1)
        { t with dataSource := e.dataSource, lastModifyTime := e.clock } with
    | error err => exact .inl ⟨_, _, rfl, e.store, _, .refl _, Nat.le_succ _, rfl⟩
    | ok l =>
      dsimp only
      have hid : l.trigger.id = t.id := by rw [(Lifecycle.arm_ok hl).1]
      rcases e.store.update_cases l.trigger with ⟨hc, h⟩ | ⟨err, store, h, hs, -⟩
      · rw [hid] at hc
        rw [h, hid]
        refine .inr ⟨l, rfl, hc, ?_⟩
        cases e.armed.find? t.id <;> rfl
      · rw [h]
        exact .inl ⟨_, _, rfl, store, _, hs, Nat.le_succ _, rfl⟩

/-- A stored trigger is disarmed and removed from the store. -/
theorem remove_cases (e : Engine) (id : Uuid) :
    (∃ err e', e.remove id = (.error err, e') ∧ e.Idles e') ∨
      e.store.records.contains id = true ∧
        e.remove id =
          (.ok (),
            { e with
              store := { e.store with records := e.store.records.erase id }
              armed := e.armed.erase id
              scheduler :=
                withdrawn (e.armed.find? id).toList (e.armed.erase id) e.scheduler }) := by
  unfold remove
  rcases e.store.remove_cases id with ⟨hc, h⟩ | ⟨err, store, h, hs, -⟩
  · rw [h]
    refine .inr ⟨hc, ?_⟩
    cases e.armed.find? id <;> rfl
  · rw [h]
    exact .inl ⟨_, _, rfl, store, _, hs, Nat.le_refl _, rfl⟩

theorem list_idles (e : Engine) (source : Option String) : e.Idles (e.list source).2 := by
  unfold list
  rcases e.store.listBySource_cases (source.getD e.dataSource) with h | ⟨err, store, h, hs⟩
  · rw [h]
    exact .refl e
  · rw [h]
    exact ⟨store, _, hs, Nat.le_refl _, rfl⟩

/-- The listing of a store that is available. -/
theorem list_of_available (h : e.store.outages.list = []) (source : Option String) :
    e.list source =
      (.ok ((e.store.ofSource (source.getD e.dataSource)).mergeSort flowBefore), e) := by
  unfold list Store.listBySource Store.attempt Outages.of
  dsimp only
  rw [h]

/-! ## Follow-ups -/

/-- A trigger that is done leaves the store, unless it has been armed again. -/
theorem settle_retire_cases (e : Engine) (t : Trigger) (firing : Option Firing) :
    e.armed.contains t.id = true ∧ e.settle (.retire t firing) = e ∨
      e.armed.contains t.id = false ∧
        (e.settle (.retire t firing) =
            { e with store := { e.store with records := e.store.records.erase t.id } } ∨
          ∃ store, e.settle (.retire t firing) = { e with store } ∧ e.store.Idles store ∧
            (e.store.outages = {} → e.store.records.contains t.id = false)) := by
  unfold settle
  dsimp only
  cases hc : e.armed.contains t.id with
  | true => exact .inl ⟨rfl, rfl⟩
  | false =>
    refine .inr ⟨rfl, ?_⟩
    rcases e.store.remove_cases t.id with ⟨-, h⟩ | ⟨err, store, h, hs, hr⟩
    · rw [h]
      exact .inl rfl
    · rw [h]
      exact .inr ⟨store, rfl, hs, hr⟩

/-- A trigger that goes on is stored, unless it has been armed again or disarmed. -/
theorem settle_advance_cases (e : Engine) (t : Trigger) (revision : Nat) (firing : Firing) :
    (∀ l, e.armed.find? t.id = some l → l.revision ≠ revision) ∧
        e.settle (.advance t revision firing) = e ∨
      (∃ l, e.armed.find? t.id = some l ∧ l.revision = revision) ∧
        (e.settle (.advance t revision firing) =
            { e with store := { e.store with records := e.store.records.insert t.id t } } ∨
          ∃ store, e.settle (.advance t revision firing) = { e with store } ∧
            e.store.Idles store ∧
            (e.store.outages = {} → e.store.records.contains t.id = false)) := by
  unfold settle
  dsimp only
  split
  · rename_i h
    obtain ⟨l, hl, hr⟩ := Option.map_eq_some_iff.1 h
    refine .inr ⟨⟨l, hl, hr⟩, ?_⟩
    rcases e.store.update_cases t with ⟨-, h⟩ | ⟨err, store, h, hs, hc⟩
    · rw [h]
      exact .inl rfl
    · rw [h]
      exact .inr ⟨store, rfl, hs, hc⟩
  · rename_i h
    refine .inl ⟨fun l hl hr => h ?_, rfl⟩
    rw [hl, ← hr]
    rfl

/-- A follow-up changes the store only. -/
theorem settle_eq (e : Engine) (f : Followup) : ∃ store, e.settle f = { e with store } := by
  cases f with
  | retire t firing =>
    rcases e.settle_retire_cases t firing with ⟨-, h⟩ | ⟨-, h | ⟨store, h, -⟩⟩ <;> exact ⟨_, h⟩
  | advance t revision firing =>
    rcases e.settle_advance_cases t revision firing with ⟨-, h⟩ | ⟨-, h | ⟨store, h, -⟩⟩ <;>
      exact ⟨_, h⟩

/-! ## Starting -/

/-- Arming triggers takes a revision for each of them. -/
theorem armAll_ok (e : Engine) (ts : List Trigger) :
    ∃ revisions, e.revisions ≤ revisions ∧ (e.armAll ts).2 = { e with revisions } ∧
      ∀ l ∈ (e.armAll ts).1, ∃ revision, e.revisions < revision ∧ revision ≤ revisions ∧
        ∃ t ∈ ts, Lifecycle.arm e.registry e.checkerType revision t = .ok l := by
  induction ts generalizing e with
  | nil => exact ⟨e.revisions, Nat.le_refl _, rfl, fun l hl => absurd hl List.not_mem_nil⟩
  | cons t rest ih =>
    obtain ⟨revisions, hle, he, hrest⟩ := ih { e with revisions := e.revisions + 1 }
    have hothers : ∀ l ∈ (armAll { e with revisions := e.revisions + 1 } rest).1, ∃ revision,
        e.revisions < revision ∧ revision ≤ revisions ∧
          ∃ t' ∈ t :: rest, Lifecycle.arm e.registry e.checkerType revision t' = .ok l := by
      intro l hl
      obtain ⟨revision, hlt, hrevision, t', ht', harm⟩ := hrest l hl
      exact ⟨revision, Nat.lt_of_succ_lt hlt, hrevision, t', List.mem_cons_of_mem _ ht', harm⟩
    unfold armAll
    dsimp only [arm]
    cases hl : Lifecycle.arm e.registry e.checkerType (e.revisions + 1) t with
    | error err => exact ⟨revisions, Nat.le_of_succ_le hle, he, hothers⟩
    | ok l =>
      refine ⟨revisions, Nat.le_of_succ_le hle, he, fun l' hl' => ?_⟩
      rcases List.mem_cons.1 hl' with rfl | hl'
      · exact ⟨_, Nat.lt_succ_self _, hle, t, List.mem_cons_self, hl⟩
      · exact hothers l' hl'

/-- Triggers that are put among the armed ones one after the other. -/
theorem find?_foldl_insert {ls : List Lifecycle} {armed : IdMap Lifecycle} {id : Uuid}
    {l : Lifecycle} (h : (ls.foldl (fun m l => m.insert l.trigger.id l) armed).find? id = some l) :
    armed.find? id = some l ∨ l ∈ ls ∧ l.trigger.id = id := by
  induction ls generalizing armed with
  | nil => exact .inl h
  | cons l' rest ih =>
    rcases ih h with h | ⟨hl, hid⟩
    · rcases IdMap.find?_insert_cases h with ⟨hid, rfl⟩ | ⟨-, h⟩
      · exact .inr ⟨List.mem_cons_self, hid.symm⟩
      · exact .inl h
    · exact .inr ⟨List.mem_cons_of_mem _ hl, hid⟩

theorem find?_foldl_insert_ne_none {ls : List Lifecycle} {armed : IdMap Lifecycle} {id : Uuid}
    (h : armed.find? id ≠ none) :
    (ls.foldl (fun m l => m.insert l.trigger.id l) armed).find? id ≠ none := by
  induction ls generalizing armed with
  | nil => exact h
  | cons l rest ih =>
    refine ih ?_
    rw [IdMap.find?_insert]
    split
    · exact Option.some_ne_none l
    · exact h

/-- Loading arms the stored triggers that can be armed, under new revisions, in addition to those
that are armed. -/
theorem load_cases (e : Engine) :
    (∃ err e', e.load = (.error err, e') ∧ e.Idles e') ∨
      ∃ (ls : List Lifecycle) (revisions : Nat), e.revisions ≤ revisions ∧
        (∀ l ∈ ls, ∃ revision, e.revisions < revision ∧ revision ≤ revisions ∧
          ∃ t ∈ e.store.ofSource e.dataSource,
            Lifecycle.arm e.registry e.checkerType revision t = .ok l) ∧
        e.load =
          (.ok ls.length,
            { e with
              armed := ls.foldl (fun m l => m.insert l.trigger.id l) e.armed
              revisions }) := by
  unfold load
  rcases e.store.listBySource_cases e.dataSource with hs | ⟨err, store, hs, hidle⟩
  · rw [hs]
    obtain ⟨revisions, hle, he, harm⟩ :=
      armAll_ok { e with store := e.store } (e.store.ofSource e.dataSource)
    dsimp only
    rw [he]
    exact .inr ⟨_, revisions, hle, harm, rfl⟩
  · rw [hs]
    exact .inl ⟨_, _, rfl, store, _, hidle, Nat.le_refl _, rfl⟩

/-- Loading changes which triggers are armed. Revisions and outages of the store may have been used
up; nothing else has changed. -/
theorem load_eq (e : Engine) : ∃ store armed revisions, e.store.Idles store ∧
    e.load.2 = { e with store, armed, revisions } := by
  rcases e.load_cases with ⟨err, e', h, store, revisions, hs, -, rfl⟩ | ⟨ls, revisions, -, -, h⟩
  · exact ⟨store, e.armed, revisions, hs, by rw [h]⟩
  · exact ⟨e.store, _, revisions, .refl _, by rw [h]⟩

theorem scheduler_load (e : Engine) : e.load.2.scheduler = e.scheduler := by
  obtain ⟨store, armed, revisions, -, he⟩ := e.load_eq
  rw [he]

/-- Stored triggers that can be armed are armed under their identifiers. -/
theorem load_ok {n : Nat} (h : e.load = (.ok n, e')) :
    e'.registry = e.registry ∧ e'.checkerType = e.checkerType ∧ e'.scheduler = e.scheduler ∧
      ∀ id l, e'.armed.find? id = some l → e.armed.find? id = some l ∨
        l.trigger.id = id ∧ ∃ revision t,
          Lifecycle.arm e.registry e.checkerType revision t = .ok l := by
  rcases e.load_cases with ⟨err, e₁, hload, -⟩ | ⟨ls, revisions, -, harm, hload⟩
  · rw [hload] at h
    cases h
  · rw [hload] at h
    cases h
    refine ⟨rfl, rfl, rfl, fun id l hl => ?_⟩
    rcases find?_foldl_insert hl with h | ⟨hmem, hid⟩
    · exact .inl h
    · obtain ⟨revision, -, -, t, -, ht⟩ := harm l hmem
      exact .inr ⟨hid, revision, t, ht⟩

/-- An engine starts by loading what is stored, with a configuration that can work. -/
theorem start_eq_ok_iff {config : Config} {store : Store} {clock : Instant} :
    start config store clock = .ok e ↔ config.validate = .ok () ∧
      ∃ n, (new config (Registry.empty.register config.checkerType .data) store clock).load =
        (.ok n, e) := by
  unfold start
  cases config.validate with
  | error err =>
    constructor
    · intro h
      cases h
    · rintro ⟨h, -⟩
      cases h
  | ok _ =>
    dsimp only
    rcases (new config _ store clock).load with ⟨err | n, e'⟩
    · constructor
      · intro h
        cases h
      · rintro ⟨-, n, h⟩
        cases h
    · constructor
      · intro h
        cases h
        exact ⟨rfl, n, rfl⟩
      · rintro ⟨-, n', h⟩
        cases h
        rfl

/-- With an empty store nothing is armed. -/
theorem start_empty {config : Config} (h : config.validate = .ok ()) (clock : Instant) :
    start config Store.empty clock =
      .ok (new config (Registry.empty.register config.checkerType .data) Store.empty clock) := by
  have hsource : Store.empty.ofSource config.dataSource = [] := List.mergeSort_nil
  have hlist : Store.empty.listBySource config.dataSource =
      (.ok (Store.empty.ofSource config.dataSource), Store.empty) := rfl
  unfold start load
  rw [h]
  dsimp only [new]
  rw [hlist, hsource]
  rfl

/-- With an empty store there is only one way to start. -/
theorem eq_of_start_empty {config : Config} {clock : Instant}
    (h : start config Store.empty clock = .ok e) :
    e = new config (Registry.empty.register config.checkerType .data) Store.empty clock :=
  Except.ok.inj (h.symm.trans (start_empty (start_eq_ok_iff.1 h).1 clock))

/-- **An engine that has just been started**: only checkers that wait for data are registered, no
key is cached or pending, and each armed trigger is one that could be armed. -/
theorem start_ok {config : Config} {store : Store} {clock : Instant}
    (h : start config store clock = .ok e) :
    e.registry.OnlyData ∧
      e.scheduler =
        Scheduler.new (Cache.new config.cacheMaxEntries config.cacheTtl) config.queueCapacity ∧
      ∀ id l, e.armed.find? id = some l → l.trigger.id = id ∧ ∃ revision t,
        Lifecycle.arm e.registry e.checkerType revision t = .ok l := by
  obtain ⟨-, n, hload⟩ := start_eq_ok_iff.1 h
  obtain ⟨hregistry, htype, hscheduler, harmed⟩ := load_ok hload
  refine ⟨?_, hscheduler, fun id l hl => ?_⟩
  · rw [hregistry]
    exact Registry.onlyData_register config.checkerType
  · rw [hregistry, htype]
    rcases harmed id l hl with h | h
    · cases h
    · exact h

end Engine
end Lookout
