import Lookout.Proofs.Windows

/-!
# Creations that are overtaken

A creation stores its trigger before it arms it (`Engine.beginCreate`, `Engine.finishCreate`), and
other operations may come between the two. Once the trigger is stored, it is listed, so that these
may replace it or remove it.

- **What is stored** (`Event.leaves?`, `Run.find?_store`): in any run, what the last replacement or
  removal of a trigger has left, unless a follow-up of the trigger is settled.
- **What is armed**: the trigger of the request, whatever has happened to it in the meantime.
- **The outcome** (`Run.creation_overtaken`): the armed trigger is the stored one if and only if no
  replacement or removal came in between, or the last one has left the trigger of the request.
  After a removal it is not (`Run.creation_not_atomic`).
-/

namespace Lookout

/-! ## What is stored -/

/-- What an event leaves stored, if it replaces the trigger or removes it. -/
def Event.leaves? (id : Uuid) : Event → Option (Option Trigger)
  | .updated t (.ok t') => if t.id = id then some (some t') else none
  | .removed j (.ok _) => if j = id then some none else none
  | _ => none

/-- The identifier of the trigger that is to be replaced or removed. -/
def Event.target? : Event → Option Uuid
  | .updated t _ => some t.id
  | .removed id _ => some id
  | _ => none

/-- The identifier of the trigger whose follow-up is settled. -/
def Event.settled? : Event → Option Uuid
  | .settled f _ => some f.trigger.id
  | _ => none

variable {s₀ s s' : System} {event : Event} {history : List Moment} {id fresh : Uuid}
  {e e' : Engine}

theorem Engine.Idles.find?_store (h : e.Idles e') (id : Uuid) :
    e'.store.find? id = e.store.find? id := by
  obtain ⟨store, revisions, hstore, -, rfl⟩ := h
  show store.records.find? id = e.store.records.find? id
  rw [hstore.records]

/-- A follow-up concerns what is stored of its own trigger only. -/
theorem Engine.find?_store_settle (e : Engine) {f : Followup} (h : f.trigger.id ≠ id) :
    (e.settle f).store.find? id = e.store.find? id := by
  cases f with
  | retire t firing =>
    rcases e.settle_retire_cases t firing with ⟨-, he⟩ | ⟨-, he | ⟨store, he, hs, -⟩⟩ <;> rw [he]
    · exact IdMap.find?_erase_of_ne _ (Ne.symm h)
    · simp only [Store.find?, hs.records]
  | advance t revision firing =>
    rcases e.settle_advance_cases t revision firing with
      ⟨-, he⟩ | ⟨-, he | ⟨store, he, hs, -⟩⟩ <;> rw [he]
    · exact IdMap.find?_insert_of_ne _ _ (Ne.symm h)
    · simp only [Store.find?, hs.records]

theorem Step.find?_store (hs : Step s event s') (hid : id ∈ s.taken)
    (hunsettled : event.settled? ≠ some id) :
    s'.engine.store.find? id = (event.leaves? id).getD (s.engine.store.find? id) := by
  cases hs with
  | @create fresh r hfresh =>
    have hne : id ≠ fresh := fun h => hfresh (h ▸ hid)
    rcases s.engine.create_cases fresh r with ⟨err, engine, hc, hidle⟩ | ⟨d, l, hl, hc⟩ <;> rw [hc]
    · exact hidle.find?_store id
    · exact IdMap.find?_insert_of_ne _ _ hne
  | update t =>
    rcases s.engine.update_cases t with ⟨err, engine, hc, hidle⟩ | ⟨l, hl, hstored, hc⟩ <;> rw [hc]
    · exact hidle.find?_store id
    · simp only [Store.find?, IdMap.find?_insert, Event.leaves?, eq_comm (a := id)]
      split <;> rfl
  | remove j =>
    rcases s.engine.remove_cases j with ⟨err, engine, hc, hidle⟩ | ⟨hstored, hc⟩ <;> rw [hc]
    · exact hidle.find?_store id
    · simp only [Store.find?, IdMap.find?_erase, Event.leaves?, eq_comm (a := id)]
      split <;> rfl
  | list source => exact (s.engine.list_idles source).find?_store id
  | settle => exact Engine.find?_store_settle _ fun h => hunsettled (congrArg some h)
  | beginPoll => rfl
  | answer a => rcases a with _ | _ | _ <;> rfl
  | _ => rfl

/-- **What is stored after a run** under an identifier that is not fresh. -/
theorem Run.find?_store (hr : Run s₀ history s) (hid : id ∈ s₀.taken)
    (hunsettled : ∀ m ∈ history, m.event.settled? ≠ some id) :
    s.engine.store.find? id =
      (history.filterMap (·.event.leaves? id)).getLast?.getD (s₀.engine.store.find? id) := by
  refine (hr.invariant (P := fun past s =>
    (∀ m ∈ past, m.event.settled? ≠ some id) →
      id ∈ s.taken ∧ s.engine.store.find? id =
        (past.filterMap (·.event.leaves? id)).getLast?.getD (s₀.engine.store.find? id))
    (fun _ => ⟨hid, rfl⟩) ?_ hunsettled).2
  intro past s event s' _ ih hs hunsettled
  obtain ⟨htaken, hstored⟩ := ih fun m hm => hunsettled m (List.mem_append_left _ hm)
  refine ⟨hs.mem_taken htaken, ?_⟩
  rw [hs.find?_store htaken (hunsettled ⟨s, event⟩ (List.mem_append_right _ List.mem_cons_self)),
    hstored, List.filterMap_append, List.getLast?_append]
  cases hleaves : event.leaves? id <;> simp [hleaves]

/-! ## What is armed -/

/-- The first half of a creation stores the trigger under its fresh identifier. -/
theorem Engine.beginCreate_ok {r : CreateRequest} {l : Lifecycle}
    (h : e.beginCreate fresh r = (.ok l, e')) :
    l.trigger.id = fresh ∧ e'.store.find? fresh = some l.trigger := by
  have hcreate : e.create fresh r = (.ok l.trigger, e'.finishCreate l) := by
    unfold create
    rw [h]
  rcases e.create_cases fresh r with ⟨err, engine, hc, -⟩ | ⟨d, l', -, hc⟩ <;>
    rw [hcreate] at hc
  · cases hc
  · obtain ⟨ht, he⟩ := Prod.mk.inj hc
    have hstore : (e'.finishCreate l).store = _ := congrArg Engine.store he
    have hsame : (e'.finishCreate l).store = e'.store := rfl
    rw [Except.ok.inj ht, ← hsame, hstore]
    exact ⟨rfl, IdMap.find?_insert_self _ _ _⟩

/-- **A creation that is overtaken** by other operations, after it has stored its trigger and before
it has armed it. The trigger of the request is armed in the end; what is stored is what the last
replacement or removal has left, if there is any. -/
theorem Run.creation_overtaken {r : CreateRequest} {l : Lifecycle}
    (hbegin : s.engine.beginCreate fresh r = (.ok l, e))
    (hr : Run { s with engine := e, taken := fresh :: s.taken } history s')
    (hunsettled : ∀ m ∈ history, m.event.settled? ≠ some fresh) :
    (s'.engine.finishCreate l).armed.find? fresh = some l ∧
    (s'.engine.finishCreate l).store.find? fresh =
      (history.filterMap (·.event.leaves? fresh)).getLast?.getD (some l.trigger) ∧
    (((s'.engine.finishCreate l).armed.find? fresh).map (·.trigger) =
        (s'.engine.finishCreate l).store.find? fresh ↔
      ∀ left, (history.filterMap (·.event.leaves? fresh)).getLast? = some left →
        left = some l.trigger) ∧
    ∀ id, id ≠ fresh →
      (s'.engine.finishCreate l).armed.find? id = s'.engine.armed.find? id ∧
      (s'.engine.finishCreate l).store.find? id = s'.engine.store.find? id := by
  obtain ⟨hid, hstored⟩ := Engine.beginCreate_ok hbegin
  have harmed : (s'.engine.finishCreate l).armed.find? fresh = some l :=
    hid ▸ IdMap.find?_insert_self _ _ _
  have hleft : (s'.engine.finishCreate l).store.find? fresh =
      (history.filterMap (·.event.leaves? fresh)).getLast?.getD (some l.trigger) :=
    (hr.find?_store List.mem_cons_self hunsettled).trans (by rw [hstored])
  refine ⟨harmed, hleft, ?_, fun id hne => ⟨?_, rfl⟩⟩
  · rw [harmed, hleft]
    cases (history.filterMap (·.event.leaves? fresh)).getLast? with
    | none => simp
    | some left => simp [eq_comm]
  · exact IdMap.find?_insert_of_ne _ _ (hid ▸ hne)

namespace Sample

/-- The first half of a creation in an empty engine. -/
def begun : Except EngineError Lifecycle × Engine :=
  engine.beginCreate first daily

/-- The trigger, which is stored and not yet armed. -/
def newcomer : Lifecycle :=
  begun.1.toOption.get (by decide +kernel)

theorem beginCreate_eq : engine.beginCreate first daily = (.ok newcomer, begun.2) :=
  Prod.ext (eq_ok_of_toOption (Option.some_get _).symm) rfl

/-- Anything may happen to the trigger now. -/
def halfway : System :=
  { System.ofEngine engine with
    engine := begun.2, taken := first :: (System.ofEngine engine).taken }

/-- The outcome of the creation, with moves in between. -/
def outcome (moves : List Move) : Engine :=
  (halfway.play moves).2.engine.finishCreate newcomer

/-- Takes the place of the trigger. -/
def successor : Trigger :=
  { replacement with id := first }

end Sample

/-- A trigger that is removed in between is armed, and not stored. One that is replaced is armed as
it was requested, and stored as it was replaced. -/
theorem Run.creation_overtaken_removal :
    ((Sample.outcome [.remove Sample.first]).armed.find? Sample.first = some Sample.newcomer ∧
      (Sample.outcome [.remove Sample.first]).store.find? Sample.first = none) ∧
    (Sample.outcome [.update Sample.successor]).armed.find? Sample.first = some Sample.newcomer ∧
      ((Sample.outcome [.update Sample.successor]).store.find? Sample.first).map (·.patterns) =
        some [⟨"/out"⟩] := by
  obtain ⟨harmed, hstored, -⟩ := Run.creation_overtaken Sample.beginCreate_eq
    (.of_play Sample.halfway [.remove Sample.first]) (by decide +kernel)
  obtain ⟨harmed', hstored', -⟩ := Run.creation_overtaken Sample.beginCreate_eq
    (.of_play Sample.halfway [.update Sample.successor]) (by decide +kernel)
  refine ⟨⟨harmed, hstored.trans (by decide +kernel)⟩, harmed', ?_⟩
  exact (congrArg _ hstored').trans (by decide +kernel)

/-- **A creation is not atomic**: replacements and removals in between can leave armed what is not
stored. -/
theorem Run.creation_not_atomic :
    ¬ ∀ (config : Config) (store : Store) (clock : Instant) (engine e : Engine)
      (past history : List Moment) (s s' : System) (fresh : Uuid) (r : CreateRequest)
      (l : Lifecycle), Engine.start config store clock = .ok engine →
      Run (.ofEngine engine) past s → fresh ∉ s.taken →
      s.engine.beginCreate fresh r = (.ok l, e) →
      Run { s with engine := e, taken := fresh :: s.taken } history s' →
      (∀ m ∈ history, m.event.target? = some fresh) →
      ((s'.engine.finishCreate l).armed.find? fresh).map (·.trigger) =
        (s'.engine.finishCreate l).store.find? fresh := by
  intro hagree
  have heq := hagree _ _ _ _ _ _ _ _ _ _ _ _ Sample.start .nil (by decide +kernel)
    Sample.beginCreate_eq (.of_play Sample.halfway [.remove Sample.first]) (by decide +kernel)
  have hstored : (Sample.outcome [.remove Sample.first]).store.find? Sample.first = none := by
    decide +kernel
  have harmed : ((Sample.outcome [.remove Sample.first]).armed.find? Sample.first).isSome := by
    decide +kernel
  have hnone := heq.trans hstored
  rw [Option.map_eq_none_iff] at hnone
  rw [Sample.outcome, hnone] at harmed
  cases harmed

end Lookout
