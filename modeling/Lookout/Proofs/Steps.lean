import Lookout.Proofs.Findings
import Lookout.Proofs.System

/-!
# What a step does

- **Effects** (`Effect`, `Step.effect`): a step in terms of what it leaves behind. Operations that
  fail, and all that only concerns the outside, are `Effect.idle`.
- **Soundness** (`System.Sound`): what holds at any time in an engine that has been started. Armed
  triggers are armed under their own identifiers, with checkers that wait for their data; an
  identifier that is armed, stored or about to fire is not fresh.
-/

namespace Lookout

/-- What a step does to the system. -/
inductive Effect (s : System) : Event → System → Prop
  | idle {e : Event} {store : Store} {revisions : Nat} {clock : Instant} {taken : List Uuid}
      (hstore : store.records = s.engine.store.records)
      (hreliable : e.isOutage = false → s.engine.store.outages = {} → store.outages = {})
      (hrevisions : s.engine.revisions ≤ revisions) (htaken : ∀ id ∈ s.taken, id ∈ taken)
      (hdecision : e.isDecision = false) (hfiring : e.firing? = none) :
      Effect s e { s with engine := { s.engine with store, revisions, clock }, taken }
  | create {fresh : Uuid} {r : CreateRequest} {d : Duration} {l : Lifecycle}
      (hfresh : fresh ∉ s.taken)
      (hl : Lifecycle.arm s.engine.registry s.engine.checkerType (s.engine.revisions + 1)
        (s.engine.triggerOf r d) = .ok l) :
      Effect s (.created fresh r (.ok (l.withId fresh).trigger))
        { s with
          engine :=
            { s.engine with
              store :=
                { s.engine.store with
                  records := s.engine.store.records.insert fresh (l.withId fresh).trigger }
              armed := s.engine.armed.insert fresh (l.withId fresh)
              revisions := s.engine.revisions + 1 }
          taken := fresh :: s.taken }
  | update {t : Trigger} {l : Lifecycle}
      (hl : Lifecycle.arm s.engine.registry s.engine.checkerType (s.engine.revisions + 1)
        { t with dataSource := s.engine.dataSource, lastModifyTime := s.engine.clock } = .ok l)
      (hstored : s.engine.store.records.contains t.id = true) :
      Effect s (.updated t (.ok l.trigger))
        { s with
          engine :=
            { s.engine with
              store :=
                { s.engine.store with
                  records := s.engine.store.records.insert t.id l.trigger }
              armed := s.engine.armed.insert t.id l
              revisions := s.engine.revisions + 1
              scheduler := Engine.withdrawn (s.engine.armed.find? t.id).toList
                (s.engine.armed.insert t.id l) s.engine.scheduler } }
  | remove {id : Uuid} :
      Effect s (.removed id (.ok ()))
        { s with
          engine :=
            { s.engine with
              store := { s.engine.store with records := s.engine.store.records.erase id }
              armed := s.engine.armed.erase id
              scheduler := Engine.withdrawn (s.engine.armed.find? id).toList
                (s.engine.armed.erase id) s.engine.scheduler } }
  | decide {findings : Findings} {seen : List Sighting} {scheduler : Scheduler}
      (h : s.followups = [])
      (hs : s.engine.Decides findings seen scheduler) :
      Effect s (.decided findings seen)
        { s with
          engine := s.engine.conclude findings scheduler
          followups := findings.followups
          called := false }
  | fire {f : Followup} {rest : List Followup} {action : Action} {firing : Firing}
      (h : s.followups = f :: rest) (hc : s.called = false)
      (hf : f.firing? = some (action, firing)) :
      Effect s (.fired action firing) { s with called := true }
  | settle {f : Followup} {rest : List Followup} {outcome : Option (Except ActionError Unit)}
      (h : s.followups = f :: rest) (hc : s.called = f.firing?.isSome) :
      Effect s (.settled f outcome)
        { s with engine := s.engine.settle f, followups := rest, called := false }
  | beginPoll :
      Effect s (.pollBegun s.engine.beginPoll.1)
        { s with engine := s.engine.beginPoll.2, asking := s.engine.beginPoll.1 }
  | answer {k : CheckKey} {rest : List CheckKey} (answer : Except StorageError Bool) :
      Effect s (.answered k answer)
        { s with engine := s.engine.answer k answer, asking := rest }

theorem Effect.of_idles {s : System} {e : Event} {engine : Engine} {taken : List Uuid}
    (h : s.engine.Idles engine) (htaken : ∀ id ∈ s.taken, id ∈ taken)
    (hdecision : e.isDecision = false) (hfiring : e.firing? = none) :
    Effect s e { s with engine, taken } := by
  obtain ⟨store, revisions, hstore, hrevisions, rfl⟩ := h
  exact .idle hstore.records (fun _ => hstore.reliable) hrevisions htaken hdecision hfiring

/-- Each step has one of the effects. -/
theorem Step.effect {s s' : System} {e : Event} (h : Step s e s') : Effect s e s' := by
  cases h with
  | @create fresh r hfresh =>
    rcases s.engine.create_cases fresh r with ⟨err, engine, hc, hidle⟩ | ⟨d, l, hl, hc⟩
    · rw [hc]
      exact .of_idles hidle (fun id hid => List.mem_cons_of_mem _ hid) rfl rfl
    · rw [hc]
      exact .create hfresh hl
  | update t =>
    rcases s.engine.update_cases t with ⟨err, engine, hc, hidle⟩ | ⟨l, hl, hstored, hc⟩
    · rw [hc]
      exact .of_idles hidle (fun id hid => hid) rfl rfl
    · rw [hc]
      exact .update hl hstored
  | remove id =>
    rcases s.engine.remove_cases id with ⟨err, engine, hc, hidle⟩ | ⟨-, hc⟩
    · rw [hc]
      exact .of_idles hidle (fun id hid => hid) rfl rfl
    · rw [hc]
      exact .remove
  | list source => exact .of_idles (s.engine.list_idles source) (fun id hid => hid) rfl rfl
  | outage call texts =>
    have hrecords : (s.engine.store.addOutage call texts).records = s.engine.store.records := rfl
    exact .idle hrecords
      (fun h => absurd h.symm Bool.false_ne_true) (Nat.le_refl _) (fun id hid => hid) rfl rfl
  | setClock clock =>
    exact .idle rfl (fun _ h => h) (Nat.le_refl _) (fun id hid => hid) rfl rfl
  | decide h hs => exact .decide h hs
  | fire h hc hf => exact .fire h hc hf
  | settle h hc _ => exact .settle h hc
  | beginPoll _ => exact .beginPoll
  | answer a _ => exact .answer a

/-! ## Soundness -/

/-- What holds at any time in an engine that has been started. -/
structure System.Sound (s : System) : Prop where
  registry : s.engine.registry.OnlyData
  ids : ∀ id l, s.engine.armed.find? id = some l → l.trigger.id = id
  synced : ∀ id l, s.engine.armed.find? id = some l → l.Synced
  armed : ∀ id l, s.engine.armed.find? id = some l → id ∈ s.taken
  stored : ∀ id, s.engine.store.records.contains id = true → id ∈ s.taken
  firing : ∀ f ∈ s.followups, ∀ action firing, f.firing? = some (action, firing) →
    firing.triggerId ∈ s.taken

namespace System.Sound

variable {s s' : System} {e : Event}

theorem of_start {config : Config} {store : Store} {clock : Instant} {engine : Engine}
    (h : Engine.start config store clock = .ok engine) : (System.ofEngine engine).Sound := by
  obtain ⟨hregistry, -, harmed⟩ := Engine.start_ok h
  refine ⟨hregistry, fun id l hl => (harmed id l hl).1, fun id l hl => ?_, fun id l hl => ?_,
    fun id hid => ?_, fun f hf => absurd hf List.not_mem_nil⟩
  · obtain ⟨-, revision, t, ht⟩ := harmed id l hl
    exact .arm hregistry ht
  · have hmem := IdMap.mem_entries_iff.2 hl
    exact List.mem_append_right _ (List.mem_map.2 ⟨_, hmem, rfl⟩)
  · obtain ⟨t, ht⟩ := IdMap.contains_iff.1 hid
    have hmem := IdMap.mem_entries_iff.2 ht
    exact List.mem_append_left _ (List.mem_map.2 ⟨_, hmem, rfl⟩)

/-- One more trigger is armed and stored. -/
private theorem of_insert {id : Uuid} {l : Lifecycle} {store : Store} {scheduler : Scheduler}
    {revisions : Nat} {taken : List Uuid} (h : s.Sound) (hid : l.trigger.id = id) (hl : l.Synced)
    (hmem : id ∈ taken) (htaken : ∀ id ∈ s.taken, id ∈ taken)
    (hstore : store.records = s.engine.store.records.insert id l.trigger) :
    System.Sound { s with
      engine := { s.engine with
        store, armed := s.engine.armed.insert id l, revisions, scheduler }, taken } := by
  refine ⟨h.registry, fun j l' hj => ?_, fun j l' hj => ?_, fun j l' hj => ?_, fun j hj => ?_,
    fun f hf action firing ha => htaken _ (h.firing f hf action firing ha)⟩
  · rcases IdMap.find?_insert_cases hj with ⟨rfl, rfl⟩ | ⟨-, hj⟩
    · exact hid
    · exact h.ids j l' hj
  · rcases IdMap.find?_insert_cases hj with ⟨rfl, rfl⟩ | ⟨-, hj⟩
    · exact hl
    · exact h.synced j l' hj
  · rcases IdMap.find?_insert_cases hj with ⟨rfl, rfl⟩ | ⟨-, hj⟩
    · exact hmem
    · exact htaken _ (h.armed j l' hj)
  · dsimp only at hj
    rw [hstore, IdMap.contains_iff] at hj
    obtain ⟨t, ht⟩ := hj
    rcases IdMap.find?_insert_cases ht with ⟨rfl, -⟩ | ⟨-, ht⟩
    · exact hmem
    · exact htaken _ (h.stored j (IdMap.contains_iff.2 ⟨t, ht⟩))

private theorem of_decide {findings : Findings} {seen : List Sighting} {scheduler : Scheduler}
    (h : s.Sound) (hs : s.engine.Decides findings seen scheduler) :
    System.Sound { s with
      engine := s.engine.conclude findings scheduler
      followups := findings.followups
      called := false } := by
  have habout := hs.about
  -- Each trigger that is armed after the cycle was armed before under the same identifier.
  have hnext : ∀ {id l'}, (findings.applyTo s.engine.armed).find? id = some l' →
      id ∈ s.taken ∧ l'.trigger.id = id ∧ l'.Synced := by
    intro id l' hl'
    obtain ⟨l, f, hf, hn⟩ := Findings.exists_of_find?_applyTo habout hl'
    have hl := Findings.find?_of_mem habout hf
    refine ⟨h.armed id l hl, ?_⟩
    cases hs.finds hf with
    | expires => cases hn
    | waits =>
      cases hn
      exact ⟨h.ids id _ hl, h.synced id _ hl⟩
    | retires => cases hn
    | advances _ _ ha =>
      cases hn
      rw [Lifecycle.id_advance ha]
      exact ⟨h.ids id l hl, ((h.synced id l hl).advance ha).1⟩
  refine ⟨h.registry, fun id l' hl' => (hnext hl').2.1, fun id l' hl' => (hnext hl').2.2,
    fun id l' hl' => (hnext hl').1, h.stored, fun fo hfo action firing ha => ?_⟩
  obtain ⟨id, l, f, hf, ha⟩ := Findings.exists_of_firing? hfo ha
  have hmem := h.armed id l (Findings.find?_of_mem habout hf)
  cases hs.finds hf <;> cases ha <;> exact hmem

private theorem contains_settle (f : Followup) (h : s.Sound) (id : Uuid)
    (hid : (s.engine.settle f).store.records.contains id = true) : id ∈ s.taken := by
  obtain ⟨t', ht'⟩ := IdMap.contains_iff.1 hid
  cases f with
  | retire t firing =>
    rcases s.engine.settle_retire_cases t firing with ⟨-, he⟩ | ⟨-, he | ⟨store, he, hs, -⟩⟩ <;>
      rw [he] at ht'
    · exact h.stored id (IdMap.contains_iff.2 ⟨t', ht'⟩)
    · exact h.stored id (IdMap.contains_iff.2 ⟨t', (IdMap.find?_erase_cases ht').2⟩)
    · dsimp only at ht'
      rw [hs.records] at ht'
      exact h.stored id (IdMap.contains_iff.2 ⟨t', ht'⟩)
  | advance t revision firing =>
    rcases s.engine.settle_advance_cases t revision firing with
      ⟨-, he⟩ | ⟨⟨l, hl, -⟩, he | ⟨store, he, hs, -⟩⟩ <;> rw [he] at ht'
    · exact h.stored id (IdMap.contains_iff.2 ⟨t', ht'⟩)
    · rcases IdMap.find?_insert_cases ht' with ⟨rfl, -⟩ | ⟨-, ht'⟩
      · exact h.armed t.id l hl
      · exact h.stored id (IdMap.contains_iff.2 ⟨t', ht'⟩)
    · dsimp only at ht'
      rw [hs.records] at ht'
      exact h.stored id (IdMap.contains_iff.2 ⟨t', ht'⟩)

/-- **Each step keeps the system sound.** -/
theorem step (h : s.Sound) (hs : Step s e s') : s'.Sound := by
  cases hs.effect with
  | idle hstore _ _ htaken _ _ =>
    refine ⟨h.registry, h.ids, h.synced, fun id l hl => htaken _ (h.armed id l hl),
      fun id hid => htaken _ (h.stored id (hstore ▸ hid)), fun f hf action firing ha => ?_⟩
    exact htaken _ (h.firing f hf action firing ha)
  | create hfresh hl =>
    exact of_insert h rfl ((Lifecycle.Synced.arm h.registry hl).withId _) List.mem_cons_self
      (fun id hid => List.mem_cons_of_mem _ hid) rfl
  | @update t l hl hstored =>
    have hid : l.trigger.id = t.id := by rw [(Lifecycle.arm_ok hl).1]
    exact of_insert h hid (.arm h.registry hl) (h.stored _ hstored) (fun id hid => hid) rfl
  | @remove id =>
    have herase : ∀ {j l}, (s.engine.armed.erase id).find? j = some l →
        s.engine.armed.find? j = some l := fun hj => (IdMap.find?_erase_cases hj).2
    refine ⟨h.registry, fun j l hj => h.ids j l (herase hj), fun j l hj => h.synced j l (herase hj),
      fun j l hj => h.armed j l (herase hj), fun j hj => ?_, h.firing⟩
    obtain ⟨t, ht⟩ := IdMap.contains_iff.1 hj
    exact h.stored j (IdMap.contains_iff.2 ⟨t, (IdMap.find?_erase_cases ht).2⟩)
  | decide _ hdecides => exact of_decide h hdecides
  | fire hf hc ha => exact ⟨h.registry, h.ids, h.synced, h.armed, h.stored, h.firing⟩
  | @settle f rest _ hf hc =>
    have hstored := contains_settle f h
    obtain ⟨store, he⟩ := s.engine.settle_eq f
    rw [he] at hstored ⊢
    refine ⟨h.registry, h.ids, h.synced, h.armed, hstored, fun f' hf' => h.firing f' ?_⟩
    rw [hf]
    exact List.mem_cons_of_mem _ hf'
  | beginPoll => exact ⟨h.registry, h.ids, h.synced, h.armed, h.stored, h.firing⟩
  | @answer k rest a =>
    rcases a with _ | _ | _ <;> exact ⟨h.registry, h.ids, h.synced, h.armed, h.stored, h.firing⟩

/-- **An engine that has been started stays sound.** -/
theorem of_run {config : Config} {store : Store} {clock : Instant} {engine : Engine}
    {history : List Moment} (h : Engine.start config store clock = .ok engine)
    (hr : Run (.ofEngine engine) history s) : s.Sound :=
  hr.invariant (P := fun _ s => s.Sound) (of_start h) fun _ _ _ _ _ hs hstep => hs.step hstep

end System.Sound
end Lookout
