import Lookout.Proofs.Steps

/-!
# Armed and stored triggers

As long as the store has no outages, the armed triggers and the stored ones differ only by the
follow-ups of the cycle under way (`Engine.Agrees`). With no cycle under way they are the same
(`Run.armed_eq_stored`).

A trigger that goes on is armed in its next window before it is stored, and one that is done is
disarmed before it leaves the store. Meanwhile it may be replaced or removed; the revision under
which it was armed tells whether the follow-up still concerns it.
-/

namespace Lookout

namespace Engine

/-- The armed triggers and the stored ones agree up to what remains to be done. -/
structure Agrees (e : Engine) (followups : List Followup) : Prop where
  reliable : e.store.outages = {}
  ids : ∀ id l, e.armed.find? id = some l → l.trigger.id = id
  /-- An armed trigger is stored, or its present window remains to be stored. -/
  stored : ∀ id l, e.armed.find? id = some l → ∃ t, e.store.records.find? id = some t ∧
    (t = l.trigger ∨ ∃ firing, .advance l.trigger l.revision firing ∈ followups)
  /-- A stored trigger is armed, or remains to be removed. -/
  armed : ∀ id t, e.store.records.find? id = some t → e.armed.find? id = none →
    ∃ t' firing, .retire t' firing ∈ followups ∧ t'.id = id
  fresh : ∀ id l, e.armed.find? id = some l → l.revision ≤ e.revisions
  /-- A window that remains to be stored is the present one of the trigger that is armed under its
  revision. -/
  current : ∀ t revision firing, .advance t revision firing ∈ followups →
    revision ≤ e.revisions ∧
      ∀ l, e.armed.find? t.id = some l → l.revision = revision → l.trigger = t

namespace Agrees

variable {e : Engine} {followups rest : List Followup} {id : Uuid} {l : Lifecycle} {t : Trigger}

/-- Nothing remains to be done: the armed triggers are the stored ones. -/
theorem find?_eq (h : e.Agrees []) (id : Uuid) :
    (e.armed.find? id).map (·.trigger) = e.store.find? id := by
  have hfind : e.store.find? id = e.store.records.find? id := rfl
  rw [hfind]
  cases ha : e.armed.find? id with
  | some l =>
    obtain ⟨t, ht, rfl | ⟨firing, hf⟩⟩ := h.stored id l ha
    · rw [ht]
      rfl
    · cases hf
  | none =>
    cases ht : e.store.records.find? id with
    | none => rfl
    | some t =>
      obtain ⟨t', firing, hf, -⟩ := h.armed id t ht ha
      cases hf

theorem new (config : Config) (registry : Registry) (clock : Instant) :
    (Engine.new config registry Store.empty clock).Agrees [] := by
  refine ⟨rfl, fun id l hl => ?_, fun id l hl => ?_, fun id t ht => ?_, fun id l hl => ?_,
    fun t revision firing hf => ?_⟩
  · cases hl
  · cases hl
  · cases ht
  · cases hl
  · cases hf

/-- A trigger is armed anew and stored. What remains to be done about it no longer concerns it. -/
theorem insert {scheduler : Scheduler} (h : e.Agrees followups) (hid : l.trigger.id = id)
    (hrevision : l.revision = e.revisions + 1) :
    Agrees { e with
      store := { e.store with records := e.store.records.insert id l.trigger }
      armed := e.armed.insert id l
      revisions := e.revisions + 1
      scheduler } followups := by
  refine ⟨h.reliable, fun j l' hj => ?_, fun j l' hj => ?_, fun j t ht hj => ?_,
    fun j l' hj => ?_, fun t revision firing hf => ?_⟩
  · rcases IdMap.find?_insert_cases hj with ⟨rfl, rfl⟩ | ⟨-, hj⟩
    · exact hid
    · exact h.ids j l' hj
  · rcases IdMap.find?_insert_cases hj with ⟨rfl, rfl⟩ | ⟨hne, hj⟩
    · exact ⟨_, IdMap.find?_insert_self _ _ _, .inl rfl⟩
    · rw [IdMap.find?_insert_of_ne _ _ hne]
      exact h.stored j l' hj
  · by_cases hne : j = id
    · subst hne
      rw [IdMap.find?_insert_self] at hj
      cases hj
    · rw [IdMap.find?_insert_of_ne _ _ hne] at ht hj
      exact h.armed j t ht hj
  · rcases IdMap.find?_insert_cases hj with ⟨rfl, rfl⟩ | ⟨-, hj⟩
    · exact Nat.le_of_eq hrevision
    · exact Nat.le_succ_of_le (h.fresh j l' hj)
  · obtain ⟨hle, hcurrent⟩ := h.current t revision firing hf
    refine ⟨Nat.le_succ_of_le hle, fun l' hl' hr => ?_⟩
    rcases IdMap.find?_insert_cases hl' with ⟨-, rfl⟩ | ⟨-, hl'⟩
    · omega
    · exact hcurrent l' hl' hr

/-- A trigger is disarmed and removed from the store. -/
theorem erase {scheduler : Scheduler} (h : e.Agrees followups) (id : Uuid) :
    Agrees { e with
      store := { e.store with records := e.store.records.erase id }
      armed := e.armed.erase id
      scheduler } followups := by
  refine ⟨h.reliable, fun j l' hj => h.ids j l' (IdMap.find?_erase_cases hj).2, fun j l' hj => ?_,
    fun j t ht hj => ?_, fun j l' hj => h.fresh j l' (IdMap.find?_erase_cases hj).2,
    fun t revision firing hf => ?_⟩
  · obtain ⟨hne, hj⟩ := IdMap.find?_erase_cases hj
    rw [IdMap.find?_erase_of_ne _ hne]
    exact h.stored j l' hj
  · obtain ⟨hne, ht⟩ := IdMap.find?_erase_cases ht
    dsimp only at hj
    rw [IdMap.find?_erase_of_ne _ hne] at hj
    exact h.armed j t ht hj
  · obtain ⟨hle, hcurrent⟩ := h.current t revision firing hf
    exact ⟨hle, fun l' hl' hr => hcurrent l' (IdMap.find?_erase_cases hl').2 hr⟩

/-- A cycle has been decided. -/
theorem conclude {findings : Findings} {seen : List Sighting} {scheduler : Scheduler}
    (h : e.Agrees []) (hs : e.Decides findings seen scheduler) :
    (e.conclude findings scheduler).Agrees findings.followups := by
  have habout := hs.about
  have hbefore : ∀ id l, e.armed.find? id = some l → e.store.records.find? id = some l.trigger := by
    intro id l hl
    have heq := h.find?_eq id
    rw [hl] at heq
    exact heq.symm
  -- The trigger under an identifier afterwards, and the revision and the identifier it has kept.
  have hafter : ∀ {id l'}, (findings.applyTo e.armed).find? id = some l' →
      l'.trigger.id = id ∧ l'.revision ≤ e.revisions ∧ ∃ l, e.armed.find? id = some l ∧
        (l' = l ∨ ∃ firing, ((id, l), .advances l' firing) ∈ findings) := by
    intro id l' hl'
    obtain ⟨l, f, hf, hn⟩ := Findings.exists_of_find?_applyTo habout hl'
    have hl := Findings.find?_of_mem habout hf
    have hid := h.ids id l hl
    have hle := h.fresh id l hl
    cases hs.finds hf with
    | expires => cases hn
    | waits =>
      cases hn
      exact ⟨hid, hle, _, hl, .inl rfl⟩
    | retires => cases hn
    | advances _ _ ha =>
      cases hn
      rw [Lifecycle.id_advance ha, (Lifecycle.advance_ok ha).2.1]
      exact ⟨hid, hle, l, hl, .inr ⟨_, hf⟩⟩
  refine ⟨h.reliable, fun id l' hl' => (hafter hl').1, fun id l' hl' => ?_, fun id t ht hid => ?_,
    fun id l' hl' => (hafter hl').2.1, fun t revision firing hf => ?_⟩
  · obtain ⟨-, -, l, hl, rfl | ⟨firing, hf⟩⟩ := hafter hl'
    · exact ⟨_, hbefore id _ hl, .inl rfl⟩
    · exact ⟨_, hbefore id l hl, .inr ⟨firing, Findings.advance_mem_followups.2
        ⟨id, l, l', hf, rfl, rfl⟩⟩⟩
  · -- A stored trigger was armed, and it is disarmed only when it is done.
    have heq := h.find?_eq id
    cases hl : e.armed.find? id with
    | none =>
      rw [hl] at heq
      have hnone : e.store.records.find? id = none := heq.symm
      cases ht.symm.trans hnone
    | some l =>
      obtain ⟨f, hf⟩ := Findings.exists_mem habout hl
      have hnext : f.next? l = none := (Findings.find?_applyTo habout hf).symm.trans hid
      cases f with
      | waits => cases hnext
      | advances next firing => cases hnext
      | retires firing =>
        exact ⟨l.trigger, firing, Findings.retire_mem_followups.2 ⟨id, l, hf, rfl⟩, h.ids id l hl⟩
  · obtain ⟨id, l, next, hmem, rfl, rfl⟩ := Findings.advance_mem_followups.1 hf
    have hnext : (findings.applyTo e.armed).find? id = some next :=
      Findings.find?_applyTo habout hmem
    obtain ⟨hid, hle, -⟩ := hafter hnext
    refine ⟨hle, fun l' hl' _ => ?_⟩
    rw [hid] at hl'
    cases hl'.symm.trans hnext
    rfl

/-- The store has taken notice that a trigger is done. -/
theorem settle_retire {firing : Option Firing}
    (h : e.Agrees (.retire t firing :: followups)) :
    (e.settle (.retire t firing)).Agrees followups := by
  have hstored : ∀ id l, e.armed.find? id = some l → ∃ t, e.store.records.find? id = some t ∧
      (t = l.trigger ∨ ∃ firing, .advance l.trigger l.revision firing ∈ followups) := by
    intro id l hl
    obtain ⟨t', ht', he | ⟨firing', hf⟩⟩ := h.stored id l hl
    · exact ⟨t', ht', .inl he⟩
    · exact ⟨t', ht', .inr ⟨firing', List.mem_of_ne_of_mem (by simp) hf⟩⟩
  have harmed : ∀ id t', e.store.records.find? id = some t' → e.armed.find? id = none →
      id ≠ t.id → ∃ t' firing, .retire t' firing ∈ followups ∧ t'.id = id := by
    intro id t' ht' hid hne
    obtain ⟨t'', firing', hf, rfl⟩ := h.armed id t' ht' hid
    rcases List.mem_cons.1 hf with heq | hf
    · cases heq
      exact absurd rfl hne
    · exact ⟨t'', firing', hf, rfl⟩
  have hcurrent : ∀ t revision firing, .advance t revision firing ∈ followups →
      revision ≤ e.revisions ∧
        ∀ l, e.armed.find? t.id = some l → l.revision = revision → l.trigger = t :=
    fun t revision firing hf => h.current t revision firing (List.mem_cons_of_mem _ hf)
  rcases e.settle_retire_cases t firing with ⟨hc, he⟩ | ⟨hc, he | ⟨store, he, hs, hr⟩⟩ <;> rw [he]
  · obtain ⟨l, hl⟩ := IdMap.contains_iff.1 hc
    refine ⟨h.reliable, h.ids, hstored, fun id t' ht' hid => ?_, h.fresh, hcurrent⟩
    refine harmed id t' ht' hid fun heq => ?_
    rw [heq, hl] at hid
    cases hid
  · have hnone := IdMap.contains_eq_false_iff.1 hc
    refine ⟨h.reliable, h.ids, fun id l hl => ?_, fun id t' ht' hid => ?_, h.fresh, hcurrent⟩
    · have hne : id ≠ t.id := by
        intro heq
        rw [heq] at hl
        cases hl.symm.trans hnone
      rw [IdMap.find?_erase_of_ne _ hne]
      exact hstored id l hl
    · obtain ⟨hne, ht'⟩ := IdMap.find?_erase_cases ht'
      exact harmed id t' ht' hid hne
  · have hmissing := IdMap.contains_eq_false_iff.1 (hr h.reliable)
    refine ⟨hs.reliable h.reliable, h.ids, ?_, ?_, h.fresh, hcurrent⟩
    · dsimp only
      rw [hs.records]
      exact hstored
    · intro id t' ht' hid
      dsimp only at ht'
      rw [hs.records] at ht'
      refine harmed id t' ht' hid fun heq => ?_
      rw [heq] at ht'
      cases ht'.symm.trans hmissing

/-- The store has taken notice that a trigger goes on. -/
theorem settle_advance {revision : Nat} {firing : Firing}
    (h : e.Agrees (.advance t revision firing :: followups)) :
    (e.settle (.advance t revision firing)).Agrees followups := by
  have harmed : ∀ id t', e.store.records.find? id = some t' → e.armed.find? id = none →
      ∃ t' firing, .retire t' firing ∈ followups ∧ t'.id = id := by
    intro id t' ht' hid
    obtain ⟨t'', firing', hf, heq⟩ := h.armed id t' ht' hid
    exact ⟨t'', firing', List.mem_of_ne_of_mem (by simp) hf, heq⟩
  have hcurrent : ∀ t revision firing, .advance t revision firing ∈ followups →
      revision ≤ e.revisions ∧
        ∀ l, e.armed.find? t.id = some l → l.revision = revision → l.trigger = t :=
    fun t revision firing hf => h.current t revision firing (List.mem_cons_of_mem _ hf)
  obtain ⟨-, hnow⟩ := h.current t revision firing List.mem_cons_self
  -- The follow-up concerns a trigger only under its identifier and its revision.
  have hstored : ∀ id l, e.armed.find? id = some l → ∃ t', e.store.records.find? id = some t' ∧
      ((id = t.id ∧ l.revision = revision) ∨ t' = l.trigger ∨
        ∃ firing, .advance l.trigger l.revision firing ∈ followups) := by
    intro id l hl
    obtain ⟨t', ht', he | ⟨firing', hf⟩⟩ := h.stored id l hl
    · exact ⟨t', ht', .inr (.inl he)⟩
    · rcases List.mem_cons.1 hf with heq | hf
      · cases heq
        exact ⟨t', ht', .inl ⟨(h.ids id l hl).symm, rfl⟩⟩
      · exact ⟨t', ht', .inr (.inr ⟨firing', hf⟩)⟩
  rcases e.settle_advance_cases t revision firing with
    ⟨hne, he⟩ | ⟨⟨l₀, hl₀, hr₀⟩, he | ⟨store, he, hs, hr⟩⟩ <;> rw [he]
  · refine ⟨h.reliable, h.ids, fun id l hl => ?_, harmed, h.fresh, hcurrent⟩
    obtain ⟨t', ht', ⟨rfl, hrev⟩ | hrest⟩ := hstored id l hl
    · exact absurd hrev (hne l hl)
    · exact ⟨t', ht', hrest⟩
  · refine ⟨h.reliable, h.ids, fun id l hl => ?_, fun id t' ht' hid => ?_, h.fresh, hcurrent⟩
    · by_cases heq : id = t.id
      · subst heq
        cases hl₀.symm.trans hl
        exact ⟨t, IdMap.find?_insert_self _ _ _, .inl (hnow l₀ hl₀ hr₀).symm⟩
      · rw [IdMap.find?_insert_of_ne _ _ heq]
        obtain ⟨t', ht', ⟨rfl, -⟩ | hrest⟩ := hstored id l hl
        · exact absurd rfl heq
        · exact ⟨t', ht', hrest⟩
    · rcases IdMap.find?_insert_cases ht' with ⟨rfl, -⟩ | ⟨-, ht'⟩
      · cases hl₀.symm.trans hid
      · exact harmed id t' ht' hid
  · -- An armed trigger is stored, so the call cannot have failed.
    have hmissing := IdMap.contains_eq_false_iff.1 (hr h.reliable)
    obtain ⟨t', ht', -⟩ := h.stored t.id l₀ hl₀
    cases ht'.symm.trans hmissing

/-- **Each step keeps the agreement**, unless it announces an outage. -/
theorem step {s s' : System} {event : Event} (h : s.engine.Agrees s.followups)
    (hs : Step s event s') (ho : event.isOutage = false) :
    s'.engine.Agrees s'.followups := by
  cases hs.effect with
  | idle hstore hreliable hrevisions =>
    refine ⟨hreliable ho h.reliable, h.ids, ?_, ?_, fun id l hl => ?_, fun t r firing hf => ?_⟩
    · dsimp only
      rw [hstore]
      exact h.stored
    · dsimp only
      rw [hstore]
      exact h.armed
    · exact Nat.le_trans (h.fresh id l hl) hrevisions
    · obtain ⟨hle, hcurrent⟩ := h.current t r firing hf
      exact ⟨Nat.le_trans hle hrevisions, hcurrent⟩
  | create _ hl => exact h.insert rfl (Lifecycle.arm_ok hl).2.1
  | update hl _ =>
    obtain ⟨htrigger, hrevision, -⟩ := Lifecycle.arm_ok hl
    exact h.insert (by rw [htrigger]) hrevision
  | remove => exact h.erase _
  | decide hf hdecides =>
    rw [hf] at h
    exact h.conclude hdecides
  | fire => exact h
  | @settle f rest _ hf _ =>
    rw [hf] at h
    cases f with
    | retire t firing => exact h.settle_retire
    | advance t revision firing => exact h.settle_advance
  | beginPoll =>
    exact ⟨h.reliable, h.ids, h.stored, h.armed, h.fresh, h.current⟩
  | answer a =>
    rcases a with _ | _ | _ <;>
      exact ⟨h.reliable, h.ids, h.stored, h.armed, h.fresh, h.current⟩

end Agrees
end Engine

/-- In a run without outages the armed triggers and the stored ones always agree. -/
theorem Run.agrees {s₀ s : System} {history : List Moment} (hr : Run s₀ history s)
    (h : s₀.engine.Agrees s₀.followups)
    (ho : ∀ m ∈ history, m.event.isOutage = false) :
    s.engine.Agrees s.followups := by
  refine hr.invariant (P := fun past s => (∀ m ∈ past, m.event.isOutage = false) →
    s.engine.Agrees s.followups) (fun _ => h) (fun past s e s' _ ih hstep hpast => ?_) ho
  have hbefore := ih fun m hm => hpast m (List.mem_append_left _ hm)
  exact hbefore.step hstep (hpast ⟨s, e⟩ (List.mem_append_right _ List.mem_cons_self))

/-- **The armed triggers are the stored ones** whenever no cycle is under way: they have the same
identifiers, and under each of them the same trigger. -/
theorem Run.armed_eq_stored {config : Config} {registry : Registry} {clock : Instant} {s : System}
    {history : List Moment}
    (hr : Run (.ofEngine (.new config registry Store.empty clock)) history s)
    (ho : ∀ m ∈ history, m.event.isOutage = false)
    (hf : s.followups = []) (id : Uuid) :
    (s.engine.armed.find? id).map (·.trigger) = s.engine.store.find? id := by
  have h := hr.agrees (Engine.Agrees.new config registry clock) ho
  rw [hf] at h
  exact h.find?_eq id

/-- A trigger that is replaced after it has been found to be done stays armed and stored. -/
theorem Run.armed_eq_stored_overlap :
    ((System.ofEngine Sample.engine).play Sample.overlap).2.engine.armed.size = 2 ∧
      ∀ id, (((System.ofEngine Sample.engine).play Sample.overlap).2.engine.armed.find? id).map
          (·.trigger) =
        ((System.ofEngine Sample.engine).play Sample.overlap).2.engine.store.find? id :=
  ⟨by decide +kernel,
    Run.armed_eq_stored (.of_play _ Sample.overlap) (by decide +kernel) (by decide +kernel)⟩

end Lookout
