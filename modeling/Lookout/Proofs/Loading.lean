import Lookout.Proofs.Agreement
import Lookout.Proofs.Course

/-!
# Agreement over a course

Triggers may be loaded at any time, also in the middle of a cycle. A trigger that is armed again has
a new revision, so a follow-up that remains to be settled does not concern it. As long as the store
has no outages, the armed triggers and the stored ones still differ only by the follow-ups
(`Course.agrees`).

- `Engine.Labelled`: each trigger is stored under its own identifier. So a trigger that is loaded is
  armed where it is stored.
-/

namespace Lookout

namespace Engine

/-- Each trigger is stored under its own identifier. -/
def Labelled (e : Engine) : Prop :=
  ∀ id t, e.store.records.find? id = some t → t.id = id

variable {e : Engine} {followups : List Followup}

theorem Labelled.of_records {e' : Engine} (h : e.Labelled)
    (hr : e'.store.records = e.store.records) : e'.Labelled :=
  fun id t ht => h id t (hr ▸ ht)

theorem Labelled.of_insert {e' : Engine} (h : e.Labelled) {t : Trigger}
    (hr : e'.store.records = e.store.records.insert t.id t) : e'.Labelled := by
  intro id t' ht'
  rw [hr] at ht'
  rcases IdMap.find?_insert_cases ht' with ⟨rfl, rfl⟩ | ⟨-, ht'⟩
  · rfl
  · exact h id t' ht'

theorem Labelled.of_erase {e' : Engine} (h : e.Labelled) {id : Uuid}
    (hr : e'.store.records = e.store.records.erase id) : e'.Labelled := by
  intro j t ht
  rw [hr] at ht
  exact h j t (IdMap.find?_erase_cases ht).2

theorem Labelled.settle (h : e.Labelled) (f : Followup) : (e.settle f).Labelled := by
  cases f with
  | retire t firing =>
    rcases e.settle_retire_cases t firing with ⟨-, he⟩ | ⟨-, he | ⟨store, he, hs, -⟩⟩ <;> rw [he]
    · exact h
    · exact h.of_erase rfl
    · exact h.of_records hs.records
  | advance t revision firing =>
    rcases e.settle_advance_cases t revision firing with
      ⟨-, he⟩ | ⟨-, he | ⟨store, he, hs, -⟩⟩ <;> rw [he]
    · exact h
    · exact h.of_insert rfl
    · exact h.of_records hs.records

theorem Labelled.step {s s' : System} {event : Event} (h : s.engine.Labelled)
    (hs : Step s event s') : s'.engine.Labelled := by
  cases hs.effect with
  | idle hstore => exact h.of_records hstore
  | @create fresh r d l => exact h.of_insert (t := (l.withId fresh).trigger) rfl
  | @update t l hl _ =>
    have hid : l.trigger.id = t.id := by rw [(Lifecycle.arm_ok hl).1]
    exact h.of_insert (by rw [hid])
  | remove => exact h.of_erase rfl
  | decide => exact h.of_records rfl
  | fire => exact h
  | @settle f => exact h.settle f
  | beginPoll => exact h.of_records rfl
  | answer a => rcases a with _ | _ | _ <;> exact h.of_records rfl

theorem Labelled.load (h : e.Labelled) : e.load.2.Labelled := by
  obtain ⟨store, armed, revisions, hs, he⟩ := e.load_eq
  rw [he]
  exact h.of_records hs.records

/-- A trigger of a data source is one of those that are stored. -/
theorem Labelled.find?_of_mem_ofSource (h : e.Labelled) {source : String} {t : Trigger}
    (ht : t ∈ e.store.ofSource source) : e.store.records.find? t.id = some t := by
  obtain ⟨⟨id, hid⟩, -⟩ := Store.mem_ofSource_iff.1 ht
  rw [h id t hid]
  exact hid

theorem Agrees.of_idles {e' : Engine} (h : e.Agrees followups) (hi : e.Idles e') :
    e'.Agrees followups := by
  obtain ⟨store, revisions, hs, hle, rfl⟩ := hi
  refine ⟨hs.reliable h.reliable, h.ids, ?_, ?_, fun id l hl => Nat.le_trans (h.fresh id l hl) hle,
    fun t revision firing hf => ?_⟩
  · dsimp only
    rw [hs.records]
    exact h.stored
  · dsimp only
    rw [hs.records]
    exact h.armed
  · obtain ⟨hrevision, hcurrent⟩ := h.current t revision firing hf
    exact ⟨Nat.le_trans hrevision hle, hcurrent⟩

/-- **Loading keeps the agreement.** -/
theorem Agrees.load (h : e.Agrees followups) (hl : e.Labelled) : e.load.2.Agrees followups := by
  rcases e.load_cases with ⟨err, e', he, hi⟩ | ⟨ls, revisions, hle, harm, he⟩ <;> rw [he]
  · exact h.of_idles hi
  -- A trigger that is armed afterwards was armed before, or it is stored and its revision is new.
  have hafter : ∀ {id l},
      (ls.foldl (fun m l => m.insert l.trigger.id l) e.armed).find? id = some l →
        e.armed.find? id = some l ∨ l.trigger.id = id ∧
          e.store.records.find? id = some l.trigger ∧
          e.revisions < l.revision ∧ l.revision ≤ revisions := by
    intro id l hfind
    refine (find?_foldl_insert hfind).imp_right ?_
    rintro ⟨hmem, rfl⟩
    obtain ⟨revision, hlt, hrevision, t, ht, hok⟩ := harm l hmem
    obtain ⟨rfl, rfl, -⟩ := Lifecycle.arm_ok hok
    exact ⟨rfl, hl.find?_of_mem_ofSource ht, hlt, hrevision⟩
  refine ⟨h.reliable, fun id l hfind => ?_, fun id l hfind => ?_, fun id t ht hnone => ?_,
    fun id l hfind => ?_, fun t revision firing hf => ?_⟩
  · rcases hafter hfind with hfind | ⟨hid, -⟩
    · exact h.ids id l hfind
    · exact hid
  · rcases hafter hfind with hfind | ⟨-, hstored, -⟩
    · exact h.stored id l hfind
    · exact ⟨l.trigger, hstored, .inl rfl⟩
  · refine h.armed id t ht (Option.eq_none_iff_forall_ne_some.2 fun l hfind => ?_)
    exact find?_foldl_insert_ne_none (hfind ▸ Option.some_ne_none l) hnone
  · rcases hafter hfind with hfind | ⟨-, -, -, hrevision⟩
    · exact Nat.le_trans (h.fresh id l hfind) hle
    · exact hrevision
  · obtain ⟨hrevision, hcurrent⟩ := h.current t revision firing hf
    refine ⟨Nat.le_trans hrevision hle, fun l hfind heq => ?_⟩
    rcases hafter hfind with hfind | ⟨-, -, hlt, -⟩
    · exact hcurrent l hfind heq
    · omega

end Engine

/-- In a course without outages the armed triggers and the stored ones always agree. -/
theorem Course.agrees {s₀ s : System} {history : List Moment} (hr : Course s₀ history s)
    (h : s₀.engine.Agrees s₀.followups) (hl : s₀.engine.Labelled)
    (ho : ∀ m ∈ history, m.event.isOutage = false) :
    s.engine.Agrees s.followups ∧ s.engine.Labelled := by
  induction hr with
  | nil => exact ⟨h, hl⟩
  | @step past s s' e _ hs ih =>
    obtain ⟨hagrees, hlabelled⟩ := ih fun m hm => ho m (List.mem_append_left _ hm)
    exact ⟨hagrees.step hs (ho ⟨s, e⟩ (List.mem_append_right _ List.mem_cons_self)),
      hlabelled.step hs⟩
  | load _ ih =>
    obtain ⟨hagrees, hlabelled⟩ := ih ho
    exact ⟨hagrees.load hlabelled, hlabelled.load⟩
  | cutShort _ ih => exact ih ho

end Lookout
