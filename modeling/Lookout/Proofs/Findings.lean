import Lookout.Engine.Cycle
import Lookout.Proofs.IdMap

/-!
# What a cycle leaves behind

The findings of a cycle are about the armed triggers, each of them once, in any order
(`Findings.About`).

* `Finding.next?`, `Finding.firing?`: the armed trigger after a finding, and the action to come.
* `Findings.find?_applyTo`: which triggers are armed after the findings.
* `Findings.mem_followups`: where follow-ups come from.
* `Findings.firingsOf_followups`: the calls to come for one trigger are those of its finding.
-/

namespace Lookout

namespace Finding

/-- The armed trigger after a finding, if it is armed still. -/
def next? (l : Lifecycle) : Finding → Option Lifecycle
  | waits => some l
  | retires _ => none
  | advances next _ => some next

/-- The action that follows a finding. -/
def firing? (l : Lifecycle) : Finding → Option (Action × Firing)
  | waits => none
  | retires firing => firing.map fun f => (l.trigger.action, f)
  | advances next firing => some (next.trigger.action, firing)

theorem find?_apply_self {f : Finding} {armed : IdMap Lifecycle} {id : Uuid} {l : Lifecycle}
    (h : armed.find? id = some l) : (f.apply armed id).find? id = f.next? l := by
  cases f with
  | waits => exact h
  | retires firing => exact IdMap.find?_erase_self armed id
  | advances next firing => exact IdMap.find?_insert_self armed id next

theorem find?_apply_of_ne {f : Finding} {armed : IdMap Lifecycle} {id j : Uuid} (h : j ≠ id) :
    (f.apply armed id).find? j = armed.find? j := by
  cases f with
  | waits => rfl
  | retires firing => exact IdMap.find?_erase_of_ne armed h
  | advances next firing => exact IdMap.find?_insert_of_ne armed next h

end Finding

/-- A call of an action, if it is one for the trigger. -/
def Firing.concerning (id : Uuid) (call : Option (Action × Firing)) : Option (Action × Firing) :=
  call.filter fun (_, firing) => firing.triggerId = id

theorem Firing.concerning_eq_some {id : Uuid} {call : Option (Action × Firing)} {a : Action}
    {firing : Firing} :
    concerning id call = some (a, firing) ↔ call = some (a, firing) ∧ firing.triggerId = id := by
  unfold concerning
  rw [Option.filter_eq_some_iff]
  simp

/-- The calls for one trigger that are to come. -/
def Followup.firingsOf (id : Uuid) (followups : List Followup) : List (Action × Firing) :=
  followups.filterMap fun f => Firing.concerning id f.firing?

theorem Followup.firingsOf_cons (id : Uuid) (f : Followup) (rest : List Followup) :
    firingsOf id (f :: rest) =
      (Firing.concerning id f.firing?).toList ++ firingsOf id rest := by
  unfold firingsOf
  rw [List.filterMap_cons]
  cases Firing.concerning id f.firing? <;> rfl

theorem Followup.firingsOf_eq_nil {id : Uuid} {followups : List Followup}
    (h : ∀ f ∈ followups, ∀ a firing, f.firing? = some (a, firing) → firing.triggerId ≠ id) :
    firingsOf id followups = [] := by
  refine List.filterMap_eq_nil_iff.2 fun f hf => Option.eq_none_iff_forall_ne_some.2 ?_
  rintro ⟨a, firing⟩ he
  obtain ⟨hfiring, hid⟩ := Firing.concerning_eq_some.1 he
  exact h f hf a firing hfiring hid

namespace Findings

variable {findings : Findings} {armed : IdMap Lifecycle} {id : Uuid} {l : Lifecycle} {f : Finding}

/-! ## The armed triggers afterwards -/

private theorem find?_applyTo_of_not_mem (h : id ∉ findings.map (·.1.1)) :
    (findings.applyTo armed).find? id = armed.find? id := by
  induction findings generalizing armed with
  | nil => rfl
  | cons p rest ih =>
    obtain ⟨⟨i, l'⟩, f⟩ := p
    obtain ⟨hi, hrest⟩ := List.ne_and_not_mem_of_not_mem_cons h
    have hstep : (applyTo (((i, l'), f) :: rest) armed) = applyTo rest (f.apply armed i) := rfl
    rw [hstep, ih hrest]
    exact Finding.find?_apply_of_ne hi

private theorem find?_applyTo_of_nodup (hn : (findings.map (·.1.1)).Nodup)
    (hf : ((id, l), f) ∈ findings) (ha : armed.find? id = some l) :
    (findings.applyTo armed).find? id = f.next? l := by
  induction findings generalizing armed with
  | nil => cases hf
  | cons p rest ih =>
    obtain ⟨⟨i, l'⟩, f'⟩ := p
    obtain ⟨hi, hrest⟩ := List.nodup_cons.1 hn
    have hstep : (applyTo (((i, l'), f') :: rest) armed) = applyTo rest (f'.apply armed i) := rfl
    rw [hstep]
    rcases List.mem_cons.1 hf with heq | hf
    · cases heq
      rw [find?_applyTo_of_not_mem hi]
      exact Finding.find?_apply_self ha
    · have hne : id ≠ i := fun he => hi (he ▸ List.mem_map.2 ⟨((id, l), f), hf, rfl⟩)
      refine ih hrest hf ?_
      rw [Finding.find?_apply_of_ne hne]
      exact ha

/-- The findings are about the armed triggers, each of them once. -/
def About (findings : Findings) (armed : IdMap Lifecycle) : Prop :=
  (findings.map Prod.fst).Perm armed.entries

theorem nodup_ids (h : findings.About armed) : (findings.map (·.1.1)).Nodup := by
  have hids := h.map Prod.fst
  rw [List.map_map] at hids
  exact hids.nodup_iff.2 armed.nodup

theorem find?_of_mem (h : findings.About armed) (hf : ((id, l), f) ∈ findings) :
    armed.find? id = some l :=
  IdMap.mem_entries_iff.1 (h.mem_iff.1 (List.mem_map.2 ⟨_, hf, rfl⟩))

theorem exists_mem (h : findings.About armed) (ha : armed.find? id = some l) :
    ∃ f, ((id, l), f) ∈ findings := by
  have hm : (id, l) ∈ findings.map Prod.fst := h.mem_iff.2 (IdMap.mem_entries_iff.2 ha)
  obtain ⟨⟨p, f⟩, hf, rfl⟩ := List.mem_map.1 hm
  exact ⟨f, hf⟩

/-- A trigger that was found is armed afterwards as its finding says. -/
theorem find?_applyTo (h : findings.About armed)
    (hf : ((id, l), f) ∈ findings) : (findings.applyTo armed).find? id = f.next? l :=
  find?_applyTo_of_nodup (nodup_ids h) hf (find?_of_mem h hf)

/-- A trigger that was not armed is not armed afterwards. -/
theorem find?_applyTo_of_none (h : findings.About armed)
    (ha : armed.find? id = none) : (findings.applyTo armed).find? id = none := by
  rw [find?_applyTo_of_not_mem, ha]
  intro hm
  obtain ⟨⟨⟨i, l⟩, f⟩, hf, rfl⟩ := List.mem_map.1 hm
  rw [find?_of_mem h hf] at ha
  cases ha

/-- Each trigger that is armed afterwards comes from a finding. -/
theorem exists_of_find?_applyTo (h : findings.About armed) {l' : Lifecycle}
    (ha : (findings.applyTo armed).find? id = some l') :
    ∃ l f, ((id, l), f) ∈ findings ∧ f.next? l = some l' := by
  cases hl : armed.find? id with
  | none =>
    rw [find?_applyTo_of_none h hl] at ha
    cases ha
  | some l =>
    obtain ⟨f, hf⟩ := exists_mem h hl
    exact ⟨l, f, hf, (find?_applyTo h hf).symm.trans ha⟩

theorem mem_retired {l : Lifecycle} :
    l ∈ findings.retired ↔ ∃ id firing, ((id, l), .retires firing) ∈ findings := by
  constructor
  · intro h
    obtain ⟨⟨⟨id, l'⟩, f⟩, hf, rfl⟩ := List.mem_map.1 h
    obtain ⟨hf, hr⟩ := List.mem_filter.1 hf
    cases f with
    | retires firing => exact ⟨id, firing, hf⟩
    | waits => cases hr
    | advances next firing => cases hr
  · rintro ⟨id, firing, h⟩
    exact List.mem_map.2 ⟨_, List.mem_filter.2 ⟨h, rfl⟩, rfl⟩

/-! ## Follow-ups -/

theorem mem_followups {followup : Followup} :
    followup ∈ findings.followups ↔ ∃ id l f, ((id, l), f) ∈ findings ∧
      (f.advance? = some followup ∨ f.retire? l = some followup) := by
  unfold followups
  rw [List.mem_append, List.mem_filterMap, List.mem_filterMap]
  constructor
  · rintro (⟨⟨⟨id, l⟩, f⟩, hf, h⟩ | ⟨⟨⟨id, l⟩, f⟩, hf, h⟩)
    · exact ⟨id, l, f, hf, .inl h⟩
    · exact ⟨id, l, f, hf, .inr h⟩
  · rintro ⟨id, l, f, hf, h | h⟩
    · exact .inl ⟨_, hf, h⟩
    · exact .inr ⟨_, hf, h⟩

theorem advance_mem_followups {t : Trigger} {revision : Nat} {firing : Firing} :
    .advance t revision firing ∈ findings.followups ↔
      ∃ id l next, ((id, l), .advances next firing) ∈ findings ∧
        t = next.trigger ∧ revision = next.revision := by
  rw [mem_followups]
  constructor
  · rintro ⟨id, l, f, hf, h | h⟩
    · cases f <;> cases h
      exact ⟨id, l, _, hf, rfl, rfl⟩
    · cases f <;> cases h
  · rintro ⟨id, l, next, hf, rfl, rfl⟩
    exact ⟨id, l, _, hf, .inl rfl⟩

theorem retire_mem_followups {t : Trigger} {firing : Option Firing} :
    .retire t firing ∈ findings.followups ↔
      ∃ id l, ((id, l), .retires firing) ∈ findings ∧ t = l.trigger := by
  rw [mem_followups]
  constructor
  · rintro ⟨id, l, f, hf, h | h⟩
    · cases f <;> cases h
    · cases f <;> cases h
      exact ⟨id, l, hf, rfl⟩
  · rintro ⟨id, l, hf, rfl⟩
    exact ⟨id, l, _, hf, .inr rfl⟩

/-- The action of a follow-up is that of a finding. -/
theorem exists_of_firing? {followup : Followup} {a : Action} {firing : Firing}
    (h : followup ∈ findings.followups) (ha : followup.firing? = some (a, firing)) :
    ∃ id l f, ((id, l), f) ∈ findings ∧ f.firing? l = some (a, firing) := by
  obtain ⟨id, l, f, hf, h⟩ := mem_followups.1 h
  refine ⟨id, l, f, hf, ?_⟩
  cases f <;> rcases h with h | h <;> cases h <;> exact ha

/-- A function that has values for one key only picks at most one element of a list with distinct
keys. -/
private theorem filterMap_eq_of_nodup {α β : Type} {key : α → Uuid} {g : α → Option β} {as : List α}
    {a : α} (hn : (as.map key).Nodup) (ha : a ∈ as) (hg : ∀ b ∈ as, key b ≠ key a → g b = none) :
    as.filterMap g = (g a).toList := by
  induction as with
  | nil => cases ha
  | cons b rest ih =>
    obtain ⟨hb, hrest⟩ := List.nodup_cons.1 hn
    rcases List.mem_cons.1 ha with rfl | ha
    · have hnil : rest.filterMap g = [] := by
        refine List.filterMap_eq_nil_iff.2 fun c hc => hg c (List.mem_cons_of_mem _ hc) ?_
        exact fun he => hb (he ▸ List.mem_map.2 ⟨c, hc, rfl⟩)
      rw [List.filterMap_cons, hnil]
      cases g a <;> rfl
    · have hne : key b ≠ key a := fun he => hb (he ▸ List.mem_map.2 ⟨a, ha, rfl⟩)
      rw [List.filterMap_cons_none (hg b List.mem_cons_self hne)]
      exact ih hrest ha fun c hc => hg c (List.mem_cons_of_mem _ hc)

/-- **The calls to come for a trigger** are those of the finding about it, if every finding is
about the trigger whose action it asks for. -/
theorem firingsOf_followups (h : findings.About armed)
    (hid : ∀ id l f a firing, ((id, l), f) ∈ findings → f.firing? l = some (a, firing) →
      firing.triggerId = id) (hf : ((id, l), f) ∈ findings) :
    Followup.firingsOf id findings.followups = (f.firing? l).toList := by
  have hn := nodup_ids h
  -- Triggers that go on and triggers that are done are looked at apart, as in `followups`.
  have hadvance : ∀ p ∈ findings, p.1.1 ≠ id →
      (p.2.advance?.bind fun f => Firing.concerning id f.firing?) = none := by
    rintro ⟨⟨i, l'⟩, f'⟩ hp hne
    cases f' with
    | advances next firing =>
      have hi := hid i l' _ _ firing hp rfl
      simp [Finding.advance?, Firing.concerning, Followup.firing?, hi, hne]
    | waits => rfl
    | retires firing => rfl
  have hretire : ∀ p ∈ findings, p.1.1 ≠ id →
      ((p.2.retire? p.1.2).bind fun f => Firing.concerning id f.firing?) = none := by
    rintro ⟨⟨i, l'⟩, f'⟩ hp hne
    cases f' with
    | retires firing =>
      cases firing with
      | none => rfl
      | some firing =>
        have hi := hid i l' _ _ firing hp rfl
        simp [Finding.retire?, Firing.concerning, Followup.firing?, hi, hne]
    | waits => rfl
    | advances next firing => rfl
  unfold Followup.firingsOf followups
  rw [List.filterMap_append, List.filterMap_filterMap, List.filterMap_filterMap,
    filterMap_eq_of_nodup hn hf hadvance, filterMap_eq_of_nodup hn hf hretire]
  cases f with
  | waits => rfl
  | retires firing =>
    cases firing with
    | none => rfl
    | some firing =>
      have hi := hid id l _ _ firing hf rfl
      simp [Finding.advance?, Finding.retire?, Finding.firing?, Firing.concerning,
        Followup.firing?, hi]
  | advances next firing =>
    have hi := hid id l _ _ firing hf rfl
    simp [Finding.advance?, Finding.retire?, Finding.firing?, Firing.concerning,
      Followup.firing?, hi]

end Findings
end Lookout
