import Lookout.Proofs.Windows

/-!
# Changes while a cycle is under way

A cycle decides about all triggers at its beginning and then makes the calls one after the other. A
trigger that is replaced or removed meanwhile is still called if the cycle has decided so: nothing
is decided twice.

- **At most one call is to come** for a trigger at any time (`Run.length_remaining`).
- **After a removal** (`System.Gone`) that call is the last one.
- **After a replacement** (`System.Replaced`) all other calls are for windows of triggers that have
  taken the place.

`Run.calls_after_change` joins them.
-/

namespace Lookout

variable {s₀ s s' : System} {e : Event} {id : Uuid} {past rest history : List Moment}

/-! ## Calls to come -/

private theorem Progress.length_remaining (hp : Progress id s e s')
    (h : (s.remaining id).length ≤ 1) : (s'.remaining id).length ≤ 1 := by
  cases hp with
  | keeps _ hcalls =>
    rw [← hcalls, List.length_append] at h
    omega
  | decides _ _ _ _ _ _ hafter =>
    rw [hafter]
    exact Option.length_toList_le

/-- **At most one call is to come** for each trigger. -/
theorem Run.length_remaining (hr : Run s₀ history s) (h₀ : s₀.followups = []) (id : Uuid) :
    (s.remaining id).length ≤ 1 := by
  refine hr.invariant (P := fun _ s => (s.remaining id).length ≤ 1) ?_ ?_
  · unfold System.remaining
    rw [h₀]
    cases s₀.called <;> exact Nat.zero_le 1
  · intro past s e s' _ ih hstep
    cases hd : e.isDecision with
    | false =>
      rw [← hstep.remaining_eq hd id, List.length_append] at ih
      omega
    | true =>
      cases hstep with
      | decide hnone hdecides => exact (Progress.of_decide hnone hdecides).length_remaining ih
      | _ => cases hd

/-! ## Replaced triggers -/

theorem Event.replaced?_eq_some (h : e.replaced? = some id) :
    ∃ t t', e = .updated t (.ok t') ∧ t.id = id := by
  cases e with
  | updated t result =>
    cases result with
    | error err => cases h
    | ok t' =>
      cases h
      exact ⟨t, t', rfl, rfl⟩
  | _ => cases h

/-- A trigger that is replaced is stored, and afterwards the other one is armed in its place. -/
theorem Step.updated {t t' : Trigger} (hs : Step s (.updated t (.ok t')) s') :
    s.engine.store.records.contains t.id = true ∧
      ∃ l, s'.engine.armed.find? t.id = some l ∧ l.trigger = t' := by
  obtain ⟨hresult, rfl⟩ := hs.updated_inv
  rcases s.engine.update_cases t with ⟨err, e', hc, -⟩ | ⟨l, -, hstored, hc⟩
  · rw [hc] at hresult
    cases hresult
  · rw [hc] at hresult ⊢
    cases hresult
    exact ⟨hstored, l, IdMap.find?_insert_self _ _ _, rfl⟩

/-! ## After a removal -/

/-- The trigger is neither armed nor stored, and its identifier is not fresh. -/
structure System.Gone (s : System) (id : Uuid) : Prop where
  taken : id ∈ s.taken
  disarmed : s.engine.armed.find? id = none
  unstored : s.engine.store.records.find? id = none

/-- A trigger that has been removed is gone. -/
theorem System.Gone.of_removed (hs : Step s (.removed id (.ok ())) s') (h : s.Sound) :
    s'.Gone id := by
  obtain ⟨hresult, rfl⟩ := hs.removed_inv
  rcases s.engine.remove_cases id with ⟨err, e', hc, -⟩ | ⟨hstored, hc⟩
  · rw [hc] at hresult
    cases hresult
  · rw [hc]
    exact ⟨h.stored id hstored, IdMap.find?_erase_self _ id, IdMap.find?_erase_self _ id⟩

/-- A follow-up does not store what is not armed. -/
theorem Engine.settle_unstored {e : Engine} (f : Followup) (harmed : e.armed.find? id = none)
    (h : e.store.records.find? id = none) : (e.settle f).store.records.find? id = none := by
  cases f with
  | retire t firing =>
    rcases e.settle_retire_cases t firing with ⟨-, he⟩ | ⟨-, he | ⟨store, he, hs, -⟩⟩ <;> rw [he]
    · exact h
    · dsimp only
      rw [IdMap.find?_erase, h, ite_self]
    · dsimp only
      rw [hs.records]
      exact h
  | advance t revision firing =>
    rcases e.settle_advance_cases t revision firing with
      ⟨-, he⟩ | ⟨⟨l, hl, -⟩, he | ⟨store, he, hs, -⟩⟩ <;> rw [he]
    · exact h
    · have hne : id ≠ t.id := by
        rintro rfl
        cases hl.symm.trans harmed
      dsimp only
      rw [IdMap.find?_insert_of_ne _ _ hne]
      exact h
    · dsimp only
      rw [hs.records]
      exact h

/-- **What is gone stays gone**, and its calls are made as they come. -/
theorem System.Gone.step (h : s.Gone id) (hs : Step s e s') :
    s'.Gone id ∧
      (Firing.concerning id e.firing?).toList ++ s'.remaining id = s.remaining id := by
  have hmissing : s.engine.store.records.contains id = false :=
    IdMap.contains_eq_false_iff.2 h.unstored
  have hu : e.replaced? ≠ some id := by
    intro he
    obtain ⟨t, t', rfl, rfl⟩ := Event.replaced?_eq_some he
    cases hs.updated.1.symm.trans hmissing
  have hunstored : s'.engine.store.records.find? id = none := by
    cases hs.effect with
    | idle hstore => exact (congrArg (·.find? id) hstore).trans h.unstored
    | @create fresh _ _ _ hfresh _ =>
      have hne : id ≠ fresh := fun he => hfresh (he ▸ h.taken)
      exact (IdMap.find?_insert_of_ne _ _ hne).trans h.unstored
    | @update t _ _ hstored =>
      have hne : id ≠ t.id := by
        rintro rfl
        cases hstored.symm.trans hmissing
      exact (IdMap.find?_insert_of_ne _ _ hne).trans h.unstored
    | remove =>
      dsimp only
      rw [IdMap.find?_erase, h.unstored, ite_self]
    | decide => exact h.unstored
    | fire => exact h.unstored
    | @settle f => exact Engine.settle_unstored f h.disarmed h.unstored
    | beginPoll => exact h.unstored
    | answer a => rcases a with _ | _ | _ <;> exact h.unstored
  cases hs.progress h.taken hu with
  | keeps harmed hcalls =>
    refine ⟨⟨hs.mem_taken h.taken, ?_, hunstored⟩, hcalls⟩
    rw [h.disarmed] at harmed
    exact harmed.elim (fun h => h) (fun h => h)
  | decides _ hf habout =>
    cases (Findings.find?_of_mem habout hf).symm.trans h.disarmed

/-- A trigger that is gone is called only if a call was to come, and then once. -/
theorem Run.firingsOf_of_gone (hr : Run s₀ history s) (h : s₀.Gone id) :
    firingsOf id history ++ s.remaining id = s₀.remaining id := by
  have hboth : s.Gone id ∧ firingsOf id history ++ s.remaining id = s₀.remaining id := by
    refine hr.invariant (P := fun past s => s.Gone id ∧
      firingsOf id past ++ s.remaining id = s₀.remaining id) ⟨h, rfl⟩ ?_
    intro past s e s' _ ⟨hgone, hcalls⟩ hstep
    obtain ⟨hgone', hsame⟩ := hgone.step hstep
    refine ⟨hgone', ?_⟩
    rw [firingsOf_append, firingsOf_singleton, List.append_assoc, hsame, hcalls]
  exact hboth.2

/-! ## After a replacement -/

/-- The trigger is `t₀`, or one that has been put under the identifier later. -/
def Succeeds (id : Uuid) (t₀ : Trigger) (history : List Moment) (t : Trigger) : Prop :=
  t = t₀ ∨ ∃ m ∈ history, ∃ t', m.event = .updated t' (.ok t) ∧ t'.id = id

theorem Succeeds.append {t₀ t : Trigger} (h : Succeeds id t₀ past t) (rest : List Moment) :
    Succeeds id t₀ (past ++ rest) t := by
  rcases h with rfl | ⟨m, hm, h⟩
  · exact .inl rfl
  · exact .inr ⟨m, List.mem_append_left _ hm, h⟩

/-- A call is for a window of a trigger. -/
def Trigger.Calls (t : Trigger) (action : Action) (firing : Firing) : Prop :=
  action = t.action ∧ ∃ k, t.pathsAfter k = .ok firing.paths

/-- What is called, and what is armed, after `t₀` has been put under an identifier: but for the
calls that were to come then, all is for windows of `t₀` or of one that has succeeded it. -/
structure System.Replaced (s : System) (id : Uuid) (t₀ : Trigger) (before : List (Action × Firing))
    (history : List Moment) : Prop where
  taken : id ∈ s.taken
  calls : ∃ new, firingsOf id history ++ s.remaining id = before ++ new ∧
    ∀ action firing, (action, firing) ∈ new →
      ∃ t, Succeeds id t₀ history t ∧ t.Calls action firing
  armed : ∀ l, s.engine.armed.find? id = some l → ∃ t, Succeeds id t₀ history t ∧
    ∃ k armedAt lastModifyTime, l.trigger = t.windowAfter k armedAt lastModifyTime

namespace System.Replaced

variable {t₀ t t' : Trigger} {before : List (Action × Firing)}

/-- A trigger has just been replaced. -/
theorem of_updated (hs : Step s (.updated t (.ok t₀)) s') (h : s.Sound) :
    s'.Replaced t.id t₀ (s.remaining t.id) [] := by
  obtain ⟨hstored, l₀, hl₀, rfl⟩ := hs.updated
  refine ⟨hs.mem_taken (h.stored _ hstored), ⟨[], ?_, fun _ _ hm => absurd hm List.not_mem_nil⟩,
    fun l hl => ?_⟩
  · rw [List.append_nil]
    exact hs.remaining_eq rfl t.id
  · cases hl₀.symm.trans hl
    exact ⟨_, .inl rfl, 0, _, _, rfl⟩

/-- The trigger is replaced once more. -/
private theorem replace (h : s.Replaced t.id t₀ before history)
    (hs : Step s (.updated t (.ok t')) s') :
    s'.Replaced t.id t₀ before (history ++ [⟨s, .updated t (.ok t')⟩]) := by
  obtain ⟨-, l₀, hl₀, rfl⟩ := hs.updated
  obtain ⟨new, hcalls, hnew⟩ := h.calls
  refine ⟨hs.mem_taken h.taken, ⟨new, ?_, fun action firing hm => ?_⟩, fun l hl => ?_⟩
  · have hsame := hs.remaining_eq rfl t.id
    rw [firingsOf_append, firingsOf_singleton, List.append_assoc, hsame, hcalls]
  · obtain ⟨t₁, hsucceeds, ht₁⟩ := hnew action firing hm
    exact ⟨t₁, hsucceeds.append _, ht₁⟩
  · cases hl₀.symm.trans hl
    exact ⟨_, .inr ⟨_, List.mem_append_right _ List.mem_cons_self, t, rfl, rfl⟩, 0, _, _, rfl⟩

/-- **Each step keeps it.** -/
theorem step (h : s.Replaced id t₀ before history) (hsound : s.Sound) (hs : Step s e s') :
    s'.Replaced id t₀ before (history ++ [⟨s, e⟩]) := by
  by_cases hu : e.replaced? = some id
  · obtain ⟨t, t', rfl, rfl⟩ := Event.replaced?_eq_some hu
    exact h.replace hs
  have htaken := hs.mem_taken h.taken
  obtain ⟨new, hcalls, hnew⟩ := h.calls
  have hnew' : ∀ action firing, (action, firing) ∈ new →
      ∃ t, Succeeds id t₀ (history ++ [⟨s, e⟩]) t ∧ t.Calls action firing := by
    intro action firing hm
    obtain ⟨t, hsucceeds, ht⟩ := hnew action firing hm
    exact ⟨t, hsucceeds.append _, ht⟩
  cases hs.progress h.taken hu with
  | keeps harmed hsame =>
    refine ⟨htaken, ⟨new, ?_, hnew'⟩, fun l hl => ?_⟩
    · rw [firingsOf_append, firingsOf_singleton, List.append_assoc, hsame, hcalls]
    · rcases harmed with heq | hnone
      · obtain ⟨t, hsucceeds, ht⟩ := h.armed l (heq.symm.trans hl)
        exact ⟨t, hsucceeds.append _, ht⟩
      · cases hnone.symm.trans hl
  | @decides findings seen l f he hf habout hfinds harmed hbefore hafter =>
    have hl := Findings.find?_of_mem habout hf
    have hsynced := hsound.synced id l hl
    obtain ⟨t, hsucceeds, k, armedAt, lastModifyTime, ht⟩ := h.armed l hl
    have hid : t.id = id := by
      rw [← hsound.ids id l hl, ht]
      rfl
    subst hid
    rw [hbefore, List.append_nil] at hcalls
    refine ⟨htaken, ⟨new ++ (f.firing? l).toList, ?_, fun action firing hm => ?_⟩,
      fun l' hl' => ?_⟩
    · rw [firingsOf_append, firingsOf_singleton, he, hafter, hcalls]
      exact congrArg (· ++ _) (List.append_nil _) |>.trans (List.append_assoc _ _ _)
    · rcases List.mem_append.1 hm with hm | hm
      · exact hnew' action firing hm
      · have hfiring := Option.mem_toList.1 hm
        obtain ⟨haction, hpaths⟩ := Reached.call_of_finds hsynced ht hfinds hfiring
        exact ⟨t, hsucceeds.append _, haction, k, hpaths⟩
    · obtain ⟨armedAt', lastModifyTime', ht'⟩ :=
        Reached.window_of_finds hsynced ht hfinds (harmed.symm.trans hl')
      exact ⟨t, hsucceeds.append _, _, armedAt', lastModifyTime', ht'⟩

end System.Replaced

/-! ## Whole runs -/

section Started

variable {config : Config} {store : Store} {clock : Instant} {engine : Engine} {m : Moment}

/-- **What is called after a change.** At any moment at most one call for a trigger has been decided
and is still to come. After the trigger has been removed nothing else is called. After it has been
replaced, everything else that is called is the action of the new one, or of one that has replaced
it in turn, with the paths of one of its windows. -/
theorem Run.calls_after_change (h : Engine.start config store clock = .ok engine)
    (hr : Run (.ofEngine engine) history s') (hm : history = past ++ m :: rest) (id : Uuid) :
    (m.state.remaining id).length ≤ 1 ∧
    (m.event = .removed id (.ok ()) →
      firingsOf id rest ++ s'.remaining id = m.state.remaining id) ∧
    ∀ t t', m.event = .updated t (.ok t') → t.id = id →
      ∃ new, firingsOf id rest ++ s'.remaining id = m.state.remaining id ++ new ∧
        ∀ action firing, (action, firing) ∈ new → ∃ t₁,
          (t₁ = t' ∨ ∃ m' ∈ rest, ∃ t, m'.event = .updated t (.ok t₁) ∧ t.id = id) ∧
          action = t₁.action ∧ ∃ k, t₁.pathsAfter k = .ok firing.paths := by
  subst hm
  obtain ⟨hpast, s₁, hstep, hrest⟩ := hr.split
  have hsound := System.Sound.of_run h hpast
  refine ⟨hpast.length_remaining rfl id, fun he => ?_, fun t t' he hid => ?_⟩
  · rw [he] at hstep
    have hgone := System.Gone.of_removed hstep hsound
    rw [hrest.firingsOf_of_gone hgone]
    exact hstep.remaining_eq rfl id
  · subst hid
    have hsteps := hpast.snoc hstep
    rw [he] at hstep
    have hreplaced : s'.Replaced t.id t' (m.state.remaining t.id) rest := by
      refine hrest.invariant (P := fun after s => s.Replaced t.id t' _ after)
        (.of_updated hstep hsound) ?_
      intro after s₂ e s₃ hafter ih hs
      exact ih.step (System.Sound.of_run h (hsteps.append hafter)) hs
    exact hreplaced.calls

end Started

namespace Sample

/-- Both triggers have been decided on, and the first one is being called. -/
def calling : List Moment × System :=
  (System.ofEngine engine).play (decision ++ [.fire])

/-- The call of the first trigger has come to its end, and the second one is called. -/
def callSecond : List Move :=
  [.settle (.ok ()), .fire]

/-- The second trigger is removed. -/
def removal : Moment × System :=
  (⟨calling.2, .removed second (.ok ())⟩,
    { calling.2 with engine := (calling.2.engine.remove second).2 })

theorem step_removal : Step removal.1.state removal.1.event removal.2 := by
  have hresult : (calling.2.engine.remove second).1 = .ok () :=
    eq_ok_of_toOption (by decide +kernel)
  unfold removal
  rw [← hresult]
  exact .remove second

theorem run_removal : Run (.ofEngine engine)
    (calling.1 ++ removal.1 :: (removal.2.play callSecond).1) (removal.2.play callSecond).2 :=
  .append (.of_play _ _) (.append (.single step_removal) (.of_play _ _))

/-- Takes the place of the second trigger, with another action. -/
def notice : Trigger :=
  { replacement with action := .webhook "http://localhost/notice" }

/-- The second trigger is replaced. -/
def change : Moment × System :=
  (⟨calling.2, .updated notice (.ok notice)⟩,
    { calling.2 with engine := (calling.2.engine.update notice).2 })

theorem step_change : Step change.1.state change.1.event change.2 := by
  have hresult : (calling.2.engine.update notice).1 = .ok notice :=
    eq_ok_of_toOption (by decide +kernel)
  unfold change
  rw [← hresult]
  exact .update notice

theorem run_change : Run (.ofEngine engine)
    (calling.1 ++ change.1 :: (change.2.play callSecond).1) (change.2.play callSecond).2 :=
  .append (.of_play _ _) (.append (.single step_change) (.of_play _ _))

end Sample

/-- The trigger that is removed while another one is called is called once more. -/
theorem Run.calls_after_change_removal :
    firingsOf Sample.second (Sample.removal.2.play Sample.callSecond).1 =
        Sample.calling.2.remaining Sample.second ∧
      ((firingsOf Sample.second (Sample.removal.2.play Sample.callSecond).1).map
        (·.2.paths)) = [["/in/1"]] := by
  have hcalls := (Run.calls_after_change Sample.start Sample.run_removal rfl Sample.second).2.1 rfl
  have hnone : (Sample.removal.2.play Sample.callSecond).2.remaining Sample.second = [] := by
    decide +kernel
  rw [hnone, List.append_nil] at hcalls
  exact ⟨hcalls, by decide +kernel⟩

/-- **A call that has been decided is made** even if its trigger has meanwhile been removed, and
with the former action even if it has been replaced. -/
theorem Run.called_after_change :
    (¬ ∀ (config : Config) (store : Store) (clock : Instant) (engine : Engine)
      (history past rest : List Moment) (s' : System) (m : Moment) (id : Uuid),
      Engine.start config store clock = .ok engine → Run (.ofEngine engine) history s' →
      history = past ++ m :: rest → m.event = .removed id (.ok ()) →
      (∀ n ∈ rest, n.state.engine.store.find? id = none) → firingsOf id rest = []) ∧
    ¬ ∀ (config : Config) (store : Store) (clock : Instant) (engine : Engine)
      (history past rest : List Moment) (s' : System) (m : Moment) (t t' t₀ : Trigger),
      Engine.start config store clock = .ok engine → Run (.ofEngine engine) history s' →
      history = past ++ m :: rest → m.event = .updated t (.ok t') →
      m.state.engine.store.find? t.id = some t₀ →
      (∀ n ∈ rest, n.event.replaced? ≠ some t.id) → t₀.action ≠ t'.action →
      ∀ call ∈ firingsOf t.id rest, call.1 ≠ t₀.action := by
  constructor
  · intro hquiet
    have hnone := hquiet _ _ _ _ _ _ _ _ _ Sample.second Sample.start Sample.run_removal rfl rfl
      (by decide +kernel)
    have hcalled : (firingsOf Sample.second
        (Sample.removal.2.play Sample.callSecond).1).length = 1 := by decide +kernel
    rw [hnone] at hcalled
    cases hcalled
  · intro hother
    have hstored : Sample.calling.2.engine.store.find? Sample.notice.id =
        some { Sample.engine.triggerOf Sample.single Config.standard.defaultTimeToExpire with
          id := Sample.second } := by decide +kernel
    have hcalled : ∃ call ∈ firingsOf Sample.second (Sample.change.2.play Sample.callSecond).1,
        call.1 = .executeFlow 7 "load" := by decide +kernel
    obtain ⟨call, hmem, hcall⟩ := hcalled
    exact hother _ _ _ _ _ _ _ _ _ _ _ _ Sample.start Sample.run_change rfl rfl hstored
      (by decide +kernel) (by decide +kernel) call hmem hcall

end Lookout
