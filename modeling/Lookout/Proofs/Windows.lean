import Lookout.Proofs.Steps

/-!
# One window after the other

The calls of the action of one trigger, over a whole run in which it is not replaced: the `k`-th
call is for the `k`-th window, a trigger that fires once is called at most once, and one that was
found to have expired is not called any more (`Run.fired_in_windows`).

A call is decided some time before it is made. So the calls that have been made are counted together
with those that are still to come (`System.remaining`): a cycle adds the call of its finding, and
the trigger goes on to its next window at the same time. All other steps leave the count alone
(`Step.progress`).
-/

namespace Lookout

/-- The paths of a trigger `k` windows later. -/
def Trigger.pathsAfter (t : Trigger) (k : Nat) : Except PatternError (List String) :=
  t.patterns.mapM (·.resolve (VariableSet.advance^[k] t.vars))

/-- The calls of the action of a trigger, in their order. -/
def firingsOf (id : Uuid) (history : List Moment) : List (Action × Firing) :=
  history.filterMap fun m => Firing.concerning id m.event.firing?

/-- The calls for a trigger that are still to come in the cycle under way. -/
def System.remaining (s : System) (id : Uuid) : List (Action × Firing) :=
  Followup.firingsOf id (if s.called then s.followups.tail else s.followups)

theorem System.remaining_of_called {s : System} (h : s.called = true) (id : Uuid) :
    s.remaining id = Followup.firingsOf id s.followups.tail := by
  unfold remaining
  rw [if_pos h]

theorem System.remaining_of_not_called {s : System} (h : s.called = false) (id : Uuid) :
    s.remaining id = Followup.firingsOf id s.followups := by
  unfold remaining
  rw [h, if_neg Bool.false_ne_true]

theorem firingsOf_append (id : Uuid) (past rest : List Moment) :
    firingsOf id (past ++ rest) = firingsOf id past ++ firingsOf id rest :=
  List.filterMap_append

theorem firingsOf_singleton (id : Uuid) (m : Moment) :
    firingsOf id [m] = (Firing.concerning id m.event.firing?).toList := by
  unfold firingsOf
  rw [List.filterMap_cons]
  cases Firing.concerning id m.event.firing? <;> rfl

/-! ## What a step means for one trigger -/

/-- What a step means for a trigger whose identifier is not fresh: it stays armed as it is or is
disarmed, and its calls are made as they come; or a cycle decides about it. -/
inductive Progress (id : Uuid) (s : System) (e : Event) (s' : System) : Prop
  | keeps
      (harmed : s'.engine.armed.find? id = s.engine.armed.find? id ∨
        s'.engine.armed.find? id = none)
      (hcalls : (Firing.concerning id e.firing?).toList ++ s'.remaining id = s.remaining id)
  | decides {findings : Findings} {seen : List Sighting} {l : Lifecycle} {f : Finding}
      (he : e = .decided findings seen) (hf : ((id, l), f) ∈ findings)
      (habout : findings.About s.engine.armed)
      (hfinds : l.Finds id s.engine.clock f)
      (harmed : s'.engine.armed.find? id = f.next? l)
      (hbefore : s.remaining id = []) (hafter : s'.remaining id = (f.firing? l).toList)

theorem Progress.of_decide {id : Uuid} {s : System} {findings : Findings} {seen : List Sighting}
    {scheduler : Scheduler} (hnone : s.followups = [])
    (hs : s.engine.Decides findings seen scheduler) :
    Progress id s (.decided findings seen)
      { s with
        engine := s.engine.conclude findings scheduler
        followups := findings.followups
        called := false } := by
  have habout := hs.about
  have hbefore : s.remaining id = [] := by
    unfold System.remaining
    rw [hnone]
    cases s.called <;> rfl
  cases hl : s.engine.armed.find? id with
  | some l =>
    obtain ⟨f, hf⟩ := Findings.exists_mem habout hl
    exact .decides rfl hf habout (hs.finds hf) (Findings.find?_applyTo habout hf) hbefore
      (Findings.firingsOf_followups habout (fun _ _ _ _ _ => hs.triggerId_eq) hf)
  | none =>
    refine .keeps (.inr (Findings.find?_applyTo_of_none habout hl)) ?_
    rw [hbefore]
    refine Followup.firingsOf_eq_nil fun fo hfo a firing ha heq => ?_
    obtain ⟨id', l, f, hf, ha⟩ := Findings.exists_of_firing? hfo ha
    have hl' := Findings.find?_of_mem habout hf
    rw [← hs.triggerId_eq hf ha, heq, hl] at hl'
    cases hl'

private theorem remaining_of_idle {id : Uuid} {s s' : System} {e : Event} (hf : e.firing? = none)
    (hfollowups : s'.followups = s.followups) (hcalled : s'.called = s.called) :
    (Firing.concerning id e.firing?).toList ++ s'.remaining id = s.remaining id := by
  unfold System.remaining
  rw [hf, hfollowups, hcalled]
  rfl

/-- A step that decides no cycle makes the calls as they come. -/
theorem Step.remaining_eq {s s' : System} {e : Event} (hs : Step s e s')
    (hd : e.isDecision = false) (id : Uuid) :
    (Firing.concerning id e.firing?).toList ++ s'.remaining id = s.remaining id := by
  cases hs.effect with
  | idle _ _ _ _ _ hfiring => exact remaining_of_idle hfiring rfl rfl
  | create => exact remaining_of_idle rfl rfl rfl
  | update => exact remaining_of_idle rfl rfl rfl
  | remove => exact remaining_of_idle rfl rfl rfl
  | decide => cases hd
  | @fire f rest action firing hf hc ha =>
    rw [System.remaining_of_called rfl, System.remaining_of_not_called hc, hf,
      Followup.firingsOf_cons, ha]
    rfl
  | @settle f rest outcome hf hc =>
    rw [System.remaining_of_not_called rfl]
    -- The call of the follow-up has been made, or there is none.
    cases ha : f.firing? with
    | some call =>
      rw [ha] at hc
      rw [System.remaining_of_called hc, hf]
      rfl
    | none =>
      rw [ha] at hc
      rw [System.remaining_of_not_called hc, hf, Followup.firingsOf_cons, ha]
      rfl
  | beginPoll => exact remaining_of_idle rfl rfl rfl
  | answer => exact remaining_of_idle rfl rfl rfl

/-- Each step means one of these, unless it replaces the trigger. -/
theorem Step.progress {id : Uuid} {s s' : System} {e : Event} (hs : Step s e s')
    (hid : id ∈ s.taken) (hu : e.replaced? ≠ some id) :
    Progress id s e s' := by
  have hcalls := fun hd => hs.remaining_eq hd id
  cases hs.effect with
  | idle _ _ _ _ hdecision _ => exact .keeps (.inl rfl) (hcalls hdecision)
  | @create fresh r d l hfresh _ =>
    have hne : id ≠ fresh := fun he => hfresh (he ▸ hid)
    exact .keeps (.inl (IdMap.find?_insert_of_ne _ _ hne)) (hcalls rfl)
  | @update t l _ _ =>
    have hne : id ≠ t.id := fun he => hu (he ▸ rfl)
    exact .keeps (.inl (IdMap.find?_insert_of_ne _ _ hne)) (hcalls rfl)
  | @remove j =>
    refine .keeps ?_ (hcalls rfl)
    dsimp only
    rw [IdMap.find?_erase]
    split
    · exact .inr rfl
    · exact .inl rfl
  | decide hnone hdecides => exact .of_decide hnone hdecides
  | fire => exact .keeps (.inl rfl) (hcalls rfl)
  | @settle f =>
    obtain ⟨store, he⟩ := s.engine.settle_eq f
    refine .keeps (.inl ?_) (hcalls rfl)
    rw [he]
  | beginPoll => exact .keeps (.inl rfl) (hcalls rfl)
  | answer a =>
    refine .keeps (.inl ?_) (hcalls rfl)
    rcases a with _ | _ | _ <;> rfl

theorem Step.mem_taken {s s' : System} {e : Event} {id : Uuid} (hs : Step s e s')
    (hid : id ∈ s.taken) : id ∈ s'.taken := by
  cases hs.effect with
  | idle _ _ _ htaken _ _ => exact htaken id hid
  | create => exact List.mem_cons_of_mem _ hid
  | update => exact hid
  | remove => exact hid
  | decide => exact hid
  | fire => exact hid
  | settle => exact hid
  | beginPoll => exact hid
  | answer => exact hid

/-! ## Triggers that are done -/

/-- The trigger is not armed, and no call for it is to come. -/
structure System.Finished (s : System) (id : Uuid) : Prop where
  taken : id ∈ s.taken
  disarmed : s.engine.armed.find? id = none
  remaining : s.remaining id = []

/-- A cycle has found that the trigger has expired. -/
theorem System.Finished.of_expired {s s' : System} {findings : Findings} {seen : List Sighting}
    {id : Uuid} {l : Lifecycle} (hs : Step s (.decided findings seen) s') (hid : id ∈ s.taken)
    (hf : ((id, l), .retires none) ∈ findings) : s'.Finished id := by
  have htaken := hs.mem_taken hid
  cases hs with
  | decide _ hdecides =>
    exact ⟨htaken, Findings.find?_applyTo hdecides.about hf,
      Findings.firingsOf_followups hdecides.about (fun _ _ _ _ _ => hdecides.triggerId_eq) hf⟩

theorem System.Finished.step {s s' : System} {e : Event} {id : Uuid} (h : s.Finished id)
    (hs : Step s e s') (hu : e.replaced? ≠ some id) :
    s'.Finished id ∧ Firing.concerning id e.firing? = none := by
  cases hs.progress h.taken hu with
  | keeps harmed hcalls =>
    rw [h.remaining, List.append_eq_nil_iff] at hcalls
    obtain ⟨he, hremaining⟩ := hcalls
    refine ⟨⟨hs.mem_taken h.taken, ?_, hremaining⟩, Option.toList_eq_nil_iff.1 he⟩
    rw [h.disarmed] at harmed
    exact harmed.elim (fun h => h) (fun h => h)
  | decides _ hf habout =>
    have hl := Findings.find?_of_mem habout hf
    rw [h.disarmed] at hl
    cases hl

/-- A trigger that is done is not called any more, unless it is replaced. -/
theorem Run.firingsOf_eq_nil {s₀ s : System} {history : List Moment} {id : Uuid}
    (hr : Run s₀ history s) (h : s₀.Finished id)
    (hu : ∀ m ∈ history, m.event.replaced? ≠ some id) :
    firingsOf id history = [] := by
  have hboth : s.Finished id ∧ firingsOf id history = [] := by
    refine hr.invariant (P := fun past s =>
      (∀ m ∈ past, m.event.replaced? ≠ some id) →
        s.Finished id ∧ firingsOf id past = []) (fun _ => ⟨h, rfl⟩) ?_ hu
    intro past s e s' _ ih hstep hpast
    obtain ⟨hs, hnil⟩ := ih fun m hm => hpast m (List.mem_append_left _ hm)
    obtain ⟨hs', he⟩ := hs.step hstep
      (hpast ⟨s, e⟩ (List.mem_append_right _ List.mem_cons_self))
    refine ⟨hs', ?_⟩
    rw [firingsOf_append, hnil, firingsOf_singleton, he]
    rfl
  exact hboth.2

/-! ## Triggers that go on -/

/-- How far a trigger has come that was created as `t`: the calls that have been made and those that
are to come are for its windows, and if it is armed, then for the window after these. -/
structure System.Reached (s : System) (t : Trigger) (history : List Moment) : Prop where
  taken : t.id ∈ s.taken
  calls : ∀ k action firing,
    (firingsOf t.id history ++ s.remaining t.id)[k]? = some (action, firing) →
      action = t.action ∧ t.pathsAfter k = .ok firing.paths
  armed : ∀ l, s.engine.armed.find? t.id = some l → ∃ armedAt lastModifyTime,
    l.trigger = t.windowAfter (firingsOf t.id history ++ s.remaining t.id).length armedAt
      lastModifyTime
  once : t.recurrence = .once → (firingsOf t.id history ++ s.remaining t.id).length ≤ 1 ∧
    ∀ l, s.engine.armed.find? t.id = some l → firingsOf t.id history ++ s.remaining t.id = []

namespace System.Reached

variable {s s' : System} {e : Event} {t : Trigger} {history : List Moment}

/-- A trigger that has just been created. -/
theorem of_created {l : Lifecycle} (htaken : t.id ∈ s.taken)
    (hl : s.engine.armed.find? t.id = some l) (ht : l.trigger = t)
    (hcalls : firingsOf t.id history ++ s.remaining t.id = []) : s.Reached t history := by
  refine ⟨htaken, fun k action firing hk => ?_, fun l' hl' => ?_, fun _ => ⟨?_, fun _ _ => hcalls⟩⟩
  · rw [hcalls] at hk
    cases hk
  · cases hl.symm.trans hl'
    rw [hcalls]
    exact ⟨t.armedAt, t.lastModifyTime, ht⟩
  · rw [hcalls]
    exact Nat.zero_le 1

/-- Calls are made as they come. -/
private theorem of_keeps (h : s.Reached t history) (htaken : t.id ∈ s'.taken)
    (harmed : s'.engine.armed.find? t.id = s.engine.armed.find? t.id ∨
      s'.engine.armed.find? t.id = none)
    (hcalls : (Firing.concerning t.id e.firing?).toList ++ s'.remaining t.id = s.remaining t.id) :
    s'.Reached t (history ++ [⟨s, e⟩]) := by
  have hsame : firingsOf t.id (history ++ [⟨s, e⟩]) ++ s'.remaining t.id =
      firingsOf t.id history ++ s.remaining t.id := by
    rw [firingsOf_append, firingsOf_singleton, List.append_assoc, hcalls]
  have hstill : ∀ l, s'.engine.armed.find? t.id = some l → s.engine.armed.find? t.id = some l := by
    intro l hl
    rcases harmed with heq | hnone
    · exact heq.symm.trans hl
    · cases hnone.symm.trans hl
  refine ⟨htaken, ?_, ?_, ?_⟩ <;> rw [hsame]
  · exact h.calls
  · exact fun l hl => h.armed l (hstill l hl)
  · exact fun ho => ⟨(h.once ho).1, fun l hl => (h.once ho).2 l (hstill l hl)⟩

/-- The call that follows a finding is for the window that the trigger was in. -/
theorem call_of_finds {l : Lifecycle} {f : Finding} {now : Instant} {k : Nat}
    {armedAt lastModifyTime : Instant} (hsynced : l.Synced)
    (hl : l.trigger = t.windowAfter k armedAt lastModifyTime) (hfinds : l.Finds t.id now f)
    {action : Action} {firing : Firing} (hf : f.firing? l = some (action, firing)) :
    action = t.action ∧ t.pathsAfter k = .ok firing.paths := by
  have hpaths : t.pathsAfter k = .ok l.paths := by
    rw [← hsynced.paths, hl]
    rfl
  have haction : l.trigger.action = t.action := by
    rw [hl]
    rfl
  cases hfinds with
  | expires => cases hf
  | waits => cases hf
  | retires =>
    cases hf
    exact ⟨haction, hpaths⟩
  | advances _ _ hadvance =>
    cases hf
    refine ⟨?_, hpaths⟩
    rw [(hsynced.advance hadvance).2]
    exact haction

/-- A trigger that is armed after a finding is in the window after the calls, the one of the finding
included. -/
theorem window_of_finds {l l' : Lifecycle} {f : Finding} {now : Instant} {k : Nat}
    {armedAt lastModifyTime : Instant} (hsynced : l.Synced)
    (hl : l.trigger = t.windowAfter k armedAt lastModifyTime) (hfinds : l.Finds t.id now f)
    (hnext : f.next? l = some l') : ∃ armedAt lastModifyTime,
      l'.trigger = t.windowAfter (k + (f.firing? l).toList.length) armedAt lastModifyTime := by
  cases hfinds with
  | expires => cases hnext
  | waits =>
    cases hnext
    exact ⟨armedAt, lastModifyTime, hl⟩
  | retires => cases hnext
  | advances _ _ hadvance =>
    cases hnext
    refine ⟨now, now, ?_⟩
    have hlength : (Finding.firing? l (.advances l' (l.firing t.id now))).toList.length = 1 := rfl
    rw [hlength, (hsynced.advance hadvance).2, hl]
    unfold Trigger.windowAfter
    rw [Function.iterate_succ_apply']
    rfl

/-- A cycle decides about the trigger: it adds the call of its finding. -/
private theorem of_decides (h : s.Reached t history) (hsound : s.Sound) (htaken : t.id ∈ s'.taken)
    {l : Lifecycle} {f : Finding} (hl : s.engine.armed.find? t.id = some l)
    (hfinds : l.Finds t.id s.engine.clock f) (he : Firing.concerning t.id e.firing? = none)
    (harmed : s'.engine.armed.find? t.id = f.next? l) (hbefore : s.remaining t.id = [])
    (hafter : s'.remaining t.id = (f.firing? l).toList) : s'.Reached t (history ++ [⟨s, e⟩]) := by
  have hsynced := hsound.synced t.id l hl
  obtain ⟨-, hcalls, hwindow, honce⟩ := h
  rw [hbefore, List.append_nil] at hcalls hwindow honce
  obtain ⟨armedAt, lastModifyTime, hlt⟩ := hwindow l hl
  have hmore : firingsOf t.id (history ++ [⟨s, e⟩]) ++ s'.remaining t.id =
      firingsOf t.id history ++ (f.firing? l).toList := by
    rw [firingsOf_append, firingsOf_singleton, he, hafter]
    exact congrArg (· ++ _) (List.append_nil _)
  refine ⟨htaken, ?_, ?_, ?_⟩ <;> rw [hmore]
  · intro k action firing hk
    rw [List.getElem?_append] at hk
    split at hk
    · exact hcalls k action firing hk
    · rename_i hle
      cases hf : f.firing? l with
      | none =>
        rw [hf] at hk
        cases hk
      | some call =>
        rw [hf, Option.toList_some, List.getElem?_singleton] at hk
        split at hk
        · cases hk
          have heq : k = (firingsOf t.id history).length := by omega
          exact heq ▸ call_of_finds hsynced hlt hfinds hf
        · cases hk
  · intro l' hl'
    rw [List.length_append]
    exact window_of_finds hsynced hlt hfinds (harmed.symm.trans hl')
  · intro ho
    rw [(honce ho).2 l hl, List.nil_append]
    refine ⟨by cases f.firing? l <;> simp, fun l' hl' => ?_⟩
    -- A trigger that fires once and is still armed goes on waiting.
    have hnext := harmed.symm.trans hl'
    cases hfinds with
    | expires => cases hnext
    | waits => rfl
    | retires => cases hnext
    | advances _ hrecurring _ =>
      rw [hlt] at hrecurring
      cases ho.symm.trans hrecurring

/-- **Each step keeps the count**, unless it replaces the trigger. -/
theorem step (h : s.Reached t history) (hsound : s.Sound) (hs : Step s e s')
    (hu : e.replaced? ≠ some t.id) :
    s'.Reached t (history ++ [⟨s, e⟩]) := by
  have htaken := hs.mem_taken h.taken
  cases hs.progress h.taken hu with
  | keeps harmed hcalls => exact of_keeps h htaken harmed hcalls
  | decides he hf habout hfinds harmed hbefore hafter =>
    refine of_decides h hsound htaken (Findings.find?_of_mem habout hf) hfinds ?_ harmed hbefore
      hafter
    rw [he]
    rfl

end System.Reached

/-! ## Whole runs -/

/-- An action is called only for identifiers that are not fresh. -/
theorem Run.firing_taken {config : Config} {store : Store} {clock : Instant} {engine : Engine}
    {history : List Moment} {s : System} (h : Engine.start config store clock = .ok engine)
    (hr : Run (.ofEngine engine) history s) {m : Moment} (hm : m ∈ history) {action : Action}
    {firing : Firing} (hf : m.event.firing? = some (action, firing)) :
    firing.triggerId ∈ s.taken := by
  refine hr.invariant (P := fun past s => ∀ m ∈ past, ∀ action firing,
    m.event.firing? = some (action, firing) → firing.triggerId ∈ s.taken)
    (fun m hm => absurd hm List.not_mem_nil) ?_ m hm action firing hf
  intro past s e s' hpast ih hstep m hm action firing hf
  refine hstep.mem_taken ?_
  rcases List.mem_append.1 hm with hm | hm
  · exact ih m hm action firing hf
  · cases List.mem_singleton.1 hm
    have hsound := System.Sound.of_run h hpast
    cases hstep with
    | fire hfollowups _ ha =>
      cases hf
      refine hsound.firing _ ?_ action firing ha
      rw [hfollowups]
      exact List.mem_cons_self
    | _ => cases hf

/-- A trigger that has been created is armed under an identifier that was fresh; nothing else is
armed or about to be called under it. -/
theorem Step.created {s s' : System} {fresh : Uuid} {r : CreateRequest} {t : Trigger}
    (hs : Step s (.created fresh r (.ok t)) s') :
    t.id = fresh ∧ fresh ∉ s.taken ∧ fresh ∈ s'.taken ∧
      (∃ l, s'.engine.armed.find? fresh = some l ∧ l.trigger = t) ∧
      s'.remaining fresh = s.remaining fresh := by
  obtain ⟨hfresh, ht, rfl⟩ := hs.created_inv
  rcases s.engine.create_cases fresh r with ⟨err, engine, hc, -⟩ | ⟨d, l, -, hc⟩
  · rw [hc] at ht
    cases ht
  · rw [hc] at ht ⊢
    cases ht
    exact ⟨rfl, hfresh, List.mem_cons_self, ⟨_, IdMap.find?_insert_self _ _ _, rfl⟩, rfl⟩

/-- A trigger that has been created is the one of its request. -/
theorem Step.created_eq {s s' : System} {fresh : Uuid} {r : CreateRequest} {t : Trigger}
    (hs : Step s (.created fresh r (.ok t)) s') :
    ∃ d, s.engine.timeToExpire r = .ok d ∧ t = { s.engine.triggerOf r d with id := fresh } :=
  Engine.create_ok hs.created_inv.2.1

/-- Nothing has been called, or is to be called, under a fresh identifier. -/
theorem Run.firingsOf_fresh {config : Config} {store : Store} {clock : Instant} {engine : Engine}
    {history : List Moment} {s : System} {id : Uuid}
    (h : Engine.start config store clock = .ok engine) (hr : Run (.ofEngine engine) history s)
    (hid : id ∉ s.taken) : firingsOf id history = [] ∧ s.remaining id = [] := by
  constructor
  · refine List.filterMap_eq_nil_iff.2 fun m hm => Option.eq_none_iff_forall_ne_some.2 ?_
    rintro ⟨action, firing⟩ hc
    obtain ⟨hf, rfl⟩ := Firing.concerning_eq_some.1 hc
    exact hid (hr.firing_taken h hm hf)
  · refine Followup.firingsOf_eq_nil fun f hf action firing ha heq => ?_
    have hmem : f ∈ s.followups := by
      cases hc : s.called with
      | false =>
        rw [hc] at hf
        exact hf
      | true =>
        rw [hc] at hf
        exact List.mem_of_mem_tail hf
    rw [← heq] at hid
    exact hid ((System.Sound.of_run h hr).firing f hmem action firing ha)

/-- A trigger that has been created is followed through the rest of the run. -/
theorem System.Reached.of_run {config : Config} {store : Store} {clock : Instant} {engine : Engine}
    {past rest : List Moment} {s s₁ s' : System} {fresh : Uuid} {r : CreateRequest} {t : Trigger}
    (h : Engine.start config store clock = .ok engine) (hpast : Run (.ofEngine engine) past s)
    (hcreate : Step s (.created fresh r (.ok t)) s₁) (hrest : Run s₁ rest s')
    (hu : ∀ m ∈ rest, m.event.replaced? ≠ some t.id) :
    s'.Reached t (past ++ [⟨s, .created fresh r (.ok t)⟩] ++ rest) := by
  obtain ⟨rfl, hfresh, htaken, ⟨l, hl, ht⟩, hsame⟩ := hcreate.created
  obtain ⟨hnone, hremaining⟩ := hpast.firingsOf_fresh h hfresh
  refine hrest.invariant (P := fun rest s' => (∀ m ∈ rest, m.event.replaced? ≠ some t.id) →
    s'.Reached t (past ++ [⟨s, .created t.id r (.ok t)⟩] ++ rest)) (fun _ => ?_) ?_ hu
  · refine .of_created htaken hl ht ?_
    rw [List.append_nil, firingsOf_append, firingsOf_singleton, hnone, hsame, hremaining]
    rfl
  · intro after s₂ e s₃ hafter ih hstep hu
    have hreached := ih fun m hm => hu m (List.mem_append_left _ hm)
    have hsound := System.Sound.of_run h ((hpast.snoc hcreate).append hafter)
    rw [← List.append_assoc]
    exact hreached.step hsound hstep (hu ⟨s₂, e⟩ (List.mem_append_right _ List.mem_cons_self))

/-- **No window is skipped and none is fired twice.** In a run in which a created trigger is not
replaced, the `k`-th call for it is its action with the paths `k` windows after the first one. If it
fires once, there is at most one call. After a cycle has found that it has expired, there is
none. -/
theorem Run.fired_in_windows {config : Config} {store : Store} {clock : Instant} {engine : Engine}
    {history past rest : List Moment} {s s' : System} {fresh : Uuid} {r : CreateRequest}
    {t : Trigger} (h : Engine.start config store clock = .ok engine)
    (hr : Run (.ofEngine engine) history s')
    (hcreated : history = past ++ ⟨s, .created fresh r (.ok t)⟩ :: rest)
    (hu : ∀ m ∈ rest, m.event.replaced? ≠ some t.id) :
    (∀ k action firing, (firingsOf t.id history)[k]? = some (action, firing) →
      action = t.action ∧
        t.patterns.mapM (·.resolve (VariableSet.advance^[k] t.vars)) = .ok firing.paths) ∧
    (t.recurrence = .once → (firingsOf t.id history).length ≤ 1) ∧
    ∀ before m after findings seen l, rest = before ++ m :: after →
      m.event = .decided findings seen → ((t.id, l), .retires none) ∈ findings →
        firingsOf t.id after = [] := by
  subst hcreated
  obtain ⟨hpast, s₁, hcreate, hrest⟩ := hr.split
  have hend := System.Reached.of_run h hpast hcreate hrest hu
  rw [List.append_assoc, List.singleton_append] at hend
  refine ⟨fun k action firing hk => ?_, fun ho => ?_, ?_⟩
  · refine hend.calls k action firing ?_
    rw [List.getElem?_append_left (List.getElem?_eq_some_iff.1 hk).1]
    exact hk
  · have hle := (hend.once ho).1
    rw [List.length_append] at hle
    exact Nat.le_trans (Nat.le_add_right _ _) hle
  · rintro before m after findings seen l rfl hm hf
    obtain ⟨hbefore, s₂, hstep, hafter⟩ := hrest.split
    have htaken := (System.Reached.of_run h hpast hcreate hbefore
      fun m hm => hu m (List.mem_append_left _ hm)).taken
    rw [hm] at hstep
    exact hafter.firingsOf_eq_nil (.of_expired hstep htaken hf)
      fun m hm => hu m (List.mem_append_right _ (List.mem_cons_of_mem _ hm))

namespace Sample

/-- The first trigger. -/
def created : Trigger :=
  { engine.triggerOf daily Config.standard.defaultTimeToExpire with id := first }

/-- The moment in which it is created, and the state after it. -/
def creation : Moment × System :=
  (⟨.ofEngine engine, .created first daily (.ok created)⟩,
    { engine := (engine.create first daily).2, taken := [first] })

theorem step_creation : Step creation.1.state creation.1.event creation.2 :=
  .create daily (by decide +kernel)

/-- It fires in its first window and in its second one. -/
def twice : List Moment :=
  creation.1 :: (creation.2.play [.create second single, .decide, .beginPoll, .answer (.ok true),
    .decide, .fire, .settle (.ok ()), .fire, .settle (.ok ()), .decide, .beginPoll,
    .answer (.ok true), .decide, .fire]).1

end Sample

/-- Two calls, for one day after the other. -/
theorem Run.fired_in_windows_twice :
    (firingsOf Sample.first Sample.twice).map (·.2.paths) = [["/in/1"], ["/in/2"]] ∧
      ∀ k action firing, (firingsOf Sample.first Sample.twice)[k]? = some (action, firing) →
        action = Sample.created.action ∧ Sample.created.patterns.mapM
          (·.resolve (VariableSet.advance^[k] Sample.created.vars)) = .ok firing.paths := by
  have hr : Run (.ofEngine Sample.engine) Sample.twice _ :=
    (Run.single Sample.step_creation).append (.of_play _ _)
  have hcreated : Sample.twice = [] ++ Sample.creation.1 :: Sample.twice.tail := rfl
  exact ⟨by decide +kernel,
    (Run.fired_in_windows Sample.start hr hcreated (by decide +kernel)).1⟩

end Lookout
