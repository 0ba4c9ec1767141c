import Lookout.Proofs.References
import Lookout.Proofs.Steps
import Lookout.Proofs.Validation
import Mathlib.Data.String.Basic

/-!
# Changing a trigger from the command line

The command looks for the trigger that is meant, fetches it, edits it, and sends all of it back.

- **Edits** (`Change.apply_eq`): a change is one record with other fields (`Change.edit`), if its
  period can be read.
- **Replacements** (`Engine.update_eq_ok_iff`, `Engine.update_replaced`): when the engine takes what
  is sent, and which triggers it has then.
- **References** (`findArgument_run`, `findArgument_refused`): one identifier is meant, or the
  command fails.
- **The command** (`Invocation.update_changes_asked`): the trigger is the one that was armed, apart
  from the edits. A command that fails leaves all triggers alone.
-/

namespace Lookout

open Http

namespace Command

/-! ## Edits -/

namespace Change

/-- The time to expire after a change: the one that is given, if it is one. -/
def expiry (c : Change) (t : Trigger) : Except PeriodError Duration :=
  match c.expire with
  | some text => Duration.ofPeriod text
  | none => .ok t.timeToExpire

/-- A trigger after a change to this time to expire: the patterns are others if any are given, and
the flow is another if one is given, in an action that launches a flow as well. -/
def edit (c : Change) (t : Trigger) (timeToExpire : Duration) : Trigger :=
  { t with
    patterns := if c.patterns = [] then t.patterns else c.patterns
    timeToExpire
    flowName := c.flowName.getD t.flowName
    action := match t.action with
      | .executeFlow projectId flowName => .executeFlow projectId (c.flowName.getD flowName)
      | .webhook url => .webhook url }

/-- The time to expire of a trigger that was read, or that a period tells, is a whole number of
seconds. -/
theorem nanos_of_expiry {c : Change} {t : Trigger} {d : Duration}
    (h : c.expiry t.withWholeSecs = .ok d) : d.nanos = 0 := by
  unfold expiry at h
  split at h
  · exact Duration.nanos_of_ofPeriod h
  · cases h
    rfl

theorem apply_eq (c : Change) (t : Trigger) : c.apply t = (c.expiry t).map (c.edit t) := by
  have hflow : ∀ t : Trigger, changeFlow (changePatterns t c.patterns) c.flowName =
      c.edit t t.timeToExpire := by
    obtain ⟨patterns, expire, flowName⟩ := c
    rintro ⟨_, _, _, _, _, _, action⟩
    cases patterns <;> cases flowName <;> cases action <;> rfl
  have hpatterns : ∀ d, { changePatterns t c.patterns with timeToExpire := d } =
      changePatterns { t with timeToExpire := d } c.patterns := by
    intro d
    cases c.patterns <;> rfl
  unfold apply changeExpiry expiry
  cases c.expire with
  | none =>
    show Except.ok (changeFlow (changePatterns t c.patterns) c.flowName) = _
    rw [hflow]
    rfl
  | some text =>
    dsimp only
    cases Duration.ofPeriod text with
    | error err => rfl
    | ok d =>
      show Except.ok (changeFlow { changePatterns t c.patterns with timeToExpire := d }
        c.flowName) = _
      rw [hpatterns, hflow]
      rfl

end Change

end Command

/-! ## Replacements -/

theorem Store.update_eq_ok_iff {s : Store} {t : Trigger} :
    (s.update t).1 = .ok () ↔ s.records.contains t.id = true ∧ s.outages.update = [] := by
  unfold update attempt Outages.of
  dsimp only
  cases s.outages.update with
  | nil => cases s.records.contains t.id <;> simp
  | cons text rest => simp

namespace Engine

variable {e e' : Engine} {t : Trigger} {id : Uuid}

/-- The engine can replace a trigger by this one: its placeholders are declared, and the store has a
trigger of that identifier and is available. -/
structure Takes (e : Engine) (t : Trigger) : Prop where
  declared : ∀ p ∈ t.patterns, p.Declares t.vars
  stored : e.store.records.contains t.id = true
  available : e.store.outages.update = []

/-- The trigger of an identifier is another one, armed and stored. All others are the same. -/
structure Replaced (e e' : Engine) (id : Uuid) (t : Trigger) : Prop where
  armed : (e'.armed.find? id).map (·.trigger) = some t
  stored : e'.store.find? id = some t
  others : ∀ other, other ≠ id →
    e'.armed.find? other = e.armed.find? other ∧ e'.store.find? other = e.store.find? other

/-- Triggers are the same, armed and stored. -/
structure SameTriggers (e e' : Engine) : Prop where
  armed : e'.armed = e.armed
  stored : e'.store.records = e.store.records

theorem SameTriggers.refl (e : Engine) : e.SameTriggers e :=
  ⟨rfl, rfl⟩

theorem Idles.sameTriggers (h : e.Idles e') : e.SameTriggers e' := by
  obtain ⟨store, revisions, hs, -, rfl⟩ := h
  exact ⟨rfl, hs.records⟩

/-- When a replacement is granted. -/
theorem update_eq_ok_iff (h : e.Arms) : (∃ t', (e.update t).1 = .ok t') ↔ e.Takes t := by
  have hdeclared : (∃ keys, ({ t with
      dataSource := e.dataSource, lastModifyTime := e.clock } : Trigger).checkKeys = .ok keys) ↔
        ∀ p ∈ t.patterns, p.Declares t.vars := Trigger.exists_checkKeys_iff
  have hstore : (e.store.update { t with
      dataSource := e.dataSource, lastModifyTime := e.clock }).1 = .ok () ↔
        e.store.records.contains t.id = true ∧ e.store.outages.update = [] := Store.update_eq_ok_iff
  unfold update
  dsimp only
  rw [Trigger.validatePatterns_eq]
  dsimp only [arm]
  rw [Lifecycle.arm_eq h]
  cases hkeys : ({ t with
      dataSource := e.dataSource, lastModifyTime := e.clock } : Trigger).checkKeys with
  | error err =>
    constructor
    · rintro ⟨_, h⟩
      cases h
    · intro h
      obtain ⟨keys, hok⟩ := hdeclared.2 h.declared
      cases hkeys.symm.trans hok
  | ok keys =>
    have hall := hdeclared.1 ⟨keys, hkeys⟩
    dsimp only [Except.map]
    generalize e.store.update _ = found at hstore ⊢
    rcases found with ⟨err | _, store⟩
    · constructor
      · rintro ⟨_, h⟩
        cases h
      · intro h
        cases hstore.2 ⟨h.stored, h.available⟩
    · obtain ⟨hstored, havailable⟩ := hstore.1 rfl
      refine ⟨fun _ => ⟨hall, hstored, havailable⟩, fun _ => ?_⟩
      cases e.armed.find? t.id <;> exact ⟨_, rfl⟩

/-- A replacement takes the place of the trigger as it was sent, apart from the data source and the
time of the change. -/
theorem update_replaced {t' : Trigger} (h : (e.update t).1 = .ok t') :
    t' = { t with dataSource := e.dataSource, lastModifyTime := e.clock } ∧
      e.Replaced (e.update t).2 t.id t' := by
  rcases e.update_cases t with ⟨err, e', hu, -⟩ | ⟨l, hl, -, hu⟩ <;> rw [hu] at h ⊢ <;> cases h
  refine ⟨(Lifecycle.arm_ok hl).1, ?_, IdMap.find?_insert_self _ _ _,
    fun other hne => ⟨IdMap.find?_insert_of_ne _ _ hne, IdMap.find?_insert_of_ne _ _ hne⟩⟩
  show ((e.armed.insert t.id l).find? t.id).map _ = _
  rw [IdMap.find?_insert_self]
  rfl

theorem update_refused {err : EngineError} (h : (e.update t).1 = .error err) :
    e.SameTriggers (e.update t).2 := by
  rcases e.update_cases t with ⟨_, e', hu, hidle⟩ | ⟨l, -, -, hu⟩
  · rw [hu]
    exact hidle.sameTriggers
  · rw [hu] at h
    cases h

end Engine

/-! ## References -/

/-- A reference means an identifier: it is that identifier, or what it begins with, while of those
that are listed no other one begins like this. -/
inductive Engine.Refers (e : Engine) (reference : String) (id : Uuid) : Prop
  | whole (h : Uuid.ofText? reference = some id)
  | start (h : Uuid.ofText? reference = none) (havailable : e.store.outages.list = [])
      (hlisted : Command.Reference.startingWith (Text.lowered reference)
        ((e.store.ofSource e.dataSource).map (·.id)) = [id])

/-- A reference means at most one identifier. -/
theorem Engine.Refers.unique {e : Engine} {reference : String} {id id' : Uuid}
    (h : e.Refers reference id) (h' : e.Refers reference id') : id = id' := by
  cases h with
  | whole h =>
    cases h' with
    | whole h' => exact Option.some.inj (h.symm.trans h')
    | start h' => cases h.symm.trans h'
  | start h _ hlisted =>
    cases h' with
    | whole h' => cases h.symm.trans h'
    | start _ _ hlisted' => exact List.singleton_inj.1 (hlisted.symm.trans hlisted')

/-- Without the store nothing is listed. -/
theorem Engine.list_of_unavailable {e : Engine} (h : e.store.outages.list ≠ []) :
    ∃ err, (e.list none).1 = .error err := by
  unfold list Store.listBySource Store.attempt Outages.of
  dsimp only
  cases houtages : e.store.outages.list with
  | nil => exact absurd houtages h
  | cons text rest => exact ⟨_, rfl⟩

namespace Command

/-- The one identifier that begins with a text is picked, whatever the order of the listing. -/
theorem Reference.pick_listed_iff {ts : List Trigger} {text : String} {id : Uuid} :
    pick ((ts.mergeSort Engine.flowBefore).map (·.id)) text = .ok id ↔
      startingWith (Text.lowered text) (ts.map (·.id)) = [id] := by
  have hfound : (startingWith (Text.lowered text)
      ((ts.mergeSort Engine.flowBefore).map (·.id))).Perm
        (startingWith (Text.lowered text) (ts.map (·.id))) :=
    ((List.mergeSort_perm ts Engine.flowBefore).map _).filter _
  rw [pick_eq_ok_iff]
  exact ⟨fun h => List.perm_singleton.1 (h ▸ hfound.symm),
    fun h => List.perm_singleton.1 (h ▸ hfound)⟩

variable {e e' : Engine} {reference : String} {id : Uuid}

/-- While the store is available, the stored triggers of the data source are listed. -/
private theorem lists_stored (c : Client) (fresh : Uuid) (h : e.store.outages.list = []) :
    Lists c (Api.exchange fresh) e
      (((e.store.ofSource e.dataSource).mergeSort Engine.flowBefore).map (·.id)) e := by
  refine ⟨((e.store.ofSource e.dataSource).mergeSort Engine.flowBefore).map Trigger.summary, ?_,
    List.map_map⟩
  rw [Client.list_run, Engine.list_of_available h none]
  rfl

/-- A reference that means an identifier is read as that identifier. -/
theorem findArgument_run (c : Client) (fresh : Uuid) (h : e.Refers reference id) :
    outcome (findArgument c (Api.exchange fresh) reference) e = (.ok id, e) := by
  cases h with
  | whole h => exact findArgument_spelled h e
  | start h havailable hlisted =>
    rw [findArgument_listed h (lists_stored c fresh havailable),
      Reference.pick_listed_iff.2 hlisted]
    rfl

/-- Without an identifier that the reference means the command fails. -/
theorem findArgument_refused (c : Client) (fresh : Uuid) (h : ∀ id, ¬ e.Refers reference id) :
    ∃ failure e', outcome (findArgument c (Api.exchange fresh) reference) e = (.error failure, e') ∧
      e.SameTriggers e' := by
  cases hid : Uuid.ofText? reference with
  | some id => exact absurd (.whole hid) (h id)
  | none =>
    by_cases havailable : e.store.outages.list = []
    · rw [findArgument_listed hid (lists_stored c fresh havailable)]
      cases hpick : Reference.pick (((e.store.ofSource e.dataSource).mergeSort
        Engine.flowBefore).map (·.id)) reference with
      | ok id =>
        have hlisted := Reference.pick_listed_iff.1 hpick
        exact absurd (.start hid havailable hlisted) (h id)
      | error err => exact ⟨.reference err, e, rfl, .refl e⟩
    · obtain ⟨err, herr⟩ := Engine.list_of_unavailable havailable
      have hfailed : (c.list (Api.exchange fresh) none).run e =
          (.error (.ofEngine err), (e.list none).2) := by
        rw [Client.list_run, herr]
        rfl
      exact ⟨_, _, findArgument_unlisted hid hfailed, (e.list_idles none).sameTriggers⟩

/-! ## The command -/

/-- What the command sends to be put in the place of the trigger that the reference means. -/
structure Change.Sends (c : Change) (e : Engine) (reference : String) (id : Uuid) (t : Trigger) :
    Prop where
  refers : e.Refers reference id
  edited : ∃ l d, e.armed.find? id = some l ∧ c.expiry l.trigger.withWholeSecs = .ok d ∧
    t = c.edit l.trigger.withWholeSecs d
  size_le : t.toJson.render.utf8ByteSize ≤ Api.maxBodySize

variable {change : Change} {t : Trigger}

theorem outcome_get (c : Client) (fresh : Uuid) {l : Lifecycle}
    (hl : e.armed.find? id = some l) :
    outcome (call (c.get (Api.exchange fresh) id)) e = (.ok l.trigger.withWholeSecs, e) := by
  rw [outcome_call, Client.get_run]
  unfold Engine.get
  rw [hl]
  rfl

theorem outcome_get_of_none (c : Client) (fresh : Uuid) (hl : e.armed.find? id = none) :
    outcome (call (c.get (Api.exchange fresh) id)) e =
      (.error (.client (.ofEngine (.notFound id))), e) := by
  rw [outcome_call, Client.get_run]
  unfold Engine.get
  rw [hl]
  rfl

theorem outcome_edit (change : Change) (t : Trigger) (e : Engine) :
    outcome (ExceptT.mk (return (change.apply t).mapError .period)) e =
      (((change.expiry t).map (change.edit t)).mapError .period, e) := by
  rw [outcome_result, Change.apply_eq]

theorem Change.Sends.unique {id' : Uuid} {t' : Trigger} (h : change.Sends e reference id t)
    (h' : change.Sends e reference id' t') : id = id' ∧ t = t' := by
  obtain ⟨hrefers, ⟨l, d, hl, hd, rfl⟩, -⟩ := h
  obtain ⟨hrefers', ⟨l', d', hl', hd', rfl⟩, -⟩ := h'
  cases hrefers.unique hrefers'
  cases hl.symm.trans hl'
  cases hd.symm.trans hd'
  exact ⟨rfl, rfl⟩

/-- What the command sends is put in the place of what was fetched. -/
theorem runUpdate_run (c : Client) (fresh : Uuid) (h : change.Sends e reference id t) :
    outcome (runUpdate c (Api.exchange fresh) reference change) e =
      (((e.update { t with id }).1.mapError .ofEngine).mapError .client,
        (e.update { t with id }).2) := by
  obtain ⟨hrefers, ⟨l, d, hl, hd, rfl⟩, hsize⟩ := h
  have hedited := outcome_edit change l.trigger.withWholeSecs e
  rw [hd] at hedited
  unfold runUpdate
  rw [outcome_bind_ok (findArgument_run c fresh hrefers), outcome_bind_ok (outcome_get c fresh hl),
    outcome_bind_ok hedited, outcome_call, Client.update_run c fresh e id ?_ hsize]
  exact Change.nanos_of_expiry hd

/-- If it has nothing to send, or what it has is too large, the command fails. -/
theorem runUpdate_refused (c : Client) (fresh : Uuid)
    (h : ∀ id t, ¬ change.Sends e reference id t) :
    ∃ failure e', outcome (runUpdate c (Api.exchange fresh) reference change) e =
      (.error failure, e') ∧ e.SameTriggers e' := by
  unfold runUpdate
  by_cases hrefers : ∃ id, e.Refers reference id
  · obtain ⟨id, hrefers⟩ := hrefers
    rw [outcome_bind_ok (findArgument_run c fresh hrefers)]
    cases hl : e.armed.find? id with
    | none => exact ⟨_, e, outcome_bind_error (outcome_get_of_none c fresh hl), .refl e⟩
    | some l =>
      have hedited := outcome_edit change l.trigger.withWholeSecs e
      rw [outcome_bind_ok (outcome_get c fresh hl)]
      cases hd : change.expiry l.trigger.withWholeSecs with
      | error err =>
        rw [hd] at hedited
        exact ⟨_, e, outcome_bind_error hedited, .refl e⟩
      | ok d =>
        have hlarge : Api.maxBodySize <
            (change.edit l.trigger.withWholeSecs d).toJson.render.utf8ByteSize :=
          Nat.lt_of_not_le fun hle => h id _ ⟨hrefers, ⟨l, d, hl, hd, rfl⟩, hle⟩
        obtain ⟨err, hupdate⟩ := Client.update_run_of_too_large c fresh e id hlarge
        rw [hd] at hedited
        rw [outcome_bind_ok hedited, outcome_call, hupdate]
        exact ⟨_, e, rfl, .refl e⟩
  · obtain ⟨failure, e', hfind, hsame⟩ :=
      findArgument_refused c fresh fun id hid => hrefers ⟨id, hid⟩
    exact ⟨failure, e', outcome_bind_error hfind, hsame⟩

/-- What the command comes to: it fails and leaves the triggers alone, or the engine takes what it
sends. -/
theorem runUpdate_cases (c : Client) (fresh : Uuid) (e : Engine) (reference : String)
    (change : Change) :
    (∃ failure e', outcome (runUpdate c (Api.exchange fresh) reference change) e =
        (.error failure, e') ∧ e.SameTriggers e' ∧
        ∀ id t t', change.Sends e reference id t → (e.update { t with id }).1 ≠ .ok t') ∨
      ∃ id t t' e', change.Sends e reference id t ∧ (e.update { t with id }).1 = .ok t' ∧
        outcome (runUpdate c (Api.exchange fresh) reference change) e = (.ok t', e') ∧
        t' = { t with id, dataSource := e.dataSource, lastModifyTime := e.clock } ∧
        e.Replaced e' id t' := by
  by_cases h : ∃ id t, change.Sends e reference id t
  · obtain ⟨id, t, h⟩ := h
    have hrun := runUpdate_run c fresh h
    cases hu : (e.update { t with id }).1 with
    | ok t' =>
      obtain ⟨ht', hreplaced⟩ := Engine.update_replaced hu
      rw [hu] at hrun
      exact .inr ⟨id, t, t', _, h, hu, hrun, ht', hreplaced⟩
    | error err =>
      have hsame := Engine.update_refused hu
      rw [hu] at hrun
      refine .inl ⟨_, _, hrun, hsame, fun id' t' t'' h' hu' => ?_⟩
      obtain ⟨rfl, rfl⟩ := h.unique h'
      cases hu.symm.trans hu'
  · have hnone : ∀ id t, ¬ change.Sends e reference id t := fun id t ht => h ⟨id, t, ht⟩
    obtain ⟨failure, e', hrun, hsame⟩ := runUpdate_refused c fresh hnone
    exact .inl ⟨failure, e', hrun, hsame, fun id t t' ht => absurd ht (hnone id t)⟩

end Command

open Command in
/-- **A change from the command line changes what was asked for, and nothing else.** At any time of
a run, if no other operation comes between its requests: a command that fails leaves all triggers
alone, armed and stored. One that succeeds has found the armed trigger that is meant. It succeeds
exactly if the period that is given can be read, what is sent is not too large, and the engine can
take it. Then the trigger is the one that was armed, apart from the edits, the data source of the
engine and the time of the change, and all others are the same. -/
theorem Invocation.update_changes_asked {config : Config} {store : Store} {clock : Instant}
    {engine : Engine} (h : Engine.start config store clock = .ok engine) {history : List Moment}
    {s : System} (hr : Run (.ofEngine engine) history s) {fresh : Uuid} {address : String}
    {now : Instant} {reference : String} {change : Change}
    {out : Except Failure (List String) × Engine}
    (hrun : (Invocation.run { address, command := .update reference change } (Api.exchange fresh)
      now).run s.engine = out) :
    (∀ failure, out.1 = .error failure → s.engine.SameTriggers out.2) ∧
    (∀ lines, out.1 = .ok lines →
      ∃ id l, s.engine.Refers reference id ∧ s.engine.armed.find? id = some l) ∧
    ∀ id l, s.engine.Refers reference id → s.engine.armed.find? id = some l →
      l.trigger.timeToExpire.nanos = 0 →
        ((∃ lines, out.1 = .ok lines) ↔
          ∃ d, change.expiry l.trigger = .ok d ∧
            (change.edit l.trigger d).toJson.render.utf8ByteSize ≤ Api.maxBodySize ∧
            s.engine.Takes (change.edit l.trigger d)) ∧
        ∀ lines, out.1 = .ok lines → ∃ d t, change.expiry l.trigger = .ok d ∧
          t = { change.edit l.trigger d with
            dataSource := s.engine.dataSource, lastModifyTime := s.engine.clock } ∧
          lines = Report.updated t ∧ s.engine.Replaced out.2 id t := by
  have harms : s.engine.Arms := .of_run (.of_start h) hr
  have hids := (System.Sound.of_run h hr).ids
  rcases runUpdate_cases (.new address) fresh s.engine reference change with
    ⟨failure, e₁, hupdate, hsame, hnot⟩ | ⟨id, t, t', e₁, hsends, hu, hupdate, ht', hreplaced⟩
  · cases hrun.symm.trans (outcome_bind_error hupdate)
    refine ⟨fun _ _ => hsame, ?_, fun id l hrefers hl hnanos => ⟨⟨?_, ?_⟩, ?_⟩⟩
    · intro lines hlines
      cases hlines
    · rintro ⟨lines, hlines⟩
      cases hlines
    · rintro ⟨d, hd, hsize, htakes⟩
      obtain ⟨t', ht'⟩ := (Engine.update_eq_ok_iff harms).2 htakes
      obtain rfl := hids id l hl
      rw [← Trigger.withWholeSecs_eq_self hnanos] at hd hsize ht'
      exact absurd ht' (hnot _ _ t' ⟨hrefers, ⟨l, d, hl, hd, rfl⟩, hsize⟩)
    · intro lines hlines
      cases hlines
  · cases hrun.symm.trans (outcome_bind_ok hupdate)
    obtain ⟨hrefers, ⟨l, d, hl, hd, rfl⟩, hsize⟩ := hsends
    refine ⟨?_, fun lines _ => ⟨id, l, hrefers, hl⟩, fun id' l' hrefers' hl' hnanos => ?_⟩
    · intro failure hfailure
      cases hfailure
    cases hrefers.unique hrefers'
    cases hl.symm.trans hl'
    obtain rfl := hids id l hl
    rw [Trigger.withWholeSecs_eq_self hnanos] at hd hsize hu ht'
    have htakes := (Engine.update_eq_ok_iff harms).1 ⟨t', hu⟩
    refine ⟨⟨fun _ => ⟨d, hd, hsize, htakes⟩, fun _ => ⟨_, rfl⟩⟩, fun lines hlines => ?_⟩
    cases hlines
    exact ⟨d, t', hd, ht', rfl, hreplaced⟩

namespace Sample

/-- Two triggers wait. -/
def watching : List Moment × System :=
  (System.ofEngine engine).play waiting

theorem isSome_watched : (watching.2.engine.armed.find? first).isSome = true := by decide +kernel

/-- The first trigger. -/
def watched : Lifecycle :=
  (watching.2.engine.armed.find? first).get isSome_watched

theorem find?_watched : watching.2.engine.armed.find? first = some watched :=
  (Option.some_get isSome_watched).symm

/-- Another pattern, two hours, and another flow. -/
def rerouting : Command.Change :=
  { patterns := [⟨"/out/$\x7bDAY\x7d"⟩], expire := some "2h", flowName := some "store" }

/-- The first trigger is referred to by its identifier. -/
def rerouted : Except Command.Failure (List String) × Engine :=
  (Invocation.run { address := defaultAddress, command := .update first.text rerouting }
    (Api.exchange second) .epoch).run watching.2.engine

end Sample

/-- The first trigger is rerouted, and the second one stays as it was. -/
theorem Invocation.update_changes_asked_rerouting :
    (∃ lines, Sample.rerouted.1 = .ok lines) ∧
      (Sample.rerouted.2.armed.find? Sample.first).map (·.trigger) =
        some { Sample.watched.trigger with
          patterns := [⟨"/out/$\x7bDAY\x7d"⟩]
          timeToExpire := .ofSecs 7200
          action := .executeFlow 7 "store"
          flowName := "store" } ∧
      Sample.rerouted.2.armed.find? Sample.second =
        Sample.watching.2.engine.armed.find? Sample.second := by
  have hdeclared : ∀ p ∈ Sample.rerouting.patterns, p.Declares Sample.watched.trigger.vars :=
    List.forall_mem_singleton.2 (Pattern.check_ok_iff.1 rfl)
  have hexpiry : Sample.rerouting.expiry Sample.watched.trigger = .ok (.ofSecs 7200) :=
    Sample.eq_ok_of_toOption (by decide +kernel)
  have hsize : (Sample.rerouting.edit Sample.watched.trigger
      (.ofSecs 7200)).toJson.render.utf8ByteSize ≤ Api.maxBodySize := by
    unfold Json.render
    rw [String.utf8ByteSize_ofList]
    decide +kernel
  obtain ⟨-, -, hchange⟩ := Invocation.update_changes_asked Sample.start
    (.of_play (System.ofEngine Sample.engine) Sample.waiting) (show _ = Sample.rerouted from rfl)
  obtain ⟨hsucceeds, hdone⟩ := hchange Sample.first Sample.watched
    (.whole Sample.first.ofText?_text) Sample.find?_watched (by decide +kernel)
  obtain ⟨lines, hlines⟩ := hsucceeds.2
    ⟨.ofSecs 7200, hexpiry, hsize, hdeclared, by decide +kernel, by decide +kernel⟩
  obtain ⟨d, t, hd, rfl, -, hreplaced⟩ := hdone lines hlines
  cases hexpiry.symm.trans hd
  refine ⟨⟨lines, hlines⟩, hreplaced.armed.trans ?_, (hreplaced.others _ ?_).1⟩
  · decide +kernel
  · decide

end Lookout
