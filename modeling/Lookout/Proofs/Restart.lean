import Lookout.Proofs.Loading
import Lookout.Proofs.Synchrony

/-!
# Restarts

An engine that is started on the store of another one.

- **Stores in memory** (`Store.InMemory`): what calls make of an empty store.
- **What is loaded** (`Engine.load_new`): the triggers of the data source whose patterns all
  resolve, each as it is stored. The others are skipped.
- **Nothing is skipped** that an engine has stored (`Course.stored_fits`): it is of the data source
  of that engine, and its patterns resolve, because the trigger is armed.

Both together are `Engine.restart_exact`.
-/

namespace Lookout

/-! ## Triggers whose patterns resolve -/

theorem CheckKey.isOk_ofPatterns {vars : VariableSet} {principal : String} {ps : List Pattern} :
    (ofPatterns vars principal ps).isOk = true ↔ ∀ p ∈ ps, ∃ path, p.resolve vars = .ok path := by
  induction ps with
  | nil => simp [ofPatterns, Except.isOk, Except.toBool]
  | cons p rest ih =>
    unfold ofPatterns
    rw [List.forall_mem_cons, ← ih]
    cases p.resolve vars with
    | error e => simp [Except.isOk, Except.toBool]
    | ok path => cases ofPatterns vars principal rest <;> simp [Except.isOk, Except.toBool]

/-- With a registered type, arming succeeds if all patterns resolve. -/
theorem Lifecycle.isOk_arm {r : Registry} {checkerType : String} {kind : CheckerKind}
    (hk : r.kinds.lookup checkerType = some kind) (revision : Nat) (t : Trigger) :
    (Lifecycle.arm r checkerType revision t).isOk = t.checkKeys.isOk := by
  rw [Lifecycle.arm_eq hk]
  cases t.checkKeys <;> rfl

/-! ## Stores in memory -/

namespace Store

/-- What calls make of an empty store that has no outages. -/
inductive InMemory : Store → Prop
  | empty : InMemory Store.empty
  | insert {s : Store} (h : InMemory s) (id : Uuid) (t : Trigger) : InMemory (s.insert id t).2
  | update {s : Store} (h : InMemory s) (t : Trigger) : InMemory (s.update t).2
  | remove {s : Store} (h : InMemory s) (id : Uuid) : InMemory (s.remove id).2
  | list {s : Store} (h : InMemory s) (source : String) : InMemory (s.listBySource source).2

variable {s : Store}

theorem InMemory.reliable (h : s.InMemory) : s.outages = {} := by
  induction h with
  | empty => rfl
  | @insert s _ id t ih =>
    rcases s.insert_cases id t with he | ⟨err, s', he, hs⟩ <;> rw [he]
    · exact ih
    · exact hs.reliable ih
  | @update s _ t ih =>
    rcases s.update_cases t with ⟨-, he⟩ | ⟨err, s', he, hs, -⟩ <;> rw [he]
    · exact ih
    · exact hs.reliable ih
  | @remove s _ id ih =>
    rcases s.remove_cases id with ⟨-, he⟩ | ⟨err, s', he, hs, -⟩ <;> rw [he]
    · exact ih
    · exact hs.reliable ih
  | @list s _ source ih =>
    rcases s.listBySource_cases source with he | ⟨err, s', he, hs⟩ <;> rw [he]
    · exact ih
    · exact hs.reliable ih

/-- Each trigger is stored under its own identifier. -/
theorem InMemory.labelled (h : s.InMemory) (e : Engine) : { e with store := s }.Labelled := by
  induction h with
  | empty => exact fun id t ht => nomatch ht
  | @insert s _ id t ih =>
    rcases s.insert_cases id t with he | ⟨err, s', he, hs⟩ <;> rw [he]
    · exact ih.of_insert (t := { t with id }) rfl
    · exact ih.of_records hs.records
  | @update s _ t ih =>
    rcases s.update_cases t with ⟨-, he⟩ | ⟨err, s', he, hs, -⟩ <;> rw [he]
    · exact ih.of_insert rfl
    · exact ih.of_records hs.records
  | @remove s _ id ih =>
    rcases s.remove_cases id with ⟨-, he⟩ | ⟨err, s', he, hs, -⟩ <;> rw [he]
    · exact ih.of_erase rfl
    · exact ih.of_records hs.records
  | @list s _ source ih =>
    rcases s.listBySource_cases source with he | ⟨err, s', he, hs⟩ <;> rw [he]
    · exact ih
    · exact ih.of_records hs.records

theorem listBySource_of_reliable (h : s.outages = {}) (source : String) :
    s.listBySource source = (.ok (s.ofSource source), s) := by
  unfold listBySource attempt
  rw [h]
  rfl

end Store

/-! ## Loading into a new engine -/

namespace Engine

variable {e : Engine} {config : Config} {registry : Registry} {store : Store} {clock : Instant}
  {kind : CheckerKind}

theorem Labelled.nodup_ofSource (h : e.Labelled) (source : String) :
    ((e.store.ofSource source).map (·.id)).Nodup := by
  have hids : e.store.records.values.map (·.id) = e.store.records.entries.map Prod.fst := by
    unfold IdMap.values
    rw [List.map_map]
    exact List.map_congr_left fun r hr => h r.1 r.2 (IdMap.mem_entries_iff.1 hr)
  have hvalues : (e.store.records.values.map (·.id)).Nodup := by
    rw [hids]
    exact e.store.records.nodup
  unfold Store.ofSource
  rw [((List.mergeSort_perm _ _).map _).nodup_iff]
  exact hvalues.sublist (List.filter_sublist.map _)

/-- The triggers that are armed when triggers are loaded, in their order. -/
theorem armAll_triggers (hk : e.registry.kinds.lookup e.checkerType = some kind)
    (ts : List Trigger) :
    (e.armAll ts).1.map (·.trigger) = ts.filter fun t => t.checkKeys.isOk := by
  induction ts generalizing e with
  | nil => rfl
  | cons t rest ih =>
    have hrest := ih (e := { e with revisions := e.revisions + 1 }) hk
    have hok := Lifecycle.isOk_arm hk (e.revisions + 1) t
    unfold armAll
    dsimp only [arm]
    cases hl : Lifecycle.arm e.registry e.checkerType (e.revisions + 1) t with
    | error err =>
      have hfalse : t.checkKeys.isOk = false := (hl ▸ hok).symm
      rw [List.filter_cons, hfalse]
      exact hrest
    | ok l =>
      have htrue : t.checkKeys.isOk = true := (hl ▸ hok).symm
      rw [List.filter_cons, htrue]
      exact congr (congrArg List.cons (Lifecycle.arm_ok hl).1) hrest

/-- Lifecycles with identifiers of their own, put among those that are armed. -/
private theorem entries_foldl_insert {ls : List Lifecycle} {armed : IdMap Lifecycle}
    (hn : (ls.map (·.trigger.id)).Nodup) (hnew : ∀ l ∈ ls, armed.find? l.trigger.id = none) :
    (ls.foldl (fun m l => m.insert l.trigger.id l) armed).entries =
      armed.entries ++ ls.map fun l => (l.trigger.id, l) := by
  induction ls generalizing armed with
  | nil => rw [List.foldl_nil, List.map_nil, List.append_nil]
  | cons l rest ih =>
    obtain ⟨hl, hrest⟩ := List.nodup_cons.1 hn
    obtain ⟨hnone, hothers⟩ := List.forall_mem_cons.1 hnew
    rw [List.foldl_cons, ih hrest ?_, IdMap.entries_insert_of_none l hnone, List.map_cons,
      List.append_assoc, List.singleton_append]
    intro l' hl'
    have hne : l'.trigger.id ≠ l.trigger.id := fun heq => hl (List.mem_map.2 ⟨l', hl', heq⟩)
    rw [IdMap.find?_insert_of_ne _ _ hne]
    exact hothers l' hl'

/-- **What a new engine loads**: the stored triggers of its data source whose keys can be found,
each under its identifier. -/
theorem load_new (hr : store.outages = {}) (hl : (Engine.new config registry store clock).Labelled)
    (hk : registry.kinds.lookup config.checkerType = some kind) :
    ∃ (ls : List Lifecycle) (e' : Engine),
      (Engine.new config registry store clock).load = (.ok ls.length, e') ∧
      e'.store = store ∧ e'.armed.entries = ls.map (fun l => (l.trigger.id, l)) ∧
      ls.map (·.trigger) =
        (store.ofSource config.dataSource).filter fun t => t.checkKeys.isOk := by
  have htriggers := armAll_triggers (e := .new config registry store clock) hk
    (store.ofSource config.dataSource)
  have hids : ((armAll (.new config registry store clock)
      (store.ofSource config.dataSource)).1.map (·.trigger.id)).Nodup := by
    have h : (((store.ofSource config.dataSource).filter fun t => t.checkKeys.isOk).map
        (·.id)).Nodup := (hl.nodup_ofSource config.dataSource).sublist (List.filter_sublist.map _)
    rw [← htriggers, List.map_map] at h
    exact h
  have hlist : (Engine.new config registry store clock).store.listBySource
      (Engine.new config registry store clock).dataSource =
        (.ok (store.ofSource config.dataSource), store) :=
    Store.listBySource_of_reliable hr config.dataSource
  obtain ⟨revisions, -, he, -⟩ := armAll_ok (.new config registry store clock)
    (store.ofSource config.dataSource)
  have hsame : { Engine.new config registry store clock with store } =
      Engine.new config registry store clock := rfl
  unfold load
  rw [hlist]
  dsimp only
  rw [hsame, he]
  exact ⟨_, _, rfl, rfl, entries_foldl_insert hids fun l _ => rfl, htriggers⟩

/-- What a new engine loads, by identifiers. -/
theorem load_new_iff (hr : store.outages = {})
    (hl : (Engine.new config registry store clock).Labelled)
    (hk : registry.kinds.lookup config.checkerType = some kind) :
    ∃ e', (Engine.new config registry store clock).load = (.ok e'.armed.size, e') ∧
      e'.store = store ∧
      ∀ id t, (e'.armed.find? id).map (·.trigger) = some t ↔
        store.find? id = some t ∧ t.dataSource = config.dataSource ∧
          ∀ p ∈ t.patterns, ∃ path, p.resolve t.vars = .ok path := by
  obtain ⟨ls, e', he, hstore, hentries, htriggers⟩ := load_new hr hl hk
  have hsize : e'.armed.size = ls.length := by
    unfold IdMap.size
    rw [hentries, List.length_map]
  have harmed : ∀ id t, (e'.armed.find? id).map (·.trigger) = some t ↔
      t ∈ ls.map (·.trigger) ∧ t.id = id := by
    intro id t
    rw [Option.map_eq_some_iff, List.mem_map]
    simp only [← IdMap.mem_entries_iff, hentries, List.mem_map, Prod.mk.injEq]
    constructor
    · rintro ⟨l, ⟨l', hmem, hid, rfl⟩, rfl⟩
      exact ⟨⟨l', hmem, rfl⟩, hid⟩
    · rintro ⟨⟨l, hmem, rfl⟩, hid⟩
      exact ⟨l, ⟨l, hmem, hid, rfl⟩, rfl⟩
  refine ⟨e', by rw [hsize]; exact he, hstore, fun id t => ?_⟩
  have hkeys : t.checkKeys.isOk = true ↔ ∀ p ∈ t.patterns, ∃ path, p.resolve t.vars = .ok path :=
    CheckKey.isOk_ofPatterns
  rw [harmed, htriggers, List.mem_filter, Store.mem_ofSource_iff, hkeys]
  constructor
  · rintro ⟨⟨⟨⟨i, ht⟩, hsource⟩, hok⟩, rfl⟩
    cases hl i t ht
    exact ⟨ht, hsource, hok⟩
  · rintro ⟨ht, hsource, hok⟩
    exact ⟨⟨⟨⟨id, ht⟩, hsource⟩, hok⟩, hl id t ht⟩

/-! ## What an engine has stored -/

/-- The engine is of a data source, and so are its armed triggers. -/
structure OfSource (e : Engine) (source : String) : Prop where
  own : e.dataSource = source
  armed : ∀ id l, e.armed.find? id = some l → l.trigger.dataSource = source

namespace OfSource

variable {source : String}

theorem step {s s' : System} {event : Event} (h : s.engine.OfSource source)
    (hs : Step s event s') : s'.engine.OfSource source := by
  refine ⟨hs.settings_eq.2.2.trans h.own, fun id l' hl' => ?_⟩
  rcases hs.armed_cases hl' with hl | ⟨revision, t, l, i, ht, harm, rfl⟩ | ⟨l, now, hl, hadvance⟩
  · exact h.armed id l' hl
  · obtain ⟨rfl, -, -⟩ := Lifecycle.arm_ok harm
    exact ht.trans h.own
  · rw [(Lifecycle.advance_ok hadvance).2.2]
    exact h.armed id l hl

theorem load (h : e.OfSource source) : e.load.2.OfSource source := by
  refine ⟨e.settings_load.2.trans h.own, fun id l hl => ?_⟩
  rcases find?_load_cases hl with hl | ⟨revision, t, ht, harm⟩
  · exact h.armed id l hl
  · obtain ⟨rfl, -, -⟩ := Lifecycle.arm_ok harm
    exact ht.trans h.own

theorem of_course {s₀ s : System} {history : List Moment} (h : s₀.engine.OfSource source)
    (hr : Course s₀ history s) : s.engine.OfSource source := by
  induction hr with
  | nil => exact h
  | step _ hs ih => exact ih.step hs
  | load _ ih => exact ih.load
  | cutShort _ ih => exact ⟨ih.own, ih.armed⟩

end OfSource
end Engine

section Stored

variable {config : Config} {registry : Registry} {clock : Instant} {s : System}
  {history : List Moment}

/-- **A stored trigger can be armed again.** Between two cycles of an engine that began with an
empty store, each stored trigger is armed, it is of the engine's data source, and its patterns
resolve. -/
theorem Course.stored_fits (hdata : registry.OnlyData)
    (hr : Course (.ofEngine (.new config registry Store.empty clock)) history s)
    (ho : ∀ m ∈ history, m.event.isOutage = false) (hf : s.followups = []) {id : Uuid}
    {t : Trigger} (ht : s.engine.store.find? id = some t) :
    ∃ l, s.engine.armed.find? id = some l ∧ l.trigger = t ∧
      t.dataSource = config.dataSource ∧ t.checkKeys = .ok l.checkKeys := by
  have hagrees := (hr.agrees (Engine.Agrees.new config registry clock)
    (fun id t ht => nomatch ht) ho).1
  rw [hf] at hagrees
  have hsource : (System.ofEngine (.new config registry Store.empty clock)).engine.OfSource
      config.dataSource := ⟨rfl, fun id l hl => nomatch hl⟩
  have hsynced : (System.ofEngine (.new config registry Store.empty clock)).engine.InStep :=
    ⟨hdata, fun id l hl => nomatch hl⟩
  obtain ⟨l, hl, rfl⟩ := Option.map_eq_some_iff.1 ((hagrees.find?_eq id).trans ht)
  exact ⟨l, hl, rfl, (hsource.of_course hr).armed id l hl,
    ((hsynced.of_course hr).synced id l hl).checkKeys⟩

/-- An engine that has loaded all that can be armed of the store has loaded the whole store. -/
theorem Course.loads_stored (hdata : registry.OnlyData)
    (hr : Course (.ofEngine (.new config registry Store.empty clock)) history s)
    (ho : ∀ m ∈ history, m.event.isOutage = false) (hf : s.followups = []) {e : Engine}
    (harmed : ∀ id t, (e.armed.find? id).map (·.trigger) = some t ↔
      s.engine.store.find? id = some t ∧ t.dataSource = config.dataSource ∧
        ∀ p ∈ t.patterns, ∃ path, p.resolve t.vars = .ok path) (id : Uuid) :
    (e.armed.find? id).map (·.trigger) = s.engine.store.find? id := by
  refine Option.ext fun t => (harmed id t).trans ⟨fun h => h.1, fun ht => ?_⟩
  obtain ⟨l, -, -, hsource, hkeys⟩ := hr.stored_fits hdata ho hf ht
  refine ⟨ht, hsource, CheckKey.isOk_ofPatterns.1 (?_ : t.checkKeys.isOk = true)⟩
  rw [hkeys]
  rfl

/-- A new engine that loads what the other one has stored arms what the other one has armed. -/
theorem Course.restart {kind : CheckerKind} (hdata : registry.OnlyData)
    (hk : registry.kinds.lookup config.checkerType = some kind)
    (hr : Course (.ofEngine (.new config registry Store.empty clock)) history s)
    (ho : ∀ m ∈ history, m.event.isOutage = false) (hf : s.followups = []) (clock' : Instant) :
    ∃ e', (Engine.new config registry s.engine.store clock').load =
        (.ok s.engine.store.size, e') ∧
      e'.armed.size = s.engine.store.size ∧
      ∀ id, (e'.armed.find? id).map (fun l => (l.trigger, l.checkKeys)) =
        (s.engine.armed.find? id).map fun l => (l.trigger, l.checkKeys) := by
  obtain ⟨hagrees, hlabelled⟩ := hr.agrees (Engine.Agrees.new config registry clock)
    (fun id t ht => nomatch ht) ho
  rw [hf] at hagrees
  have hnew : (Engine.new config registry s.engine.store clock').InStep :=
    ⟨hdata, fun id l hl => nomatch hl⟩
  obtain ⟨e', he, -, harmed⟩ := Engine.load_new_iff hagrees.reliable
    (show (Engine.new config registry s.engine.store clock').Labelled from hlabelled) hk
  have hsynced : e'.InStep := by
    have h := hnew.load
    rw [he] at h
    exact h
  have hloaded := hr.loads_stored hdata ho hf harmed
  have hsize : e'.armed.size = s.engine.store.size := by
    refine IdMap.size_eq_of_contains fun id => ?_
    have hfind : s.engine.store.records.find? id = _ := (hloaded id).symm
    unfold IdMap.contains
    rw [hfind, Option.isSome_map]
  refine ⟨e', hsize ▸ he, hsize, fun id => ?_⟩
  have hsame := (hloaded id).trans (hagrees.find?_eq id).symm
  cases hl' : e'.armed.find? id with
  | none =>
    rw [hl'] at hsame
    rw [Option.map_eq_none_iff.1 hsame.symm, Option.map_none]
  | some l' =>
    rw [hl'] at hsame
    have hstored : s.engine.store.find? id = some l'.trigger := by
      rw [← hloaded id, hl']
      rfl
    obtain ⟨l, hl, htrigger, -, hkeys⟩ := hr.stored_fits hdata ho hf hstored
    have heq : l'.checkKeys = l.checkKeys :=
      Except.ok.inj ((hsynced.synced id l' hl').checkKeys.symm.trans hkeys)
    rw [hl, Option.map_some, Option.map_some, htrigger, heq]

end Stored

namespace Engine

/-- An engine starts only with a configuration that can work. -/
theorem start_validate {config : Config} {store : Store} {clock : Instant} {e : Engine}
    (h : start config store clock = .ok e) : config.validate = .ok () :=
  (start_eq_ok_iff.1 h).1

theorem start_of_load {config : Config} {store : Store} {clock : Instant} {e : Engine} {n : Nat}
    (hv : config.validate = .ok ())
    (h : (new config (Registry.empty.register config.checkerType .data) store clock).load =
      (.ok n, e)) : start config store clock = .ok e :=
  start_eq_ok_iff.2 ⟨hv, n, h⟩

/-- **A restart loses and invents nothing.** A new engine, on a store in memory, loads the triggers
of its data source whose patterns all resolve, as they are stored, and skips the others; the store
stays as it is. What an engine has stored that began with an empty store is loaded completely: the
same triggers are armed again and wait for the same keys. -/
theorem restart_exact :
    (∀ (config : Config) (registry : Registry) (kind : CheckerKind) (store : Store)
      (clock : Instant), store.InMemory →
      registry.kinds.lookup config.checkerType = some kind →
      ∃ e', (Engine.new config registry store clock).load = (.ok e'.armed.size, e') ∧
        e'.store = store ∧
        ∀ id t, (e'.armed.find? id).map (·.trigger) = some t ↔
          store.find? id = some t ∧ t.dataSource = config.dataSource ∧
            ∀ p ∈ t.patterns, ∃ path, p.resolve t.vars = .ok path) ∧
    ∀ (config : Config) (clock clock' : Instant) (e₀ : Engine) (history : List Moment)
      (s : System), Engine.start config Store.empty clock = .ok e₀ →
      Course (.ofEngine e₀) history s → (∀ m ∈ history, m.event.isOutage = false) →
      s.followups = [] →
      ∃ e', Engine.start config s.engine.store clock' = .ok e' ∧
        e'.armed.size = s.engine.store.size ∧
        ∀ id, (e'.armed.find? id).map (fun l => (l.trigger, l.checkKeys)) =
          (s.engine.armed.find? id).map fun l => (l.trigger, l.checkKeys) := by
  refine ⟨fun config registry kind store clock hs hk => ?_,
    fun config clock clock' e₀ history s hstart hr ho hf => ?_⟩
  · exact load_new_iff hs.reliable (hs.labelled (.new config registry store clock)) hk
  · have hv := start_validate hstart
    cases hstart.symm.trans (start_empty hv clock)
    have hlookup : (Registry.empty.register config.checkerType .data).kinds.lookup
        config.checkerType = some .data := List.lookup_cons_self
    obtain ⟨e', he, hsize, hsame⟩ :=
      hr.restart (Registry.onlyData_register _) hlookup ho hf clock'
    exact ⟨e', start_of_load hv he, hsize, hsame⟩

end Engine

namespace Sample

/-- The second trigger waits for a variable that it does not declare. -/
def broken : Trigger :=
  { engine.triggerOf single Config.standard.defaultTimeToExpire with
    patterns := [⟨"/in/$\x7bHOUR_OF\x7d"⟩] }

/-- The first trigger as it is stored. -/
def intact : Trigger :=
  { engine.triggerOf daily Config.standard.defaultTimeToExpire with id := first }

/-- The first trigger, and one that cannot be armed. -/
def damaged : Store :=
  ((Store.empty.insert first intact).2.insert second broken).2

end Sample

/-- Of two stored triggers one cannot be armed and is skipped. The two triggers of another engine
are both armed again. -/
theorem Engine.restart_exact_damaged :
    (∃ e', (Engine.new .standard Sample.engine.registry Sample.damaged .epoch).load =
        (.ok e'.armed.size, e') ∧ e'.store = Sample.damaged ∧
      (e'.armed.find? Sample.first).map (·.trigger) = some Sample.intact ∧
      (e'.armed.find? Sample.second).map (·.trigger) = none) ∧
    ∃ e', Engine.start .standard
        ((System.ofEngine Sample.engine).play Sample.overlap).2.engine.store .epoch = .ok e' ∧
      e'.armed.size = 2 := by
  obtain ⟨hload, hrestart⟩ := Engine.restart_exact
  constructor
  · obtain ⟨e', he, hstore, harmed⟩ := hload .standard Sample.engine.registry .data Sample.damaged
      .epoch (.insert (.insert .empty _ _) _ _) List.lookup_cons_self
    refine ⟨e', he, hstore, (harmed Sample.first Sample.intact).2 ?_,
      Option.eq_none_iff_forall_ne_some.2 fun t ht => ?_⟩
    · have hkeys : Sample.intact.checkKeys.isOk = true := by decide +kernel
      exact ⟨by decide +kernel, rfl, CheckKey.isOk_ofPatterns.1 hkeys⟩
    · obtain ⟨hstored, -, hok⟩ := (harmed Sample.second t).1 ht
      have hbroken : Sample.damaged.find? Sample.second =
          some { Sample.broken with id := Sample.second } := by decide +kernel
      cases hstored.symm.trans hbroken
      have hkeys : Sample.broken.checkKeys.isOk = true := CheckKey.isOk_ofPatterns.2 hok
      exact absurd hkeys (by decide +kernel)
  · obtain ⟨e', he, hsize, -⟩ := hrestart .standard .epoch .epoch Sample.engine _ _ Sample.start
      (.of_run (.of_play _ Sample.overlap)) (by decide +kernel) (by decide +kernel)
    exact ⟨e', he, hsize.trans (by decide +kernel)⟩

end Lookout
