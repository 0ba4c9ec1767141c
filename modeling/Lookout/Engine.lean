import Lookout.Config
import Lookout.Lifecycle
import Lookout.Trigger.Request

/-!
# The engine

The armed triggers of one data source, the store that keeps them, the scheduler that waits for their
keys, and the clock.

* `Engine.create`, `Engine.update`, `Engine.remove`: write to the store first, and then change the
  armed triggers. `Engine.create` is `Engine.beginCreate` followed by `Engine.finishCreate`: other
  operations may come between the two.
* `Engine.load`: arms the stored triggers.
* `Engine.get`, `Engine.list`, `Engine.status`: tell what there is.
* `Engine.start`: the engine of a configuration.

An operation that takes a clock reading takes `Engine.clock`.
-/

namespace Lookout

/-- The engine. -/
structure Engine where
  dataSource : String
  checkerType : String
  defaultTimeToExpire : Duration
  registry : Registry
  clock : Instant
  scheduler : Scheduler
  store : Store
  armed : IdMap Lifecycle
  /-- The number of armings so far. -/
  revisions : Nat

namespace Engine

/-- The engine of a configuration, with nothing armed. -/
def new (config : Config) (registry : Registry) (store : Store) (clock : Instant) : Engine :=
  { dataSource := config.dataSource
    checkerType := config.checkerType
    defaultTimeToExpire := config.defaultTimeToExpire
    registry
    clock
    scheduler :=
      Scheduler.new (Cache.new config.cacheMaxEntries config.cacheTtl) config.queueCapacity
    store
    armed := IdMap.empty
    revisions := 0 }

/-- The armed triggers. -/
def armedTriggers (e : Engine) : List Trigger :=
  e.armed.values.map (·.trigger)

/-- The keys that armed triggers wait for. -/
def keysInUse (armed : IdMap Lifecycle) : List CheckKey :=
  armed.values.flatMap (·.checkKeys)

/-- Arms a trigger, under a revision of its own. -/
def arm (e : Engine) (t : Trigger) : Except EngineError Lifecycle × Engine :=
  let revision := e.revisions + 1
  (Lifecycle.arm e.registry e.checkerType revision t, { e with revisions := revision })

/-! ## Loading -/

/-- Arms triggers one after the other, leaving out those that cannot be armed. -/
def armAll (e : Engine) : List Trigger → List Lifecycle × Engine
  | [] => ([], e)
  | t :: rest =>
    let (armed, e) := e.arm t
    let (others, e) := e.armAll rest
    match armed with
    | .ok l => (l :: others, e)
    | .error _ => (others, e)

/-- Arms the stored triggers of the data source; tells how many could be armed. -/
def load (e : Engine) : Except EngineError Nat × Engine :=
  match e.store.listBySource e.dataSource with
  | (.error err, store) => (.error (.ofStore err), { e with store })
  | (.ok triggers, store) =>
    let (loaded, e) := armAll { e with store } triggers
    (.ok loaded.length,
      { e with armed := loaded.foldl (fun armed l => armed.insert l.trigger.id l) e.armed })

/-! ## Operations -/

/-- The time to expire of a request. -/
def timeToExpire (e : Engine) (r : CreateRequest) : Except PeriodError Duration :=
  match r.timeToExpire with
  | some text => Duration.ofPeriod text
  | none => .ok e.defaultTimeToExpire

/-- The trigger of a request that arrives now. -/
def triggerOf (e : Engine) (r : CreateRequest) (timeToExpire : Duration) : Trigger :=
  { id := Uuid.nil
    dataSource := e.dataSource
    patterns := r.patterns
    vars := r.vars.fillCalendar e.clock
    principal := r.principal
    timeToExpire
    action := match r.webhookUrl with
      | some url => .webhook url
      | none => .executeFlow r.projectId r.flowName
    recurrence := r.recurrence
    projectId := r.projectId
    flowName := r.flowName
    lastModifyTime := e.clock
    submitTime := e.clock
    armedAt := e.clock
    submitUser := r.submitUser }

/-- Stores a new trigger under a fresh identifier and returns it armed, though not yet among the
armed triggers. -/
def beginCreate (e : Engine) (fresh : Uuid) (r : CreateRequest) :
    Except EngineError Lifecycle × Engine :=
  match e.timeToExpire r with
  | .error err => (.error (.period err), e)
  | .ok timeToExpire =>
    let t := e.triggerOf r timeToExpire
    match t.validatePatterns with
    | .error err => (.error (.pattern err), e)
    | .ok () =>
      match e.arm t with
      | (.error err, e) => (.error err, e)
      | (.ok l, e) =>
        match e.store.insert fresh l.trigger with
        | (.error err, store) => (.error (.ofStore err), { e with store })
        | (.ok id, store) => (.ok (l.withId id), { e with store })

/-- Puts a new trigger among the armed ones. -/
def finishCreate (e : Engine) (l : Lifecycle) : Engine :=
  { e with armed := e.armed.insert l.trigger.id l }

/-- Creates a trigger under a fresh identifier. -/
def create (e : Engine) (fresh : Uuid) (r : CreateRequest) : Except EngineError Trigger × Engine :=
  match e.beginCreate fresh r with
  | (.error err, e) => (.error err, e)
  | (.ok l, e) => (.ok l.trigger, e.finishCreate l)

/-- Withdraws the keys of a lifecycle that no armed trigger waits for. -/
def releaseUnused (e : Engine) (l : Lifecycle) : Engine :=
  { e with scheduler := l.release (keysInUse e.armed) e.scheduler }

/-- Replaces the definition of a trigger. -/
def update (e : Engine) (t : Trigger) : Except EngineError Trigger × Engine :=
  let t := { t with dataSource := e.dataSource, lastModifyTime := e.clock }
  match t.validatePatterns with
  | .error err => (.error (.pattern err), e)
  | .ok () =>
    match e.arm t with
    | (.error err, e) => (.error err, e)
    | (.ok l, e) =>
      match e.store.update l.trigger with
      | (.error err, store) => (.error (.ofStore err), { e with store })
      | (.ok (), store) =>
        let previous := e.armed.find? t.id
        let e := { e with store, armed := e.armed.insert t.id l }
        match previous with
        | some old => (.ok l.trigger, e.releaseUnused old)
        | none => (.ok l.trigger, e)

/-- Removes a trigger. -/
def remove (e : Engine) (id : Uuid) : Except EngineError Unit × Engine :=
  match e.store.remove id with
  | (.error err, store) => (.error (.ofStore err), { e with store })
  | (.ok (), store) =>
    let previous := e.armed.find? id
    let e := { e with store, armed := e.armed.erase id }
    match previous with
    | some old => (.ok (), e.releaseUnused old)
    | none => (.ok (), e)

/-! ## Queries -/

/-- The armed trigger of an identifier. -/
def get (e : Engine) (id : Uuid) : Except EngineError Trigger :=
  match e.armed.find? id with
  | some l => .ok l.trigger
  | none => .error (.notFound id)

/-- The order of the flows: by project, then by name. -/
def flowBefore (a b : Trigger) : Bool :=
  match compare a.projectId.toInt b.projectId.toInt with
  | .lt => true
  | .eq => a.flowName ≤ b.flowName
  | .gt => false

/-- The stored triggers of a data source, by default that of the engine, flow by flow; those of one
flow from the oldest submission on. -/
def list (e : Engine) (source : Option String) : Except EngineError (List Trigger) × Engine :=
  match e.store.listBySource (source.getD e.dataSource) with
  | (.error err, store) => (.error (.ofStore err), { e with store })
  | (.ok triggers, store) => (.ok (triggers.mergeSort flowBefore), { e with store })

/-- The numbers of cached entries, pending checks and armed triggers. -/
def status (e : Engine) : Status :=
  { cachedEntries := e.scheduler.cache.size
    pendingChecks := e.scheduler.pending.length
    armedTriggers := e.armed.size }

/-! ## Starting -/

/-- Starts an engine: with a configuration that can work, one kind of checkers, and all stored
triggers armed. -/
def start (config : Config) (store : Store) (clock : Instant) : Except EngineError Engine :=
  match config.validate with
  | .error err => .error (.invalidConfig err.message)
  | .ok () =>
    match (new config (Registry.empty.register config.checkerType .data) store clock).load with
    | (.error err, _) => .error err
    | (.ok _, e) => .ok e

end Engine
end Lookout
