import Lookout.Cache

/-!
# The scheduler

The cache together with the keys that wait to be checked.

* `Scheduler.submit` asks for a key to be checked.
* `Scheduler.forget` withdraws keys.
* A poll takes the keys that wait at its beginning (`Scheduler.beginPoll`), asks the storage backend
  about each of them in ascending order, and confirms those that exist (`Scheduler.confirm`). All
  other keys go on waiting.
-/

namespace Lookout

/-- The cache and the keys that wait to be checked, in ascending order. -/
structure Scheduler where
  cache : Cache
  pending : List CheckKey
  /-- The number of keys that may wait. -/
  capacity : Nat
  deriving Repr

/-- What became of a key that was submitted. -/
inductive Submission
  | cached
  | alreadyPending
  | queued
  /-- Too many keys are waiting. -/
  | dropped
  deriving DecidableEq, Repr

/-- The numbers of keys that a poll asked about, that exist, and whose check failed. -/
structure PollReport where
  checked : Nat
  confirmed : Nat
  failed : Nat
  deriving DecidableEq, Repr

namespace Scheduler

/-- A scheduler in which no key waits. -/
def new (cache : Cache) (capacity : Nat) : Scheduler :=
  { cache, pending := [], capacity }

/-- The key waits to be checked. -/
def isPending (s : Scheduler) (k : CheckKey) : Bool :=
  s.pending.contains k

/-- Looks a key up in the cache. -/
def lookup (s : Scheduler) (now : Instant) (k : CheckKey) : Bool × Scheduler :=
  let (found, cache) := s.cache.get now k
  (found, { s with cache })

/-- Asks for a key to be checked. -/
def submit (s : Scheduler) (now : Instant) (k : CheckKey) : Submission × Scheduler :=
  match s.lookup now k with
  | (true, s) => (.cached, s)
  | (false, s) =>
    if s.isPending k then (.alreadyPending, s)
    else if s.capacity ≤ s.pending.length then (.dropped, s)
    else (.queued, { s with pending := k.insertSorted s.pending })

/-- The keys without one of them. -/
def without (k : CheckKey) (keys : List CheckKey) : List CheckKey :=
  keys.filter (· != k)

/-- Withdraws a key; tells whether it was waiting. -/
def forgetOne (s : Scheduler) (k : CheckKey) : Bool × Scheduler :=
  (s.isPending k, { s with pending := without k s.pending })

/-- Withdraws keys; tells how many were waiting. -/
def forget (s : Scheduler) : List CheckKey → Nat × Scheduler
  | [] => (0, s)
  | k :: rest =>
    let (found, s) := s.forgetOne k
    let (count, s) := s.forget rest
    ((if found then 1 else 0) + count, s)

/-- A key exists as of now. -/
def confirm (s : Scheduler) (now : Instant) (k : CheckKey) : Scheduler :=
  { s with cache := s.cache.put now k, pending := without k s.pending }

/-- The keys that a poll asks about, and the scheduler without the entries that no longer count. -/
def beginPoll (s : Scheduler) (now : Instant) : List CheckKey × Scheduler :=
  (s.pending, { s with cache := (s.cache.purge now).2 })

end Scheduler

namespace PollReport

/-- Nothing was asked yet. -/
def none : PollReport :=
  { checked := 0, confirmed := 0, failed := 0 }

/-- One more answer: the key exists, does not exist, or could not be checked. -/
def count (r : PollReport) (answer : Option Bool) : PollReport :=
  { checked := r.checked + 1
    confirmed := r.confirmed + (if answer = some true then 1 else 0)
    failed := r.failed + (if answer.isNone then 1 else 0) }

end PollReport
end Lookout
