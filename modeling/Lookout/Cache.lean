import Lookout.CheckKey
import Lookout.Calendar.Instant

/-!
# The existence cache

A bounded memory of keys that were found to exist, with the time at which each was confirmed.

* `entries` are in the order of their last use, the most recent first.
* `Cache.put` confirms a key; if the key is new and the cache is full, the entry that was used least
  recently goes.
* `Cache.get` looks a key up; an entry older than `timeToLive` counts as absent and goes.
* `Cache.purge` drops all entries older than `timeToLive`.
-/

namespace Lookout

/-- The existence cache. -/
structure Cache where
  capacity : Nat
  /-- The age in nanoseconds up to which an entry counts. -/
  timeToLive : Int
  entries : List (CheckKey × Instant)
  capacity_pos : 0 < capacity := by decide
  deriving Repr

namespace Cache

/-- An empty cache for at most `maxEntries` entries, but at least one, which count for `ttl`, though
at most for `maxSpan`. -/
def new (maxEntries : Nat) (ttl : Duration) : Cache :=
  { capacity := max 1 maxEntries
    timeToLive := (min ttl.totalNanos maxSpan : Nat)
    entries := []
    capacity_pos := by omega }

/-- The number of entries, old ones included. -/
def size (c : Cache) : Nat :=
  c.entries.length

/-- The time at which a key was confirmed. -/
def confirmedAt? (c : Cache) (k : CheckKey) : Option Instant :=
  c.entries.lookup k

/-- An entry that was confirmed at `confirmed` still counts. -/
def isFresh (c : Cache) (now confirmed : Instant) : Bool :=
  now.since confirmed ≤ c.timeToLive

/-- The entries of other keys. -/
def others (k : CheckKey) (entries : List (CheckKey × Instant)) : List (CheckKey × Instant) :=
  entries.filter fun e => e.1 != k

/-- Confirms a key as of now. -/
def put (c : Cache) (now : Instant) (k : CheckKey) : Cache :=
  let rest :=
    if (c.confirmedAt? k).isSome then others k c.entries
    else if c.capacity ≤ c.entries.length then c.entries.dropLast
    else c.entries
  { c with entries := (k, now) :: rest }

/-- The key is in the cache and its entry counts. The entry becomes the most recent, or goes. -/
def get (c : Cache) (now : Instant) (k : CheckKey) : Bool × Cache :=
  match c.confirmedAt? k with
  | none => (false, c)
  | some confirmed =>
    if c.isFresh now confirmed then
      (true, { c with entries := (k, confirmed) :: others k c.entries })
    else (false, { c with entries := others k c.entries })

/-- Forgets a key; tells whether it was there. -/
def remove (c : Cache) (k : CheckKey) : Bool × Cache :=
  ((c.confirmedAt? k).isSome, { c with entries := others k c.entries })

/-- Drops the entries that no longer count; tells how many. -/
def purge (c : Cache) (now : Instant) : Nat × Cache :=
  let kept := c.entries.filter fun e => c.isFresh now e.2
  (c.entries.length - kept.length, { c with entries := kept })

end Cache
end Lookout
