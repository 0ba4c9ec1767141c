import Lookout.Calendar.Date
import Lookout.Period

/-!
# Instants

A point of time in UTC, to the nanosecond, inside a leap second too: then the nanoseconds are
`10 ^ 9` or more, on top of second 59 of a minute.

* `Instant.add?`: the instant some duration later, if it is one.
* `Instant.since`: the signed number of nanoseconds between two instants. A leap second that lies
  between them counts when one of the two is inside it.
* `a < b`: `a` is earlier.
-/

namespace Lookout

/-- A point of time in UTC. -/
structure Instant where
  /-- Days since 1970-01-01. -/
  day : Int
  /-- Seconds since midnight. -/
  second : Nat
  nano : Nat
  day_mem : Date.minDays ≤ day ∧ day ≤ Date.maxDays := by decide
  second_lt : second < 86400 := by decide
  nano_lt : nano < 2000000000 := by decide
  leap_mem : 1000000000 ≤ nano → second % 60 = 59 := by decide
  deriving DecidableEq, Repr

/-- The longest span of time that can be added: `2 ^ 63 - 1` milliseconds, in nanoseconds. -/
def maxSpan : Nat :=
  9223372036854775807 * 1000000

namespace Instant

/-- 1970-01-01T00:00:00Z. -/
def epoch : Instant :=
  { day := 0, second := 0, nano := 0 }

/-- Places instants on a line. -/
def rank (t : Instant) : Int :=
  (t.day * 86400 + t.second) * 2000000000 + t.nano

instance : LT Instant :=
  ⟨fun a b => a.rank < b.rank⟩

instance (a b : Instant) : Decidable (a < b) :=
  inferInstanceAs (Decidable (a.rank < b.rank))

instance : Ord Instant :=
  ⟨fun a b => compare a.rank b.rank⟩

/-- The instant inside a leap second. -/
def inLeapSecond (t : Instant) : Bool :=
  1000000000 ≤ t.nano

/-- The instant a number of seconds and nanoseconds after 1970-01-01, if it is in range. -/
def ofSeconds? (seconds : Int) (nano : Nat) (h : nano < 2000000000)
    (hl : 1000000000 ≤ nano → seconds % 60 = 59) : Option Instant :=
  if hd : Date.minDays ≤ seconds / 86400 ∧ seconds / 86400 ≤ Date.maxDays then
    some
      { day := seconds / 86400
        second := (seconds % 86400).toNat
        nano
        day_mem := hd
        second_lt := by omega
        nano_lt := h
        leap_mem := by omega }
  else none

/-- The instant a whole number of seconds after 1970-01-01, if it is in range. -/
def ofWholeSeconds? (seconds : Int) : Option Instant :=
  ofSeconds? seconds 0 (by decide) (by omega)

/-- The whole seconds since 1970-01-01. -/
def seconds (t : Instant) : Int :=
  t.day * 86400 + t.second

/-- The instant a duration later. There is none past the last time stamp, nor after a duration
longer than `maxSpan`. Adding leaves a leap second unless the sum is still inside it. -/
def add? (t : Instant) (d : Duration) : Option Instant :=
  if maxSpan < d.totalNanos then none
  else if h : t.inLeapSecond ∧ d.secs = 0 ∧ t.nano + d.nanos < 2000000000 then
    some
      { t with
        nano := t.nano + d.nanos
        nano_lt := h.2.2
        leap_mem := fun _ => t.leap_mem (of_decide_eq_true h.1) }
  else
    let nanos : Nat := t.nano % 1000000000 + d.nanos
    ofSeconds? (t.seconds + d.secs + (nanos / 1000000000 : Nat)) (nanos % 1000000000) (by omega)
      (by omega)

/-- The nanoseconds from `u` to `t`, negative if `u` is later. -/
def since (t u : Instant) : Int :=
  let leap : Int :=
    if u.second < t.second ∧ u.inLeapSecond then 1
    else if t.second < u.second ∧ t.inLeapSecond then -1
    else 0
  (t.seconds - u.seconds + leap) * 1000000000 + (t.nano - u.nano)

/-- The calendar date. -/
def date (t : Instant) : Date :=
  Date.ofDays t.day

/-- The hour of the day. -/
def hour (t : Instant) : Nat :=
  t.second / 3600

end Instant
end Lookout
