import Lookout.Proofs.Expiry

/-!
# Deadlines in nanoseconds

When a trigger has expired, in terms of the exact numbers of nanoseconds that instants and durations
stand for, up to the longest duration and to both ends of the range of time stamps.

* `Instant.sinceEpoch`: the place of an instant, in nanoseconds; leap seconds are left out.
* `sinceEpoch_of_add?`: a deadline lies exactly as far ahead as the duration is long.
* `Lifecycle.poll_eq_expired_iff`: a poll finds a trigger expired when it has expired.
* `Trigger.isExpiredAt_exact`: more time has gone by than there was. A duration too long to be
  added, or a sum past the last time stamp, makes no difference.
-/

namespace Lookout

namespace Instant

variable {t u : Instant} {d : Duration}

/-- The nanoseconds since 1970-01-01T00:00:00Z. -/
def sinceEpoch (t : Instant) : Int :=
  t.seconds * 1000000000 + t.nano

theorem since_eq_sub (ht : t.inLeapSecond = false) (hu : u.inLeapSecond = false) :
    t.since u = t.sinceEpoch - u.sinceEpoch := by
  rw [since_of_not_leap hu ht]
  unfold sinceEpoch
  omega

theorem sinceEpoch_of_ofSeconds? {seconds : Int} {nano : Nat} {h : nano < 2000000000}
    {hl : 1000000000 ≤ nano → seconds % 60 = 59} (hs : ofSeconds? seconds nano h hl = some t) :
    t.sinceEpoch = seconds * 1000000000 + nano := by
  unfold ofSeconds? at hs
  split at hs
  · cases hs
    unfold sinceEpoch
    dsimp only [Instant.seconds]
    omega
  · cases hs

/-- Outside of leap seconds, what is added to an instant is what it moves by. -/
theorem sinceEpoch_of_add? (ht : t.inLeapSecond = false) (h : t.add? d = some u) :
    u.sinceEpoch = t.sinceEpoch + d.totalNanos := by
  have hnano := nano_lt_of_not_leap ht
  unfold add? at h
  by_cases hlong : maxSpan < d.totalNanos
  · rw [if_pos hlong] at h
    cases h
  rw [if_neg hlong, dif_neg (not_add_in_leap ht)] at h
  rw [sinceEpoch_of_ofSeconds? h]
  unfold sinceEpoch Duration.totalNanos
  omega

end Instant

theorem Lifecycle.poll_eq_expired_iff {l : Lifecycle} {time now : Instant} {s : Scheduler} :
    (l.poll time now s).1 = .expired ↔ l.trigger.isExpiredAt time = true := by
  unfold poll
  cases l.trigger.isExpiredAt time with
  | true => simp
  | false => rcases l.checker.evaluate now s with ⟨_ | _, _⟩ <;> simp

namespace Trigger

variable {t : Trigger} {now : Instant}

/-- What has passed at some time has passed at all later ones. -/
theorem isExpiredAt_of_lt {later : Instant} (h : t.isExpiredAt now = true) (hlater : now < later) :
    t.isExpiredAt later = true := by
  obtain ⟨deadline, hd, hlt⟩ := isExpiredAt_iff.1 h
  exact isExpiredAt_iff.2 ⟨deadline, hd, Int.lt_trans hlt hlater⟩

/-- **A trigger has expired exactly if more time has gone by than it had**, to the nanosecond and at
every magnitude. Its deadline, if it has one, lies just that far ahead; if it has none, no time
stamp is further away. A poll finds that it has expired at the same times, and it stays expired. -/
theorem isExpiredAt_exact (ht : t.armedAt.inLeapSecond = false)
    (hnow : now.inLeapSecond = false) :
    (t.isExpiredAt now = true ↔
      (t.timeToExpire.totalNanos : Int) < now.sinceEpoch - t.armedAt.sinceEpoch) ∧
    (∀ deadline, t.expiresAt? = some deadline →
      deadline.sinceEpoch = t.armedAt.sinceEpoch + t.timeToExpire.totalNanos) ∧
    (t.expiresAt? = none →
      now.sinceEpoch - t.armedAt.sinceEpoch ≤ (t.timeToExpire.totalNanos : Int)) ∧
    (∀ (l : Lifecycle) clock s, l.trigger = t →
      ((l.poll now clock s).1 = .expired ↔ t.isExpiredAt now = true)) ∧
    (t.isExpiredAt now = true → ∀ later, now < later → t.isExpiredAt later = true) := by
  have hexact : t.isExpiredAt now = true ↔
      (t.timeToExpire.totalNanos : Int) < now.sinceEpoch - t.armedAt.sinceEpoch := by
    rw [isExpiredAt_iff, Instant.exists_deadline_iff ht hnow, Instant.since_eq_sub hnow ht]
  refine ⟨hexact, fun deadline hd => Instant.sinceEpoch_of_add? ht hd, fun hnone => ?_, ?_,
    fun h later hlater => isExpiredAt_of_lt h hlater⟩
  · rw [← Int.not_lt, ← hexact, isExpiredAt_iff]
    rintro ⟨deadline, hd, -⟩
    cases hnone.symm.trans hd
  · rintro l clock s rfl
    exact Lifecycle.poll_eq_expired_iff

end Trigger

namespace Sample

/-- The first time stamp. -/
def firstInstant : Instant :=
  later (-8334601228800)

/-- The last time stamp of a whole second. -/
def lastInstant : Instant :=
  later 8210266876799

/-- Is armed at the first time stamp, with all the time but a nanosecond up to the last. -/
def patient : Trigger :=
  { created with
    armedAt := firstInstant
    timeToExpire := { secs := 16544868105598, nanos := 999999999 } }

/-- Is armed at the first time stamp, with the longest duration there is. -/
def unending : Trigger :=
  { created with
    armedAt := firstInstant
    timeToExpire := { secs := 18446744073709551615, nanos := 999999999 } }

end Sample

/-- A wait over the whole range of time stamps: at the last of them the trigger has expired, by a
nanosecond. With the longest duration it has not. -/
theorem Trigger.isExpiredAt_exact_longest :
    Sample.patient.isExpiredAt Sample.lastInstant = true ∧
      (Sample.patient.timeToExpire.totalNanos : Int) <
        Sample.lastInstant.sinceEpoch - Sample.firstInstant.sinceEpoch ∧
      Sample.unending.isExpiredAt Sample.lastInstant = false := by
  have hexpired : Sample.patient.isExpiredAt Sample.lastInstant = true :=
    (Trigger.isExpiredAt_exact rfl rfl).1.2 (by decide)
  refine ⟨hexpired, (Trigger.isExpiredAt_exact rfl rfl).1.1 hexpired, ?_⟩
  rw [Bool.eq_false_iff, Ne, (Trigger.isExpiredAt_exact rfl rfl).1]
  decide

end Lookout
