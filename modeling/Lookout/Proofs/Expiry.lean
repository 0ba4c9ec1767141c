import Lookout.Proofs.Provenance
import Lookout.Proofs.Retention

/-!
# When triggers expire

- **Deadlines** (`Instant.exists_deadline_iff`): outside of leap seconds an instant is past the
  deadline if more time has gone by than there was. A deadline that is no time stamp never passes.
- **A cycle** finds that a trigger has expired exactly if the deadline of its arming period has
  passed: the time to expire of the definition in force, after the start of the period that has
  begun last (`Run.expires_iff`).
- **Replacements** bring the start of their arming period with them. If it is not the clock of that
  moment, the period does not begin when the trigger is armed, and a trigger can expire right after
  it has been replaced (`Run.expires_early`).
-/

namespace Lookout

/-! ## Deadlines -/

namespace Instant

variable {t now : Instant} {d : Duration}

theorem nano_lt_of_not_leap (h : t.inLeapSecond = false) : t.nano < 1000000000 :=
  Nat.lt_of_not_le (of_decide_eq_false h)

theorem since_of_not_leap (ht : t.inLeapSecond = false) (hnow : now.inLeapSecond = false) :
    now.since t = (now.seconds - t.seconds) * 1000000000 + ((now.nano : Int) - t.nano) := by
  unfold since
  simp only [ht, hnow, Bool.false_eq_true, and_false, if_false, Int.add_zero]

/-- The case of `add?` in which the sum is inside a leap second. -/
theorem not_add_in_leap (ht : t.inLeapSecond = false) :
    ¬ (t.inLeapSecond = true ∧ d.secs = 0 ∧ t.nano + d.nanos < 2000000000) := by
  rw [ht]
  exact fun h => Bool.false_ne_true h.1

/-- Outside of leap seconds a deadline has passed if more time than that has gone by, to the
nanosecond. -/
theorem exists_deadline_iff (ht : t.inLeapSecond = false) (hnow : now.inLeapSecond = false) :
    (∃ deadline, t.add? d = some deadline ∧ deadline < now) ↔
      (d.totalNanos : Int) < now.since t := by
  have hspan := since_le_maxSpan now t
  have hnano := nano_lt_of_not_leap ht
  have hnanoNow := nano_lt_of_not_leap hnow
  have hnanos := d.nanos_lt
  have hsecond := t.second_lt
  have hsecondNow := now.second_lt
  unfold add?
  by_cases hlong : maxSpan < d.totalNanos
  · rw [if_pos hlong]
    constructor
    · rintro ⟨deadline, h, -⟩
      cases h
    · intro h
      omega
  unfold ofSeconds?
  rw [if_neg hlong, dif_neg (not_add_in_leap ht), since_of_not_leap ht hnow]
  unfold Duration.totalNanos
  dsimp only
  split
  · have hrank : ∀ deadline : Instant, deadline < now ↔
        (deadline.day * 86400 + deadline.second) * 2000000000 + deadline.nano <
          (now.day * 86400 + now.second) * 2000000000 + now.nano := fun _ => Iff.rfl
    simp only [Option.some.injEq, exists_eq_left', hrank]
    unfold seconds
    omega
  · rename_i hrange
    -- The deadline is past the last time stamp, and so past the clock.
    have hnever : ¬ (((1000000000 * d.secs + d.nanos : Nat) : Int) <
        (now.seconds - t.seconds) * 1000000000 + ((now.nano : Int) - t.nano)) := by
      have hday := t.day_mem
      have hdayNow := now.day_mem
      unfold seconds at hrange ⊢
      unfold Date.minDays Date.maxDays at *
      omega
    constructor
    · rintro ⟨deadline, h, -⟩
      cases h
    · exact fun h => absurd h hnever

end Instant

theorem Trigger.isExpiredAt_iff {t : Trigger} {now : Instant} :
    t.isExpiredAt now = true ↔
      ∃ deadline, t.armedAt.add? t.timeToExpire = some deadline ∧ deadline < now := by
  unfold isExpiredAt expiresAt?
  cases t.armedAt.add? t.timeToExpire <;> simp

/-! ## Arming periods -/

/-- The clock of a moment that arms the trigger of an identifier: in a creation, in a replacement,
or as it goes on to its next window. -/
def Moment.arms? (id : Uuid) (m : Moment) : Option Instant :=
  (m.begins? id).map fun _ => m.clock

/-- The clock when the trigger was armed last; in the beginning it is the start of its arming
period. -/
def Engine.lastArmed? (e : Engine) (id : Uuid) (history : List Moment) : Option Instant :=
  (lastOf (·.arms? id) history).or ((e.armed.find? id).map (·.trigger.armedAt))

variable {id : Uuid} {l : Lifecycle} {f : Finding} {findings : Findings} {seen : List Sighting}

/-- If each replacement brings the clock of its moment with it, then each arming period begins when
the trigger is armed. -/
theorem Engine.periodStart?_eq_lastArmed? (e : Engine) {history : List Moment}
    (h : ∀ n ∈ history, ∀ t t', n.event = .updated t (.ok t') → t.id = id →
      t.armedAt = n.clock) : e.periodStart? id history = e.lastArmed? id history := by
  unfold periodStart? lastArmed?
  rw [lastOf_congr]
  intro n hn
  unfold Moment.arms? Moment.begins?
  split
  · split <;> rfl
  · rename_i t t' he
    split
    · rename_i hid
      exact congrArg some (h n hn t t' he hid)
    · rfl
  · split <;> rfl
  · rfl

/-- A cycle finds that a trigger has expired if and only if it has. -/
theorem Engine.Decides.retires_none_iff {e : Engine} {scheduler : Scheduler}
    (h : e.Decides findings seen scheduler) (hf : ((id, l), f) ∈ findings) :
    f = .retires none ↔ l.trigger.isExpiredAt e.clock = true := by
  constructor
  · rintro rfl
    cases h.finds hf with
    | expires hx => exact hx
  · intro hx
    rcases h.finding_cases hf with ⟨-, rfl⟩ | ⟨hnot, -⟩
    · rfl
    · cases hnot.symm.trans hx

/-- **When a cycle finds that a trigger has expired**: exactly if the time to expire of its
definition in force has passed since the start of the arming period that has begun last. That is
when the trigger was armed last, if all its replacements bring the clock of their moments with
them. -/
theorem Run.expires_iff {config : Config} {store : Store} {clock : Instant} {engine : Engine}
    {history past rest : List Moment} {s : System} {m : Moment}
    (h : Engine.start config store clock = .ok engine) (hr : Run (.ofEngine engine) history s)
    (hm : history = past ++ m :: rest) (he : m.event = .decided findings seen)
    (hf : ((id, l), f) ∈ findings) :
    ∃ t start, engine.inForce? id past = some t ∧ engine.periodStart? id past = some start ∧
      (f = .retires none ↔
        ∃ deadline, start.add? t.timeToExpire = some deadline ∧ deadline < m.clock) ∧
      (start.inLeapSecond = false → m.clock.inLeapSecond = false →
        (f = .retires none ↔ (t.timeToExpire.totalNanos : Int) < m.clock.since start)) ∧
      ((∀ n ∈ past, ∀ t t', n.event = .updated t (.ok t') → t.id = id → t.armedAt = n.clock) →
        engine.lastArmed? id past = some start) := by
  subst hm
  obtain ⟨hpast, s', hstep, -⟩ := hr.split
  rw [he] at hstep
  cases hstep with
  | decide _ hdecides =>
    have hl := Findings.find?_of_mem hdecides.about hf
    obtain ⟨hstart, t, ht, k, hk⟩ := hpast.armed_from h hl
    have htime : l.trigger.timeToExpire = t.timeToExpire := by
      rw [hk]
      rfl
    have hexpired : f = .retires none ↔ ∃ deadline,
        l.trigger.armedAt.add? t.timeToExpire = some deadline ∧ deadline < m.clock := by
      rw [hdecides.retires_none_iff hf, Trigger.isExpiredAt_iff, htime]
      rfl
    refine ⟨t, l.trigger.armedAt, ht, hstart, hexpired, fun hleap hleapNow => ?_, fun hsame => ?_⟩
    · exact hexpired.trans (Instant.exists_deadline_iff hleap hleapNow)
    · rw [← engine.periodStart?_eq_lastArmed? hsame, hstart]

namespace Sample

/-- A number of seconds after the start. -/
def later (seconds : Int) : Instant :=
  (Instant.ofWholeSeconds? seconds).getD .epoch

/-- Takes the place of the first trigger. It expires after a minute, and its arming period begins
with the engine. -/
def renewal : Trigger :=
  { created with timeToExpire := replacement.timeToExpire }

/-- The first trigger is replaced after 50 seconds, and 11 more pass. -/
def renewed : List Moment × System :=
  (System.ofEngine engine).play [.create first daily, .setClock (later 50), .update renewal,
    .setClock (later 61)]

theorem isSome_renewed : (renewed.2.engine.armed.find? first).isSome = true := by decide +kernel

/-- The first trigger after its replacement. -/
def hasty : Lifecycle :=
  (renewed.2.engine.armed.find? first).get isSome_renewed

theorem find?_renewed : renewed.2.engine.armed.find? first = some hasty :=
  (Option.some_get isSome_renewed).symm

/-- What a cycle finds then. -/
def verdict : Findings × Scheduler :=
  Engine.survey renewed.2.engine.clock renewed.2.engine.armed.entries renewed.2.engine.scheduler

/-- The keys that it looks up. -/
def sightings : List Sighting :=
  Engine.sightings renewed.2.engine.clock renewed.2.engine.armed.entries renewed.2.engine.scheduler

/-- The moment of the cycle. -/
def deciding : Moment :=
  ⟨renewed.2, .decided verdict.1 sightings⟩

theorem decides_verdict : renewed.2.engine.Decides verdict.1 sightings verdict.2 :=
  .of_survey _

theorem run_verdict : ∃ s, Run (.ofEngine engine) (renewed.1 ++ [deciding]) s :=
  ⟨_, .snoc (.of_play _ _) (.decide (by decide +kernel) decides_verdict)⟩

theorem mem_verdict : ((first, hasty), .retires none) ∈ verdict.1 := by
  obtain ⟨f, hf⟩ := Findings.exists_mem decides_verdict.about find?_renewed
  have hexpired : hasty.trigger.isExpiredAt renewed.2.engine.clock = true := by decide +kernel
  rw [← (decides_verdict.retires_none_iff hf).2 hexpired]
  exact hf

end Sample

/-- A trigger whose arming period began 61 seconds ago, and whose time to expire is a minute. -/
theorem Run.expires_iff_renewed :
    ∃ t start, Sample.engine.inForce? Sample.first Sample.renewed.1 = some t ∧
      Sample.engine.periodStart? Sample.first Sample.renewed.1 = some start ∧
      ∃ deadline, start.add? t.timeToExpire = some deadline ∧
        deadline < Sample.deciding.clock := by
  obtain ⟨s, hr⟩ := Sample.run_verdict
  obtain ⟨t, start, ht, hstart, hexpired, -⟩ :=
    Run.expires_iff Sample.start hr rfl rfl Sample.mem_verdict
  exact ⟨t, start, ht, hstart, hexpired.1 rfl⟩

/-- **A trigger can expire too early**: less than its time to expire after it was armed last, though
the clock never goes back. -/
theorem Run.expires_early :
    ¬ ∀ (config : Config) (store : Store) (clock : Instant) (engine : Engine)
      (history past rest : List Moment) (s : System) (m : Moment) (findings : Findings)
      (seen : List Sighting) (id : Uuid) (l : Lifecycle) (t : Trigger) (armed : Instant),
      Engine.start config store clock = .ok engine → Run (.ofEngine engine) history s →
      history.Pairwise (fun m n => ¬ n.clock < m.clock) →
      history = past ++ m :: rest → m.event = .decided findings seen →
      ((id, l), .retires none) ∈ findings → engine.inForce? id past = some t →
      engine.lastArmed? id past = some armed →
      (t.timeToExpire.totalNanos : Int) < m.clock.since armed := by
  intro hpassed
  obtain ⟨s, hr⟩ := Sample.run_verdict
  have hforce : (Sample.engine.inForce? Sample.first Sample.renewed.1).map (·.timeToExpire) =
      some (Duration.ofSecs 60) := by decide +kernel
  obtain ⟨t, ht, htime⟩ := Option.map_eq_some_iff.1 hforce
  have harmed : Sample.engine.lastArmed? Sample.first Sample.renewed.1 =
      some (Sample.later 50) := by decide +kernel
  have hlate := hpassed _ _ _ _ _ _ _ _ _ _ _ _ _ _ _ Sample.start hr (by decide +kernel) rfl rfl
    Sample.mem_verdict ht harmed
  rw [htime] at hlate
  have hshort : ¬ (((Duration.ofSecs 60).totalNanos : Int) <
      Sample.deciding.clock.since (Sample.later 50)) := by decide +kernel
  exact hshort hlate

end Lookout
