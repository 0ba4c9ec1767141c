import Lookout.Engine.Cycle
import Lookout.Proofs.Arming
import Lookout.Proofs.Findings
import Lookout.Proofs.Scheduler

/-!
# Surveys while the clock moves

A cycle looks up the keys of all armed triggers. Each look-up takes a clock reading of its own, and
nothing is known of these readings: they may differ, and go backwards too.

* `Scheduler.Evaluates`: looks keys up one after the other, and submits those that are not found.
* `Engine.Surveys`: what a cycle finds about armed triggers, and the keys that it has found for them
  (`Sighting`).
* `Surveys.of_survey`: a survey at a standing clock is one of these.
* `Surveys.exists_sighting`, `Surveys.mem_pending`: what the keys of a trigger tell when it has been
  surveyed.
* `Lifecycle.Finds`: what can be found about one trigger, whatever the cache holds.
* `Engine.Decides`: what a cycle may find, in whatever order it looks at the armed triggers.
-/

namespace Lookout

/-! ## Looking up keys -/

namespace Scheduler

/-- Looks keys up one after the other, each at a reading of its own, and submits those that are not
found; tells which keys were found as of when, and whether all were. -/
inductive Evaluates :
    List CheckKey → Scheduler → List (CheckKey × Instant) → Bool → Scheduler → Prop
  | nil (s : Scheduler) : Evaluates [] s [] true s
  | hit {k : CheckKey} {rest : List CheckKey} {s s₁ s' : Scheduler}
      {found : List (CheckKey × Instant)} {all : Bool} (now : Instant)
      (hl : s.lookup now k = (true, s₁)) (hr : Evaluates rest s₁ found all s') :
      Evaluates (k :: rest) s ((k, now) :: found) all s'
  | miss {k : CheckKey} {rest : List CheckKey} {s s₁ s' : Scheduler}
      {found : List (CheckKey × Instant)} {all : Bool} (now later : Instant)
      (hl : s.lookup now k = (false, s₁)) (hr : Evaluates rest (s₁.submit later k).2 found all s') :
      Evaluates (k :: rest) s found false s'

/-- The keys that are found at a standing clock. -/
def foundKeys (now : Instant) : List CheckKey → Scheduler → List (CheckKey × Instant)
  | [], _ => []
  | k :: rest, s =>
    match s.lookup now k with
    | (true, s) => (k, now) :: foundKeys now rest s
    | (false, s) => foundKeys now rest (s.submit now k).2

namespace Evaluates

variable {keys : List CheckKey} {s s' : Scheduler} {found : List (CheckKey × Instant)} {all : Bool}
  {j k : CheckKey} {t : Instant} {n : Nat}

/-- Looking keys up at a standing clock. -/
theorem of_evaluateKeys (now : Instant) (keys : List CheckKey) (s : Scheduler) :
    Evaluates keys s (foundKeys now keys s) (Checker.evaluateKeys now keys s).1
      (Checker.evaluateKeys now keys s).2 := by
  induction keys generalizing s with
  | nil => exact .nil s
  | cons k rest ih =>
    simp only [Checker.evaluateKeys, Checker.evaluateKey, foundKeys]
    cases hl : s.lookup now k with
    | mk b s₁ =>
      cases b with
      | true => exact .hit now hl (ih s₁)
      | false => exact .miss now now hl (ih (s₁.submit now k).2)

theorem cacheShrinks (h : Evaluates keys s found all s') : CacheShrinks s s' := by
  induction h with
  | nil s => exact .refl s
  | hit now hl _ ih => exact (cacheShrinks_lookup hl).trans ih
  | miss now later hl _ ih =>
    exact ((cacheShrinks_lookup hl).trans (cacheShrinks_submit _ later _)).trans ih

theorem wellFormed (h : Evaluates keys s found all s') (hs : s.WellFormed n) : s'.WellFormed n := by
  induction h with
  | nil s => exact hs
  | hit now hl _ ih => exact ih (hs.lookup hl)
  | miss now later hl _ ih => exact ih (hs.lookup hl).submit

/-- Only keys that are looked up become pending. -/
theorem mem_pending (h : Evaluates keys s found all s') (hj : j ∈ s'.pending) :
    j ∈ s.pending ∨ j ∈ keys := by
  induction h with
  | nil s => exact .inl hj
  | hit now hl _ ih =>
    rcases ih hj with h | h
    · exact .inl ((lookup_eq hl).2.1 ▸ h)
    · exact .inr (List.mem_cons_of_mem _ h)
  | miss now later hl _ ih =>
    rcases ih hj with h | h
    · rcases mem_pending_submit h with rfl | h
      · exact .inr List.mem_cons_self
      · exact .inl ((lookup_eq hl).2.1 ▸ h)
    · exact .inr (List.mem_cons_of_mem _ h)

/-- Looking keys up withdraws none. -/
theorem pending_subset (h : Evaluates keys s found all s') (hj : j ∈ s.pending) :
    j ∈ s'.pending := by
  induction h with
  | nil s => exact hj
  | hit now hl _ ih => exact ih ((lookup_eq hl).2.1 ▸ hj)
  | miss now later hl _ ih => exact ih (pending_subset_submit ((lookup_eq hl).2.1 ▸ hj))

/-- If all keys are found, no entry has gone. -/
theorem keys_subset (h : Evaluates keys s found true s') (hj : j ∈ s.cache.keys) :
    j ∈ s'.cache.keys := by
  generalize hall : true = all at h
  induction h with
  | nil s => exact hj
  | hit now hl _ ih => exact ih (Cache.keys_subset_of_get (lookup_eq hl).1 hj) hall
  | miss now later hl _ ih => cases hall

/-- If all keys are found, each has an entry at the end. -/
theorem mem_keys (h : Evaluates keys s found true s') (hk : k ∈ keys) : k ∈ s'.cache.keys := by
  generalize hall : true = all at h
  induction h with
  | nil s => cases hk
  | hit now hl hr ih =>
    subst hall
    rcases List.mem_cons.1 hk with rfl | hk
    · exact hr.keys_subset (Cache.mem_keys_of_get_true (lookup_eq hl).1)
    · exact ih hk rfl
  | miss now later hl _ ih => cases hall

/-- If all keys are found, none of them is pending at the end. -/
theorem not_mem_pending (h : Evaluates keys s found true s') (hs : s.WellFormed n)
    (hk : k ∈ keys) : k ∉ s'.pending :=
  fun hp => (h.wellFormed hs).uncached k hp (h.mem_keys hk)

/-- If all keys are found, each was found as of some reading. -/
theorem mem_found (h : Evaluates keys s found true s') (hk : k ∈ keys) : ∃ t, (k, t) ∈ found := by
  generalize hall : true = all at h
  induction h with
  | nil s => cases hk
  | @hit i _ _ _ _ found _ now hl hr ih =>
    rcases List.mem_cons.1 hk with rfl | hk
    · exact ⟨now, List.mem_cons_self⟩
    · obtain ⟨t, ht⟩ := ih hk hall
      exact ⟨t, List.mem_cons_of_mem _ ht⟩
  | miss now later hl _ ih => cases hall

/-- A key that is found has an entry that counts as of the reading. -/
theorem exists_fresh (h : Evaluates keys s found all s') (hk : (k, t) ∈ found) :
    ∃ c, (k, c) ∈ s.cache.entries ∧ t.since c ≤ s.cache.timeToLive := by
  induction h with
  | nil s => cases hk
  | hit now hl _ ih =>
    have hg := (lookup_eq hl).1
    rcases List.mem_cons.1 hk with he | hk
    · cases he
      obtain ⟨c, hc, hf⟩ := Cache.exists_fresh_of_get hg
      exact ⟨c, hc, of_decide_eq_true hf⟩
    · obtain ⟨c, hc, hf⟩ := ih hk
      exact ⟨c, Cache.mem_of_get hg hc, Cache.timeToLive_of_get hg ▸ hf⟩
  | @miss i _ _ s₁ _ _ _ now later hl _ ih =>
    obtain ⟨c, hc, hf⟩ := ih hk
    have hshrink := (cacheShrinks_lookup hl).trans (cacheShrinks_submit s₁ later i)
    exact ⟨c, hshrink.entries _ hc, hshrink.timeToLive ▸ hf⟩

end Evaluates
end Scheduler

/-! ## What can be found about one trigger -/

namespace Lifecycle

/-- What a cycle may find about a trigger. Only the cache decides between waiting and firing. -/
inductive Finds (l : Lifecycle) (id : Uuid) (now : Instant) : Finding → Prop
  | expires (h : l.trigger.isExpiredAt now = true) : Finds l id now (.retires none)
  | waits (h : l.trigger.isExpiredAt now = false) : Finds l id now .waits
  | retires (h : l.trigger.isExpiredAt now = false) :
      Finds l id now (.retires (some (l.firing id now)))
  | advances {next : Lifecycle} (h : l.trigger.isExpiredAt now = false)
      (hr : l.trigger.recurrence = .recurring) (ha : l.advance now = .ok next) :
      Finds l id now (.advances next (l.firing id now))

theorem finds_fulfil {l : Lifecycle} {id : Uuid} {now : Instant}
    (h : l.trigger.isExpiredAt now = false) : l.Finds id now (l.fulfil id now) := by
  unfold fulfil
  split
  · rename_i next hr ha
    exact .advances h hr ha
  · exact .retires h

theorem find_of_expired {l : Lifecycle} {id : Uuid} {now : Instant} {s : Scheduler}
    (h : l.trigger.isExpiredAt now = true) : l.find id now s = (.retires none, s) := by
  have hp : l.poll now now s = (.expired, s) := by
    unfold poll
    rw [if_pos h]
  unfold find
  rw [hp]
  rfl

theorem find_of_not_expired {l : Lifecycle} {id : Uuid} {now : Instant} {s : Scheduler}
    (h : l.trigger.isExpiredAt now = false) :
    l.find id now s = (if (l.checker.evaluate now s).1 then l.fulfil id now else .waits,
      (l.checker.evaluate now s).2) := by
  unfold find poll
  rw [if_neg (by rw [h]; exact Bool.false_ne_true)]
  rcases l.checker.evaluate now s with ⟨all, s₁⟩
  cases all <;> rfl

end Lifecycle

/-! ## Surveys -/

/-- A key that was found for a trigger, and the reading as of which it was looked up. -/
structure Sighting where
  id : Uuid
  key : CheckKey
  seen : Instant

namespace Engine

/-- Surveys armed triggers one after the other, in a cycle that has begun at `now`; tells what was
found about each, and which keys were found for it. -/
inductive Surveys (now : Instant) :
    List (Uuid × Lifecycle) → Scheduler → Findings → List Sighting → Scheduler → Prop
  | nil (s : Scheduler) : Surveys now [] s [] [] s
  | expired {id : Uuid} {l : Lifecycle} {rest : List (Uuid × Lifecycle)} {s s' : Scheduler}
      {findings : Findings} {seen : List Sighting} (h : l.trigger.isExpiredAt now = true)
      (hr : Surveys now rest s findings seen s') :
      Surveys now ((id, l) :: rest) s (((id, l), .retires none) :: findings) seen s'
  | waits {id : Uuid} {l : Lifecycle} {rest : List (Uuid × Lifecycle)} {s s₁ s' : Scheduler}
      {findings : Findings} {found : List (CheckKey × Instant)} {seen : List Sighting}
      (h : l.trigger.isExpiredAt now = false)
      (he : Scheduler.Evaluates l.checkKeys s found false s₁)
      (hr : Surveys now rest s₁ findings seen s') :
      Surveys now ((id, l) :: rest) s (((id, l), .waits) :: findings)
        (found.map (fun (k, t) => ⟨id, k, t⟩) ++ seen) s'
  | fulfils {id : Uuid} {l : Lifecycle} {rest : List (Uuid × Lifecycle)} {s s₁ s' : Scheduler}
      {findings : Findings} {found : List (CheckKey × Instant)} {seen : List Sighting}
      (h : l.trigger.isExpiredAt now = false)
      (he : Scheduler.Evaluates l.checkKeys s found true s₁)
      (hr : Surveys now rest s₁ findings seen s') :
      Surveys now ((id, l) :: rest) s (((id, l), l.fulfil id now) :: findings)
        (found.map (fun (k, t) => ⟨id, k, t⟩) ++ seen) s'

/-- The keys that a survey finds at a standing clock. -/
def sightings (now : Instant) : List (Uuid × Lifecycle) → Scheduler → List Sighting
  | [], _ => []
  | (id, l) :: rest, s =>
    let others := sightings now rest (l.find id now s).2
    if l.trigger.isExpiredAt now then others
    else (Scheduler.foundKeys now l.checkKeys s).map (fun (k, t) => ⟨id, k, t⟩) ++ others

theorem survey_cons (now : Instant) (id : Uuid) (l : Lifecycle) (rest : List (Uuid × Lifecycle))
    (s : Scheduler) :
    survey now ((id, l) :: rest) s =
      (((id, l), (l.find id now s).1) :: (survey now rest (l.find id now s).2).1,
        (survey now rest (l.find id now s).2).2) := rfl

namespace Surveys

variable {now : Instant} {armed : List (Uuid × Lifecycle)} {s s' : Scheduler} {findings : Findings}
  {seen : List Sighting} {id : Uuid} {l : Lifecycle} {f : Finding} {n : Nat}

/-- **Surveying at a standing clock** is one of the surveys. -/
theorem of_survey (now : Instant) (armed : List (Uuid × Lifecycle)) (s : Scheduler) :
    Surveys now armed s (survey now armed s).1 (sightings now armed s) (survey now armed s).2 := by
  induction armed generalizing s with
  | nil => exact .nil s
  | cons p rest ih =>
    obtain ⟨id, l⟩ := p
    rw [survey_cons]
    unfold sightings
    cases hx : l.trigger.isExpiredAt now with
    | true =>
      rw [Lifecycle.find_of_expired hx]
      exact .expired hx (ih s)
    | false =>
      have he := Scheduler.Evaluates.of_evaluateKeys now l.checkKeys s
      have hr := ih (l.checker.evaluate now s).2
      rw [Lifecycle.find_of_not_expired hx]
      cases hall : (l.checker.evaluate now s).1 with
      | true => exact .fulfils hx (hall ▸ he) hr
      | false => exact .waits hx (hall ▸ he) hr

/-- Each armed trigger is surveyed once, in their order. -/
theorem map_fst (h : Surveys now armed s findings seen s') :
    findings.map Prod.fst = armed := by
  induction h with
  | nil s => rfl
  | expired h _ ih => rw [List.map_cons, ih]
  | waits h he _ ih => rw [List.map_cons, ih]
  | fulfils h he _ ih => rw [List.map_cons, ih]

/-- A trigger that has expired is done. Any other goes on waiting, or it is found that its paths are
all there. -/
theorem finding_cases (h : Surveys now armed s findings seen s') (hf : ((id, l), f) ∈ findings) :
    l.trigger.isExpiredAt now = true ∧ f = .retires none ∨
      l.trigger.isExpiredAt now = false ∧ (f = .waits ∨ f = l.fulfil id now) := by
  induction h with
  | nil s => cases hf
  | expired h _ ih =>
    rcases List.mem_cons.1 hf with he | hf
    · cases he; exact .inl ⟨h, rfl⟩
    · exact ih hf
  | waits h _ _ ih =>
    rcases List.mem_cons.1 hf with he | hf
    · cases he; exact .inr ⟨h, .inl rfl⟩
    · exact ih hf
  | fulfils h _ _ ih =>
    rcases List.mem_cons.1 hf with he | hf
    · cases he; exact .inr ⟨h, .inr rfl⟩
    · exact ih hf

theorem finds (h : Surveys now armed s findings seen s') (hf : ((id, l), f) ∈ findings) :
    l.Finds id now f := by
  rcases h.finding_cases hf with ⟨hx, rfl⟩ | ⟨hx, rfl | rfl⟩
  · exact .expires hx
  · exact .waits hx
  · exact Lifecycle.finds_fulfil hx

theorem cacheShrinks (h : Surveys now armed s findings seen s') :
    Scheduler.CacheShrinks s s' := by
  induction h with
  | nil s => exact .refl s
  | expired _ _ ih => exact ih
  | waits _ he _ ih => exact he.cacheShrinks.trans ih
  | fulfils _ he _ ih => exact he.cacheShrinks.trans ih

theorem wellFormed (h : Surveys now armed s findings seen s') (hs : s.WellFormed n) :
    s'.WellFormed n := by
  induction h with
  | nil s => exact hs
  | expired _ _ ih => exact ih hs
  | waits _ he _ ih => exact ih (he.wellFormed hs)
  | fulfils _ he _ ih => exact ih (he.wellFormed hs)

/-- A survey withdraws no key. -/
theorem pending_subset (h : Surveys now armed s findings seen s') {k : CheckKey}
    (hk : k ∈ s.pending) : k ∈ s'.pending := by
  induction h with
  | nil s => exact hk
  | expired _ _ ih => exact ih hk
  | waits _ he _ ih => exact ih (he.pending_subset hk)
  | fulfils _ he _ ih => exact ih (he.pending_subset hk)

/-- A trigger that fires has all its keys in the cache, each with an entry that counts as of a
reading at which it was looked up. -/
theorem exists_sighting (h : Surveys now armed s findings seen s')
    (hf : ((id, l), f) ∈ findings) (hw : f ≠ .waits) (hx : f ≠ .retires none) {k : CheckKey}
    (hk : k ∈ l.checkKeys) :
    ∃ t c, ⟨id, k, t⟩ ∈ seen ∧ (k, c) ∈ s.cache.entries ∧
      t.since c ≤ s.cache.timeToLive := by
  induction h with
  | nil s => cases hf
  | expired _ _ ih =>
    rcases List.mem_cons.1 hf with he | hf
    · cases he; exact absurd rfl hx
    · exact ih hf
  | waits _ he _ ih =>
    rcases List.mem_cons.1 hf with heq | hf
    · cases heq; exact absurd rfl hw
    · obtain ⟨t, c, ht, hc, hle⟩ := ih hf
      have hshrink := he.cacheShrinks
      exact ⟨t, c, List.mem_append_right _ ht, hshrink.entries _ hc, hshrink.timeToLive ▸ hle⟩
  | fulfils _ he _ ih =>
    rcases List.mem_cons.1 hf with heq | hf
    · cases heq
      obtain ⟨t, ht⟩ := he.mem_found hk
      obtain ⟨c, hc, hle⟩ := he.exists_fresh ht
      exact ⟨t, c, List.mem_append_left _ (List.mem_map.2 ⟨(k, t), ht, rfl⟩), hc, hle⟩
    · obtain ⟨t, c, ht, hc, hle⟩ := ih hf
      have hshrink := he.cacheShrinks
      exact ⟨t, c, List.mem_append_right _ ht, hshrink.entries _ hc, hshrink.timeToLive ▸ hle⟩

/-- Pending keys at the end that are not in `P` are keys of a trigger that does not go on to its
next window: the keys of one that does are in the cache once it has been surveyed, and only the
survey of another trigger can make one of them pending later. -/
theorem mem_pending (h : Surveys now armed s findings seen s') (hs : s.WellFormed n)
    (P : CheckKey → Prop) (hp : ∀ k ∈ s.pending, P k ∨ ∃ p ∈ armed, k ∈ p.2.checkKeys) :
    ∀ k ∈ s'.pending, P k ∨
      ∃ p f, (p, f) ∈ findings ∧ f.advance? = none ∧ k ∈ p.2.checkKeys := by
  induction h generalizing P with
  | nil s =>
    intro k hk
    rcases hp k hk with h | ⟨p, hm, -⟩
    · exact .inl h
    · cases hm
  | @expired id l rest s s' findings _ _ _ ih =>
    have hp' : ∀ k ∈ s.pending, (P k ∨ k ∈ l.checkKeys) ∨ ∃ p ∈ rest, k ∈ p.2.checkKeys := by
      intro k hk
      rcases hp k hk with h | ⟨p, hm, h⟩
      · exact .inl (.inl h)
      · rcases List.mem_cons.1 hm with rfl | hm
        · exact .inl (.inr h)
        · exact .inr ⟨p, hm, h⟩
    intro k hk
    rcases ih hs _ hp' k hk with (h | h) | ⟨p, f, hm, hf, h⟩
    · exact .inl h
    · exact .inr ⟨(id, l), _, List.mem_cons_self, rfl, h⟩
    · exact .inr ⟨p, f, List.mem_cons_of_mem _ hm, hf, h⟩
  | @waits id l rest s s₁ s' findings _ _ _ he _ ih =>
    have hp' : ∀ k ∈ s₁.pending, (P k ∨ k ∈ l.checkKeys) ∨ ∃ p ∈ rest, k ∈ p.2.checkKeys := by
      intro k hk
      rcases he.mem_pending hk with hk | h
      · rcases hp k hk with h | ⟨p, hm, h⟩
        · exact .inl (.inl h)
        · rcases List.mem_cons.1 hm with rfl | hm
          · exact .inl (.inr h)
          · exact .inr ⟨p, hm, h⟩
      · exact .inl (.inr h)
    intro k hk
    rcases ih (he.wellFormed hs) _ hp' k hk with (h | h) | ⟨p, f, hm, hf, h⟩
    · exact .inl h
    · exact .inr ⟨(id, l), _, List.mem_cons_self, rfl, h⟩
    · exact .inr ⟨p, f, List.mem_cons_of_mem _ hm, hf, h⟩
  | @fulfils id l rest s s₁ s' findings _ _ _ he _ ih =>
    have hp' : ∀ k ∈ s₁.pending, P k ∨ ∃ p ∈ rest, k ∈ p.2.checkKeys := by
      intro k hk
      -- All keys of `l` are in the cache here, so `k` is not one of them.
      have hl : k ∉ l.checkKeys := fun h => he.not_mem_pending hs h hk
      rcases he.mem_pending hk with hk | h
      · rcases hp k hk with h | ⟨p, hm, h⟩
        · exact .inl h
        · rcases List.mem_cons.1 hm with rfl | hm
          · exact absurd h hl
          · exact .inr ⟨p, hm, h⟩
      · exact absurd h hl
    intro k hk
    rcases ih (he.wellFormed hs) P hp' k hk with h | ⟨p, f, hm, hf, h⟩
    · exact .inl h
    · exact .inr ⟨p, f, List.mem_cons_of_mem _ hm, hf, h⟩

end Surveys

/-! ## Decisions -/

/-- What a cycle may find about the armed triggers, in whatever order it looks at them. -/
def Decides (e : Engine) (findings : Findings) (seen : List Sighting) (scheduler : Scheduler) :
    Prop :=
  ∃ order, order.Perm e.armed.entries ∧ Surveys e.clock order e.scheduler findings seen scheduler

namespace Decides

variable {e : Engine} {findings : Findings} {seen : List Sighting} {scheduler : Scheduler}
  {id : Uuid} {l : Lifecycle} {f : Finding} {n : Nat}

/-- **What a cycle finds** at a standing clock is one of the things that it may find. -/
theorem of_survey (e : Engine) :
    e.Decides (survey e.clock e.armed.entries e.scheduler).1
      (sightings e.clock e.armed.entries e.scheduler)
      (survey e.clock e.armed.entries e.scheduler).2 :=
  ⟨e.armed.entries, .refl _, .of_survey _ _ _⟩

theorem about (h : e.Decides findings seen scheduler) : findings.About e.armed := by
  obtain ⟨order, horder, hs⟩ := h
  rw [← hs.map_fst] at horder
  exact horder

theorem finding_cases (h : e.Decides findings seen scheduler) (hf : ((id, l), f) ∈ findings) :
    l.trigger.isExpiredAt e.clock = true ∧ f = .retires none ∨
      l.trigger.isExpiredAt e.clock = false ∧ (f = .waits ∨ f = l.fulfil id e.clock) := by
  obtain ⟨order, -, hs⟩ := h
  exact hs.finding_cases hf

theorem finds (h : e.Decides findings seen scheduler) (hf : ((id, l), f) ∈ findings) :
    l.Finds id e.clock f := by
  obtain ⟨order, -, hs⟩ := h
  exact hs.finds hf

/-- The call that follows a finding is for the trigger that the finding is about. -/
theorem triggerId_eq (h : e.Decides findings seen scheduler) {action : Action} {firing : Firing}
    (hf : ((id, l), f) ∈ findings) (ha : f.firing? l = some (action, firing)) :
    firing.triggerId = id := by
  cases h.finds hf <;> cases ha <;> rfl

theorem cacheShrinks (h : e.Decides findings seen scheduler) :
    Scheduler.CacheShrinks e.scheduler scheduler := by
  obtain ⟨order, -, hs⟩ := h
  exact hs.cacheShrinks

theorem wellFormed (h : e.Decides findings seen scheduler) (hw : e.scheduler.WellFormed n) :
    scheduler.WellFormed n := by
  obtain ⟨order, -, hs⟩ := h
  exact hs.wellFormed hw

theorem pending_subset (h : e.Decides findings seen scheduler) {k : CheckKey}
    (hk : k ∈ e.scheduler.pending) : k ∈ scheduler.pending := by
  obtain ⟨order, -, hs⟩ := h
  exact hs.pending_subset hk

theorem exists_sighting (h : e.Decides findings seen scheduler) (hf : ((id, l), f) ∈ findings)
    (hw : f ≠ .waits) (hx : f ≠ .retires none) {k : CheckKey} (hk : k ∈ l.checkKeys) :
    ∃ t c, ⟨id, k, t⟩ ∈ seen ∧ (k, c) ∈ e.scheduler.cache.entries ∧
      t.since c ≤ e.scheduler.cache.timeToLive := by
  obtain ⟨order, -, hs⟩ := h
  exact hs.exists_sighting hf hw hx hk

/-- If armed triggers wait for all pending keys, then triggers that do not go on to their next
windows wait for those that are pending afterwards. -/
theorem mem_pending (h : e.Decides findings seen scheduler) (hw : e.scheduler.WellFormed n)
    (hp : ∀ k ∈ e.scheduler.pending, ∃ id l, e.armed.find? id = some l ∧ k ∈ l.checkKeys)
    {k : CheckKey} (hk : k ∈ scheduler.pending) :
    ∃ id l f, ((id, l), f) ∈ findings ∧ f.advance? = none ∧ k ∈ l.checkKeys := by
  obtain ⟨order, horder, hs⟩ := h
  have hbefore : ∀ k ∈ e.scheduler.pending, False ∨ ∃ p ∈ order, k ∈ p.2.checkKeys := by
    intro k hk
    obtain ⟨id, l, hl, hkl⟩ := hp k hk
    exact .inr ⟨(id, l), horder.mem_iff.2 (IdMap.mem_entries_iff.2 hl), hkl⟩
  rcases hs.mem_pending hw (fun _ => False) hbefore k hk with hfalse | ⟨⟨id, l⟩, f, hrest⟩
  · exact hfalse.elim
  · exact ⟨id, l, f, hrest⟩

end Decides
end Engine
end Lookout
