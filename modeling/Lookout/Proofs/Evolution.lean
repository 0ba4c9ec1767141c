import Lookout.Proofs.Course

/-!
# How a scheduler evolves

Whatever happens to an engine, its scheduler goes through look-ups, submissions, withdrawals,
confirmations and purges only (`Step.evolves`). So what these keep holds at any time.

- `Scheduler.Tidy`: the pending keys are in ascending order; no key has two entries in the cache,
  which has room for as many as it was made for, and whose entries count at the time of their
  confirmation.
-/

namespace Lookout

namespace Scheduler

/-- Operations of a scheduler, one after the other. -/
inductive Evolves (s : Scheduler) : Scheduler → Prop
  | refl : Evolves s s
  | lookup {s₁ : Scheduler} (now : Instant) (k : CheckKey) (h : Evolves s s₁) :
      Evolves s (s₁.lookup now k).2
  | submit {s₁ : Scheduler} (now : Instant) (k : CheckKey) (h : Evolves s s₁) :
      Evolves s (s₁.submit now k).2
  | forget {s₁ : Scheduler} (keys : List CheckKey) (h : Evolves s s₁) :
      Evolves s (s₁.forget keys).2
  | confirm {s₁ : Scheduler} (now : Instant) (k : CheckKey) (h : Evolves s s₁) :
      Evolves s (s₁.confirm now k)
  | beginPoll {s₁ : Scheduler} (now : Instant) (h : Evolves s s₁) :
      Evolves s (s₁.beginPoll now).2

theorem Evolves.trans {s s₁ s₂ : Scheduler} (h : Evolves s s₁) (h' : Evolves s₁ s₂) :
    Evolves s s₂ := by
  induction h' with
  | refl => exact h
  | lookup now k _ ih => exact .lookup now k ih
  | submit now k _ ih => exact .submit now k ih
  | forget keys _ ih => exact .forget keys ih
  | confirm now k _ ih => exact .confirm now k ih
  | beginPoll now _ ih => exact .beginPoll now ih

theorem Evaluates.evolves {keys : List CheckKey} {s s' : Scheduler}
    {found : List (CheckKey × Instant)} {all : Bool} (h : Evaluates keys s found all s') :
    Evolves s s' := by
  induction h with
  | nil s => exact .refl
  | @hit k rest s s₁ s' found all now hl _ ih =>
    have hlookup : Evolves s (s.lookup now k).2 := .lookup now k .refl
    rw [hl] at hlookup
    exact hlookup.trans ih
  | @miss k rest s s₁ s' found all now later hl _ ih =>
    have hlookup : Evolves s (s.lookup now k).2 := .lookup now k .refl
    rw [hl] at hlookup
    exact (hlookup.submit later k).trans ih

end Scheduler

namespace Engine

open Scheduler

theorem Surveys.evolves {now : Instant} {armed : List (Uuid × Lifecycle)} {s s' : Scheduler}
    {findings : Findings} {seen : List Sighting} (h : Surveys now armed s findings seen s') :
    Evolves s s' := by
  induction h with
  | nil s => exact .refl
  | expired _ _ ih => exact ih
  | waits _ he _ ih => exact he.evolves.trans ih
  | fulfils _ he _ ih => exact he.evolves.trans ih

theorem evolves_withdrawn (previous : List Lifecycle) (armed : IdMap Lifecycle) (s : Scheduler) :
    Evolves s (withdrawn previous armed s) := by
  induction previous generalizing s with
  | nil => exact .refl
  | cons l rest ih => exact (Evolves.forget _ .refl).trans (ih _)

end Engine

/-- **A step** lets the scheduler evolve. -/
theorem Step.evolves {s s' : System} {e : Event} (hs : Step s e s') :
    s.engine.scheduler.Evolves s'.engine.scheduler := by
  cases hs.effect with
  | idle => exact .refl
  | create => exact .refl
  | update => exact Engine.evolves_withdrawn _ _ _
  | remove => exact Engine.evolves_withdrawn _ _ _
  | decide _ hdecides =>
    obtain ⟨order, -, hsurvey⟩ := hdecides
    exact hsurvey.evolves.trans (Engine.evolves_withdrawn _ _ _)
  | fire => exact .refl
  | @settle f =>
    obtain ⟨store, he⟩ := s.engine.settle_eq f
    rw [he]
    exact .refl
  | beginPoll => exact .beginPoll _ .refl
  | @answer k rest a =>
    rcases a with _ | _ | _
    · exact .refl
    · exact .refl
    · exact .confirm _ k .refl

/-- **In a course** the scheduler evolves. -/
theorem Course.evolves {s₀ s : System} {history : List Moment} (hr : Course s₀ history s) :
    s₀.engine.scheduler.Evolves s.engine.scheduler := by
  induction hr with
  | nil => exact .refl
  | step _ hs ih => exact ih.trans hs.evolves
  | load _ ih => rwa [Engine.scheduler_load]
  | cutShort _ ih => exact ih

/-! ## Distinct entries -/

namespace Cache

/-- No key has two entries, there is room for `n` of them, and an entry counts at its own time. -/
structure Tidy (c : Cache) (n : Nat) : Prop where
  distinct : c.keys.Nodup
  capacity : n ≤ c.capacity
  timeToLive : 0 ≤ c.timeToLive

variable {c : Cache} {n : Nat} {now : Instant} {k : CheckKey}

theorem Tidy.new {maxEntries : Nat} {ttl : Duration} : (Cache.new maxEntries ttl).Tidy maxEntries :=
  ⟨List.nodup_nil, Nat.le_max_right _ _, Int.natCast_nonneg _⟩

theorem Tidy.mono {m : Nat} (h : c.Tidy n) (hm : m ≤ n) : c.Tidy m :=
  ⟨h.distinct, Nat.le_trans hm h.capacity, h.timeToLive⟩

theorem keys_others_sublist (k : CheckKey) (l : List (CheckKey × Instant)) :
    ((others k l).map Prod.fst).Sublist (l.map Prod.fst) :=
  List.filter_sublist.map Prod.fst

theorem not_mem_keys_others (k : CheckKey) (l : List (CheckKey × Instant)) :
    k ∉ (others k l).map Prod.fst := by
  intro h
  obtain ⟨e, he, rfl⟩ := List.mem_map.1 h
  exact (mem_others_iff.1 he).2 rfl

theorem Tidy.get (h : c.Tidy n) : (c.get now k).2.Tidy n := by
  obtain ⟨-, hg⟩ | ⟨t, -, -, hg⟩ | ⟨t, -, -, hg⟩ := get_cases c now k <;> rw [hg]
  · exact h
  · have hnodup := h.distinct.sublist (keys_others_sublist k c.entries)
    exact ⟨List.nodup_cons.2 ⟨not_mem_keys_others k c.entries, hnodup⟩, h.capacity, h.timeToLive⟩
  · exact ⟨h.distinct.sublist (keys_others_sublist k c.entries), h.capacity, h.timeToLive⟩

theorem Tidy.put (h : c.Tidy n) : (c.put now k).Tidy n := by
  refine ⟨List.nodup_cons.2 ?_, h.capacity, h.timeToLive⟩
  split
  · exact ⟨not_mem_keys_others k c.entries, h.distinct.sublist (keys_others_sublist k c.entries)⟩
  · rename_i hnone
    have hk : k ∉ c.keys := by
      rw [Option.not_isSome_iff_eq_none] at hnone
      exact confirmedAt?_eq_none_iff.1 hnone
    split
    · have hsub : (c.entries.dropLast.map Prod.fst).Sublist c.keys :=
        (List.dropLast_sublist _).map Prod.fst
      exact ⟨fun hmem => hk (hsub.mem hmem), h.distinct.sublist hsub⟩
    · exact ⟨hk, h.distinct⟩

theorem Tidy.purge (h : c.Tidy n) : (c.purge now).2.Tidy n :=
  ⟨h.distinct.sublist (List.filter_sublist.map Prod.fst), h.capacity, h.timeToLive⟩

end Cache

namespace Scheduler

/-- The pending keys are in ascending order, and the cache for at least `n` entries is tidy. -/
structure Tidy (s : Scheduler) (n : Nat) : Prop where
  ascending : CheckKey.Ascending s.pending
  cache : s.cache.Tidy n

variable {s s' : Scheduler} {n : Nat} {now : Instant} {k : CheckKey}

theorem Tidy.lookup (h : s.Tidy n) (now : Instant) (k : CheckKey) : (s.lookup now k).2.Tidy n :=
  ⟨h.ascending, h.cache.get⟩

theorem Tidy.submit (h : s.Tidy n) : (s.submit now k).2.Tidy n := by
  have hlookup := h.lookup now k
  obtain ⟨b, s₁, hl, hs | ⟨-, -, hs⟩⟩ := submit_cases s now k <;> rw [hl] at hlookup <;> rw [hs]
  · exact hlookup
  · exact ⟨hlookup.ascending.insertSorted k, hlookup.cache⟩

/-- **A scheduler stays tidy.** -/
theorem Tidy.of_evolves (h : s.Tidy n) (he : s.Evolves s') : s'.Tidy n := by
  induction he with
  | refl => exact h
  | lookup now k _ ih => exact ih.lookup now k
  | submit now k _ ih => exact ih.submit
  | forget keys _ ih =>
    rw [forget_eq]
    exact ⟨ih.ascending.sublist List.filter_sublist, ih.cache⟩
  | confirm now k _ ih => exact ⟨ih.ascending.sublist List.filter_sublist, ih.cache.put⟩
  | beginPoll now _ ih => exact ⟨ih.ascending, ih.cache.purge⟩

theorem Tidy.new {maxEntries capacity : Nat} {ttl : Duration} :
    (Scheduler.new (Cache.new maxEntries ttl) capacity).Tidy maxEntries :=
  ⟨List.Pairwise.nil, .new⟩

end Scheduler
end Lookout
