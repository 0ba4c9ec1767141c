import Lookout.Proofs.Survey
import Mathlib.Data.Finset.Card
import Mathlib.Data.Finset.Dedup

/-!
# Look-ups at a standing clock

As long as the clock stands still, a look-up changes what the cache holds, but not what it knows: it
drops only entries that do not count at that time. So each trigger finds what it would have found at
the beginning of a cycle, whatever was looked up for others before.

- **Knowledge** (`Cache.knows`): the key has an entry that counts.
- **Look-ups** (`Cache.Consulted`): all that evaluations and surveys do to the cache. They leave the
  knowledge as it is (`Consulted.knows`).
- **Findings** (`Lifecycle.transition`): the state of a trigger, read off the cache at the beginning
  of a cycle. `Engine.survey_fst`: it tells what the cycle finds.
- **Room** (`Scheduler.Within`): the pending keys are among some that are not too many. As long as
  only such keys are submitted, none is dropped, and the pending keys after a survey are those
  before it together with those that are missing (`Engine.mem_pending_survey`).
-/

namespace Lookout

/-! ## What the cache knows -/

namespace Cache

/-- The key has an entry that counts. -/
def knows (c : Cache) (now : Instant) (k : CheckKey) : Bool :=
  (c.confirmedAt? k).any (c.isFresh now)

variable {c : Cache} {now t : Instant} {j k : CheckKey}

theorem lookup_others (j k : CheckKey) (l : List (CheckKey × Instant)) :
    (others j l).lookup k = if k = j then none else l.lookup k := by
  unfold others
  induction l with
  | nil => simp
  | cons e rest ih =>
    obtain ⟨i, t⟩ := e
    rw [List.lookup_cons]
    by_cases hi : i = j
    · rw [List.filter_cons_of_neg (by simp [hi]), ih]
      by_cases hk : k = j
      · simp [hk]
      · rw [if_neg hk, if_neg hk, beq_eq_false_iff_ne.2 (hi ▸ hk)]
    · rw [List.filter_cons_of_pos (by simp [hi]), List.lookup_cons, ih]
      by_cases hk : k = i
      · simp [hk, hi]
      · rw [beq_eq_false_iff_ne.2 hk]

/-- A look-up drops the entry of its key if it does not count. -/
theorem confirmedAt?_get (c : Cache) (now : Instant) (j k : CheckKey) :
    (c.get now j).2.confirmedAt? k =
      if k = j then (c.confirmedAt? k).filter (c.isFresh now) else c.confirmedAt? k := by
  unfold get confirmedAt?
  cases h : c.entries.lookup j with
  | none =>
    by_cases hk : k = j
    · simp [hk, h]
    · simp [hk]
  | some t =>
    by_cases hk : k = j
    · cases hf : c.isFresh now t <;> simp [hk, h, hf, lookup_others, Option.filter_some]
    · cases hf : c.isFresh now t <;>
        simp [hk, hf, lookup_others, List.lookup_cons, beq_eq_false_iff_ne.2 hk]

theorem get_fst (c : Cache) (now : Instant) (k : CheckKey) : (c.get now k).1 = c.knows now k := by
  unfold get knows
  cases h : c.confirmedAt? k with
  | none => rfl
  | some t => cases hf : c.isFresh now t <;> simp [hf]

/-- A look-up at the same time leaves the knowledge as it is. -/
theorem knows_get (c : Cache) (now : Instant) (j k : CheckKey) :
    (c.get now j).2.knows now k = c.knows now k := by
  have hlive : (c.get now j).2.timeToLive = c.timeToLive := by
    cases hg : c.get now j with
    | mk b c' => exact timeToLive_of_get hg
  have hfresh : (c.get now j).2.isFresh now = c.isFresh now := by
    unfold isFresh
    rw [hlive]
  unfold knows
  rw [hfresh, confirmedAt?_get]
  by_cases hk : k = j
  · rw [if_pos hk]
    cases c.confirmedAt? k with
    | none => rfl
    | some t => cases hf : c.isFresh now t <;> simp [hf]
  · rw [if_neg hk]

/-! ## Look-ups -/

/-- What becomes of a cache when keys for which `p` holds are looked up at one time. -/
inductive Consulted (now : Instant) (p : CheckKey → Prop) (c : Cache) : Cache → Prop
  | refl : Consulted now p c c
  | get {c₁ : Cache} {k : CheckKey} (h : Consulted now p c c₁) (hk : p k) :
      Consulted now p c (c₁.get now k).2

variable {c₁ : Cache} {p : CheckKey → Prop}

theorem Consulted.trans (h : c.Consulted now p c₁) (h' : c₁.Consulted now p c₂) :
    c.Consulted now p c₂ := by
  induction h' with
  | refl => exact h
  | get _ hk ih => exact ih.get hk

/-- **Look-ups at one time** leave the knowledge as it is. -/
theorem Consulted.knows (h : c.Consulted now p c₁) (k : CheckKey) :
    c₁.knows now k = c.knows now k := by
  induction h with
  | refl => rfl
  | get _ _ ih => exact (knows_get _ _ _ _).trans ih

end Cache

section Consulting

variable {now : Instant} {p : CheckKey → Prop} {k : CheckKey} {keys : List CheckKey}
  {s : Scheduler}

namespace Scheduler

theorem lookup_fst (s : Scheduler) (now : Instant) (k : CheckKey) :
    (s.lookup now k).1 = s.cache.knows now k :=
  s.cache.get_fst now k

theorem consulted_lookup (s : Scheduler) (now : Instant) (hk : p k) :
    s.cache.Consulted now p (s.lookup now k).2.cache :=
  .get .refl hk

theorem knows_lookup (s : Scheduler) (now : Instant) (j k : CheckKey) :
    (s.lookup now j).2.cache.knows now k = s.cache.knows now k :=
  s.cache.knows_get now j k

theorem consulted_submit (hk : p k) : s.cache.Consulted now p (s.submit now k).2.cache := by
  have hlookup := s.consulted_lookup now hk
  obtain ⟨b, s₁, hl, h | ⟨-, -, h⟩⟩ := submit_cases s now k <;>
  · rw [hl] at hlookup
    rw [h]
    exact hlookup

end Scheduler

namespace Checker

theorem consulted_evaluateKey (hk : p k) :
    s.cache.Consulted now p (evaluateKey now k s).2.cache := by
  have hlookup := s.consulted_lookup now hk
  unfold evaluateKey
  cases hl : s.lookup now k with
  | mk found s₁ =>
    rw [hl] at hlookup
    cases found with
    | true => exact hlookup
    | false => exact hlookup.trans (Scheduler.consulted_submit hk)

theorem consulted_evaluateKeys (h : ∀ k ∈ keys, p k) :
    s.cache.Consulted now p (evaluateKeys now keys s).2.cache := by
  induction keys generalizing s with
  | nil => exact .refl
  | cons k rest ih =>
    exact (consulted_evaluateKey (h k List.mem_cons_self)).trans
      (ih fun j hj => h j (List.mem_cons_of_mem _ hj))

theorem knows_evaluateKey (now : Instant) (j k : CheckKey) (s : Scheduler) :
    (evaluateKey now j s).2.cache.knows now k = s.cache.knows now k :=
  (consulted_evaluateKey (p := fun _ => True) trivial).knows k

theorem evaluateKey_fst (now : Instant) (k : CheckKey) (s : Scheduler) :
    (evaluateKey now k s).1 = s.cache.knows now k := by
  rw [← s.lookup_fst]
  unfold evaluateKey
  cases hl : s.lookup now k with
  | mk found s₁ => cases found <;> rfl

/-- All keys are found if the cache knows all of them at the beginning. -/
theorem evaluateKeys_fst (now : Instant) (keys : List CheckKey) (s : Scheduler) :
    (evaluateKeys now keys s).1 = keys.all (s.cache.knows now) := by
  induction keys generalizing s with
  | nil => rfl
  | cons k rest ih =>
    have hfst : (evaluateKeys now (k :: rest) s).1 =
        ((evaluateKey now k s).1 && (evaluateKeys now rest (evaluateKey now k s).2).1) := rfl
    have hrest : (evaluateKey now k s).2.cache.knows now = s.cache.knows now :=
      funext fun j => knows_evaluateKey now k j s
    rw [hfst, ih, evaluateKey_fst, List.all_cons, hrest]

end Checker

theorem Lifecycle.consulted_find {l : Lifecycle} {id : Uuid} (h : ∀ k ∈ l.checkKeys, p k) :
    s.cache.Consulted now p (l.find id now s).2.cache := by
  cases hx : l.trigger.isExpiredAt now with
  | true =>
    rw [find_of_expired hx]
    exact .refl
  | false =>
    rw [find_of_not_expired hx]
    exact Checker.consulted_evaluateKeys h

theorem Lifecycle.knows_find (l : Lifecycle) (id : Uuid) (now : Instant) (s : Scheduler)
    (k : CheckKey) : (l.find id now s).2.cache.knows now k = s.cache.knows now k :=
  (consulted_find (p := fun _ => True) fun _ _ => trivial).knows k

theorem Engine.consulted_survey {armed : List (Uuid × Lifecycle)}
    (h : ∀ q ∈ armed, ∀ k ∈ q.2.checkKeys, p k) :
    s.cache.Consulted now p (survey now armed s).2.cache := by
  induction armed generalizing s with
  | nil => exact .refl
  | cons q rest ih =>
    rw [survey_cons]
    exact (Lifecycle.consulted_find (h q List.mem_cons_self)).trans
      (ih fun q hq => h q (List.mem_cons_of_mem _ hq))

end Consulting

/-! ## What is found -/

/-- The state of a trigger when the cache is `c`. -/
def Lifecycle.transition (l : Lifecycle) (now : Instant) (c : Cache) : Transition :=
  if l.trigger.isExpiredAt now then .expired
  else if l.checkKeys.all (c.knows now) then .satisfied
  else .pending

namespace Lifecycle

variable {l : Lifecycle} {id : Uuid} {now : Instant} {c c' : Cache}

theorem transition_congr (h : ∀ k, c'.knows now k = c.knows now k) :
    l.transition now c' = l.transition now c := by
  have hknows : c'.knows now = c.knows now := funext h
  unfold transition
  rw [hknows]

theorem find_fst (l : Lifecycle) (id : Uuid) (now : Instant) (s : Scheduler) :
    (l.find id now s).1 = l.finding id now (l.transition now s.cache) := by
  unfold transition
  cases hx : l.trigger.isExpiredAt now with
  | true =>
    rw [find_of_expired hx]
    rfl
  | false =>
    rw [find_of_not_expired hx]
    unfold Checker.evaluate
    dsimp only
    rw [Checker.evaluateKeys_fst, if_neg Bool.false_ne_true]
    unfold checkKeys
    split <;> rfl

end Lifecycle

namespace Engine

/-- **Each finding of a survey** follows from the state of its trigger at the beginning. -/
theorem survey_fst (now : Instant) (armed : List (Uuid × Lifecycle)) (s : Scheduler) :
    (survey now armed s).1 =
      armed.map fun p => (p, p.2.finding p.1 now (p.2.transition now s.cache)) := by
  induction armed generalizing s with
  | nil => rfl
  | cons p rest ih =>
    rw [survey_cons, ih, p.2.find_fst, List.map_cons]
    refine congrArg _ (List.map_congr_left fun q _ => ?_)
    rw [Lifecycle.transition_congr (p.2.knows_find p.1 now s)]

/-- What a cycle finds about each armed trigger, if it begins now. -/
def found (e : Engine) : Findings :=
  e.armed.entries.map fun p =>
    (p, p.2.finding p.1 e.clock (p.2.transition e.clock e.scheduler.cache))

variable {e : Engine} {id : Uuid} {l : Lifecycle} {f : Finding}

theorem beginCycle_eq (e : Engine) :
    e.beginCycle = (e.found.report, e.found.followups,
      e.conclude e.found (survey e.clock e.armed.entries e.scheduler).2) := by
  unfold beginCycle found
  rw [← survey_fst]

theorem about_found (e : Engine) : e.found.About e.armed := by
  unfold Findings.About found
  rw [List.map_map]
  exact .of_eq (List.map_id _)

theorem mem_found :
    ((id, l), f) ∈ e.found ↔ e.armed.find? id = some l ∧
      f = l.finding id e.clock (l.transition e.clock e.scheduler.cache) := by
  unfold found
  rw [List.mem_map, ← IdMap.mem_entries_iff]
  constructor
  · rintro ⟨p, hp, he⟩
    cases he
    exact ⟨hp, rfl⟩
  · rintro ⟨hp, rfl⟩
    exact ⟨(id, l), hp, rfl⟩

/-- Which triggers are armed once a cycle has been decided. -/
theorem find?_conclude_found (e : Engine) (scheduler : Scheduler) (id : Uuid) :
    (e.conclude e.found scheduler).armed.find? id = (e.armed.find? id).bind fun l =>
      (l.finding id e.clock (l.transition e.clock e.scheduler.cache)).next? l := by
  cases hl : e.armed.find? id with
  | none => exact Findings.find?_applyTo_of_none e.about_found hl
  | some l => exact Findings.find?_applyTo e.about_found (mem_found.2 ⟨hl, rfl⟩)

end Engine

/-! ## Room for pending keys -/

namespace Scheduler

/-- The pending keys are in ascending order and among the keys of `W`, which may all be pending at
the same time. -/
structure Within (s : Scheduler) (W : Finset CheckKey) : Prop where
  ascending : CheckKey.Ascending s.pending
  subset : ∀ k ∈ s.pending, k ∈ W
  card_le : W.card ≤ s.capacity

variable {s s' : Scheduler} {W : Finset CheckKey} {now : Instant} {j k : CheckKey}

theorem Within.of_pending_eq (h : s.Within W) (hp : s'.pending = s.pending)
    (hn : s'.capacity = s.capacity) : s'.Within W :=
  ⟨hp ▸ h.ascending, hp ▸ h.subset, hn ▸ h.card_le⟩

/-- One more key of `W` finds room. -/
theorem Within.length_lt (h : s.Within W) (hk : k ∈ W) (hn : k ∉ s.pending) :
    s.pending.length < s.capacity := by
  have hsubset : (k :: s.pending).toFinset ⊆ W := by
    intro i hi
    rcases List.mem_cons.1 (List.mem_toFinset.1 hi) with rfl | hi
    · exact hk
    · exact h.subset i hi
  have hle := Finset.card_le_card hsubset
  rw [List.toFinset_card_of_nodup (List.nodup_cons.2 ⟨hn, h.ascending.nodup⟩)] at hle
  exact Nat.lt_of_lt_of_le hle h.card_le

/-- A key of `W` that is submitted and that the cache does not know is pending afterwards. -/
theorem Within.submit (h : s.Within W) (hk : k ∈ W) (hc : s.cache.knows now k = false) :
    (s.submit now k).2.Within W ∧
      ∀ j, j ∈ (s.submit now k).2.pending ↔ j ∈ s.pending ∨ j = k := by
  unfold Scheduler.submit
  cases hl : s.lookup now k with
  | mk found s₁ =>
    obtain ⟨-, hp, hn⟩ := lookup_eq hl
    have hfound : found = false := by rw [← hc, ← s.lookup_fst, hl]
    subst hfound
    have h₁ := h.of_pending_eq hp hn
    dsimp only
    split
    · rename_i hpending
      have hmem : k ∈ s.pending := hp ▸ List.contains_iff_mem.1 hpending
      refine ⟨h₁, fun j => ?_⟩
      rw [hp]
      exact ⟨.inl, fun hj => hj.elim id fun hj => hj ▸ hmem⟩
    · rename_i hpending
      have hnot : k ∉ s₁.pending := fun hmem => hpending (List.contains_iff_mem.2 hmem)
      rw [if_neg (Nat.not_le.2 (h₁.length_lt hk hnot))]
      refine ⟨⟨h₁.ascending.insertSorted k, fun j hj => ?_, h₁.card_le⟩, fun j => ?_⟩
      · rcases CheckKey.mem_insertSorted.1 hj with rfl | hj
        · exact hk
        · exact h₁.subset j hj
      · dsimp only
        rw [CheckKey.mem_insertSorted, hp, or_comm]

end Scheduler

namespace Checker

open Scheduler

variable {s : Scheduler} {W : Finset CheckKey} {now : Instant}

theorem within_evaluateKey {k : CheckKey} (h : s.Within W)
    (hk : s.cache.knows now k = false → k ∈ W) :
    (evaluateKey now k s).2.Within W ∧ ∀ j, j ∈ (evaluateKey now k s).2.pending ↔
      j ∈ s.pending ∨ j = k ∧ s.cache.knows now k = false := by
  unfold evaluateKey
  cases hl : s.lookup now k with
  | mk found s₁ =>
    obtain ⟨-, hp, hn⟩ := lookup_eq hl
    have h₁ := h.of_pending_eq hp hn
    have hfound : found = s.cache.knows now k := by rw [← s.lookup_fst, hl]
    have hs₁ : s₁.cache.knows now k = s.cache.knows now k := by
      rw [← s.knows_lookup now k k, hl]
    cases hc : s.cache.knows now k with
    | true =>
      rw [hc] at hfound
      subst hfound
      exact ⟨h₁, fun j => by simp [hp]⟩
    | false =>
      rw [hc] at hfound hs₁
      subst hfound
      obtain ⟨hw, hmem⟩ := h₁.submit (hk hc) hs₁
      exact ⟨hw, fun j => by rw [hmem, hp]; simp⟩

/-- The keys that are looked up and not known become pending; all others stay as they were. -/
theorem within_evaluateKeys {keys : List CheckKey} (h : s.Within W)
    (hkeys : ∀ k ∈ keys, s.cache.knows now k = false → k ∈ W) :
    (evaluateKeys now keys s).2.Within W ∧ ∀ j, j ∈ (evaluateKeys now keys s).2.pending ↔
      j ∈ s.pending ∨ j ∈ keys ∧ s.cache.knows now j = false := by
  induction keys generalizing s with
  | nil => exact ⟨h, fun j => by simp [evaluateKeys]⟩
  | cons k rest ih =>
    obtain ⟨h₁, hmem₁⟩ := within_evaluateKey h (hkeys k List.mem_cons_self)
    have hrest : ∀ j ∈ rest, (evaluateKey now k s).2.cache.knows now j = false → j ∈ W := by
      intro j hj
      rw [knows_evaluateKey]
      exact hkeys j (List.mem_cons_of_mem _ hj)
    obtain ⟨h₂, hmem₂⟩ := ih h₁ hrest
    refine ⟨h₂, fun j => (hmem₂ j).trans ?_⟩
    rw [hmem₁, knows_evaluateKey, List.mem_cons, or_and_right, or_assoc]
    refine or_congr_right (or_congr_left ?_)
    exact and_congr_right fun hj => by rw [hj]

end Checker

namespace Engine

/-- The keys that a cycle looks up without finding them. -/
def missing (now : Instant) (armed : List (Uuid × Lifecycle)) (c : Cache) : List CheckKey :=
  (armed.filter fun p => !p.2.trigger.isExpiredAt now).flatMap fun p =>
    p.2.checkKeys.filter fun k => !c.knows now k

variable {now : Instant} {armed : List (Uuid × Lifecycle)} {s : Scheduler} {W : Finset CheckKey}

theorem mem_missing {c : Cache} {k : CheckKey} :
    k ∈ missing now armed c ↔ ∃ p ∈ armed, p.2.trigger.isExpiredAt now = false ∧
      k ∈ p.2.checkKeys ∧ c.knows now k = false := by
  unfold missing
  simp only [List.mem_flatMap, List.mem_filter, Bool.not_eq_true', and_assoc]

/-- **The pending keys after a survey** are those before it and those that are missing, if there is
room for them. -/
theorem mem_pending_survey (h : s.Within W)
    (hmissing : ∀ k ∈ missing now armed s.cache, k ∈ W) :
    (survey now armed s).2.Within W ∧ ∀ j, j ∈ (survey now armed s).2.pending ↔
      j ∈ s.pending ∨ j ∈ missing now armed s.cache := by
  induction armed generalizing s with
  | nil => exact ⟨h, fun j => by simp [survey, missing]⟩
  | cons p rest ih =>
    obtain ⟨id, l⟩ := p
    rw [survey_cons]
    have hfind : (l.find id now s).2.Within W ∧ ∀ j, j ∈ (l.find id now s).2.pending ↔
        j ∈ s.pending ∨ l.trigger.isExpiredAt now = false ∧ j ∈ l.checkKeys ∧
          s.cache.knows now j = false := by
      cases hx : l.trigger.isExpiredAt now with
      | true =>
        rw [Lifecycle.find_of_expired hx]
        exact ⟨h, fun j => by simp⟩
      | false =>
        rw [Lifecycle.find_of_not_expired hx]
        have hkeys : ∀ k ∈ l.checkKeys, s.cache.knows now k = false → k ∈ W := by
          intro k hk hc
          exact hmissing k (mem_missing.2 ⟨(id, l), List.mem_cons_self, hx, hk, hc⟩)
        obtain ⟨hw, hmem⟩ := Checker.within_evaluateKeys h hkeys
        exact ⟨hw, fun j => (hmem j).trans (by simp [Lifecycle.checkKeys])⟩
    obtain ⟨h₁, hmem₁⟩ := hfind
    have hrest : ∀ j, j ∈ missing now rest (l.find id now s).2.cache ↔
        j ∈ missing now rest s.cache := by
      intro j
      simp only [mem_missing, l.knows_find]
    obtain ⟨h₂, hmem₂⟩ := ih h₁ fun k hk => by
      obtain ⟨p, hp, hrest⟩ := mem_missing.1 ((hrest k).1 hk)
      exact hmissing k (mem_missing.2 ⟨p, List.mem_cons_of_mem _ hp, hrest⟩)
    refine ⟨h₂, fun j => (hmem₂ j).trans ?_⟩
    rw [hmem₁, hrest, mem_missing, mem_missing, List.exists_mem_cons_iff, or_assoc]

end Engine
end Lookout
