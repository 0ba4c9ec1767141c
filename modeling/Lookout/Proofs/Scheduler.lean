import Lookout.Proofs.Cache
import Lookout.Proofs.KeyOrder
import Lookout.Scheduler

/-!
# Pending keys

* `Scheduler.WellFormed`: no pending key has an entry in the cache, and the pending keys are not too
  many. Each operation of the scheduler keeps it.
* `mem_pending_submit`, `mem_pending_forget`, `mem_pending_confirm`: what becomes of pending keys.
* `CacheShrinks`: the operations that add no entry to the cache.
-/

namespace Lookout

namespace Scheduler

variable {s s' : Scheduler} {now : Instant} {j k : CheckKey} {keys : List CheckKey}
  {n : Nat}

/-- No pending key has an entry in the cache, and at most `n` keys may be pending. -/
structure WellFormed (s : Scheduler) (n : Nat) : Prop where
  uncached : ∀ k ∈ s.pending, k ∉ s.cache.keys
  bounded : s.pending.length ≤ n
  capacity : s.capacity = n

theorem WellFormed.new {c : Cache} : (Scheduler.new c n).WellFormed n :=
  ⟨fun _ h => absurd h List.not_mem_nil, Nat.zero_le _, rfl⟩

/-- Pending keys may become fewer, and so may the entries of the cache. -/
theorem WellFormed.mono (hs : s.WellFormed n) (hp : s'.pending.Sublist s.pending)
    (hc : ∀ k ∈ s'.pending, k ∈ s'.cache.keys → k ∈ s.cache.keys) (hn : s'.capacity = s.capacity) :
    s'.WellFormed n :=
  ⟨fun k hk hk' => hs.uncached k (hp.mem hk) (hc k hk hk'),
    Nat.le_trans hp.length_le hs.bounded, hn.trans hs.capacity⟩

/-! ## Look-ups -/

theorem lookup_eq {b : Bool} (h : s.lookup now k = (b, s')) :
    s.cache.get now k = (b, s'.cache) ∧ s'.pending = s.pending ∧ s'.capacity = s.capacity := by
  unfold lookup at h
  cases hg : s.cache.get now k with
  | mk found cache =>
    rw [hg] at h
    cases h
    exact ⟨rfl, rfl, rfl⟩

theorem WellFormed.lookup {b : Bool} (hs : s.WellFormed n) (h : s.lookup now k = (b, s')) :
    s'.WellFormed n := by
  obtain ⟨hg, hp, hn⟩ := lookup_eq h
  exact hs.mono (hp ▸ .refl _) (fun j _ hj => Cache.mem_keys_of_get hg hj) hn

/-! ## Submissions -/

/-- A submission looks its key up; if the key is not found, it becomes pending unless it is so
already or too many keys are. -/
theorem submit_cases (s : Scheduler) (now : Instant) (k : CheckKey) :
    ∃ b s₁, s.lookup now k = (b, s₁) ∧
      ((s.submit now k).2 = s₁ ∨
        b = false ∧ s₁.pending.length < s₁.capacity ∧
          (s.submit now k).2 = { s₁ with pending := k.insertSorted s₁.pending }) := by
  unfold submit
  cases hl : s.lookup now k with
  | mk b s₁ =>
    refine ⟨b, s₁, rfl, ?_⟩
    cases b with
    | true => exact .inl rfl
    | false =>
      dsimp only
      split
      · exact .inl rfl
      · split
        · exact .inl rfl
        · rename_i hn
          exact .inr ⟨rfl, Nat.not_le.1 hn, rfl⟩

theorem WellFormed.submit (hs : s.WellFormed n) : (s.submit now k).2.WellFormed n := by
  obtain ⟨b, s₁, hl, h | ⟨rfl, hlt, h⟩⟩ := submit_cases s now k
  · exact h ▸ hs.lookup hl
  · have hs₁ := hs.lookup hl
    rw [h]
    have hle := Nat.le_trans (CheckKey.length_insertSorted_le k s₁.pending) hlt
    refine ⟨fun j hj => ?_, hs₁.capacity ▸ hle, hs₁.capacity⟩
    rcases CheckKey.mem_insertSorted.1 hj with rfl | hj
    · exact Cache.not_mem_keys_of_get (lookup_eq hl).1
    · exact hs₁.uncached j hj

/-- A submission adds at most its key to the pending ones. -/
theorem mem_pending_submit (h : j ∈ (s.submit now k).2.pending) : j = k ∨ j ∈ s.pending := by
  obtain ⟨b, s₁, hl, hs | ⟨-, -, hs⟩⟩ := submit_cases s now k <;> rw [hs] at h
  · exact .inr ((lookup_eq hl).2.1 ▸ h)
  · exact (lookup_eq hl).2.1 ▸ CheckKey.mem_insertSorted.1 h

/-- A submission withdraws no key. -/
theorem pending_subset_submit (h : j ∈ s.pending) : j ∈ (s.submit now k).2.pending := by
  obtain ⟨b, s₁, hl, hs | ⟨-, -, hs⟩⟩ := submit_cases s now k <;> rw [hs]
  · rw [(lookup_eq hl).2.1]
    exact h
  · refine CheckKey.mem_insertSorted.2 (.inr ?_)
    rw [(lookup_eq hl).2.1]
    exact h

/-! ## Withdrawals -/

/-- Withdrawn keys are no longer pending; nothing else changes. -/
theorem forget_eq (s : Scheduler) (keys : List CheckKey) :
    (s.forget keys).2 = { s with pending := s.pending.filter (· ∉ keys) } := by
  induction keys generalizing s with
  | nil =>
    rw [List.filter_eq_self.2 (by simp)]
    rfl
  | cons k rest ih =>
    have hf : (s.forget (k :: rest)).2 = ((s.forgetOne k).2.forget rest).2 := rfl
    rw [hf, ih]
    simp only [forgetOne, without, List.filter_filter, mk.injEq, and_true, true_and]
    refine List.filter_congr fun j _ => ?_
    by_cases hj : j = k <;> simp [hj]

theorem mem_pending_forget : j ∈ (s.forget keys).2.pending ↔ j ∈ s.pending ∧ j ∉ keys := by
  rw [forget_eq]
  simp

theorem WellFormed.forget (hs : s.WellFormed n) : (s.forget keys).2.WellFormed n := by
  rw [forget_eq]
  exact hs.mono List.filter_sublist (fun _ _ h => h) rfl

/-! ## Polls -/

theorem mem_pending_confirm : j ∈ (s.confirm now k).pending ↔ j ∈ s.pending ∧ j ≠ k := by
  unfold confirm without
  rw [List.mem_filter, bne_iff_ne]

theorem WellFormed.confirm (hs : s.WellFormed n) : (s.confirm now k).WellFormed n := by
  refine ⟨fun j hj hj' => ?_, Nat.le_trans (List.length_filter_le _ _) hs.bounded, hs.capacity⟩
  obtain ⟨hj, hne⟩ := mem_pending_confirm.1 hj
  rcases Cache.mem_keys_put hj' with h | h
  · exact hne h
  · exact hs.uncached j hj h

theorem WellFormed.beginPoll (hs : s.WellFormed n) : (s.beginPoll now).2.WellFormed n :=
  hs.mono (.refl _) (fun _ _ h => Cache.mem_keys_of_purge h) rfl

/-! ## Entries of the cache -/

/-- No entry is added to the cache, and entries count for as long as before. -/
structure CacheShrinks (s s' : Scheduler) : Prop where
  entries : ∀ e ∈ s'.cache.entries, e ∈ s.cache.entries
  timeToLive : s'.cache.timeToLive = s.cache.timeToLive

theorem CacheShrinks.refl (s : Scheduler) : CacheShrinks s s :=
  ⟨fun _ h => h, rfl⟩

theorem CacheShrinks.trans {s₁ s₂ s₃ : Scheduler} (h : CacheShrinks s₁ s₂)
    (h' : CacheShrinks s₂ s₃) : CacheShrinks s₁ s₃ :=
  ⟨fun e he => h.entries e (h'.entries e he), h'.timeToLive.trans h.timeToLive⟩

theorem cacheShrinks_lookup {b : Bool} (h : s.lookup now k = (b, s')) : CacheShrinks s s' := by
  obtain ⟨hg, -, -⟩ := lookup_eq h
  exact ⟨fun e he => Cache.mem_of_get hg he, Cache.timeToLive_of_get hg⟩

theorem cacheShrinks_submit (s : Scheduler) (now : Instant) (k : CheckKey) :
    CacheShrinks s (s.submit now k).2 := by
  obtain ⟨b, s₁, hl, h | ⟨-, -, h⟩⟩ := submit_cases s now k <;> rw [h]
  · exact cacheShrinks_lookup hl
  · exact ⟨(cacheShrinks_lookup hl).entries, (cacheShrinks_lookup hl).timeToLive⟩

theorem cacheShrinks_forget (s : Scheduler) (keys : List CheckKey) :
    CacheShrinks s (s.forget keys).2 := by
  rw [forget_eq]
  exact ⟨fun _ h => h, rfl⟩

theorem cacheShrinks_beginPoll (s : Scheduler) (now : Instant) :
    CacheShrinks s (s.beginPoll now).2 :=
  ⟨fun _ h => Cache.mem_of_purge h, rfl⟩

end Scheduler
end Lookout
