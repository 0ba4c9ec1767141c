import Lookout.Proofs.Cache
import Mathlib.Data.Finset.Card
import Mathlib.Data.Finset.Dedup
import Mathlib.Data.List.Induction

/-!
# What the existence cache remembers

A cache over any sequence of confirmations, look-ups, removals and purges (`Cache.after`), seen from
its history: which keys have been used (`Cache.uses`), and when a key was last confirmed
(`Cache.LastConfirmed`).

- **Order**: a key in front of another one has been used since the last use of that one
  (`Cache.Recorded`). So the entry that a full cache drops is the one that was used least recently.
- **Evidence**: an entry has the time of the last confirmation of its key, and the key has not been
  removed since.
- **Retention** (`Cache.Kept`): an entry that has counted at each reading of the clock stays until
  as many other keys have been used as the cache has room for.

Readings of the clock may be inside a leap second. Such a reading is up to a second past the
beginning of the next minute, so that an entry can be too old for one reading and count again at a
later one (`Cache.lost_in_leap_second`). `Cache.remembers_recent` says what the cache promises
otherwise.
-/

namespace Lookout

/-! ## Differences of instants -/

namespace Instant

variable {t u v : Instant}

/-- Two instants are never further apart than the longest span. -/
theorem since_le_maxSpan (t u : Instant) : t.since u ≤ maxSpan := by
  have ht := t.day_mem
  have hu := u.day_mem
  have hts := t.second_lt
  have htn := t.nano_lt
  unfold since seconds maxSpan
  unfold Date.minDays Date.maxDays at ht hu
  dsimp only
  split
  · omega
  · split <;> omega

/-- Outside of leap seconds a later instant is further away. -/
theorem since_le_since (ht : t.inLeapSecond = false) (hu : u.inLeapSecond = false)
    (hv : v.inLeapSecond = false) (h : ¬ u < t) : t.since v ≤ u.since v := by
  have hrank : t.rank ≤ u.rank := Int.not_lt.1 h
  unfold since
  simp only [ht, hu, hv, Bool.false_eq_true, and_false, if_false]
  unfold rank at hrank
  unfold inLeapSecond at ht hu
  unfold seconds
  rw [decide_eq_false_iff_not] at ht hu
  omega

end Instant

namespace Cache

/-! ## Histories -/

/-- An operation of the cache. -/
inductive Op
  | put (k : CheckKey)
  | get (k : CheckKey)
  | remove (k : CheckKey)
  | purge
  deriving DecidableEq, Repr

/-- An operation and the reading of the clock at that time. -/
structure Call where
  now : Instant
  op : Op
  deriving DecidableEq, Repr

/-- The cache after an operation. -/
def apply (c : Cache) (call : Call) : Cache :=
  match call.op with
  | .put k => c.put call.now k
  | .get k => (c.get call.now k).2
  | .remove k => (c.remove k).2
  | .purge => (c.purge call.now).2

/-- The cache after operations. -/
def after (c : Cache) (calls : List Call) : Cache :=
  calls.foldl apply c

/-- The key that an operation uses: one that is confirmed, or looked up and found. -/
def used? (c : Cache) (call : Call) : Option CheckKey :=
  match call.op with
  | .put k => some k
  | .get k => if (c.get call.now k).1 then some k else none
  | .remove _ => none
  | .purge => none

/-- The keys that operations use, the last use first. -/
def uses (c : Cache) : List Call → List CheckKey
  | [] => []
  | call :: rest => (c.apply call).uses rest ++ (c.used? call).toList

/-- Of keys that have been used, those since the last use of `k`. -/
def usedSince (k : CheckKey) (used : List CheckKey) : List CheckKey :=
  used.takeWhile (· != k)

/-- The key was last confirmed at `p`, before the operations `rest`, and not removed since. -/
structure LastConfirmed (calls : List Call) (k : CheckKey) (p : Instant) (rest : List Call) :
    Prop where
  split : ∃ before, calls = before ++ ⟨p, .put k⟩ :: rest
  kept : ∀ call ∈ rest, call.op ≠ .put k ∧ call.op ≠ .remove k

variable {c : Cache} {call : Call} {calls rest : List Call} {j k : CheckKey}
  {now p : Instant} {e : CheckKey × Instant} {used : List CheckKey}

theorem after_concat (c : Cache) (calls : List Call) (call : Call) :
    c.after (calls ++ [call]) = (c.after calls).apply call := by
  simp [after]

theorem uses_append (c : Cache) (calls rest : List Call) :
    c.uses (calls ++ rest) = (c.after calls).uses rest ++ c.uses calls := by
  induction calls generalizing c with
  | nil => simp [uses, after]
  | cons call others ih =>
    have hafter : c.after (call :: others) = (c.apply call).after others := rfl
    simp [uses, ih, hafter]

theorem uses_concat (c : Cache) (calls : List Call) (call : Call) :
    c.uses (calls ++ [call]) = ((c.after calls).used? call).toList ++ c.uses calls := by
  rw [uses_append]
  simp [uses]

theorem usedSince_cons_of_ne (h : j ≠ k) : usedSince k (j :: used) = j :: usedSince k used := by
  simp [usedSince, h]

/-! ## One operation -/

@[simp]
theorem capacity_apply (c : Cache) (call : Call) : (c.apply call).capacity = c.capacity := by
  unfold apply
  cases call.op with
  | put k => rfl
  | get k =>
    obtain ⟨-, hg⟩ | ⟨t, -, -, hg⟩ | ⟨t, -, -, hg⟩ := get_cases c call.now k <;> simp [hg]
  | remove k => rfl
  | purge => rfl

@[simp]
theorem timeToLive_apply (c : Cache) (call : Call) : (c.apply call).timeToLive = c.timeToLive := by
  unfold apply
  cases call.op with
  | put k => rfl
  | get k => exact timeToLive_of_get rfl
  | remove k => rfl
  | purge => rfl

theorem length_others_lt (hk : k ∈ c.keys) : (others k c.entries).length < c.entries.length := by
  obtain ⟨t, ht⟩ := mem_keys_iff.1 hk
  exact List.length_filter_lt_length_iff_exists.2 ⟨(k, t), ht, by simp⟩

/-- A confirmation puts an entry of its key in front of old ones of other keys. -/
theorem entries_put (c : Cache) (now : Instant) (k : CheckKey) :
    ∃ rest, (c.put now k).entries = (k, now) :: rest ∧ rest.Sublist c.entries ∧
      (∀ e ∈ rest, e.1 ≠ k) ∧ (c.entries.length ≤ c.capacity → rest.length < c.capacity) := by
  have hother : ∀ {rest : List (CheckKey × Instant)}, k ∉ c.keys → rest.Sublist c.entries →
      ∀ e ∈ rest, e.1 ≠ k :=
    fun hk hsub e he hek => hk (hek ▸ mem_keys_of_mem (hsub.mem he))
  obtain ⟨hk, hp⟩ | ⟨hk, hroom, hp⟩ | ⟨hk, -, front, last, he, hp⟩ := put_cases c now k
  · have hlt := length_others_lt hk
    exact ⟨others k c.entries, hp, List.filter_sublist, fun e he => (mem_others_iff.1 he).2,
      by omega⟩
  · exact ⟨c.entries, hp, .refl _, hother hk (.refl _), fun _ => hroom⟩
  · have hsub : front.Sublist c.entries := he ▸ List.sublist_append_left front [last]
    have hlength : c.entries.length = front.length + 1 := by simp [he]
    exact ⟨front, hp, hsub, hother hk hsub, by omega⟩

/-- What an operation leaves of the entries. If it uses no key, it adds none. Otherwise the entry
of the key that it uses comes first. -/
theorem entries_apply (c : Cache) (call : Call) :
    (c.used? call = none ∧ (c.apply call).entries.Sublist c.entries) ∨
    ∃ k t rest, c.used? call = some k ∧ (c.apply call).entries = (k, t) :: rest ∧
      rest.Sublist c.entries ∧ (∀ e ∈ rest, e.1 ≠ k) ∧
      (c.entries.length ≤ c.capacity → rest.length < c.capacity) := by
  obtain ⟨now, op⟩ := call
  cases op with
  | put k =>
    obtain ⟨rest, hp, hrest⟩ := entries_put c now k
    exact .inr ⟨k, now, rest, rfl, hp, hrest⟩
  | get k =>
    obtain ⟨-, hg⟩ | ⟨t, ht, -, hg⟩ | ⟨t, ht, -, hg⟩ := get_cases c now k
    · exact .inl ⟨by simp [used?, hg], by simp [apply, hg]⟩
    · have hlt := length_others_lt (mem_keys_of_mem ht)
      exact .inr ⟨k, t, others k c.entries, by simp [used?, hg], by simp [apply, hg],
        List.filter_sublist, fun e he => (mem_others_iff.1 he).2, by omega⟩
    · exact .inl ⟨by simp [used?, hg], by simp [apply, hg, others]⟩
  | remove k => exact .inl ⟨rfl, List.filter_sublist⟩
  | purge => exact .inl ⟨rfl, List.filter_sublist⟩

/-- An entry comes from a confirmation, or it was there and its key is neither confirmed nor
removed. -/
theorem mem_apply (h : e ∈ (c.apply call).entries) :
    call = ⟨e.2, .put e.1⟩ ∨
      (e ∈ c.entries ∧ call.op ≠ .put e.1 ∧ call.op ≠ .remove e.1) := by
  obtain ⟨now, op⟩ := call
  cases op with
  | put k =>
    obtain ⟨rest, hp, hsub, hother, -⟩ := entries_put c now k
    have hmem : e ∈ (k, now) :: rest := hp ▸ h
    rcases List.mem_cons.1 hmem with rfl | hmem
    · exact .inl rfl
    · exact .inr ⟨hsub.mem hmem, by simpa using (hother e hmem).symm, by simp⟩
  | get k => exact .inr ⟨mem_of_get rfl h, by simp, by simp⟩
  | remove k =>
    obtain ⟨hmem, hne⟩ := mem_others_iff.1 h
    exact .inr ⟨hmem, by simp, by simpa using hne.symm⟩
  | purge => exact .inr ⟨mem_of_purge h, by simp, by simp⟩

/-- A key has at most one entry. -/
theorem eq_of_mem (h : c.keys.Nodup) {t u : Instant} (ht : (k, t) ∈ c.entries)
    (hu : (k, u) ∈ c.entries) : t = u :=
  congrArg Prod.snd (List.inj_on_of_nodup_map h ht hu rfl)

/-- A key whose entry counts is found. -/
theorem get_of_mem (h : c.keys.Nodup) (he : (k, p) ∈ c.entries) (hfresh : c.isFresh now p = true) :
    (c.get now k).1 = true := by
  obtain ⟨hnone, -⟩ | ⟨t, -, -, hg⟩ | ⟨t, ht, hstale, -⟩ := get_cases c now k
  · exact absurd (mem_keys_of_mem he) hnone
  · rw [hg]
  · cases eq_of_mem h ht he
    simp [hstale] at hfresh

/-- An entry that counts stays, unless its key is confirmed anew or removed, or it is the last one
of a full cache and a new key is confirmed. -/
theorem mem_apply_of_mem (h : c.keys.Nodup) (he : e ∈ c.entries)
    (hfresh : c.isFresh call.now e.2 = true) (hput : call.op ≠ .put e.1)
    (hremove : call.op ≠ .remove e.1) :
    e ∈ (c.apply call).entries ∨ ∃ j front, call.op = .put j ∧ j ∉ c.keys ∧
      c.capacity ≤ c.entries.length ∧ c.entries = front ++ [e] ∧
      (c.apply call).entries = (j, call.now) :: front := by
  obtain ⟨now, op⟩ := call
  cases op with
  | put j =>
    have hj : e.1 ≠ j := fun hej => hput (by rw [hej])
    obtain ⟨-, hp⟩ | ⟨-, -, hp⟩ | ⟨hnone, hfull, front, last, hsplit, hp⟩ := put_cases c now j
    · exact .inl (hp ▸ List.mem_cons_of_mem _ (mem_others_iff.2 ⟨he, hj⟩))
    · exact .inl (hp ▸ List.mem_cons_of_mem _ he)
    · rw [hsplit] at he
      rcases List.mem_append.1 he with he | he
      · exact .inl (hp ▸ List.mem_cons_of_mem _ he)
      · cases List.mem_singleton.1 he
        exact .inr ⟨j, front, rfl, hnone, hfull, hsplit, hp⟩
  | get j =>
    left
    by_cases hj : e.1 = j
    -- A look-up of its own key finds it, for it counts; the key has no other entry.
    · subst hj
      obtain ⟨hnone, -⟩ | ⟨t, ht, -, hg⟩ | ⟨t, ht, hstale, -⟩ := get_cases c now e.1
      · exact absurd (mem_keys_of_mem he) hnone
      · cases eq_of_mem h ht he
        simp [apply, hg]
      · cases eq_of_mem h ht he
        simp [hstale] at hfresh
    · have hmem := mem_others_iff.2 ⟨he, hj⟩
      obtain ⟨-, hg⟩ | ⟨t, -, -, hg⟩ | ⟨t, -, -, hg⟩ := get_cases c now j <;>
        simp [apply, hg, he, hmem]
  | remove j =>
    have hj : e.1 ≠ j := fun hej => hremove (by rw [hej])
    exact .inl (mem_others_iff.2 ⟨he, hj⟩)
  | purge => exact .inl (List.mem_filter.2 ⟨he, hfresh⟩)

/-! ## What a cache tells about its history -/

/-- What the entries of a cache tell about the operations `calls` and the keys `used` by them. -/
structure Recorded (c : Cache) (calls : List Call) (used : List CheckKey) : Prop where
  size_le : c.entries.length ≤ c.capacity
  distinct : c.keys.Nodup
  ordered : c.keys.Pairwise fun j k => j ∈ usedSince k used
  confirmed : ∀ e ∈ c.entries, ∃ rest, LastConfirmed calls e.1 e.2 rest

theorem Recorded.apply (h : c.Recorded calls used) (call : Call) :
    (c.apply call).Recorded (calls ++ [call]) ((c.used? call).toList ++ used) := by
  have hconfirmed : ∀ e ∈ (c.apply call).entries,
      ∃ rest, LastConfirmed (calls ++ [call]) e.1 e.2 rest := by
    intro e he
    rcases mem_apply he with rfl | ⟨hmem, hput, hremove⟩
    · exact ⟨[], ⟨calls, rfl⟩, by simp⟩
    · obtain ⟨rest, ⟨before, rfl⟩, hkept⟩ := h.confirmed e hmem
      refine ⟨rest ++ [call], ⟨before, by simp⟩, fun x hx => ?_⟩
      rcases List.mem_append.1 hx with hx | hx
      · exact hkept x hx
      · cases List.mem_singleton.1 hx
        exact ⟨hput, hremove⟩
  obtain ⟨hused, hsub⟩ | ⟨k, t, rest, hused, he, hsub, hother, hroom⟩ := entries_apply c call
  · rw [hused]
    have hkeys : (c.apply call).keys.Sublist c.keys := hsub.map Prod.fst
    exact ⟨by simpa using hsub.length_le.trans h.size_le, h.distinct.sublist hkeys,
      h.ordered.sublist hkeys, hconfirmed⟩
  · rw [hused]
    have hkeys : (rest.map Prod.fst).Sublist c.keys := hsub.map Prod.fst
    have hne : ∀ j ∈ rest.map Prod.fst, j ≠ k := by simpa using hother
    have hcons : (c.apply call).keys = k :: rest.map Prod.fst := by simp [keys, he]
    refine ⟨?_, ?_, ?_, hconfirmed⟩
    · simpa [he, Nat.succ_le_iff] using hroom h.size_le
    · rw [hcons]
      exact List.nodup_cons.2 ⟨fun hk => hne k hk rfl, h.distinct.sublist hkeys⟩
    -- The key that is used comes in front, and it is one more that has been used since for all
    -- the others.
    · rw [hcons]
      refine List.pairwise_cons.2 ⟨fun j hj => ?_, ?_⟩
      · simp [usedSince_cons_of_ne (hne j hj).symm]
      · refine (h.ordered.sublist hkeys).imp_of_mem fun _ hi hij => ?_
        simp [usedSince_cons_of_ne (hne _ hi).symm, hij]

/-- All other keys have been used since the last use of the key of the last entry. -/
theorem Recorded.last {front : List (CheckKey × Instant)} (h : c.Recorded calls used)
    (he : c.entries = front ++ [e]) :
    (front.map Prod.fst).Nodup ∧ e.1 ∉ front.map Prod.fst ∧
      ∀ i ∈ front.map Prod.fst, i ∈ usedSince e.1 used := by
  have hkeys : c.keys = front.map Prod.fst ++ [e.1] := by simp [keys, he]
  have hordered := h.ordered
  have hdistinct := h.distinct
  rw [hkeys, List.pairwise_append] at hordered
  rw [hkeys, List.nodup_append] at hdistinct
  obtain ⟨hnodup, -, hne⟩ := hdistinct
  exact ⟨hnodup, fun hmem => hne _ hmem _ List.mem_cons_self rfl,
    fun i hi => hordered.2.2 i hi _ List.mem_cons_self⟩

/-- A confirmation that finds its key or room drops no other key. -/
theorem mem_put_of_room (h : k ∈ c.keys ∨ c.size < c.capacity) :
    e ∈ (c.put now k).entries ↔ e = (k, now) ∨ (e ∈ c.entries ∧ e.1 ≠ k) := by
  obtain ⟨-, hp⟩ | ⟨hk, -, hp⟩ | ⟨hk, hfull, -⟩ := put_cases c now k
  · rw [hp, List.mem_cons, mem_others_iff]
  · rw [hp, List.mem_cons]
    exact or_congr_right ⟨fun he => ⟨he, fun hek => hk (hek ▸ mem_keys_of_mem he)⟩, And.left⟩
  · exact absurd h (not_or.2 ⟨hk, Nat.not_lt.2 hfull⟩)

/-- **The entry that a full cache drops** is the one that was used least recently. -/
theorem Recorded.put_of_full (h : c.Recorded calls used) (hk : k ∉ c.keys)
    (hfull : c.size = c.capacity) : ∃ last ∈ c.entries,
      (∀ e, e ∈ (c.put now k).entries ↔ e = (k, now) ∨ (e ∈ c.entries ∧ e ≠ last)) ∧
      ∀ e ∈ c.entries, e ≠ last → e.1 ∈ usedSince last.1 used := by
  obtain ⟨hmem, -⟩ | ⟨-, hroom, -⟩ | ⟨-, -, front, last, he, hp⟩ := put_cases c now k
  · exact absurd hmem hk
  · exact absurd hfull (Nat.ne_of_lt hroom)
  obtain ⟨-, hlast, hused⟩ := h.last he
  have hfront : last ∉ front := fun hmem => hlast (List.mem_map_of_mem hmem)
  refine ⟨last, by simp [he], fun e => ?_, fun e hmem hne => ?_⟩
  · rw [hp, he, List.mem_cons, List.mem_append, List.mem_singleton]
    grind
  · have hmem' : e ∈ front := by simpa [he, hne] using hmem
    exact hused _ (List.mem_map_of_mem hmem')

/-! ## Entries that stay -/

/-- The entry that was made at `p` is there, or as many other keys have been used since the last use
of its key as the cache has room for. -/
def Kept (c : Cache) (k : CheckKey) (p : Instant) (used : List CheckKey) : Prop :=
  (k, p) ∈ c.entries ∨ (k ∉ c.keys ∧ c.capacity ≤ (usedSince k used).toFinset.card)

theorem mem_keys_of_used (h : c.used? call = some k) : call.op = .put k ∨ k ∈ c.keys := by
  obtain ⟨now, op⟩ := call
  cases op with
  | put j => exact .inl (by simpa [used?] using h)
  | get j =>
    obtain ⟨-, hg⟩ | ⟨t, ht, -, hg⟩ | ⟨t, -, -, hg⟩ := get_cases c now j <;>
      simp [used?, hg] at h
    exact .inr (h ▸ mem_keys_of_mem ht)
  | remove j => cases h
  | purge => cases h

/-- The last entry of a full cache goes after as many other keys have been used as there is room
for. -/
theorem capacity_le_of_last {front : List (CheckKey × Instant)} (h : c.Recorded calls used)
    (he : c.entries = front ++ [(k, p)]) (hfull : c.capacity ≤ c.entries.length)
    (hj : j ∉ c.keys) : c.capacity ≤ (j :: usedSince k used).toFinset.card := by
  obtain ⟨hfront, -, hused⟩ := h.last he
  have hsubset : (j :: front.map Prod.fst).toFinset ⊆ (j :: usedSince k used).toFinset := by
    intro i hi
    rcases List.mem_cons.1 (List.mem_toFinset.1 hi) with rfl | hi
    · simp
    · simp [hused i hi]
  have hnodup : (j :: front.map Prod.fst).Nodup := by
    refine List.nodup_cons.2 ⟨fun hmem => hj ?_, hfront⟩
    simp only [keys, he, List.map_append, List.mem_append]
    exact .inl hmem
  have hcard := Finset.card_le_card hsubset
  rw [List.toFinset_card_of_nodup hnodup] at hcard
  simp only [he, List.length_append, List.length_cons, List.length_map, List.length_nil]
    at hfull hcard
  omega

/-- Only a confirmation brings a key back. -/
theorem not_mem_keys_apply (hk : k ∉ c.keys) (hput : call.op ≠ .put k) :
    k ∉ (c.apply call).keys := by
  intro hmem
  obtain ⟨t, ht⟩ := mem_keys_iff.1 hmem
  rcases mem_apply ht with rfl | ⟨hold, -, -⟩
  · exact hput rfl
  · exact hk (mem_keys_of_mem hold)

theorem usedSince_subset (h : c.used? call ≠ some k) :
    usedSince k used ⊆ usedSince k ((c.used? call).toList ++ used) := by
  intro i hi
  cases hu : c.used? call with
  | none => exact hi
  | some j =>
    have hjk : j ≠ k := fun hjk => h (hjk ▸ hu)
    simp only [Option.toList_some, List.singleton_append, usedSince_cons_of_ne hjk]
    exact List.mem_cons_of_mem _ hi

/-- **An operation** at which the entry counts, and which neither confirms nor removes its key. -/
theorem Kept.apply (h : c.Kept k p used) (hr : c.Recorded calls used)
    (hfresh : c.isFresh call.now p = true) (hput : call.op ≠ .put k)
    (hremove : call.op ≠ .remove k) :
    (c.apply call).Kept k p ((c.used? call).toList ++ used) := by
  rcases h with he | ⟨hk, hused⟩
  · obtain hmem | ⟨j, front, hop, hj, hfull, hsplit, happly⟩ :=
      mem_apply_of_mem hr.distinct he hfresh hput hremove
    · exact .inl hmem
    -- It was the last one of a full cache: all the others have been used since, and now `j`.
    · have hjk : j ≠ k := fun h => hput (h ▸ hop)
      have huses : c.used? call = some j := by simp [used?, hop]
      have hgone : k ∉ (c.apply call).keys := by
        simpa [keys, happly, hjk.symm] using (hr.last hsplit).2.1
      refine .inr ⟨hgone, ?_⟩
      rw [huses, capacity_apply]
      simpa [usedSince_cons_of_ne hjk] using capacity_le_of_last hr hsplit hfull hj
  · have hother : c.used? call ≠ some k := fun hu => (mem_keys_of_used hu).elim hput hk
    refine .inr ⟨not_mem_keys_apply hk hput, ?_⟩
    rw [capacity_apply]
    refine hused.trans (Finset.card_le_card fun i hi => ?_)
    exact List.mem_toFinset.2 (usedSince_subset hother (List.mem_toFinset.1 hi))

/-! ## Caches after any operations -/

section After

variable {maxEntries : Nat} {ttl : Duration}

theorem capacity_after (c : Cache) (calls : List Call) : (c.after calls).capacity = c.capacity := by
  induction calls using List.reverseRecOn with
  | nil => rfl
  | append_singleton past call ih => rw [after_concat, capacity_apply, ih]

theorem timeToLive_after (c : Cache) (calls : List Call) :
    (c.after calls).timeToLive = c.timeToLive := by
  induction calls using List.reverseRecOn with
  | nil => rfl
  | append_singleton past call ih => rw [after_concat, timeToLive_apply, ih]

/-- The bound on the time for which entries count makes no difference to their ages. -/
theorem isFresh_after : ((new maxEntries ttl).after calls).isFresh now p = true ↔
    now.since p ≤ ttl.totalNanos := by
  have hspan := Instant.since_le_maxSpan now p
  unfold isFresh
  rw [decide_eq_true_iff, timeToLive_after]
  unfold new
  dsimp only
  omega

theorem recorded_after (maxEntries : Nat) (ttl : Duration) (calls : List Call) :
    ((new maxEntries ttl).after calls).Recorded calls ((new maxEntries ttl).uses calls) := by
  induction calls using List.reverseRecOn with
  | nil => exact ⟨Nat.zero_le _, List.nodup_nil, .nil, by simp [after, new]⟩
  | append_singleton past call ih =>
    rw [after_concat, uses_concat]
    exact ih.apply call

/-- **Entries stay** as long as they count and less than as many other keys have been used as there
is room for. -/
theorem kept_after (maxEntries : Nat) (hlast : LastConfirmed calls k p rest)
    (hfresh : ∀ call ∈ rest, call.now.since p ≤ ttl.totalNanos) :
    ((new maxEntries ttl).after calls).Kept k p ((new maxEntries ttl).uses calls) := by
  obtain ⟨⟨before, rfl⟩, hkept⟩ := hlast
  induction rest using List.reverseRecOn with
  | nil =>
    rw [after_concat]
    exact .inl List.mem_cons_self
  | append_singleton past call ih =>
    obtain ⟨hpast, hcall⟩ := List.forall_mem_append.1 hkept
    obtain ⟨hfreshPast, hfreshCall⟩ := List.forall_mem_append.1 hfresh
    have hr := recorded_after maxEntries ttl (before ++ ⟨p, .put k⟩ :: past)
    obtain ⟨hput, hremove⟩ := hcall call List.mem_cons_self
    have happly := (ih hfreshPast hpast).apply hr
      (isFresh_after.2 (hfreshCall call List.mem_cons_self)) hput hremove
    rw [← after_concat, ← uses_concat] at happly
    simpa using happly

/-- **Keys that stay**: a key that still counts is found again if the clock has not gone back and
less than as many other keys have been used as there is room for. -/
theorem get_of_lastConfirmed (hlast : LastConfirmed calls k p rest)
    (hage : now.since p ≤ ttl.totalNanos)
    (hfew : (usedSince k ((new maxEntries ttl).uses calls)).toFinset.card < max 1 maxEntries)
    (hordered : (p :: rest.map Call.now ++ [now]).Pairwise fun t u => ¬ u < t)
    (hnoleap : ∀ t ∈ p :: rest.map Call.now ++ [now], t.inLeapSecond = false) :
    (((new maxEntries ttl).after calls).get now k).1 = true := by
  -- No reading in between is later than the last one, so that the entry has counted all the time.
  have hcounted : ∀ call ∈ rest, call.now.since p ≤ ttl.totalNanos := by
    intro call hcall
    have hmem : call.now ∈ p :: rest.map Call.now :=
      List.mem_cons_of_mem _ (List.mem_map_of_mem hcall)
    have hnow := (List.pairwise_append.1 hordered).2.2 _ hmem now List.mem_cons_self
    have hle := Instant.since_le_since (hnoleap _ (List.mem_append_left _ hmem))
      (hnoleap now (by simp)) (hnoleap p (by simp)) hnow
    omega
  have hr := recorded_after maxEntries ttl calls
  rcases kept_after maxEntries hlast hcounted with hmem | ⟨-, hmany⟩
  · exact get_of_mem hr.distinct hmem (isFresh_after.2 hage)
  · rw [capacity_after] at hmany
    exact absurd hmany (Nat.not_le.2 hfew)

/-- If the time for which entries count is longer than any span, all of them count. -/
theorem isFresh_after_of_maxSpan_lt (h : maxSpan < ttl.totalNanos) :
    ((new maxEntries ttl).after calls).isFresh now p = true := by
  have hspan := Instant.since_le_maxSpan now p
  exact isFresh_after.2 (by omega)

/-- What a cache for `maxEntries` entries, which count for `ttl`, promises after the operations
`calls`. -/
structure Remembers (c : Cache) (maxEntries : Nat) (ttl : Duration) (calls : List Call) :
    Prop where
  /-- There is never more than room for, and no key has two entries. -/
  bounded : c.size ≤ max 1 maxEntries ∧ c.keys.Nodup
  /-- A key that is found was confirmed at most `ttl` ago, and not removed since. -/
  evidence : ∀ (now : Instant) (k : CheckKey), (c.get now k).1 = true →
    ∃ p rest, LastConfirmed calls k p rest ∧ now.since p ≤ ttl.totalNanos
  /-- A key that was confirmed at most `ttl` ago, and not removed since, is found, if less than as
  many other keys have been used since its last use as there is room for. -/
  retention : ∀ (now : Instant) (k : CheckKey) (p : Instant) (rest : List Call),
    LastConfirmed calls k p rest → now.since p ≤ ttl.totalNanos →
    (usedSince k ((new maxEntries ttl).uses calls)).toFinset.card < max 1 maxEntries →
    (p :: rest.map Call.now ++ [now]).Pairwise (fun t u => ¬ u < t) →
    (∀ t ∈ p :: rest.map Call.now ++ [now], t.inLeapSecond = false) → (c.get now k).1 = true
  /-- A confirmation of a key that is there, or that finds room, drops no other key. -/
  replaces : ∀ (now : Instant) (k : CheckKey), k ∈ c.keys ∨ c.size < max 1 maxEntries → ∀ e,
    e ∈ (c.put now k).entries ↔ e = (k, now) ∨ (e ∈ c.entries ∧ e.1 ≠ k)
  /-- A confirmation of a new key in a full cache drops one entry, since whose last use all other
  keys that are there have been used. -/
  evicts : ∀ (now : Instant) (k : CheckKey), k ∉ c.keys → c.size = max 1 maxEntries →
    ∃ last ∈ c.entries,
    (∀ e, e ∈ (c.put now k).entries ↔ e = (k, now) ∨ (e ∈ c.entries ∧ e ≠ last)) ∧
    ∀ e ∈ c.entries, e ≠ last → e.1 ∈ usedSince last.1 ((new maxEntries ttl).uses calls)
  /-- A time longer than any span is unlimited. -/
  unlimited : maxSpan < ttl.totalNanos → ∀ now : Instant,
    (∀ k, (c.get now k).1 = true ↔ k ∈ c.keys) ∧ c.purge now = (0, c)

/-- **What a cache remembers**, after any operations and at any readings of the clock. -/
theorem remembers_recent (maxEntries : Nat) (ttl : Duration) (calls : List Call) :
    ((new maxEntries ttl).after calls).Remembers maxEntries ttl calls := by
  have hr := recorded_after maxEntries ttl calls
  have hcapacity := capacity_after (new maxEntries ttl) calls
  constructor
  case bounded => exact ⟨hr.size_le.trans_eq hcapacity, hr.distinct⟩
  case evidence =>
    intro now k hget
    obtain ⟨p, hmem, hp⟩ := exists_fresh_of_get (Prod.ext hget rfl)
    obtain ⟨rest, hlast⟩ := hr.confirmed _ hmem
    exact ⟨p, rest, hlast, isFresh_after.1 hp⟩
  case retention =>
    intro now k p rest hlast hage hfew hordered hnoleap
    exact get_of_lastConfirmed hlast hage hfew hordered hnoleap
  case replaces =>
    intro now k hroom e
    exact mem_put_of_room (hcapacity ▸ hroom)
  case evicts =>
    intro now k hk hfull
    exact hr.put_of_full hk (hfull.trans hcapacity.symm)
  case unlimited =>
    intro hunlimited now
    have hcounts : ∀ p, ((new maxEntries ttl).after calls).isFresh now p = true :=
      fun _ => isFresh_after_of_maxSpan_lt hunlimited
    refine ⟨fun k => ⟨fun hget => ?_, fun hk => ?_⟩, ?_⟩
    · obtain ⟨p, hmem, -⟩ := exists_fresh_of_get (Prod.ext hget rfl)
      exact mem_keys_of_mem hmem
    · obtain ⟨p, hmem⟩ := mem_keys_iff.1 hk
      exact get_of_mem hr.distinct hmem (hcounts p)
    · simp [purge, hcounts]

end After

/-! ## Sample histories -/

namespace Sample

/-- The instant this number of seconds after 1970-01-01. -/
def second (n : Nat) : Instant :=
  (Instant.ofWholeSeconds? n).getD .epoch

def first : CheckKey :=
  ⟨"/in/1", "etl"⟩

/-- What happens after the first key has been confirmed, in a cache that has room for two. -/
def later : List Call :=
  [⟨second 10, .put ⟨"/in/2", "etl"⟩⟩, ⟨second 20, .get first⟩, ⟨second 30, .put ⟨"/in/3", "etl"⟩⟩,
    ⟨second 40, .purge⟩]

/-- Some way into the leap second at the end of 2016. -/
def insideLeap : Instant :=
  { second 1483228799 with
    nano := 1700000000, nano_lt := by decide, leap_mem := by decide +kernel }

/-- The first key is confirmed, and then looked up inside the leap second. -/
def leap : List Call :=
  [⟨second 1483228799, .put first⟩, ⟨insideLeap, .get first⟩]

end Sample

/-- The key that was looked up in between is still found, and the other one is not. -/
theorem remembers_looked_up :
    let c := (new 2 (.ofSecs 60)).after (⟨Sample.second 0, .put Sample.first⟩ :: Sample.later)
    (c.get (Sample.second 60) Sample.first).1 = true ∧
      (c.get (Sample.second 60) ⟨"/in/2", "etl"⟩).1 = false := by
  have h := remembers_recent 2 (.ofSecs 60) (⟨Sample.second 0, .put Sample.first⟩ :: Sample.later)
  have hlast : LastConfirmed (⟨Sample.second 0, .put Sample.first⟩ :: Sample.later) Sample.first
      (Sample.second 0) Sample.later := ⟨⟨[], rfl⟩, by decide⟩
  exact ⟨h.retention _ _ _ _ hlast (by decide) (by decide +kernel) (by decide) (by decide),
    by decide +kernel⟩

/-- **A look-up inside a leap second can lose a key** that would count again later. -/
theorem lost_in_leap_second :
    ¬ ∀ (maxEntries : Nat) (ttl : Duration) (calls : List Call) (now : Instant) (k : CheckKey)
      (p : Instant) (rest : List Call),
      (calls.map Call.now ++ [now]).Pairwise (fun t u => ¬ u < t) →
      LastConfirmed calls k p rest → now.since p ≤ ttl.totalNanos →
      (usedSince k ((new maxEntries ttl).uses calls)).toFinset.card < max 1 maxEntries →
      (((new maxEntries ttl).after calls).get now k).1 = true := by
  intro hfound
  have hlast : LastConfirmed Sample.leap Sample.first _ _ := ⟨⟨[], rfl⟩, by decide⟩
  have hget := hfound 2 (.ofSecs 1) Sample.leap (Sample.second 1483228800) Sample.first _ _
    (by decide) hlast (by decide) (by decide +kernel)
  have hlost : (((new 2 (.ofSecs 1)).after Sample.leap).get (Sample.second 1483228800)
      Sample.first).1 = false := by decide +kernel
  rw [hlost] at hget
  cases hget

end Cache
end Lookout
