import Lookout.Proofs.Retention

/-!
# Purges in between

The same operations on a cache without and with purges put in between (`Cache.WithPurges`), seen
from what look-ups answer (`Cache.answers`). Entries that no longer count take up room until they
go, so that the two caches may hold different entries.

- **The relation** (`Cache.Thinned`): the entries of the cache that was purged more often are among
  those of the other one and some that this one has dropped since. None of the latter counts, and
  no entry that counts is missing.
- **One operation**: look-ups, removals and purges keep it, and so does a confirmation, unless it
  drops an entry that counts while another one that does not is kept (`Cache.Wastes`).
- **Room** (`Thinned.shed`): as long as the caches differ, the last entry of a full one does not
  count.

`Cache.purges_immaterial` says that this is all that purges may change, `Cache.purge_matters` that
it happens.
-/

namespace Lookout

namespace Cache

/-! ## Operations with purges in between -/

/-- What an operation answers, if it is a look-up. -/
def answer? (c : Cache) (call : Call) : Option Bool :=
  match call.op with
  | .get k => some (c.get call.now k).1
  | _ => none

/-- What the look-ups among operations answer, the first one first. -/
def answers (c : Cache) : List Call → List Bool
  | [] => []
  | call :: rest => (c.answer? call).toList ++ (c.apply call).answers rest

/-- The second operations are the first ones with purges put in between. -/
inductive WithPurges : List Call → List Call → Prop
  | nil : WithPurges [] []
  | keep {calls calls' : List Call} (call : Call) (h : WithPurges calls calls') :
      WithPurges (call :: calls) (call :: calls')
  | purge {calls calls' : List Call} (now : Instant) (h : WithPurges calls calls') :
      WithPurges calls (⟨now, .purge⟩ :: calls')

/-- Readings of a clock that does not go back, none of them inside a leap second. -/
structure Steady (times : List Instant) : Prop where
  ordered : times.Pairwise fun t u => ¬ u < t
  outside : ∀ t ∈ times, t.inLeapSecond = false

/-- A confirmation takes away a key that counts, though an entry is there that does not. -/
def Wastes (c : Cache) (now : Instant) (k : CheckKey) : Prop :=
  (∃ e ∈ c.entries, c.isFresh now e.2 = true ∧ e.1 ∉ (c.put now k).keys) ∧
    ∃ e ∈ c.entries, c.isFresh now e.2 = false

instance (c : Cache) (now : Instant) (k : CheckKey) : Decidable (c.Wastes now k) :=
  inferInstanceAs (Decidable (_ ∧ _))

/-- No confirmation among operations wastes room. -/
def Frugal (c : Cache) : List Call → Prop
  | [] => True
  | ⟨now, .put k⟩ :: rest => ¬ c.Wastes now k ∧ (c.put now k).Frugal rest
  | call :: rest => (c.apply call).Frugal rest

variable {c c' : Cache} {call : Call} {calls calls' : List Call} {k : CheckKey}
  {now later : Instant} {e : CheckKey × Instant} {gone : List (CheckKey × Instant)} {t : Instant}

theorem Steady.tail {times : List Instant} (h : Steady (now :: times)) : Steady times :=
  ⟨h.ordered.of_cons, fun t ht => h.outside t (List.mem_cons_of_mem _ ht)⟩

/-! ## Operations in small steps -/

/-- The cache with one more entry in front. -/
def cons (c : Cache) (e : CheckKey × Instant) : Cache :=
  { c with entries := e :: c.entries }

/-- The cache without its last entry if it is full. -/
def shed (c : Cache) : Cache :=
  if c.capacity ≤ c.entries.length then { c with entries := c.entries.dropLast } else c

theorem others_eq_self (h : k ∉ c.keys) : others k c.entries = c.entries :=
  List.filter_eq_self.2 fun _ he => bne_iff_ne.2 fun hek => h (hek ▸ mem_keys_of_mem he)

/-- A look-up of a key that counts puts its entry in front; any other one removes its key. -/
theorem get_eq (h : c.keys.Nodup) (now : Instant) (k : CheckKey) :
    (∃ t, (k, t) ∈ c.entries ∧ c.isFresh now t = true ∧
      c.get now k = (true, (c.remove k).2.cons (k, t))) ∨
    ((∀ t, (k, t) ∈ c.entries → c.isFresh now t = false) ∧
      c.get now k = (false, (c.remove k).2)) := by
  obtain ⟨hk, hg⟩ | ⟨t, ht, hf, hg⟩ | ⟨t, ht, hf, hg⟩ := get_cases c now k
  · refine .inr ⟨fun t ht => absurd (mem_keys_of_mem ht) hk, ?_⟩
    rw [hg, remove, others_eq_self hk]
  · exact .inl ⟨t, ht, hf, hg⟩
  · exact .inr ⟨fun u hu => eq_of_mem h ht hu ▸ hf, hg⟩

/-- A confirmation removes its key, makes room if there is none, and puts the new entry in front. -/
theorem put_eq (h : c.entries.length ≤ c.capacity) (now : Instant) (k : CheckKey) :
    c.put now k = (c.remove k).2.shed.cons (k, now) := by
  by_cases hk : k ∈ c.keys
  · have hsome : (c.confirmedAt? k).isSome := by
      rw [Option.isSome_iff_ne_none]
      exact fun hnone => confirmedAt?_eq_none_iff.1 hnone hk
    have hroom : ¬ c.capacity ≤ (others k c.entries).length := by
      have := length_others_lt hk
      omega
    simp [put, remove, shed, cons, hsome, hroom]
  · have hnone := confirmedAt?_eq_none_iff.2 hk
    by_cases hfull : c.capacity ≤ c.entries.length <;>
      simp [put, remove, shed, cons, hnone, hfull, others_eq_self hk]

theorem shed_of_full (hfull : c.capacity ≤ c.entries.length) :
    c.shed.entries = c.entries.dropLast := by
  unfold shed
  rw [if_pos hfull]

theorem shed_of_not_full (hroom : ¬ c.capacity ≤ c.entries.length) : c.shed = c :=
  if_neg hroom

theorem capacity_shed (c : Cache) : c.shed.capacity = c.capacity := by
  unfold shed
  split <;> rfl

theorem timeToLive_shed (c : Cache) : c.shed.timeToLive = c.timeToLive := by
  unfold shed
  split <;> rfl

theorem shed_sublist (c : Cache) : c.shed.entries.Sublist c.entries := by
  unfold shed
  split
  · exact List.dropLast_sublist _
  · exact .refl _

theorem length_shed_lt (h : c.entries.length ≤ c.capacity) :
    c.shed.entries.length < c.shed.capacity := by
  have hpos := c.capacity_pos
  unfold shed
  split
  · simp only [List.length_dropLast]
    omega
  · omega

theorem not_mem_keys_remove (c : Cache) (k : CheckKey) (gone : List (CheckKey × Instant)) :
    k ∉ ((c.remove k).2.entries ++ others k gone).map Prod.fst := by
  intro hk
  obtain ⟨e, he, hek⟩ := List.mem_map.1 hk
  rcases List.mem_append.1 he with he | he
  · exact (mem_others_iff.1 he).2 hek
  · exact (mem_others_iff.1 he).2 hek

/-- What is dropped for a new entry is no longer there afterwards. -/
theorem not_mem_keys_put (hd : c.keys.Nodup) (hsize : c.entries.length ≤ c.capacity)
    {front : List (CheckKey × Instant)} (he : (c.remove k).2.entries = front ++ [e])
    (hfull : c.capacity ≤ (c.remove k).2.entries.length) : e.1 ∉ (c.put now k).keys := by
  have hnodup : ((front ++ [e]).map Prod.fst).Nodup :=
    he ▸ hd.sublist (List.filter_sublist.map Prod.fst)
  have hmem : e ∈ (c.remove k).2.entries := he ▸ List.mem_append_right _ List.mem_cons_self
  have hput : (c.put now k).keys = k :: front.map Prod.fst := by
    rw [put_eq hsize, keys, cons, shed_of_full hfull, he, List.dropLast_concat]
    rfl
  rw [hput, List.mem_cons, not_or]
  refine ⟨(mem_others_iff.1 hmem).2, fun hfront => ?_⟩
  rw [List.map_append, List.nodup_append] at hnodup
  exact hnodup.2.2 _ hfront _ List.mem_cons_self rfl

/-- Outside of leap seconds, what counts at a reading has counted at all earlier ones. -/
theorem isFresh_of_later (hnow : now.inLeapSecond = false) (hlater : later.inLeapSecond = false)
    (ht : t.inLeapSecond = false) (hle : ¬ later < now) (h : c.isFresh later t = true) :
    c.isFresh now t = true := by
  have hsince := Instant.since_le_since hnow hlater ht hle
  unfold isFresh at h ⊢
  rw [decide_eq_true_iff] at h ⊢
  omega

/-! ## Caches that know the same keys -/

/-- The second cache knows the same keys as the first one, though it may have been purged more
often: `gone` is what the first one has dropped to make room. -/
structure Thinned (now : Instant) (gone : List (CheckKey × Instant)) (c c' : Cache) : Prop where
  capacity : c'.capacity = c.capacity
  timeToLive : c'.timeToLive = c.timeToLive
  size_le : c.entries.length ≤ c.capacity
  size_le' : c'.entries.length ≤ c'.capacity
  distinct : ((c.entries ++ gone).map Prod.fst).Nodup
  outside : ∀ e ∈ c.entries ++ gone, e.2.inLeapSecond = false
  old : ∀ e ∈ gone, c.isFresh now e.2 = false
  sublist : c'.entries.Sublist (c.entries ++ gone)
  kept : ∀ e ∈ c.entries, c.isFresh now e.2 = true → e ∈ c'.entries

namespace Thinned

theorem isFresh_eq (h : Thinned now gone c c') (later t : Instant) :
    c'.isFresh later t = c.isFresh later t := by
  unfold isFresh
  rw [h.timeToLive]

theorem nodup (h : Thinned now gone c c') : c.keys.Nodup :=
  h.distinct.sublist ((List.sublist_append_left _ _).map Prod.fst)

theorem nodup' (h : Thinned now gone c c') : c'.keys.Nodup :=
  h.distinct.sublist (h.sublist.map Prod.fst)

/-- The same entries count in both. -/
theorem mem_iff (h : Thinned now gone c c') (hf : c.isFresh now e.2 = true) :
    e ∈ c'.entries ↔ e ∈ c.entries := by
  refine ⟨fun he => ?_, fun he => h.kept e he hf⟩
  rcases List.mem_append.1 (h.sublist.mem he) with he | he
  · exact he
  · rw [h.old e he] at hf
    cases hf

theorem refl (hsize : c.entries.length ≤ c.capacity) (hd : c.keys.Nodup)
    (ho : ∀ e ∈ c.entries, e.2.inLeapSecond = false) : Thinned now [] c c where
  capacity := rfl
  timeToLive := rfl
  size_le := hsize
  size_le' := hsize
  distinct := by simpa [keys] using hd
  outside := by simpa using ho
  old := by simp
  sublist := by simp
  kept := fun _ he _ => he

/-- Time passes. -/
theorem of_later (h : Thinned now gone c c') (hnow : now.inLeapSecond = false)
    (hlater : later.inLeapSecond = false) (hle : ¬ later < now) : Thinned later gone c c' := by
  have hback : ∀ e ∈ c.entries ++ gone, c.isFresh later e.2 = true → c.isFresh now e.2 = true :=
    fun e he hf => isFresh_of_later hnow hlater (h.outside e he) hle hf
  refine { h with old := fun e he => ?_, kept := fun e he hf => ?_ }
  · refine Bool.eq_false_iff.2 fun hf => ?_
    have hnot := h.old e he
    rw [hback e (List.mem_append_right _ he) hf] at hnot
    cases hnot
  · exact h.kept e he (hback e (List.mem_append_left _ he) hf)

/-! ## Small steps -/

/-- A purge of the second cache alone. -/
theorem purge (h : Thinned now gone c c') : Thinned now gone c (c'.purge now).2 := by
  have hentries : (c'.purge now).2.entries = c'.entries.filter fun e => c'.isFresh now e.2 := rfl
  refine { h with size_le' := ?_, sublist := ?_, kept := fun e he hf => ?_ }
  · exact (List.length_filter_le _ _).trans h.size_le'
  · exact List.filter_sublist.trans h.sublist
  · rw [hentries]
    exact List.mem_filter.2 ⟨h.kept e he hf, (h.isFresh_eq now e.2).trans hf⟩

/-- A purge of both. -/
theorem purge_both (h : Thinned now gone c c') :
    Thinned now gone (c.purge now).2 (c'.purge now).2 := by
  have hsub : (c.purge now).2.entries.Sublist c.entries := List.filter_sublist
  have hsub' : ((c.purge now).2.entries ++ gone).Sublist (c.entries ++ gone) :=
    hsub.append (.refl gone)
  have hfresh : (fun e : CheckKey × Instant => c'.isFresh now e.2) = fun e => c.isFresh now e.2 :=
    funext fun e => h.isFresh_eq now e.2
  refine
    { h.purge with
      size_le := hsub.length_le.trans h.size_le
      distinct := h.distinct.sublist (hsub'.map Prod.fst)
      outside := fun e he => h.outside e (hsub'.mem he)
      sublist := ?_
      kept := fun e he hf => h.purge.kept e (hsub.mem he) hf }
  have hfilter := h.sublist.filter fun e => c'.isFresh now e.2
  rw [List.filter_append, hfresh] at hfilter
  have hentries : (c'.purge now).2.entries = c'.entries.filter fun e => c.isFresh now e.2 := by
    rw [← hfresh]
    rfl
  rw [hentries]
  exact hfilter.trans (List.filter_sublist.append_left _)

/-- A key is removed from both. -/
theorem remove (h : Thinned now gone c c') (k : CheckKey) :
    Thinned now (others k gone) (c.remove k).2 (c'.remove k).2 := by
  have happend : (c.remove k).2.entries ++ others k gone = others k (c.entries ++ gone) :=
    (List.filter_append ..).symm
  have hsub : ((c.remove k).2.entries ++ others k gone).Sublist (c.entries ++ gone) := by
    rw [happend]
    exact List.filter_sublist
  refine
    { capacity := h.capacity
      timeToLive := h.timeToLive
      size_le := (List.length_filter_le _ _).trans h.size_le
      size_le' := (List.length_filter_le _ _).trans h.size_le'
      distinct := h.distinct.sublist (hsub.map Prod.fst)
      outside := fun e he => h.outside e (hsub.mem he)
      old := fun e he => h.old e (mem_others_iff.1 he).1
      sublist := ?_
      kept := fun e he hf => ?_ }
  · rw [happend]
    exact h.sublist.filter _
  · obtain ⟨hmem, hne⟩ := mem_others_iff.1 he
    exact mem_others_iff.2 ⟨h.kept e hmem hf, hne⟩

/-- An entry of a new key is put in front of both, if there is room. -/
theorem cons (h : Thinned now gone c c') (hk : e.1 ∉ (c.entries ++ gone).map Prod.fst)
    (he : e.2.inLeapSecond = false) (hroom : c.entries.length < c.capacity)
    (hroom' : c'.entries.length < c'.capacity) : Thinned now gone (c.cons e) (c'.cons e) where
  capacity := h.capacity
  timeToLive := h.timeToLive
  size_le := hroom
  size_le' := hroom'
  distinct := List.nodup_cons.2 ⟨hk, h.distinct⟩
  outside := List.forall_mem_cons.2 ⟨he, h.outside⟩
  old := h.old
  sublist := h.sublist.cons_cons e
  kept := List.forall_mem_cons.2
    ⟨fun _ => List.mem_cons_self, fun e he hf => List.mem_cons_of_mem _ (h.kept e he hf)⟩

/-! ## Room -/

/-- If the second cache is full, it has the same entries, or its last one does not count. -/
theorem eq_or_last_mem (h : Thinned now gone c c') (hfull : c'.capacity ≤ c'.entries.length) :
    c'.entries = c.entries ∨ ∃ front last, c'.entries = front ++ [last] ∧ last ∈ gone := by
  obtain ⟨front, back, he, hfront, hback⟩ := List.sublist_append_iff.1 h.sublist
  rcases List.eq_nil_or_concat back with rfl | ⟨back, last, rfl⟩
  · left
    rw [List.append_nil] at he
    rw [he, h.capacity] at hfull
    rw [he]
    exact hfront.eq_of_length_le (h.size_le.trans hfull)
  · rw [List.concat_eq_append] at he hback
    exact .inr ⟨front ++ back, last, by rw [he, List.append_assoc],
      hback.mem (List.mem_append_right _ List.mem_cons_self)⟩

/-- If all entries of a full cache count, the second cache has the same ones. -/
theorem eq_of_full (h : Thinned now gone c c') (hfull : c.capacity ≤ c.entries.length)
    (hfresh : ∀ e ∈ c.entries, c.isFresh now e.2 = true) : c'.entries = c.entries := by
  have hnodup : c.entries.Nodup := List.Nodup.of_map _ h.nodup
  have hsub : c.entries ⊆ c'.entries := fun e he => h.kept e he (hfresh e he)
  have hfull' : c'.capacity ≤ c'.entries.length := by
    rw [h.capacity]
    exact hfull.trans (hnodup.subperm hsub).length_le
  rcases h.eq_or_last_mem hfull' with he | ⟨front, last, he, hlast⟩
  · exact he
  -- Otherwise all entries are in front of one that does not count, and there are too many.
  have hfront : c.entries ⊆ front := by
    intro e hmem
    have hmem' := hsub hmem
    rw [he, List.mem_append, List.mem_singleton] at hmem'
    refine hmem'.resolve_right fun heq => ?_
    have hold := h.old last hlast
    rw [← heq, hfresh e hmem] at hold
    cases hold
  have hle := (hnodup.subperm hfront).length_le
  have hsize := h.size_le'
  rw [he, List.length_append, List.length_singleton, h.capacity] at hsize
  omega

/-- What counts and is left in the first cache is left in the second one. -/
theorem kept_shed (h : Thinned now gone c c') (he : e ∈ c.shed.entries)
    (hf : c.isFresh now e.2 = true) : e ∈ c'.shed.entries := by
  have hmem := h.kept e ((shed_sublist c).mem he) hf
  by_cases hfull : c'.capacity ≤ c'.entries.length
  · rw [shed_of_full hfull]
    rcases h.eq_or_last_mem hfull with heq | ⟨front, last, heq, hlast⟩
    · rw [h.capacity, heq] at hfull
      rwa [heq, ← shed_of_full hfull]
    · rw [heq, List.mem_append, List.mem_singleton] at hmem
      rw [heq, List.dropLast_concat]
      refine hmem.resolve_right fun heq => ?_
      have hold := h.old last hlast
      rw [← heq, hf] at hold
      cases hold
  · rwa [shed_of_not_full hfull]

/-- **Room is made in both.** Unless the first cache drops an entry that counts and keeps one that
does not, what it drops and the second one keeps no longer counts. -/
theorem shed (h : Thinned now gone c c')
    (hfrugal : ∀ front last, c.entries = front ++ [last] → c.capacity ≤ c.entries.length →
      c.isFresh now last.2 = true → ∀ e ∈ c.entries, c.isFresh now e.2 = true) :
    ∃ gone', Thinned now gone' c.shed c'.shed ∧
      (c.shed.entries ++ gone').Sublist (c.entries ++ gone) := by
  have hassemble : ∀ gone', (c.shed.entries ++ gone').Sublist (c.entries ++ gone) →
      (∀ e ∈ gone', c.isFresh now e.2 = false) →
      c'.shed.entries.Sublist (c.shed.entries ++ gone') → Thinned now gone' c.shed c'.shed := by
    intro gone' hsub hold hsub'
    have hfresh : ∀ t, c.shed.isFresh now t = c.isFresh now t := by
      intro t
      unfold isFresh
      rw [timeToLive_shed]
    exact
      { capacity := by rw [capacity_shed, capacity_shed, h.capacity]
        timeToLive := by rw [timeToLive_shed, timeToLive_shed, h.timeToLive]
        size_le := (length_shed_lt h.size_le).le
        size_le' := (length_shed_lt h.size_le').le
        distinct := h.distinct.sublist (hsub.map Prod.fst)
        outside := fun e he => h.outside e (hsub.mem he)
        old := fun e he => (hfresh e.2).trans (hold e he)
        sublist := hsub'
        kept := fun e he hf => h.kept_shed he ((hfresh e.2).symm.trans hf) }
  have hstays : (c.shed.entries ++ gone).Sublist (c.entries ++ gone) :=
    (shed_sublist c).append_right gone
  by_cases hfull : c.capacity ≤ c.entries.length
  · have hpos := c.capacity_pos
    rcases List.eq_nil_or_concat c.entries with hnil | ⟨front, last, he⟩
    · rw [hnil, List.length_nil] at hfull
      omega
    rw [List.concat_eq_append] at he
    have hshed : c.shed.entries = front := by
      rw [shed_of_full hfull, he, List.dropLast_concat]
    cases hf : c.isFresh now last.2 with
    | true =>
      have heq := h.eq_of_full hfull (hfrugal front last he hfull hf)
      have hshed' : c'.shed.entries = c.shed.entries := by
        rw [shed_of_full (by rwa [heq, h.capacity]), shed_of_full hfull, heq]
      refine ⟨gone, hassemble gone hstays h.old ?_, hstays⟩
      rw [hshed']
      exact List.sublist_append_left _ _
    | false =>
      have hall : c.shed.entries ++ last :: gone = c.entries ++ gone := by
        rw [hshed, he, List.append_assoc, List.singleton_append]
      refine ⟨last :: gone, hassemble _ (hall ▸ .refl _) ?_ ?_, hall ▸ .refl _⟩
      · exact List.forall_mem_cons.2 ⟨hf, h.old⟩
      · rw [hall]
        exact (shed_sublist c').trans h.sublist
  · refine ⟨gone, hassemble gone hstays h.old ?_, hstays⟩
    rw [shed_of_not_full hfull]
    exact (shed_sublist c').trans h.sublist

/-! ## Operations -/

/-- A look-up answers the same in both. -/
theorem get (h : Thinned now gone c c') (k : CheckKey) :
    (c'.get now k).1 = (c.get now k).1 ∧
      ∃ gone', Thinned now gone' (c.get now k).2 (c'.get now k).2 := by
  obtain ⟨t, ht, hf, hg⟩ | ⟨hmiss, hg⟩ := get_eq h.nodup now k <;>
    obtain ⟨u, hu, hf', hg'⟩ | ⟨hmiss', hg'⟩ := get_eq h.nodup' now k
  · rw [h.isFresh_eq] at hf'
    cases eq_of_mem h.nodup ht ((h.mem_iff (e := (k, u)) hf').1 hu)
    have hroom := length_others_lt (mem_keys_of_mem ht)
    have hroom' := length_others_lt (mem_keys_of_mem hu)
    rw [hg, hg']
    exact ⟨rfl, others k gone, (h.remove k).cons (not_mem_keys_remove c k gone)
      (h.outside _ (List.mem_append_left _ ht)) (hroom.trans_le h.size_le)
      (hroom'.trans_le h.size_le')⟩
  · have hold := hmiss' t ((h.mem_iff (e := (k, t)) hf).2 ht)
    rw [h.isFresh_eq, hf] at hold
    cases hold
  · rw [h.isFresh_eq] at hf'
    have hold := hmiss u ((h.mem_iff (e := (k, u)) hf').1 hu)
    rw [hf'] at hold
    cases hold
  · rw [hg, hg']
    exact ⟨rfl, _, h.remove k⟩

/-- A confirmation that does not waste room. -/
theorem put (h : Thinned now gone c c') (hnow : now.inLeapSecond = false)
    (hfrugal : ¬ c.Wastes now k) : ∃ gone', Thinned now gone' (c.put now k) (c'.put now k) := by
  have hremoved := h.remove k
  obtain ⟨gone', hshed, hsub⟩ := hremoved.shed fun front last he hfull hf e hmem => by
    rw [← Bool.not_eq_false]
    intro hold
    have hlast : last ∈ c.entries :=
      (mem_others_iff.1 (he ▸ List.mem_append_right front List.mem_cons_self)).1
    exact hfrugal ⟨⟨last, hlast, hf, not_mem_keys_put h.nodup h.size_le he hfull⟩,
      e, (mem_others_iff.1 hmem).1, hold⟩
  rw [put_eq h.size_le, put_eq h.size_le']
  refine ⟨gone', hshed.cons (fun hk => ?_) hnow (length_shed_lt hremoved.size_le)
    (length_shed_lt hremoved.size_le')⟩
  exact not_mem_keys_remove c k gone ((hsub.map Prod.fst).mem hk)

/-- **An operation of both** that does not waste room answers the same. -/
theorem apply (h : Thinned call.now gone c c') (hnow : call.now.inLeapSecond = false)
    (hfrugal : ∀ k, call.op = .put k → ¬ c.Wastes call.now k) :
    c'.answer? call = c.answer? call ∧
      ∃ gone', Thinned call.now gone' (c.apply call) (c'.apply call) := by
  obtain ⟨now, op⟩ := call
  cases op with
  | put k => exact ⟨rfl, h.put hnow (hfrugal k rfl)⟩
  | get k =>
    obtain ⟨hanswer, hafter⟩ := h.get k
    exact ⟨congrArg some hanswer, hafter⟩
  | remove k => exact ⟨rfl, _, h.remove k⟩
  | purge => exact ⟨rfl, _, h.purge_both⟩

end Thinned

theorem Frugal.cons (h : c.Frugal (call :: calls)) :
    (∀ k, call.op = .put k → ¬ c.Wastes call.now k) ∧ (c.apply call).Frugal calls := by
  obtain ⟨now, op⟩ := call
  cases op with
  | put k =>
    obtain ⟨hwaste, hrest⟩ := h
    refine ⟨fun j hj => ?_, hrest⟩
    cases hj
    exact hwaste
  | get k => exact ⟨nofun, h⟩
  | remove k => exact ⟨nofun, h⟩
  | purge => exact ⟨nofun, h⟩

/-- **Operations with purges in between** answer the same, as long as no room is wasted. -/
theorem Thinned.answers_eq (h : Thinned now gone c c') (hp : WithPurges calls calls')
    (hs : Steady (now :: calls'.map Call.now)) (hf : c.Frugal calls) :
    c'.answers calls' = c.answers calls := by
  induction hp generalizing now gone c c' with
  | nil => rfl
  | keep call _ ih =>
    have hcall := hs.outside call.now (by simp)
    have hlater : Thinned call.now gone c c' := h.of_later (hs.outside now List.mem_cons_self) hcall
      ((List.pairwise_cons.1 hs.ordered).1 _ List.mem_cons_self)
    obtain ⟨hwaste, hrest⟩ := hf.cons
    obtain ⟨hanswer, gone', hafter⟩ := hlater.apply hcall hwaste
    simp only [answers, hanswer, ih hafter hs.tail hrest]
  | purge later _ ih =>
    have hpurge := hs.outside later (by simp)
    have hlater : Thinned later gone c c' := h.of_later (hs.outside now List.mem_cons_self) hpurge
      ((List.pairwise_cons.1 hs.ordered).1 _ List.mem_cons_self)
    exact ih hlater.purge hs.tail hf

/-- A purge before a confirmation that wastes room makes a key known that is not known otherwise. -/
theorem exists_get_of_wastes {maxEntries : Nat} {ttl : Duration} {before : List Call}
    (h : ((new maxEntries ttl).after before).Wastes now k) :
    ∃ j, (((new maxEntries ttl).after (before ++ [⟨now, .purge⟩, ⟨now, .put k⟩])).get now j).1 =
        true ∧
      (((new maxEntries ttl).after (before ++ [⟨now, .put k⟩])).get now j).1 = false := by
  have hr := recorded_after maxEntries ttl before
  have hd := (recorded_after maxEntries ttl (before ++ [⟨now, .purge⟩, ⟨now, .put k⟩])).distinct
  have hpurged : (new maxEntries ttl).after (before ++ [⟨now, .purge⟩, ⟨now, .put k⟩]) =
      (((new maxEntries ttl).after before).purge now).2.put now k := by
    simp [after, apply]
  have hkept : (new maxEntries ttl).after (before ++ [⟨now, .put k⟩]) =
      ((new maxEntries ttl).after before).put now k := by
    simp [after, apply]
  rw [hpurged] at hd ⊢
  rw [hkept]
  generalize (new maxEntries ttl).after before = c at h hr hd ⊢
  obtain ⟨⟨e, he, hf, hlost⟩, old, hold, hstale⟩ := h
  have hek : e.1 ≠ k := fun hek => hlost (hek ▸ mem_keys_of_mem List.mem_cons_self)
  have hroom : (c.purge now).2.size < (c.purge now).2.capacity :=
    (List.length_filter_lt_length_iff_exists.2 ⟨old, hold, by simp [hstale]⟩).trans_le hr.size_le
  have hmem : e ∈ ((c.purge now).2.put now k).entries :=
    (mem_put_of_room (.inr hroom)).2 (.inr ⟨List.mem_filter.2 ⟨he, hf⟩, hek⟩)
  refine ⟨e.1, get_of_mem hd hmem hf, ?_⟩
  obtain ⟨-, hg⟩ | ⟨t, ht, -, -⟩ | ⟨t, ht, -, -⟩ := get_cases (c.put now k) now e.1
  · rw [hg]
  · exact absurd (mem_keys_of_mem ht) hlost
  · exact absurd (mem_keys_of_mem ht) hlost

/-- **Purges do not matter**, as long as no confirmation takes away a key that counts while an entry
is there that does not: then the look-ups among any operations answer the same with and without
purges in between, if the clock does not go back and is never read inside a leap second. Where a
confirmation does so, a purge right before it decides whether a key is known right after it. -/
theorem purges_immaterial (maxEntries : Nat) (ttl : Duration) :
    (∀ calls calls', (new maxEntries ttl).Frugal calls → WithPurges calls calls' →
      Steady (calls'.map Call.now) →
      (new maxEntries ttl).answers calls' = (new maxEntries ttl).answers calls) ∧
    ∀ (before : List Call) (now : Instant) (k : CheckKey),
      ((new maxEntries ttl).after before).Wastes now k →
      ∃ j, (((new maxEntries ttl).after (before ++ [⟨now, .purge⟩, ⟨now, .put k⟩])).get now j).1 =
          true ∧
        (((new maxEntries ttl).after (before ++ [⟨now, .put k⟩])).get now j).1 = false := by
  refine ⟨fun calls calls' hf hp hs => ?_, fun before now k => exists_get_of_wastes⟩
  cases calls' with
  | nil =>
    cases hp
    rfl
  | cons call rest =>
    have hnow : Steady (call.now :: (call :: rest).map Call.now) := by
      refine ⟨List.pairwise_cons.2 ⟨fun t ht => ?_, hs.ordered⟩,
        List.forall_mem_cons.2 ⟨hs.outside _ List.mem_cons_self, hs.outside⟩⟩
      rcases List.mem_cons.1 ht with rfl | ht
      · exact Int.lt_irrefl _
      · exact (List.pairwise_cons.1 hs.ordered).1 t ht
    exact (Thinned.refl (c := new maxEntries ttl) (Nat.zero_le _) List.nodup_nil
      (by simp [new])).answers_eq hp hnow hf

/-! ## Sample histories -/

namespace Sample

/-- The first key is too old when the last one is confirmed, and it was used least recently. -/
def aging : List Call :=
  [⟨second 0, .put first⟩, ⟨second 5, .put ⟨"/in/2", "etl"⟩⟩, ⟨second 11, .put ⟨"/in/3", "etl"⟩⟩,
    ⟨second 11, .get ⟨"/in/2", "etl"⟩⟩, ⟨second 11, .get first⟩]

/-- The first key is looked up before, so that the second one was used least recently. -/
def crowded : List Call :=
  [⟨second 0, .put first⟩, ⟨second 5, .put ⟨"/in/2", "etl"⟩⟩, ⟨second 6, .get first⟩]

/-- A third key is confirmed, and then the second one is looked up. -/
def crowding : List Call :=
  [⟨second 11, .put ⟨"/in/3", "etl"⟩⟩, ⟨second 11, .get ⟨"/in/2", "etl"⟩⟩]

/-- A key that was confirmed just before a leap second is looked up just after it. -/
def aroundLeap : List Call :=
  [⟨second 1483228799, .put first⟩, ⟨second 1483228800, .get first⟩]

end Sample

/-- The first key is too old when the third one is confirmed. A purge takes it away, and so does the
confirmation. -/
theorem purges_immaterial_aging :
    (new 2 (.ofSecs 10)).answers (Sample.aging.take 2 ++
        ⟨Sample.second 11, .purge⟩ :: Sample.aging.drop 2) =
      (new 2 (.ofSecs 10)).answers Sample.aging ∧
    (new 2 (.ofSecs 10)).answers Sample.aging = [true, false] ∧
    ((new 2 (.ofSecs 10)).after Sample.crowded).Wastes (Sample.second 11) ⟨"/in/3", "etl"⟩ ∧
    ∃ j, (((new 2 (.ofSecs 10)).after (Sample.crowded ++
        [⟨Sample.second 11, .purge⟩, ⟨Sample.second 11, .put ⟨"/in/3", "etl"⟩⟩])).get
          (Sample.second 11) j).1 = true ∧
      (((new 2 (.ofSecs 10)).after (Sample.crowded ++
        [⟨Sample.second 11, .put ⟨"/in/3", "etl"⟩⟩])).get (Sample.second 11) j).1 = false := by
  obtain ⟨himmaterial, hmatters⟩ := purges_immaterial 2 (.ofSecs 10)
  have hfrugal : (new 2 (.ofSecs 10)).Frugal Sample.aging := by
    refine ⟨?_, ?_, ?_, trivial⟩ <;> decide +kernel
  have hpurges : WithPurges Sample.aging (Sample.aging.take 2 ++
      ⟨Sample.second 11, .purge⟩ :: Sample.aging.drop 2) :=
    .keep _ (.keep _ (.purge _ (.keep _ (.keep _ (.keep _ .nil)))))
  have hwastes : ((new 2 (.ofSecs 10)).after Sample.crowded).Wastes (Sample.second 11)
      ⟨"/in/3", "etl"⟩ := by decide +kernel
  exact ⟨himmaterial _ _ hfrugal hpurges ⟨by decide +kernel, by decide +kernel⟩,
    by decide +kernel, hwastes, hmatters _ _ _ hwastes⟩

/-- **A purge can matter.** It may make room, so that a key that counts is not taken away; and
inside a leap second it may drop an entry that would count again later. -/
theorem purge_matters :
    (¬ ∀ (maxEntries : Nat) (ttl : Duration) (calls calls' : List Call), WithPurges calls calls' →
      Steady (calls'.map Call.now) →
      (new maxEntries ttl).answers calls' = (new maxEntries ttl).answers calls) ∧
    ¬ ∀ (maxEntries : Nat) (ttl : Duration) (calls calls' : List Call),
      (new maxEntries ttl).Frugal calls → WithPurges calls calls' →
      ((calls'.map Call.now).Pairwise fun t u => ¬ u < t) →
      (new maxEntries ttl).answers calls' = (new maxEntries ttl).answers calls := by
  constructor
  · intro h
    have hpurges : WithPurges (Sample.crowded ++ Sample.crowding)
        (Sample.crowded ++ ⟨Sample.second 11, .purge⟩ :: Sample.crowding) :=
      .keep _ (.keep _ (.keep _ (.purge _ (.keep _ (.keep _ .nil)))))
    have heq := h 2 (.ofSecs 10) _ _ hpurges ⟨by decide +kernel, by decide +kernel⟩
    have hwithout : (new 2 (.ofSecs 10)).answers (Sample.crowded ++ Sample.crowding) =
        [true, false] := by decide +kernel
    have hwith : (new 2 (.ofSecs 10)).answers
        (Sample.crowded ++ ⟨Sample.second 11, .purge⟩ :: Sample.crowding) = [true, true] := by
      decide +kernel
    rw [hwithout, hwith] at heq
    cases heq
  · intro h
    have hpurges : WithPurges Sample.aroundLeap (Sample.aroundLeap.take 1 ++
        ⟨Sample.insideLeap, .purge⟩ :: Sample.aroundLeap.drop 1) :=
      .keep _ (.purge _ (.keep _ .nil))
    have hfrugal : (new 2 (.ofSecs 1)).Frugal Sample.aroundLeap :=
      ⟨by decide +kernel, trivial⟩
    have heq := h 2 (.ofSecs 1) _ _ hfrugal hpurges (by decide +kernel)
    have hwithout : (new 2 (.ofSecs 1)).answers Sample.aroundLeap = [true] := by decide +kernel
    have hwith : (new 2 (.ofSecs 1)).answers (Sample.aroundLeap.take 1 ++
        ⟨Sample.insideLeap, .purge⟩ :: Sample.aroundLeap.drop 1) = [false] := by decide +kernel
    rw [hwithout, hwith] at heq
    cases heq

end Cache
end Lookout
