import Lookout.Proofs.Evolution
import Lookout.Proofs.Standing

/-!
# Entries that stay

A full cache drops the entry that was used least recently. An entry stays as long as the keys that
have been used since are among a few that the cache has room for.

- `Cache.Recent`: an entry that counts, with none but such keys in front of it.
- **What makes a key recent**: it is found (`recent_get`), or it is confirmed (`recent_put`).
- **What keeps it recent**: look-ups and confirmations of such keys (`Recent.consulted`,
  `Recent.put`), and purges (`Recent.purge`). There may be many more entries behind it.
- **Surveys** (`Engine.recent_survey`): all keys that a survey finds are recent at its end.
-/

namespace Lookout

theorem Instant.since_self (t : Instant) : t.since t = 0 := by
  unfold since
  simp

namespace Cache

/-- The key has an entry that counts, and only keys of `W` have been used since. -/
def Recent (c : Cache) (now : Instant) (W : Finset CheckKey) (k : CheckKey) : Prop :=
  ∃ before t after, c.entries = before ++ (k, t) :: after ∧ c.isFresh now t = true ∧
    ∀ e ∈ before, e.1 ∈ W ∧ e.1 ≠ k

variable {c c' : Cache} {now : Instant} {W : Finset CheckKey} {j k : CheckKey}
  {before after : List (CheckKey × Instant)} {t : Instant}

theorem Recent.knows (h : c.Recent now W k) : c.knows now k = true := by
  obtain ⟨before, t, after, he, hfresh, hbefore⟩ := h
  have hlookup : c.confirmedAt? k = some t := by
    refine List.lookup_eq_some_iff.2 ⟨before, after, he, fun e hb => ?_⟩
    exact bne_iff_ne.2 (hbefore e hb).2.symm
  unfold Cache.knows
  rw [hlookup]
  exact hfresh

/-- Other keys in front of an entry and behind it may go. -/
private theorem others_append (hj : k ≠ j) :
    others j (before ++ (k, t) :: after) = others j before ++ (k, t) :: others j after := by
  unfold others
  rw [List.filter_append, List.filter_cons_of_pos (by exact bne_iff_ne.2 hj)]

private theorem forall_mem_others {p : CheckKey × Instant → Prop} (h : ∀ e ∈ before, p e) :
    ∀ e ∈ others j before, p e :=
  fun e he => h e (mem_others_iff.1 he).1

/-! ## Look-ups -/

/-- A key that is found is the most recent one. -/
theorem recent_get (W : Finset CheckKey) (h : c.knows now k = true) :
    (c.get now k).2.Recent now W k := by
  rw [← get_fst] at h
  obtain ⟨-, hg⟩ | ⟨t, -, hfresh, hg⟩ | ⟨t, -, -, hg⟩ := get_cases c now k <;> rw [hg] at h ⊢
  · cases h
  · exact ⟨[], t, others k c.entries, rfl, hfresh, fun e he => absurd he List.not_mem_nil⟩
  · cases h

theorem Recent.get (h : c.Recent now W k) (hj : j ∈ W) : (c.get now j).2.Recent now W k := by
  by_cases hk : k = j
  · exact hk ▸ recent_get W h.knows
  obtain ⟨before, t, after, he, hfresh, hbefore⟩ := h
  obtain ⟨-, hg⟩ | ⟨u, -, -, hg⟩ | ⟨u, -, -, hg⟩ := get_cases c now j <;> rw [hg]
  · exact ⟨before, t, after, he, hfresh, hbefore⟩
  · refine ⟨(j, u) :: others j before, t, others j after, ?_, hfresh, ?_⟩
    · rw [he, others_append hk]
      rfl
    · exact List.forall_mem_cons.2 ⟨⟨hj, Ne.symm hk⟩, forall_mem_others hbefore⟩
  · exact ⟨others j before, t, others j after, he ▸ others_append hk, hfresh,
      forall_mem_others hbefore⟩

theorem Recent.consulted (h : c.Recent now W k) (hc : c.Consulted now (· ∈ W) c') :
    c'.Recent now W k := by
  induction hc with
  | refl => exact h
  | get _ hj ih => exact ih.get hj

/-! ## Confirmations and purges -/

/-- A key that is confirmed is the most recent one. -/
theorem recent_put (W : Finset CheckKey) (k : CheckKey) (h : 0 ≤ c.timeToLive) :
    (c.put now k).Recent now W k := by
  refine ⟨[], now, _, rfl, decide_eq_true ?_, fun e he => absurd he List.not_mem_nil⟩
  rw [Instant.since_self]
  exact h

/-- An entry with only keys of `W` in front of it is not the last one of a full cache that lacks a
key of `W`. -/
private theorem after_ne_nil (hc : c.Tidy W.card) (he : c.entries = before ++ (k, t) :: after)
    (hbefore : ∀ e ∈ before, e.1 ∈ W) (hk : k ∈ W) (hj : j ∈ W) (hnone : j ∉ c.keys)
    (hfull : c.capacity ≤ c.entries.length) : after ≠ [] := by
  rintro rfl
  have hsubset : (j :: c.keys).toFinset ⊆ W := by
    intro i hi
    rcases List.mem_cons.1 (List.mem_toFinset.1 hi) with rfl | hi
    · exact hj
    · obtain ⟨u, hu⟩ := mem_keys_iff.1 hi
      rw [he] at hu
      rcases List.mem_append.1 hu with hu | hu
      · exact hbefore _ hu
      · cases List.mem_singleton.1 hu
        exact hk
  have hle := Finset.card_le_card hsubset
  rw [List.toFinset_card_of_nodup (List.nodup_cons.2 ⟨hnone, hc.distinct⟩)] at hle
  have hlength : c.keys.length = c.entries.length := List.length_map _
  have hroom := hc.capacity
  rw [List.length_cons] at hle
  omega

theorem Recent.put (h : c.Recent now W k) (hc : c.Tidy W.card) (hk : k ∈ W) (hj : j ∈ W) :
    (c.put now j).Recent now W k := by
  by_cases hjk : k = j
  · exact hjk ▸ recent_put W k hc.timeToLive
  obtain ⟨before, t, after, he, hfresh, hbefore⟩ := h
  -- Whatever is dropped for the new entry, it is in front of the old one or behind it.
  have hkept : ∀ {before' after'}, (c.put now j).entries = (j, now) :: before' ++ (k, t) :: after' →
      (∀ e ∈ before', e ∈ before) → (c.put now j).Recent now W k := by
    intro before' after' he' hb
    refine ⟨(j, now) :: before', t, after', he', hfresh, ?_⟩
    exact List.forall_mem_cons.2 ⟨⟨hj, Ne.symm hjk⟩, fun e hmem => hbefore e (hb e hmem)⟩
  have hput : (c.put now j).entries = (j, now) ::
      (if (c.confirmedAt? j).isSome then others j c.entries
      else if c.capacity ≤ c.entries.length then c.entries.dropLast
      else c.entries) := rfl
  split at hput
  · rw [he, others_append hjk] at hput
    exact hkept hput fun e hmem => (mem_others_iff.1 hmem).1
  · rename_i hnone
    rw [Option.not_isSome_iff_eq_none, confirmedAt?_eq_none_iff] at hnone
    split at hput
    · rename_i hfull
      have hafter := after_ne_nil hc he (fun e hb => (hbefore e hb).1) hk hj hnone hfull
      rw [he, List.dropLast_append_of_ne_nil (List.cons_ne_nil _ _),
        List.dropLast_cons_of_ne_nil hafter] at hput
      exact hkept hput fun e hmem => hmem
    · rw [he] at hput
      exact hkept hput fun e hmem => hmem

theorem Recent.purge (h : c.Recent now W k) : (c.purge now).2.Recent now W k := by
  obtain ⟨before, t, after, he, hfresh, hbefore⟩ := h
  refine ⟨before.filter fun e => c.isFresh now e.2, t, after.filter fun e => c.isFresh now e.2, ?_,
    hfresh, fun e hmem => hbefore e (List.mem_filter.1 hmem).1⟩
  have hpurge : (c.purge now).2.entries = c.entries.filter fun e => c.isFresh now e.2 := rfl
  rw [hpurge, he, List.filter_append, List.filter_cons_of_pos (by exact hfresh)]

end Cache

/-! ## Surveys -/

variable {now : Instant} {W : Finset CheckKey} {k : CheckKey} {s : Scheduler}

theorem Checker.recent_evaluateKeys {keys : List CheckKey} (hkeys : ∀ k ∈ keys, k ∈ W)
    (hk : k ∈ keys) (hknows : s.cache.knows now k = true) :
    (evaluateKeys now keys s).2.cache.Recent now W k := by
  induction keys generalizing s with
  | nil => cases hk
  | cons j rest ih =>
    have hrest : ∀ k ∈ rest, k ∈ W := fun k hk => hkeys k (List.mem_cons_of_mem _ hk)
    have htail : (evaluateKeys now (j :: rest) s).2 =
        (evaluateKeys now rest (evaluateKey now j s).2).2 := rfl
    rw [htail]
    rcases List.mem_cons.1 hk with rfl | hk
    · have hfound : (s.lookup now k).1 = true := (s.lookup_fst now k).trans hknows
      have hhead : (evaluateKey now k s).2 = (s.lookup now k).2 := by
        unfold evaluateKey
        cases hl : s.lookup now k with
        | mk found s₁ =>
          rw [hl] at hfound
          cases hfound
          rfl
      have hafter : (s.lookup now k).2.cache.Consulted now (· ∈ W)
          (evaluateKeys now rest (s.lookup now k).2).2.cache := consulted_evaluateKeys hrest
      rw [hhead]
      exact (Cache.recent_get W hknows).consulted hafter
    · exact ih hrest hk ((knows_evaluateKey now j k s).trans hknows)

/-- **Keys that a survey finds stay**: they are recent at its end. -/
theorem Engine.recent_survey {armed : List (Uuid × Lifecycle)} {id : Uuid} {l : Lifecycle}
    (hkeys : ∀ q ∈ armed, ∀ k ∈ q.2.checkKeys, k ∈ W) (hl : (id, l) ∈ armed)
    (hx : l.trigger.isExpiredAt now = false) (hk : k ∈ l.checkKeys)
    (hknows : s.cache.knows now k = true) : (survey now armed s).2.cache.Recent now W k := by
  induction armed generalizing s with
  | nil => cases hl
  | cons q rest ih =>
    have hrest : ∀ q ∈ rest, ∀ k ∈ q.2.checkKeys, k ∈ W :=
      fun q hq => hkeys q (List.mem_cons_of_mem _ hq)
    rw [survey_cons]
    rcases List.mem_cons.1 hl with rfl | hl
    · rw [Lifecycle.find_of_not_expired hx]
      exact (Checker.recent_evaluateKeys (hkeys _ List.mem_cons_self) hk hknows).consulted
        (consulted_survey hrest)
    · exact ih hrest hl ((q.2.knows_find q.1 now s k).trans hknows)

end Lookout
