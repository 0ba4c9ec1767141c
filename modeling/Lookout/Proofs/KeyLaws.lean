import Lookout.Proofs.ByteOrder
import Lookout.Proofs.Retention
import Lookout.Proofs.Scheduler

/-!
# The laws of keys

The pending keys are kept by their order, the entries of the cache by equality. Both tell the same
keys apart, also those whose principal and path run into the same text.

- **The order of bytes** (`CheckKey.compare_eq_lt_iff`): keys are in the order of the bytes of the
  principal followed by those of the path. Among keys with the same bytes the principal decides, so
  that the path is never needed on its own.
- **Search trees** (`CheckKey.toList_ofList`): a tree that is searched by `compare` and nothing else
  has the keys of a list, each once.
- **The same requests** to a scheduler (`Scheduler.pending_submitAll`) and to a cache
  (`Cache.mem_keys_confirmAll`) leave the same keys in both, if both have room for them.
- **The laws** (`CheckKey.compare_lawful`).
-/

namespace Lookout

/-! ## The order of bytes -/

namespace CheckKey

open Text

variable {a b : CheckKey}

/-- The bytes of the principal followed by those of the path. -/
def bytes (k : CheckKey) : List Nat :=
  Utf8.encode k.principal.toList ++ Utf8.encode k.path.toList

theorem encode_joined (k : CheckKey) : Utf8.encode k.joined.toList = k.bytes := by
  unfold joined bytes
  rw [String.toList_append]
  exact List.flatMap_append

theorem joined_lt_iff : a.joined < b.joined ↔ a.bytes < b.bytes := by
  rw [← encode_joined, ← encode_joined]
  exact Utf8.encode_lt_iff.symm

theorem joined_eq_iff : a.joined = b.joined ↔ a.bytes = b.bytes := by
  rw [← encode_joined, ← encode_joined, Utf8.encode_inj, String.toList_inj]

/-- What is left of the same text behind the same principal is the same path. -/
theorem path_eq_of_joined (h : a.joined = b.joined) (hprincipal : a.principal = b.principal) :
    a.path = b.path := by
  unfold joined at h
  rw [hprincipal] at h
  exact String.append_right_inj _ |>.1 h

/-- **Keys are in the order of their bytes**, and those with the same bytes in the order of their
principals. -/
theorem compare_eq_lt_iff : compare a b = .lt ↔
    a.bytes < b.bytes ∨ a.bytes = b.bytes ∧
      Utf8.encode a.principal.toList < Utf8.encode b.principal.toList := by
  have hjoined : compare a.joined b.joined = .lt ↔ a.bytes < b.bytes :=
    compareOfLessAndEq_eq_lt.trans joined_lt_iff
  have hprincipal : compare a.principal b.principal = .lt ↔
      Utf8.encode a.principal.toList < Utf8.encode b.principal.toList :=
    compareOfLessAndEq_eq_lt.trans Utf8.encode_lt_iff.symm
  refine Ordering.then_eq_lt.trans (or_congr hjoined ?_)
  rw [Std.LawfulEqCmp.compare_eq_iff_eq, joined_eq_iff]
  refine and_congr_right fun hbytes => Ordering.then_eq_lt.trans ?_
  refine Iff.trans (or_iff_left ?_) hprincipal
  -- Behind the same principal the same bytes leave the same path, which is not less than itself.
  rintro ⟨heq, hpath⟩
  have hsame := path_eq_of_joined (joined_eq_iff.2 hbytes) (Std.LawfulEqOrd.eq_of_compare heq)
  rw [hsame, Std.ReflOrd.compare_self] at hpath
  cases hpath

theorem compare_eq_lt_iff_of_ne (h : a.bytes ≠ b.bytes) :
    compare a b = .lt ↔ a.bytes < b.bytes :=
  compare_eq_lt_iff.trans (or_iff_left fun heq => h heq.1)

/-! ## Search trees -/

/-- **A search tree** has the keys of a list, each once, and lists them in ascending order. -/
theorem toList_ofList (keys : List CheckKey) :
    (Std.TreeSet.ofList keys).toList = sortedDistinct keys := by
  have hascending : Ascending (Std.TreeSet.ofList keys).toList := Std.TreeSet.ordered_toList
  refine hascending.ext (ascending_sortedDistinct keys) fun k => ?_
  rw [Std.TreeSet.mem_toList, Std.TreeSet.mem_ofList, List.contains_iff_mem, mem_sortedDistinct]

end CheckKey

/-! ## The same requests -/

namespace Scheduler

open CheckKey

variable {s : Scheduler} {now : Instant} {k : CheckKey} {requests : List (CheckKey × Instant)}

/-- The scheduler after keys have been submitted, each at its time. -/
def submitAll (s : Scheduler) (requests : List (CheckKey × Instant)) : Scheduler :=
  requests.foldl (fun s r => (s.submit r.2 r.1).2) s

/-- A key that has no entry in the cache is pending once it is submitted, if there is room. -/
theorem submit_of_room (hk : k ∉ s.cache.keys) (hs : Ascending s.pending)
    (hroom : s.pending.length < s.capacity) :
    (s.submit now k).2 = { s with pending := k.insertSorted s.pending } := by
  have hlookup : s.lookup now k = (false, s) := by
    obtain ⟨-, hg⟩ | ⟨t, ht, -⟩ | ⟨t, ht, -⟩ := Cache.get_cases s.cache now k
    · unfold lookup
      rw [hg]
    · exact absurd (Cache.mem_keys_of_mem ht) hk
    · exact absurd (Cache.mem_keys_of_mem ht) hk
  unfold submit
  rw [hlookup]
  dsimp only
  split
  · rename_i hpending
    -- A key that is pending already has its place.
    have hsame : k.insertSorted s.pending = s.pending := by
      refine (hs.insertSorted k).ext hs fun j => ?_
      rw [mem_insertSorted]
      exact or_iff_right_of_imp fun hj => hj ▸ List.contains_iff_mem.1 hpending
    rw [hsame]
  · rw [if_neg (Nat.not_le.2 hroom)]

theorem submitAll_of_room (hcache : s.cache.keys = []) (hs : Ascending s.pending)
    (hroom : s.pending.length + requests.length ≤ s.capacity) :
    Ascending (s.submitAll requests).pending ∧
      ∀ k, k ∈ (s.submitAll requests).pending ↔ k ∈ s.pending ∨ k ∈ requests.map Prod.fst := by
  induction requests generalizing s with
  | nil => exact ⟨hs, fun k => (or_iff_left List.not_mem_nil).symm⟩
  | cons r rest ih =>
    rw [List.length_cons] at hroom
    have hnone : r.1 ∉ s.cache.keys := hcache ▸ List.not_mem_nil
    have hstep : s.submitAll (r :: rest) =
        submitAll { s with pending := r.1.insertSorted s.pending } rest :=
      congrArg (submitAll · rest) (submit_of_room hnone hs (by omega))
    have hlength := length_insertSorted_le r.1 s.pending
    obtain ⟨hascending, hmem⟩ := ih (s := { s with pending := r.1.insertSorted s.pending })
      hcache (hs.insertSorted r.1) (by dsimp only; omega)
    rw [hstep]
    refine ⟨hascending, fun k => (hmem k).trans ?_⟩
    rw [mem_insertSorted, List.map_cons, List.mem_cons, or_assoc, or_left_comm]

/-- **The pending keys** of a new scheduler are those that were submitted, in ascending order. -/
theorem pending_submitAll {c : Cache} {capacity : Nat} (hcache : c.keys = [])
    (hroom : requests.length ≤ capacity) :
    ((Scheduler.new c capacity).submitAll requests).pending =
      sortedDistinct (requests.map Prod.fst) := by
  obtain ⟨hascending, hmem⟩ := submitAll_of_room (s := Scheduler.new c capacity) hcache .nil
    (by simpa [Scheduler.new] using hroom)
  refine hascending.ext (ascending_sortedDistinct _) fun k => ?_
  rw [hmem, mem_sortedDistinct]
  exact or_iff_right List.not_mem_nil

end Scheduler

namespace Cache

variable {c : Cache} {now : Instant} {j k : CheckKey} {requests : List (CheckKey × Instant)}
  {maxEntries : Nat} {ttl : Duration}

/-- The cache after keys have been confirmed, each at its time. -/
def confirmAll (c : Cache) (requests : List (CheckKey × Instant)) : Cache :=
  c.after (requests.map fun r => ⟨r.2, .put r.1⟩)

theorem mem_keys_put_of_room (h : c.size < c.capacity) :
    j ∈ (c.put now k).keys ↔ j = k ∨ j ∈ c.keys := by
  refine ⟨mem_keys_put, fun hj => ?_⟩
  by_cases hjk : j = k
  · exact mem_keys_of_mem ((mem_put_of_room (.inr h)).2 (.inl (by rw [hjk])))
  · obtain ⟨t, ht⟩ := mem_keys_iff.1 (hj.resolve_left hjk)
    exact mem_keys_of_mem ((mem_put_of_room (.inr h)).2 (.inr ⟨ht, hjk⟩))

theorem size_put_le (c : Cache) (now : Instant) (k : CheckKey) :
    (c.put now k).size ≤ c.size + 1 := by
  obtain ⟨rest, hp, hsub, -⟩ := entries_put c now k
  unfold size
  rw [hp]
  exact Nat.succ_le_succ hsub.length_le

theorem mem_keys_confirmAll_of_room (hroom : c.size + requests.length ≤ c.capacity) :
    k ∈ (c.confirmAll requests).keys ↔ k ∈ c.keys ∨ k ∈ requests.map Prod.fst := by
  induction requests generalizing c with
  | nil => exact (or_iff_left List.not_mem_nil).symm
  | cons r rest ih =>
    rw [List.length_cons] at hroom
    have hstep : c.confirmAll (r :: rest) = (c.put r.2 r.1).confirmAll rest := rfl
    have hsize := size_put_le c r.2 r.1
    have hcapacity : (c.put r.2 r.1).capacity = c.capacity := rfl
    rw [hstep, ih (by omega), mem_keys_put_of_room (by omega), List.map_cons, List.mem_cons,
      or_assoc, or_left_comm]

/-- **The keys of a new cache** with room for all of them are those that were confirmed. -/
theorem mem_keys_confirmAll (hroom : requests.length ≤ maxEntries) :
    k ∈ ((new maxEntries ttl).confirmAll requests).keys ↔ k ∈ requests.map Prod.fst := by
  have hcapacity : maxEntries ≤ (new maxEntries ttl).capacity := Nat.le_max_right _ _
  have hsize : (new maxEntries ttl).size = 0 := rfl
  exact (mem_keys_confirmAll_of_room (by omega)).trans (or_iff_right List.not_mem_nil)

theorem nodup_keys_confirmAll (maxEntries : Nat) (ttl : Duration)
    (requests : List (CheckKey × Instant)) :
    ((new maxEntries ttl).confirmAll requests).keys.Nodup :=
  (recorded_after maxEntries ttl _).distinct

end Cache

/-- A scheduler, a cache and a search tree hold the same keys. -/
structure SameKeys (s : Scheduler) (c : Cache) (tree : Std.TreeSet CheckKey) : Prop where
  listed : s.pending = tree.toList
  size : c.size = tree.size
  pending : ∀ k, s.isPending k = tree.contains k
  confirmed : ∀ k, (c.confirmedAt? k).isSome = tree.contains k

/-- **The same keys** are pending if they are submitted, and in the cache if they are confirmed. -/
theorem sameKeys_of_requests {requests : List (CheckKey × Instant)} {maxEntries capacity : Nat}
    {ttl : Duration} (hentries : requests.length ≤ maxEntries)
    (hcapacity : requests.length ≤ capacity) :
    SameKeys ((Scheduler.new (Cache.new maxEntries ttl) capacity).submitAll requests)
      ((Cache.new maxEntries ttl).confirmAll requests)
      (.ofList (requests.map Prod.fst)) := by
  have hempty : (Cache.new maxEntries ttl).keys = [] := rfl
  have hlisted := (Scheduler.pending_submitAll hempty hcapacity).trans
    (CheckKey.toList_ofList (requests.map Prod.fst)).symm
  have hknown : ∀ k, k ∈ ((Cache.new maxEntries ttl).confirmAll requests).keys ↔
      k ∈ (Std.TreeSet.ofList (requests.map Prod.fst)).toList := by
    intro k
    rw [Cache.mem_keys_confirmAll hentries, CheckKey.toList_ofList, CheckKey.mem_sortedDistinct]
  constructor
  case listed => exact hlisted
  case size =>
    have hascending : CheckKey.Ascending (Std.TreeSet.ofList (requests.map Prod.fst)).toList :=
      Std.TreeSet.ordered_toList
    have hperm := (List.perm_ext_iff_of_nodup
      (Cache.nodup_keys_confirmAll maxEntries ttl requests) hascending.nodup).2 hknown
    rw [← Std.TreeSet.length_toList, ← hperm.length_eq]
    exact (List.length_map _).symm
  case pending =>
    intro k
    unfold Scheduler.isPending
    rw [hlisted, Std.TreeSet.contains_toList]
  case confirmed =>
    intro k
    rw [Bool.eq_iff_iff, Option.isSome_iff_ne_none, ne_eq, Cache.confirmedAt?_eq_none_iff, not_not,
      hknown, Std.TreeSet.mem_toList, Std.TreeSet.mem_iff_contains]

/-! ## The laws -/

namespace CheckKey

/-- **Keys are lawfully ordered**: `compare` is a linear order in which only a key itself is equal to
it, and it is the order of bytes wherever these differ. So what is kept by this order and what is
kept by equality hold the same keys. -/
theorem compare_lawful (a b c : CheckKey) :
    compare a a = .eq ∧
      compare b a = (compare a b).swap ∧
      ((compare a b).isLE = true ∧ (compare b a).isLE = true ↔ a = b) ∧
      ((compare a b).isLE = true → (compare b c).isLE = true → (compare a c).isLE = true) ∧
      ((compare a b).isLE = true ∨ (compare b a).isLE = true) ∧
      (compare a b = .eq ↔ a.path = b.path ∧ a.principal = b.principal) ∧
      (a.bytes ≠ b.bytes →
        (compare a b = .lt ↔ a.bytes < b.bytes) ∧ (compare a b = .gt ↔ b.bytes < a.bytes)) ∧
      ∀ (requests : List (CheckKey × Instant)) (maxEntries capacity : Nat) (ttl : Duration),
        requests.length ≤ maxEntries → requests.length ≤ capacity →
        SameKeys ((Scheduler.new (Cache.new maxEntries ttl) capacity).submitAll requests)
          ((Cache.new maxEntries ttl).confirmAll requests)
          (.ofList (requests.map Prod.fst)) := by
  have hself : compare a a = .eq := Std.ReflOrd.compare_self
  have hswap : compare b a = (compare a b).swap := Std.OrientedOrd.eq_swap
  have heq : compare a b = .eq ↔ a = b := Std.LawfulEqCmp.compare_eq_iff_eq
  refine ⟨hself, hswap, ⟨fun ⟨hab, hba⟩ => ?_, ?_⟩, Std.TransOrd.isLE_trans, ?_, ?_,
    fun hbytes => ⟨compare_eq_lt_iff_of_ne hbytes, ?_⟩,
    fun requests maxEntries capacity ttl => sameKeys_of_requests⟩
  · exact heq.1 (Std.OrientedCmp.isLE_antisymm hab hba)
  · rintro rfl
    rw [hself]
    exact ⟨rfl, rfl⟩
  · rw [hswap]
    cases compare a b with
    | lt => exact .inl rfl
    | eq => exact .inl rfl
    | gt => exact .inr rfl
  · rw [heq]
    cases a
    cases b
    rw [mk.injEq]
  · rw [Std.OrientedCmp.gt_iff_lt]
    exact compare_eq_lt_iff_of_ne hbytes.symm

namespace Sample

/-- A key whose principal and path run into `abc`. -/
def shorter : CheckKey :=
  ⟨"bc", "a"⟩

/-- Another key whose principal and path run into `abc`; its principal is longer. -/
def longer : CheckKey :=
  ⟨"c", "ab"⟩

/-- A key whose bytes come last. -/
def last : CheckKey :=
  ⟨"d", "ab"⟩

/-- Requests for the keys, for one of them twice. -/
def requests : List (CheckKey × Instant) :=
  [(longer, .epoch), (last, .epoch), (shorter, .epoch), (longer, .epoch)]

end Sample

/-- Two keys with the same bytes stay apart: both become pending, in the order of their principals,
and both have an entry in the cache. -/
theorem compare_lawful_run_together :
    Sample.shorter.bytes = Sample.longer.bytes ∧
      (compare Sample.shorter Sample.last).isLE = true ∧
      compare Sample.longer Sample.last = .lt ∧
      ((Scheduler.new (Cache.new 4 (.ofSecs 60)) 4).submitAll Sample.requests).pending =
        [Sample.shorter, Sample.longer, Sample.last] ∧
      SameKeys ((Scheduler.new (Cache.new 4 (.ofSecs 60)) 4).submitAll Sample.requests)
        ((Cache.new 4 (.ofSecs 60)).confirmAll Sample.requests)
        (.ofList (Sample.requests.map Prod.fst)) := by
  obtain ⟨-, -, -, htrans, -, -, -, hsame⟩ :=
    compare_lawful Sample.shorter Sample.longer Sample.last
  obtain ⟨-, -, -, -, -, -, hlast, -⟩ :=
    compare_lawful Sample.longer Sample.last Sample.last
  have hlt : compare Sample.longer Sample.last = .lt := (hlast (by decide)).1.2 (by decide)
  exact ⟨by decide, htrans (by decide) (by rw [hlt]; rfl), hlt, by decide,
    hsame _ _ _ _ (by decide) (by decide)⟩

end CheckKey
end Lookout
