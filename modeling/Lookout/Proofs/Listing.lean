import Lookout.Proofs.ByteOrder
import Lookout.Proofs.Restart

/-!
# Listings

A listing is put in order twice: by the store, from the oldest submission on, and then by the engine,
flow by flow. What the second order leaves equal stays in the first, so that both together are one
order (`Trigger.ListedBefore`), in which the same triggers have only one listing.

- **Two orders, one after the other** (`pairwise_mergeSort_lex`).
- **The order of listings** (`Trigger.listingOrder_eq_lt_iff`): by project, by the bytes of the
  flow's name, by the time of submission, and by identifier.
- **Listings** (`Engine.listing_exact`): complete, in order, and the same whatever the order of the
  stored entries.
-/

namespace Lookout

/-! ## Two orders, one after the other -/

section Stability

variable {α : Type} {order order' : α → α → Ordering} [Std.TransCmp order]

theorem isLE_total (a b : α) : ((order a b).isLE || (order b a).isLE) = true := by
  have hswap : order b a = (order a b).swap := Std.OrientedCmp.eq_swap
  rw [hswap]
  cases order a b <;> rfl

/-- Entries that an order leaves equal are not moved against each other. -/
theorem filter_mergeSort {p : α → Bool}
    (hp : ∀ a b, p a = true → p b = true → (order a b).isLE = true) (l : List α) :
    (l.mergeSort fun a b => (order a b).isLE).filter p = l.filter p := by
  have hkept : (l.filter p).Sublist (l.mergeSort fun a b => (order a b).isLE) := by
    refine List.sublist_mergeSort (fun a b c => Std.TransCmp.isLE_trans) isLE_total ?_
      List.filter_sublist
    exact List.pairwise_filter.2 (List.pairwise_of_forall fun a b ha hb => hp a b ha hb)
  have hsub := hkept.filter p
  simp only [List.filter_filter, Bool.and_self] at hsub
  exact (hsub.eq_of_length ((List.mergeSort_perm l _).filter p).length_eq.symm).symm

/-- **What is sorted once more** is in the new order and, where that leaves entries equal, in the
order it had before. -/
theorem pairwise_mergeSort_lex {l : List α}
    (h : l.Pairwise fun a b => (order' a b).isLE = true) :
    (l.mergeSort fun a b => (order a b).isLE).Pairwise fun a b =>
      (compareLex order order' a b).isLE = true := by
  refine List.pairwise_iff_forall_sublist.2 fun {a b} hab => ?_
  have hle : (order a b).isLE = true := List.pairwise_iff_forall_sublist.1
    (List.pairwise_mergeSort (fun a b c => Std.TransCmp.isLE_trans) isLE_total l) hab
  refine Ordering.isLE_then_iff_or.2 ?_
  rcases Ordering.isLE_iff_eq_lt_or_eq_eq.1 hle with hlt | heq
  · exact .inl hlt
  · have hequal : ∀ c d, (order a c == .eq) = true → (order a d == .eq) = true →
        (order c d).isLE = true := by
      intro c d hc hd
      rw [← Std.TransCmp.congr_left (beq_iff_eq.1 hc), beq_iff_eq.1 hd]
      rfl
    have hpair : [a, b].Sublist (l.filter fun c => order a c == .eq) := by
      have hfilter := hab.filter fun c => order a c == .eq
      rw [filter_mergeSort hequal] at hfilter
      simpa [heq, Std.ReflCmp.compare_self] using hfilter
    exact .inr ⟨heq, List.pairwise_iff_forall_sublist.1 h (hpair.trans List.filter_sublist)⟩

end Stability

/-! ## The order of listings -/

instance : Std.TransOrd Instant :=
  inferInstanceAs (Std.TransCmp (compareOn Instant.rank))

instance : Std.TransOrd Uuid :=
  inferInstanceAs (Std.TransCmp (compareOn Uuid.value))

instance : Std.LawfulEqOrd Uuid where
  eq_of_compare {id id'} h := by
    cases id
    cases id'
    cases Nat.compare_eq_eq.1 h
    rfl

/-- Instants of the same rank are the same: seconds and nanoseconds stay within their ranges. -/
instance : Std.LawfulEqOrd Instant where
  eq_of_compare {t u} h := by
    have hrank : t.rank = u.rank := Int.compare_eq_eq.1 h
    have := t.second_lt
    have := u.second_lt
    have := t.nano_lt
    have := u.nano_lt
    unfold Instant.rank at hrank
    obtain ⟨hday, hsecond, hnano⟩ : t.day = u.day ∧ t.second = u.second ∧ t.nano = u.nano := by
      omega
    cases t
    cases u
    cases hday
    cases hsecond
    cases hnano
    rfl

namespace Trigger

/-- Two triggers wait for the same flow. -/
def SameFlow (t u : Trigger) : Prop :=
  t.projectId = u.projectId ∧ t.flowName = u.flowName

/-- The flow of a trigger comes before that of another one: by project, then by the bytes of its
name. -/
def FlowPrecedes (t u : Trigger) : Prop :=
  t.projectId < u.projectId ∨ t.projectId = u.projectId ∧
    Text.Utf8.encode t.flowName.toList < Text.Utf8.encode u.flowName.toList

/-- A trigger was submitted before another one. The identifier decides between those that were
submitted at the same time. -/
def SubmittedEarlier (t u : Trigger) : Prop :=
  t.submitTime < u.submitTime ∨ t.submitTime = u.submitTime ∧ t.id.value < u.id.value

/-- A trigger is listed before another one: flow by flow, and from the oldest submission on. -/
def ListedBefore (t u : Trigger) : Prop :=
  t.FlowPrecedes u ∨ t.SameFlow u ∧ t.SubmittedEarlier u

/-- Compares the flows of triggers. -/
def flowOrder : Trigger → Trigger → Ordering :=
  compareLex (compareOn (·.projectId.toInt)) (compareOn (·.flowName))

/-- Compares the submissions of triggers. -/
def submissionOrder : Trigger → Trigger → Ordering :=
  compareLex (compareOn (·.submitTime)) (compareOn (·.id))

/-- Compares the flows of triggers, then their submissions. -/
def listingOrder : Trigger → Trigger → Ordering :=
  compareLex flowOrder submissionOrder

instance : Std.TransCmp flowOrder :=
  inferInstanceAs (Std.TransCmp (compareLex _ _))

instance : Std.TransCmp submissionOrder :=
  inferInstanceAs (Std.TransCmp (compareLex _ _))

instance : Std.TransCmp listingOrder :=
  inferInstanceAs (Std.TransCmp (compareLex _ _))

variable {t u v : Trigger}

theorem flowOrder_eq_eq_iff : flowOrder t u = .eq ↔ t.SameFlow u := by
  refine compareLex_eq_eq.trans (and_congr (Int.compare_eq_eq.trans Int64.toInt_inj) ?_)
  show compare t.flowName u.flowName = .eq ↔ _
  exact Std.LawfulEqCmp.compare_eq_iff_eq

theorem flowOrder_eq_lt_iff : flowOrder t u = .lt ↔ t.FlowPrecedes u := by
  refine Ordering.then_eq_lt.trans (or_congr ?_ (and_congr ?_ ?_))
  · exact Int.compare_eq_lt.trans Int64.lt_iff_toInt_lt.symm
  · exact Int.compare_eq_eq.trans Int64.toInt_inj
  · show compare t.flowName u.flowName = .lt ↔ _
    exact compareOfLessAndEq_eq_lt.trans Text.Utf8.encode_lt_iff.symm

theorem submissionOrder_eq_lt_iff : submissionOrder t u = .lt ↔ t.SubmittedEarlier u := by
  refine Ordering.then_eq_lt.trans (or_congr Int.compare_eq_lt (and_congr ?_ Nat.compare_eq_lt))
  show compare t.submitTime u.submitTime = .eq ↔ _
  exact Std.LawfulEqCmp.compare_eq_iff_eq

theorem listingOrder_eq_lt_iff : listingOrder t u = .lt ↔ t.ListedBefore u :=
  Ordering.then_eq_lt.trans (or_congr flowOrder_eq_lt_iff
    (and_congr flowOrder_eq_eq_iff submissionOrder_eq_lt_iff))

instance (t u : Trigger) : Decidable (t.ListedBefore u) :=
  decidable_of_iff _ listingOrder_eq_lt_iff

/-- Listings in order are the same if they list the same triggers. -/
theorem eq_of_listedBefore {ts ts' : List Trigger} (h : ts.Pairwise ListedBefore)
    (h' : ts'.Pairwise ListedBefore) (hmem : ∀ t, t ∈ ts ↔ t ∈ ts') : ts = ts' := by
  have hasymm : ∀ t u : Trigger, t.ListedBefore u → ¬ u.ListedBefore t := fun t u htu hut =>
    Std.OrientedCmp.not_lt_of_lt (listingOrder_eq_lt_iff.2 htu) (listingOrder_eq_lt_iff.2 hut)
  have hnodup : ∀ {ts : List Trigger}, ts.Pairwise ListedBefore → ts.Nodup := by
    refine fun h => h.imp fun {t u} htu heq => ?_
    subst heq
    exact hasymm _ _ htu htu
  refine ((List.perm_ext_iff_of_nodup (hnodup h) (hnodup h')).2 hmem).eq_of_pairwise
    (fun t u _ _ htu hut => absurd hut (hasymm t u htu)) h h'

theorem ListedBefore.flowOrder_isLE (h : t.ListedBefore u) : (flowOrder t u).isLE = true := by
  rcases h with h | ⟨h, -⟩
  · rw [flowOrder_eq_lt_iff.2 h]
    rfl
  · rw [flowOrder_eq_eq_iff.2 h]
    rfl

/-- Between triggers of one flow there are no others. -/
theorem SameFlow.between (h : t.SameFlow v) (htu : t.ListedBefore u) (huv : u.ListedBefore v) :
    t.SameFlow u := by
  have hback : (flowOrder u t).isLE = true := by
    rw [Std.TransCmp.congr_right (flowOrder_eq_eq_iff.2 h)]
    exact huv.flowOrder_isLE
  exact flowOrder_eq_eq_iff.1 (Std.OrientedCmp.isLE_antisymm htu.flowOrder_isLE hback)

theorem ListedBefore.submittedEarlier (h : t.ListedBefore u) (hflow : t.SameFlow u) :
    t.SubmittedEarlier u := by
  rcases h with h | ⟨-, h⟩
  · have heq := flowOrder_eq_eq_iff.2 hflow
    rw [flowOrder_eq_lt_iff.2 h] at heq
    cases heq
  · exact h

end Trigger

/-! ## Listings -/

open Trigger

theorem Store.submittedBefore_eq (t u : Trigger) :
    submittedBefore t u = (submissionOrder t u).isLE := by
  unfold submittedBefore submissionOrder compareLex compareOn
  dsimp only
  cases compare t.submitTime u.submitTime with
  | lt => rfl
  | eq => exact Bool.eq_iff_iff.2 (decide_eq_true_iff.trans Nat.isLE_compare.symm)
  | gt => rfl

namespace Engine

variable {e e' : Engine} {source : Option String}

theorem flowBefore_eq (t u : Trigger) : flowBefore t u = (flowOrder t u).isLE := by
  have hname : (compare t.flowName u.flowName).isLE = true ↔ t.flowName ≤ u.flowName :=
    isLE_compareOfLessAndEq String.le_antisymm String.not_le String.le_total
  unfold flowBefore flowOrder compareLex compareOn
  dsimp only
  cases compare t.projectId.toInt u.projectId.toInt with
  | lt => rfl
  | eq => exact Bool.eq_iff_iff.2 (decide_eq_true_iff.trans hname.symm)
  | gt => rfl

theorem mem_listed_iff {t : Trigger} {source : String} :
    t ∈ (e.store.ofSource source).mergeSort flowBefore ↔
      (∃ id, e.store.find? id = some t) ∧ t.dataSource = source := by
  rw [List.mem_mergeSort]
  exact Store.mem_ofSource_iff

/-- Stored triggers are listed in order. -/
theorem Labelled.pairwise_listedBefore (h : e.Labelled) (source : String) :
    ((e.store.ofSource source).mergeSort flowBefore).Pairwise ListedBefore := by
  have hsubmitted : (e.store.ofSource source).Pairwise fun t u =>
      (submissionOrder t u).isLE = true := by
    unfold Store.ofSource
    simp only [funext₂ Store.submittedBefore_eq]
    exact List.pairwise_mergeSort (fun t u v => Std.TransCmp.isLE_trans) isLE_total _
  have hlisted : ((e.store.ofSource source).mergeSort fun t u => (flowOrder t u).isLE).Pairwise
      fun t u => (listingOrder t u).isLE = true := pairwise_mergeSort_lex hsubmitted
  simp only [← flowBefore_eq] at hlisted
  have hids : ((e.store.ofSource source).mergeSort flowBefore).Pairwise fun t u => t.id ≠ u.id :=
    List.pairwise_map.1 ((((List.mergeSort_perm _ _).map _).nodup_iff).2 (h.nodup_ofSource source))
  refine (hlisted.and hids).imp fun {t u} ⟨hle, hne⟩ => listingOrder_eq_lt_iff.1 ?_
  refine (Ordering.isLE_iff_eq_lt_or_eq_eq.1 hle).resolve_right fun heq => hne ?_
  have hid : compare t.id u.id = .eq := (compareLex_eq_eq.1 (compareLex_eq_eq.1 heq).2).2
  exact Std.LawfulEqCmp.compare_eq_iff_eq.1 hid

/-- **Listings are complete, in order, and reproducible.** -/
theorem listing_exact (h : e.store.InMemory) (source : Option String) :
    ∃ ts, e.list source = (.ok ts, e) ∧
      (∀ t, t ∈ ts ↔
        (∃ id, e.store.find? id = some t) ∧ t.dataSource = source.getD e.dataSource) ∧
      (ts.map (·.id)).Nodup ∧
      ts.Pairwise ListedBefore ∧
      (∀ t u v, [t, u, v].Sublist ts → t.SameFlow v → t.SameFlow u) ∧
      (∀ t u, [t, u].Sublist ts → t.SameFlow u → t.SubmittedEarlier u) ∧
      ∀ e' : Engine, e'.dataSource = e.dataSource → e'.store.outages.list = [] →
        (∀ id, e'.store.find? id = e.store.find? id) → e'.list source = (.ok ts, e') := by
  have havailable : e.store.outages.list = [] := by rw [h.reliable]
  have hlabelled : e.Labelled := h.labelled e
  have hordered := hlabelled.pairwise_listedBefore (source.getD e.dataSource)
  refine ⟨_, list_of_available havailable source, fun t => mem_listed_iff,
    (((List.mergeSort_perm _ _).map _).nodup_iff).2 (hlabelled.nodup_ofSource _), hordered,
    fun t u v hsub hflow => ?_, fun t u hsub hflow => ?_, fun e' hsource hlist hsame => ?_⟩
  · have hall := hordered.sublist hsub
    obtain ⟨htu, hrest⟩ := List.pairwise_cons.1 hall
    obtain ⟨huv, -⟩ := List.pairwise_cons.1 hrest
    exact hflow.between (htu u List.mem_cons_self) (huv v List.mem_cons_self)
  · exact (List.pairwise_iff_forall_sublist.1 hordered hsub).submittedEarlier hflow
  · have hlabelled' : e'.Labelled := fun id t ht => hlabelled id t ((hsame id).symm.trans ht)
    rw [list_of_available hlist, hsource]
    refine Prod.ext (congrArg Except.ok ?_) rfl
    refine eq_of_listedBefore (hlabelled'.pairwise_listedBefore _) hordered fun t => ?_
    rw [mem_listed_iff, mem_listed_iff]
    simp only [hsame]

end Engine

namespace Sample

/-- The identifier of the trigger that is listed first. -/
def front : Uuid := { value := 4 }

/-- The first trigger, submitted two minutes later than the second one. -/
def delayed : Trigger :=
  { intact with submitTime := (Instant.epoch.add? (.ofSecs 120)).getD .epoch }

/-- Waits for a flow that comes before the one of the others. -/
def extraction : Trigger :=
  { intact with flowName := "extract" }

/-- The three triggers, stored in this order. -/
def filled : Store :=
  (((Store.empty.insert first delayed).2.insert second intact).2.insert front extraction).2

/-- The three triggers, stored in another order. The first one takes the place of another trigger. -/
def refilled : Store :=
  ((((Store.empty.insert front extraction).2.insert first intact).2.insert second intact).2.update
    delayed).2

/-- The three triggers as they are listed. -/
def inOrder : List Trigger :=
  [{ extraction with id := front }, { intact with id := second }, delayed]

end Sample

/-- The flow that comes first is listed first, and the trigger that was submitted later is listed
last, in whatever order they have been stored. -/
theorem Engine.listing_exact_refilled :
    { Sample.engine with store := Sample.filled }.list none =
        (.ok Sample.inOrder, { Sample.engine with store := Sample.filled }) ∧
      { Sample.engine with store := Sample.refilled }.list none =
        (.ok Sample.inOrder, { Sample.engine with store := Sample.refilled }) := by
  have hmemory : Sample.filled.InMemory := .insert (.insert (.insert .empty _ _) _ _) _ _
  obtain ⟨ts, hts, hmem, -, hordered, -, -, hsame⟩ :=
    Engine.listing_exact (e := { Sample.engine with store := Sample.filled }) hmemory none
  have hstored : ∀ t, t ∈ ts ↔ t ∈ Sample.inOrder := by
    intro t
    have hvalues : Sample.filled.records.values = Sample.inOrder.reverse := by decide +kernel
    have hsource : ∀ t ∈ Sample.inOrder, t.dataSource = Sample.engine.dataSource := by
      decide +kernel
    refine (hmem t).trans ((and_congr_left' IdMap.mem_values_iff.symm).trans ?_)
    rw [hvalues, List.mem_reverse]
    exact and_iff_left_of_imp (hsource t)
  obtain rfl : ts = Sample.inOrder :=
    Trigger.eq_of_listedBefore hordered (by decide +kernel) hstored
  exact ⟨hts, hsame _ rfl rfl (IdMap.find?_eq_of_perm (by decide +kernel))⟩

end Lookout
