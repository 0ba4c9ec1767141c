import Lookout.Proofs.Evolution

/-!
# Polls that wait

A poll waits for the storage backend once for each of its keys. While it waits, anything may happen
to the engine; and the poll may be dropped, so that it never goes on.

* `Dialogue`: a program cut at its questions. `Engine.dialogue` is a poll, and `Dialogue.After` what
  is left of it when some of its questions have been answered (`Inquiry`).
* `Scheduler.Used`: the states of a scheduler. In each of them the pending keys are ascending.
* `Scheduler.Meanwhile`: submissions, withdrawals and evaluations. Only a key that is named in a
  withdrawal goes away.
* `Engine.Polled`: how far a poll has come, and what it has done.
-/

namespace Lookout

/-! ## Dialogues -/

/-- A program cut at its questions to the storage backend. It goes on with the answer and with the
engine as it is by then. -/
inductive Dialogue (α : Type) : Type
  | done (result : α)
  | asks (key : CheckKey) (engine : Engine)
      (next : Except StorageError Bool → Engine → Dialogue α)

/-- A question and its answer. -/
structure Inquiry where
  key : CheckKey
  /-- The engine when the question is put. -/
  asked : Engine
  answer : Except StorageError Bool
  /-- The engine when the answer is there. -/
  answered : Engine

namespace Dialogue

variable {α β : Type}

/-- One program after the other. -/
def bind : Dialogue α → (α → Dialogue β) → Dialogue β
  | done a, f => f a
  | asks k e next, f => asks k e fun answer e' => (next answer e').bind f

instance : Monad Dialogue where
  pure := done
  bind := bind

/-- Asks about a key. -/
def question (k : CheckKey) : StateT Engine Dialogue (Except StorageError Bool) :=
  fun e => asks k e fun answer e' => done (answer, e')

/-- What is left of a program after some inquiries. -/
inductive After : Dialogue α → List Inquiry → Dialogue α → Prop
  | nil (d : Dialogue α) : After d [] d
  | cons {k : CheckKey} {e e' : Engine} {next : Except StorageError Bool → Engine → Dialogue α}
      {answer : Except StorageError Bool} {xs : List Inquiry} {d : Dialogue α}
      (h : After (next answer e') xs d) : After (asks k e next) (⟨k, e, answer, e'⟩ :: xs) d

/-- A program that asks goes on with any answer and any engine. -/
theorem After.snoc {d : Dialogue α} {xs : List Inquiry} {k : CheckKey} {e : Engine}
    {next : Except StorageError Bool → Engine → Dialogue α} (h : After d xs (asks k e next))
    (answer : Except StorageError Bool) (e' : Engine) :
    After d (xs ++ [⟨k, e, answer, e'⟩]) (next answer e') := by
  generalize hd : asks k e next = d' at h
  induction h with
  | nil d =>
    subst hd
    exact .cons (.nil _)
  | cons _ ih => exact .cons (ih hd)

end Dialogue

namespace Inquiry

/-- The engine when the answer has been taken notice of. -/
def after (x : Inquiry) : Engine :=
  x.answered.answer x.key x.answer

/-- The key exists. -/
def affirmed (x : Inquiry) : Bool :=
  x.answer matches .ok true

/-- The key could not be checked. -/
def failed (x : Inquiry) : Bool :=
  x.answer matches .error _

/-- The answer is that a certain key exists. -/
def Confirms (x : Inquiry) (j : CheckKey) : Prop :=
  x.key = j ∧ x.answer = .ok true

/-- While the answer is awaited, others withdraw a pending key. -/
def Withdraws (x : Inquiry) (j : CheckKey) : Prop :=
  j ∈ x.asked.scheduler.pending ∧ j ∉ x.answered.scheduler.pending

/-- A key that exists is confirmed. -/
theorem after_of_affirmed {x : Inquiry} (h : x.answer = .ok true) :
    x.after =
      { x.answered with
        scheduler :=
          { x.answered.scheduler with
            cache := x.answered.scheduler.cache.put x.answered.clock x.key
            pending := x.answered.scheduler.pending.filter (· != x.key) } } := by
  unfold after
  rw [h]
  rfl

/-- No other answer changes anything. -/
theorem after_of_unaffirmed {x : Inquiry} (h : x.answer ≠ .ok true) : x.after = x.answered := by
  obtain ⟨k, asked, answer, answered⟩ := x
  rcases answer with err | _ | _
  · rfl
  · rfl
  · exact absurd rfl h

/-- An answer only confirms its key. -/
theorem mem_pending_after {x : Inquiry} {j : CheckKey}
    (hj : j ∈ x.answered.scheduler.pending) (hc : ¬ x.Confirms j) :
    j ∈ x.after.scheduler.pending := by
  by_cases ha : x.answer = .ok true
  · have hne : j ≠ x.key := fun h => hc ⟨h.symm, ha⟩
    rw [after_of_affirmed ha]
    exact List.mem_filter.2 ⟨hj, bne_iff_ne.2 hne⟩
  · rwa [after_of_unaffirmed ha]

/-- Each question is put with the engine that the answer before has left behind. -/
def Chain (e : Engine) : List Inquiry → Prop
  | [] => True
  | x :: rest => x.asked = e ∧ Chain x.after rest

/-- The engine that the last of some inquiries leaves behind. -/
def last (e : Engine) (xs : List Inquiry) : Engine :=
  (xs.getLast?.map after).getD e

variable {e : Engine} {x : Inquiry} {xs past rest : List Inquiry} {j : CheckKey}

@[simp]
theorem last_cons : last e (x :: xs) = last x.after xs := by
  unfold last
  rw [List.getLast?_cons]
  cases xs.getLast? <;> rfl

@[simp]
theorem last_append : last e (past ++ rest) = last (last e past) rest := by
  induction past generalizing e with
  | nil => rfl
  | cons x past ih => rw [List.cons_append, last_cons, last_cons, ih]

theorem Chain.append_iff : Chain e (past ++ rest) ↔ Chain e past ∧ Chain (last e past) rest := by
  induction past generalizing e with
  | nil => exact iff_of_eq (true_and _).symm
  | cons x past ih =>
    rw [last_cons]
    exact (and_congr_right' ih).trans and_assoc.symm

/-- A pending key stays so, unless it is confirmed or withdrawn. -/
theorem Chain.mem_pending (h : Chain e xs) (hj : j ∈ e.scheduler.pending) :
    (∃ x ∈ xs, x.Confirms j ∨ x.Withdraws j) ∨ j ∈ (last e xs).scheduler.pending := by
  induction xs generalizing e with
  | nil => exact .inr hj
  | cons x xs ih =>
    obtain ⟨rfl, hrest⟩ := h
    by_cases hx : x.Confirms j ∨ x.Withdraws j
    · exact .inl ⟨x, List.mem_cons_self, hx⟩
    · rw [not_or] at hx
      have hanswered : j ∈ x.answered.scheduler.pending := by
        by_contra hn
        exact hx.2 ⟨hj, hn⟩
      rw [last_cons]
      refine (ih hrest (mem_pending_after hanswered hx.1)).imp_left ?_
      rintro ⟨y, hy, h⟩
      exact ⟨y, List.mem_cons_of_mem _ hy, h⟩

end Inquiry

/-! ## Schedulers -/

namespace Scheduler

variable {s s' : Scheduler} {j : CheckKey} {withdrawn : List CheckKey}

/-- The states of a scheduler: keys are submitted, withdrawn and confirmed, in any order, and its
cache changes in whatever way. -/
inductive Used : Scheduler → Prop
  | new (cache : Cache) (capacity : Nat) : Used (new cache capacity)
  | submit {s : Scheduler} (now : Instant) (k : CheckKey) (h : Used s) : Used (s.submit now k).2
  | forget {s : Scheduler} (keys : List CheckKey) (h : Used s) : Used (s.forget keys).2
  | confirm {s : Scheduler} (now : Instant) (k : CheckKey) (h : Used s) : Used (s.confirm now k)
  | cached {s : Scheduler} (cache : Cache) (h : Used s) : Used { s with cache }

/-- A scheduler of an engine stays in one of these states. -/
theorem Used.of_evolves (h : Used s) (he : s.Evolves s') : Used s' := by
  induction he with
  | refl => exact h
  | lookup now k _ ih => exact .cached _ ih
  | submit now k _ ih => exact .submit now k ih
  | forget keys _ ih => exact .forget keys ih
  | confirm now k _ ih => exact .confirm now k ih
  | beginPoll now _ ih => exact .cached _ ih

/-- **The pending keys** are ascending, in whatever order they were submitted. -/
theorem Used.ascending (h : Used s) : CheckKey.Ascending s.pending := by
  induction h with
  | new cache capacity => exact List.Pairwise.nil
  | @submit s now k _ ih =>
    obtain ⟨b, s₁, hl, hs | ⟨-, -, hs⟩⟩ := submit_cases s now k <;> rw [hs]
    · rw [(lookup_eq hl).2.1]
      exact ih
    · rw [(lookup_eq hl).2.1]
      exact ih.insertSorted k
  | forget keys _ ih =>
    rw [forget_eq]
    exact ih.sublist List.filter_sublist
  | confirm now k _ ih => exact ih.sublist List.filter_sublist
  | cached cache _ ih => exact ih

/-- What others do in the meantime: they submit keys, withdraw some, and evaluate those of their
triggers. Tells which keys are named in a withdrawal. -/
inductive Meanwhile (s : Scheduler) : List CheckKey → Scheduler → Prop
  | nothing : Meanwhile s [] s
  | submit {withdrawn : List CheckKey} {s₁ : Scheduler} (now : Instant) (k : CheckKey)
      (h : Meanwhile s withdrawn s₁) : Meanwhile s withdrawn (s₁.submit now k).2
  | forget {withdrawn : List CheckKey} {s₁ : Scheduler} (keys : List CheckKey)
      (h : Meanwhile s withdrawn s₁) : Meanwhile s (withdrawn ++ keys) (s₁.forget keys).2
  | evaluate {withdrawn keys : List CheckKey} {found : List (CheckKey × Instant)} {all : Bool}
      {s₁ s₂ : Scheduler} (h : Meanwhile s withdrawn s₁) (he : Evaluates keys s₁ found all s₂) :
      Meanwhile s withdrawn s₂

/-- A pending key stays so, unless a withdrawal names it. -/
theorem Meanwhile.mem_pending (h : Meanwhile s withdrawn s') (hj : j ∈ s.pending)
    (hn : j ∉ withdrawn) : j ∈ s'.pending := by
  induction h with
  | nothing => exact hj
  | submit now k _ ih => exact pending_subset_submit (ih hn)
  | forget keys _ ih =>
    rw [List.mem_append, not_or] at hn
    exact mem_pending_forget.2 ⟨ih hn.1, hn.2⟩
  | evaluate _ he ih => exact he.pending_subset (ih hn)

end Scheduler

/-! ## Polls -/

namespace Engine

open Dialogue

/-- A poll, cut at its questions. -/
def dialogue (e : Engine) : Dialogue (PollReport × Engine) :=
  (poll question).run e

/-- The rest of a poll that has still to ask about some keys. -/
def remainder (keys : List CheckKey) (report : PollReport) (e : Engine) :
    Dialogue (PollReport × Engine) :=
  (ask question keys report).run e

/-- The engine that a poll of `e` has left behind after some inquiries. -/
def leftBehind (e : Engine) (xs : List Inquiry) : Engine :=
  Inquiry.last e.beginPoll.2 xs

theorem leftBehind_append (e : Engine) (past rest : List Inquiry) :
    e.leftBehind (past ++ rest) = Inquiry.last (e.leftBehind past) rest :=
  Inquiry.last_append

theorem leftBehind_concat (e : Engine) (past : List Inquiry) (x : Inquiry) :
    e.leftBehind (past ++ [x]) = x.after :=
  e.leftBehind_append past [x]

theorem dialogue_eq (e : Engine) :
    e.dialogue = remainder e.scheduler.pending .none e.beginPoll.2 :=
  rfl

theorem remainder_nil (report : PollReport) (e : Engine) :
    remainder [] report e = .done (report, e) :=
  rfl

/-- One question, and then the others with the engine that the answer leaves behind. -/
theorem remainder_cons (k : CheckKey) (keys : List CheckKey) (report : PollReport) (e : Engine) :
    remainder (k :: keys) report e =
      .asks k e fun answer e' =>
        remainder keys (report.count answer.toOption) (e'.answer k answer) :=
  rfl

/-- A report with the answers of some inquiries. -/
theorem foldl_count (xs : List Inquiry) (r : PollReport) :
    xs.foldl (fun r x => r.count x.answer.toOption) r =
      { checked := r.checked + xs.length
        confirmed := r.confirmed + xs.countP (·.affirmed)
        failed := r.failed + xs.countP (·.failed) } := by
  induction xs generalizing r with
  | nil => rfl
  | cons x xs ih =>
    rw [List.foldl_cons, ih, List.countP_cons, List.countP_cons, List.length_cons]
    obtain ⟨k, asked, answer, answered⟩ := x
    rcases answer with err | _ | _ <;>
      simp [PollReport.count, Inquiry.affirmed, Inquiry.failed, Except.toOption] <;> omega

/-- The inquiries of a poll form a chain, and are about the first of its keys. -/
theorem remainder_after {keys : List CheckKey} {report : PollReport} {e : Engine}
    {xs : List Inquiry} {d : Dialogue (PollReport × Engine)}
    (h : (remainder keys report e).After xs d) :
    Inquiry.Chain e xs ∧ ∃ rest, keys = xs.map (·.key) ++ rest ∧
      d = remainder rest (xs.foldl (fun r x => r.count x.answer.toOption) report)
        (Inquiry.last e xs) := by
  induction xs generalizing keys report e with
  | nil =>
    generalize hr : remainder keys report e = r at h
    cases h
    exact ⟨trivial, keys, rfl, hr.symm⟩
  | cons x xs ih =>
    cases keys with
    | nil =>
      rw [remainder_nil] at h
      cases h
    | cons k keys =>
      rw [remainder_cons] at h
      cases h with
      | cons h =>
        obtain ⟨hchain, rest, hkeys, hd⟩ := ih h
        refine ⟨⟨rfl, hchain⟩, rest, by rw [hkeys]; rfl, ?_⟩
        rw [Inquiry.last_cons]
        exact hd

/-- How far a poll has come, and what it has done, after some inquiries; `d` is the rest of it. -/
structure Polled (e : Engine) (xs : List Inquiry) (d : Dialogue (PollReport × Engine)) :
    Prop where
  /-- The keys that are pending at the beginning are ascending, so that none occurs twice. -/
  ascending : CheckKey.Ascending e.scheduler.pending
  /-- They are asked about in this order. -/
  keys : xs.map (·.key) <+: e.scheduler.pending
  /-- At the beginning, only entries of the cache that no longer count go. -/
  begun : e.leftBehind [] =
    { e with scheduler := { e.scheduler with cache := (e.scheduler.cache.purge e.clock).2 } }
  /-- Between an answer and the next question nothing happens. -/
  asked : ∀ past x rest, xs = past ++ x :: rest → x.asked = e.leftBehind past
  /-- A key that exists is put in the cache as of the answer, and is no longer pending. -/
  affirmed : ∀ past x rest, xs = past ++ x :: rest → x.answer = .ok true →
    e.leftBehind (past ++ [x]) =
      { x.answered with
        scheduler :=
          { x.answered.scheduler with
            cache := x.answered.scheduler.cache.put x.answered.clock x.key
            pending := x.answered.scheduler.pending.filter (· != x.key) } }
  /-- No other answer changes anything. -/
  unaffirmed : ∀ past x rest, xs = past ++ x :: rest → x.answer ≠ .ok true →
    e.leftBehind (past ++ [x]) = x.answered
  /-- While keys are left, the poll waits for the answer about the first of them. -/
  waits : ∀ k rest, e.scheduler.pending = xs.map (·.key) ++ k :: rest →
    ∃ next, d = .asks k (e.leftBehind xs) next
  /-- Any answer will do, whatever has happened meanwhile. -/
  goesOn : ∀ k rest, e.scheduler.pending = xs.map (·.key) ++ k :: rest → ∀ answer e',
    ∃ d', e.dialogue.After (xs ++ [⟨k, e.leftBehind xs, answer, e'⟩]) d'
  /-- When no key is left, the poll is over. -/
  reports : xs.map (·.key) = e.scheduler.pending →
    d = .done
      ({ checked := e.scheduler.pending.length
         confirmed := xs.countP (·.affirmed)
         failed := xs.countP (·.failed) }, e.leftBehind xs)
  /-- A key that is pending after some of the inquiries is so after all of them, unless one of the
  others confirms it or somebody withdraws it. -/
  stays : ∀ past rest j, xs = past ++ rest → j ∈ (e.leftBehind past).scheduler.pending →
    (∃ x ∈ rest, x.Confirms j ∨ x.Withdraws j) ∨ j ∈ (e.leftBehind xs).scheduler.pending
  /-- So is a key that is pending when an answer arrives. -/
  joins : ∀ past x rest j, xs = past ++ x :: rest → j ∈ x.answered.scheduler.pending →
    (x.Confirms j ∨ ∃ y ∈ rest, y.Confirms j ∨ y.Withdraws j) ∨
      j ∈ (e.leftBehind xs).scheduler.pending
  /-- A key of the poll without an answer is still pending, unless somebody has withdrawn it. -/
  unanswered : ∀ j ∈ e.scheduler.pending, j ∉ xs.map (·.key) →
    (∃ x ∈ xs, x.Withdraws j) ∨ j ∈ (e.leftBehind xs).scheduler.pending
  /-- Submissions and evaluations withdraw nothing: a withdrawal has to name the key. -/
  named : ∀ x ∈ xs, ∀ withdrawn,
    Scheduler.Meanwhile x.asked.scheduler withdrawn x.answered.scheduler →
      ∀ j, x.Withdraws j → j ∈ withdrawn

/-- **A poll loses no key**, even when it is cut short. -/
theorem poll_loses_none {e : Engine} {xs : List Inquiry} {d : Dialogue (PollReport × Engine)}
    (hs : e.scheduler.Used) (h : e.dialogue.After xs d) : e.Polled xs d := by
  obtain ⟨hchain, keys, hkeys, hd⟩ := remainder_after (e.dialogue_eq ▸ h)
  have hsplit : ∀ past rest, xs = past ++ rest → Inquiry.Chain (e.leftBehind past) rest := by
    rintro past rest rfl
    exact (Inquiry.Chain.append_iff.1 hchain).2
  have hstays : ∀ past rest j, xs = past ++ rest → j ∈ (e.leftBehind past).scheduler.pending →
      (∃ x ∈ rest, x.Confirms j ∨ x.Withdraws j) ∨
        j ∈ (e.leftBehind xs).scheduler.pending := by
    intro past rest j hxs hj
    rw [hxs, leftBehind_append]
    exact (hsplit past rest hxs).mem_pending hj
  have hwaits : ∀ k rest, e.scheduler.pending = xs.map (·.key) ++ k :: rest →
      ∃ next, d = .asks k (e.leftBehind xs) next := by
    intro k rest hk
    rw [hkeys] at hk
    rw [hd, List.append_cancel_left hk, remainder_cons]
    exact ⟨_, rfl⟩
  refine
    { ascending := hs.ascending
      keys := ⟨keys, hkeys.symm⟩
      begun := rfl
      asked := fun past x rest hxs => (hsplit past _ hxs).1
      affirmed := fun past x _ _ ha =>
        (e.leftBehind_concat past x).trans (Inquiry.after_of_affirmed ha)
      unaffirmed := fun past x _ _ ha =>
        (e.leftBehind_concat past x).trans (Inquiry.after_of_unaffirmed ha)
      waits := hwaits
      goesOn := ?goesOn
      reports := ?reports
      stays := hstays
      joins := ?joins
      unanswered := ?unanswered
      named := ?named }
  case goesOn =>
    intro k rest hk answer e'
    obtain ⟨next, rfl⟩ := hwaits k rest hk
    exact ⟨_, h.snoc answer e'⟩
  case reports =>
    intro hall
    have hnil : keys = [] := by
      rw [← hall] at hkeys
      exact List.append_right_eq_self.1 hkeys.symm
    have hlength : xs.length = e.scheduler.pending.length := by rw [← hall, List.length_map]
    rw [hd, hnil, remainder_nil, foldl_count, ← hlength]
    simp only [PollReport.none, Nat.zero_add]
    rfl
  case joins =>
    intro past x rest j hxs hj
    by_cases hx : x.Confirms j
    · exact .inl (.inl hx)
    · rw [List.append_cons] at hxs
      have hafter : j ∈ (e.leftBehind (past ++ [x])).scheduler.pending :=
        (e.leftBehind_concat past x).symm ▸ Inquiry.mem_pending_after hj hx
      exact (hstays _ _ j hxs hafter).imp_left .inr
  case unanswered =>
    intro j hj hn
    refine (hstays [] xs j rfl hj).imp_left ?_
    rintro ⟨x, hx, hc | hw⟩
    · exact absurd (hc.1 ▸ List.mem_map_of_mem hx) hn
    · exact ⟨x, hx, hw⟩
  case named =>
    intro x hx withdrawn hm j hw
    by_contra hn
    exact hw.2 (hm.mem_pending hw.1 hn)

end Engine

/-! ## A sample -/

namespace Sample

/-- Three keys are pending; the last one was submitted first. -/
def queuedUp : Engine :=
  { engine with
    scheduler :=
      (((engine.scheduler.submit .epoch ⟨"/in/3", "etl"⟩).2.submit .epoch ⟨"/in/1", "etl"⟩).2.submit
        .epoch ⟨"/in/2", "etl"⟩).2 }

theorem pending_queuedUp :
    queuedUp.scheduler.pending = [⟨"/in/1", "etl"⟩, ⟨"/in/2", "etl"⟩, ⟨"/in/3", "etl"⟩] := by
  decide +kernel

/-- The first key exists. Meanwhile the last one is withdrawn, and another one submitted. -/
def firstInquiry : Inquiry :=
  let e := queuedUp.beginPoll.2
  { key := ⟨"/in/1", "etl"⟩
    asked := e
    answer := .ok true
    answered :=
      { e with
        scheduler :=
          ((e.scheduler.forget [⟨"/in/3", "etl"⟩]).2.submit .epoch ⟨"/in/0", "etl"⟩).2 } }

/-- The second key cannot be checked. -/
def secondInquiry : Inquiry :=
  { key := ⟨"/in/2", "etl"⟩
    asked := firstInquiry.after
    answer := .error (.unavailable "refused")
    answered := firstInquiry.after }

end Sample

namespace Engine

/-- A poll that is cut short while it waits for the last of three answers. Its key has been
withdrawn. -/
theorem poll_loses_none_cutShort :
    ∃ d, Sample.queuedUp.dialogue.After [Sample.firstInquiry, Sample.secondInquiry] d ∧
      Sample.queuedUp.Polled [Sample.firstInquiry, Sample.secondInquiry] d ∧
      Sample.firstInquiry.Withdraws ⟨"/in/3", "etl"⟩ ∧
      (Sample.queuedUp.leftBehind [Sample.firstInquiry, Sample.secondInquiry]).scheduler.pending =
        [⟨"/in/0", "etl"⟩, ⟨"/in/2", "etl"⟩] := by
  have hused : Sample.queuedUp.scheduler.Used :=
    .submit _ _ (.submit _ _ (.submit _ _ (.new _ _)))
  obtain ⟨d, hafter⟩ : ∃ d, Sample.queuedUp.dialogue.After
      [Sample.firstInquiry, Sample.secondInquiry] d := by
    rw [dialogue_eq, Sample.pending_queuedUp]
    exact ⟨_, .cons (.cons (.nil _))⟩
  refine ⟨d, hafter, poll_loses_none hused hafter, ?_, by decide +kernel⟩
  unfold Inquiry.Withdraws
  decide +kernel

end Engine
end Lookout
