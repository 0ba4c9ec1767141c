import Lookout.Api
import Lookout.Proofs.System

/-!
# Operations and requests that fail

When an operation of the engine fails, or a request is answered with a status that is not one of
success, only outages of the store and revisions have been used up.

- **Nothing happens in between** (`System.Quiet`): the engine takes one step at most, and it is not
  one in which an action is called. This holds of requests that succeed, too.
- **Nothing is left behind** (`Api.Answers`): a request that is not answered with success leaves an
  idle engine, wherever the handling of the request has stopped.

`System.refused_unaffected` joins both.
-/

namespace Lookout

/-- The engine changes as in a run of one step at most, in which no action is called. -/
def System.Quiet (s : System) (e' : Engine) : Prop :=
  ∃ history taken, Run s history { s with engine := e', taken } ∧ history.length ≤ 1 ∧
    ∀ m ∈ history, m.event.firing? = none

namespace System.Quiet

variable {s : System} {fresh : Uuid}

theorem refl (s : System) : s.Quiet s.engine :=
  ⟨[], s.taken, .nil, Nat.zero_le 1, fun _ hm => absurd hm List.not_mem_nil⟩

private theorem of_step {event : Event} {e' : Engine} {taken : List Uuid}
    (hs : Step s event { s with engine := e', taken }) (hf : event.firing? = none) :
    s.Quiet e' := by
  refine ⟨_, taken, .single hs, Nat.le_refl 1, fun m hm => ?_⟩
  cases List.mem_singleton.1 hm
  exact hf

theorem create (hfresh : fresh ∉ s.taken) (r : CreateRequest) :
    s.Quiet (s.engine.create fresh r).2 :=
  of_step (.create r hfresh) rfl

theorem update (s : System) (t : Trigger) : s.Quiet (s.engine.update t).2 :=
  of_step (.update t) rfl

theorem remove (s : System) (id : Uuid) : s.Quiet (s.engine.remove id).2 :=
  of_step (.remove id) rfl

theorem list (s : System) (source : Option String) : s.Quiet (s.engine.list source).2 :=
  of_step (.list source) rfl

end System.Quiet

/-! ## Requests -/

namespace Api

open Http

/-- No action is called while a request is handled, and the engine is left idle unless the request
is answered with success. -/
structure Answers (s : System) (out : Response × Engine) : Prop where
  quiet : s.Quiet out.2
  idles : out.1.isSuccess = false → s.engine.Idles out.2

variable {s : System} {fresh : Uuid}

private theorem Answers.untouched (s : System) (response : Response) :
    Answers s (response, s.engine) :=
  ⟨.refl s, fun _ => .refl s.engine⟩

theorem answers_create (hfresh : fresh ∉ s.taken) (r : Request) :
    Answers s (create fresh r s.engine) := by
  unfold create
  cases readBody CreateRequest.record r with
  | error status => exact .untouched s _
  | ok request =>
    have hquiet := System.Quiet.create hfresh request
    dsimp only
    rcases s.engine.create_cases fresh request with ⟨err, e', he, hidle⟩ | ⟨d, l, -, he⟩ <;>
      rw [he] at hquiet ⊢
    · exact ⟨hquiet, fun _ => hidle⟩
    · exact ⟨hquiet, fun h => nomatch h⟩

theorem answers_list (s : System) (r : Request) : Answers s (list r s.engine) := by
  unfold list
  cases readSource r with
  | error status => exact .untouched s _
  | ok source =>
    have hquiet := System.Quiet.list s source
    have hidle := s.engine.list_idles source
    dsimp only
    generalize s.engine.list source = out at hquiet hidle ⊢
    obtain ⟨_ | triggers, e'⟩ := out <;> exact ⟨hquiet, fun _ => hidle⟩

theorem answers_update (s : System) (id : Uuid) (r : Request) :
    Answers s (update id r s.engine) := by
  unfold update
  cases readBody Trigger.record r with
  | error status => exact .untouched s _
  | ok t =>
    have hquiet := System.Quiet.update s { t with id }
    dsimp only
    rcases s.engine.update_cases { t with id } with ⟨err, e', he, hidle⟩ | ⟨l, -, -, he⟩ <;>
      rw [he] at hquiet ⊢
    · exact ⟨hquiet, fun _ => hidle⟩
    · exact ⟨hquiet, fun h => nomatch h⟩

theorem answers_remove (s : System) (id : Uuid) : Answers s (remove id s.engine) := by
  unfold remove
  have hquiet := System.Quiet.remove s id
  rcases s.engine.remove_cases id with ⟨err, e', he, hidle⟩ | ⟨-, he⟩ <;> rw [he] at hquiet ⊢
  · exact ⟨hquiet, fun _ => hidle⟩
  · exact ⟨hquiet, fun h => nomatch h⟩

theorem answers_handleTrigger (s : System) (method : Method) (id : Uuid) (r : Request) :
    Answers s (handleTrigger method id r s.engine) := by
  unfold handleTrigger
  split
  · exact .untouched s _
  · exact answers_update s id r
  · exact answers_remove s id
  · exact .untouched s _

theorem answers_dispatch (hfresh : fresh ∉ s.taken) (method : Method) (r : Request) :
    Answers s (dispatch fresh method r s.engine) := by
  unfold dispatch
  split
  · exact .untouched s _
  · exact .untouched s _
  · exact answers_create hfresh r
  · exact answers_list s r
  · exact .untouched s _
  · split
    · split
      · exact answers_handleTrigger s _ _ r
      · exact .untouched s _
    · exact .untouched s _
  · exact .untouched s _

/-- **No request calls an action**, and one that is not answered with success leaves an idle
engine. -/
theorem answers_handle (hfresh : fresh ∉ s.taken) (r : Request) :
    Answers s (handle fresh r s.engine) := by
  unfold handle
  split
  · obtain ⟨hquiet, hidle⟩ := answers_dispatch hfresh .get r
    exact ⟨hquiet, hidle⟩
  · exact answers_dispatch hfresh _ r

end Api

/-! ## Failures -/

namespace System

variable {s : System} {e' : Engine}

/-- Nothing that an operation could change has changed, and no action has been called. -/
structure Unaffected (s : System) (e' : Engine) : Prop where
  armed : e'.armed = s.engine.armed
  stored : e'.store.records = s.engine.store.records
  pending : e'.scheduler.pending = s.engine.scheduler.pending
  cache : e'.scheduler.cache = s.engine.scheduler.cache
  quiet : s.Quiet e'

theorem Unaffected.of_idles (h : s.engine.Idles e') (hq : s.Quiet e') : s.Unaffected e' := by
  obtain ⟨store, revisions, hs, -, rfl⟩ := h
  exact ⟨rfl, hs.records, rfl, rfl, hq⟩

/-- **What fails changes nothing.** An operation that returns an error, and a request that is not
answered with success, leave the armed triggers, the stored ones, the pending keys and the cache as
they were, and call no action. -/
theorem refused_unaffected {fresh : Uuid} (hfresh : fresh ∉ s.taken) :
    (∀ r err e', s.engine.create fresh r = (.error err, e') → s.Unaffected e') ∧
    (∀ t err e', s.engine.update t = (.error err, e') → s.Unaffected e') ∧
    (∀ id err e', s.engine.remove id = (.error err, e') → s.Unaffected e') ∧
    ∀ request, (Api.handle fresh request s.engine).1.isSuccess = false →
      s.Unaffected (Api.handle fresh request s.engine).2 := by
  refine ⟨fun r err e' h => ?_, fun t err e' h => ?_, fun id err e' h => ?_,
    fun request hfailed => ?_⟩
  · have hquiet := Quiet.create hfresh r
    rcases s.engine.create_cases fresh r with ⟨err', e'', he, hidle⟩ | ⟨d, l, -, he⟩
    · cases h.symm.trans he
      rw [he] at hquiet
      exact .of_idles hidle hquiet
    · cases h.symm.trans he
  · have hquiet := Quiet.update s t
    rcases s.engine.update_cases t with ⟨err', e'', he, hidle⟩ | ⟨l, -, -, he⟩
    · cases h.symm.trans he
      rw [he] at hquiet
      exact .of_idles hidle hquiet
    · cases h.symm.trans he
  · have hquiet := Quiet.remove s id
    rcases s.engine.remove_cases id with ⟨err', e'', he, hidle⟩ | ⟨-, he⟩
    · cases h.symm.trans he
      rw [he] at hquiet
      exact .of_idles hidle hquiet
    · cases h.symm.trans he
  · obtain ⟨hquiet, hidle⟩ := Api.answers_handle hfresh request
    exact .of_idles (hidle hfailed) hquiet

end System

namespace Sample

/-- The identifier of no trigger. -/
def third : Uuid := { value := 3 }

/-- Two triggers wait, and their path is pending. -/
def busy : System :=
  ((System.ofEngine engine).play waiting).2

/-- Has a time to expire that cannot be read. -/
def hurried : CreateRequest :=
  { daily with timeToExpire := some "soon" }

/-- Asks for the removal of a trigger that there is not. -/
def deletion : Http.Request :=
  { method := .delete, target := "/trigger/00000000-0000-0000-0000-000000000003" }

end Sample

/-- A time to expire cannot be read, and an identifier is not stored. -/
theorem System.refused_unaffected_busy :
    Sample.busy.engine.scheduler.pending.length = 1 ∧
      (∃ err e', Sample.busy.engine.create Sample.third Sample.hurried = (.error err, e') ∧
        Sample.busy.Unaffected e') ∧
      (Api.handle Sample.third Sample.deletion Sample.busy.engine).1.status = 404 ∧
      Sample.busy.Unaffected (Api.handle Sample.third Sample.deletion Sample.busy.engine).2 := by
  have hfresh : Sample.third ∉ Sample.busy.taken := by decide +kernel
  obtain ⟨hcreate, -, -, hrequest⟩ := System.refused_unaffected hfresh
  have hfails : (Sample.busy.engine.create Sample.third Sample.hurried).1.isOk = false := by
    decide +kernel
  have hstatus : (Api.handle Sample.third Sample.deletion Sample.busy.engine).1.status = 404 := by
    decide +kernel
  refine ⟨by decide +kernel, ?_, hstatus, hrequest Sample.deletion ?_⟩
  · rcases hc : Sample.busy.engine.create Sample.third Sample.hurried with ⟨err | t, e'⟩
    · exact ⟨err, e', rfl, hcreate Sample.hurried err e' hc⟩
    · rw [hc] at hfails
      cases hfails
  · unfold Http.Response.isSuccess
    rw [hstatus]
    rfl

end Lookout
