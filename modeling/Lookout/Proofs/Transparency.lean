import Lookout.Api
import Lookout.Client
import Lookout.Proofs.FormText
import Lookout.Proofs.RequestJson
import Lookout.Proofs.System

/-!
# Calls through the interface

A client whose requests reach the server, and whose answers reach the client, as they were sent
(`Api.exchange`).

- **Requests** (`handle_create`, `handle_list`, `handle_trigger`): the server reads from each
  request what the client was called with. A body must not be too large, and a trigger in it must
  have a whole number of seconds to expire.
- **Answers** (`Client.read_answer`, `Client.success_failure`): the client reads what the engine
  has returned. Of an error it reads the status and the text (`ClientError.ofEngine`).
- **Calls** (`Client.create_run` and its like, `Client.transparent`): a call of the client is the
  operation of the engine.
-/

namespace Lookout

open Http

/-! ## Identifiers in paths -/

namespace Uuid

variable {id : Uuid} {c : Char}

theorem isHexDigit_of_mem {count n : Nat} (h : c ∈ lastDigits count n) :
    ∃ k, Text.hexValue? c = some k := by
  induction count generalizing n with
  | zero => cases h
  | succ count ih =>
    rcases List.mem_append.1 h with h | h
    · exact ih h
    · cases List.mem_singleton.1 h
      exact ⟨_, Text.hexValue?_hexDigit (Nat.mod_lt _ (by decide))⟩

/-- An identifier is written with hexadecimal digits and hyphens only. -/
theorem not_mem_chars {mark : Char} (hdigit : Text.hexValue? mark = none) (hhyphen : mark ≠ '-')
    (id : Uuid) : mark ∉ id.chars := by
  have hnone : mark ∉ lastDigits 32 id.value := by
    intro h
    obtain ⟨k, hk⟩ := isHexDigit_of_mem h
    cases hdigit.symm.trans hk
  have htake : ∀ i j, mark ∉ ((lastDigits 32 id.value).drop i).take j :=
    fun i j h => hnone (List.mem_of_mem_drop (List.mem_of_mem_take h))
  unfold chars
  simp only [List.mem_append, List.mem_cons, not_or]
  exact ⟨⟨⟨⟨fun h => hnone (List.mem_of_mem_take h), hhyphen, htake _ _⟩, hhyphen, htake _ _⟩,
    hhyphen, htake _ _⟩, hhyphen, fun h => hnone (List.mem_of_mem_drop h)⟩

end Uuid

/-! ## Targets of requests -/

namespace Http.Request

variable {r : Request} {path query : List Char}

theorem targetChars_eq (h : r.target.toList = '/' :: path) (hhash : '#' ∉ path) :
    r.targetChars = '/' :: path := by
  have hkept : '#' ∉ '/' :: path := List.not_mem_cons_of_ne_of_not_mem (by decide) hhash
  unfold targetChars
  rw [h, List.takeWhile_eq_self_iff.2 (Text.forall_bne hkept)]
  rfl

/-- A target without a question mark is a path. -/
theorem path_eq (h : r.target.toList = '/' :: path) (hhash : '#' ∉ path) (hmark : '?' ∉ path) :
    r.path = '/' :: path ∧ r.query? = none := by
  have hkept : '?' ∉ '/' :: path := List.not_mem_cons_of_ne_of_not_mem (by decide) hmark
  have hchars := targetChars_eq h hhash
  constructor
  · unfold Request.path
    rw [hchars, List.takeWhile_eq_self_iff.2 (Text.forall_bne hkept)]
  · unfold query? Text.splitFirst?
    rw [hchars, List.dropWhile_eq_nil_iff.2 (Text.forall_bne hkept)]
    rfl

/-- A target with a question mark is a path and a query. -/
theorem path_query (h : r.target.toList = '/' :: path ++ '?' :: query) (hmark : '?' ∉ path)
    (hhash : '#' ∉ path ++ '?' :: query) :
    r.path = '/' :: path ∧ r.query? = some query := by
  have hfront : '?' ∉ '/' :: path := List.not_mem_cons_of_ne_of_not_mem (by decide) hmark
  have hchars : r.targetChars = '/' :: path ++ '?' :: query := targetChars_eq h hhash
  constructor
  · unfold Request.path
    rw [hchars, List.takeWhile_append_of_pos (Text.forall_bne hfront)]
    exact List.append_nil _
  · unfold query?
    rw [hchars, Text.splitFirst?_of_not_mem hfront]
    rfl

end Http.Request

namespace Api

variable {fresh : Uuid} {e : Engine}

/-- The server as an exchange: each request is answered by the engine, as soon as it is sent. An
identifier for a new trigger is ready. -/
def exchange (fresh : Uuid) : Exchange (StateM Engine) := fun r =>
  modifyGet fun e => (.ok (handle fresh r e).1, (handle fresh r e).2)

/-! ## Routes -/

/-- The path of a trigger. -/
theorem ofPath?_trigger (id : Uuid) :
    Route.ofPath? ("/trigger/".toList ++ id.chars) = some (.trigger id.chars) := by
  have hlength : ("/trigger/".toList ++ id.chars).length = 45 := by
    rw [List.length_append, id.length_chars]
    rfl
  have hother : ∀ s : List Char, s.length ≠ 45 → "/trigger/".toList ++ id.chars ≠ s := by
    rintro s hs rfl
    exact hs hlength
  have hprefix : "/trigger/".toList.isPrefixOf ("/trigger/".toList ++ id.chars) = true :=
    List.isPrefixOf_iff_prefix.2 (List.prefix_append _ _)
  have hdrop : ("/trigger/".toList ++ id.chars).drop "/trigger/".length = id.chars := by
    rw [← String.length_toList]
    exact List.drop_left
  have hslash : id.chars.contains '/' = false :=
    Bool.eq_false_iff.2 fun h =>
      Uuid.not_mem_chars (by decide) (by decide) id (List.contains_iff_mem.1 h)
  have hfilled : id.chars.isEmpty = false := by
    rw [List.isEmpty_eq_false_iff, ← List.length_pos_iff, id.length_chars]
    decide
  unfold Route.ofPath?
  rw [if_neg (hother _ (by decide)), if_neg (hother _ (by decide)), if_neg (hother _ (by decide)),
    if_neg (hother _ (by decide)), if_pos hprefix]
  dsimp only
  rw [hdrop, hslash, hfilled]
  rfl

/-- An identifier is read back from its path. -/
theorem readId?_chars (id : Uuid) : readId? id.chars = some id := by
  unfold readId?
  rw [Percent.decode?_plain (Uuid.not_mem_chars (by decide) (by decide) id), Option.bind_some]
  show Uuid.ofText? id.text = some id
  exact id.ofText?_text

theorem path_trigger {r : Request} {id : Uuid} (h : r.target = Client.triggerTarget id) :
    r.path = "/trigger/".toList ++ id.chars := by
  have hslash : "/trigger/".toList = '/' :: "trigger/".toList := by decide
  have htarget : r.target.toList = '/' :: ("trigger/".toList ++ id.chars) := by
    have hparts : (Client.triggerTarget id).toList = "/trigger/".toList ++ id.chars :=
      String.toList_append.trans (congrArg _ String.toList_ofList)
    rw [h, hparts, hslash, List.cons_append]
  have hfree : ∀ mark, Text.hexValue? mark = none → mark ≠ '-' → mark ∉ "trigger/".toList →
      mark ∉ "trigger/".toList ++ id.chars := by
    intro mark hdigit hhyphen hfront hmem
    rcases List.mem_append.1 hmem with hmem | hmem
    · exact hfront hmem
    · exact Uuid.not_mem_chars hdigit hhyphen id hmem
  rw [hslash, List.cons_append]
  exact (Request.path_eq htarget (hfree '#' (by decide) (by decide) (by decide))
    (hfree '?' (by decide) (by decide) (by decide))).1

/-! ## What the server reads -/

/-- A body that a client has written is read as it was meant, if it is not too large. -/
theorem readBody_carrying {α : Type} {record : Json.Record α} {a : α} {j : Json}
    (h : record.ofText j.render = .ok a) (hsize : j.render.utf8ByteSize ≤ maxBodySize)
    (c : Client) (method : Method) (target : String) :
    readBody record (c.carrying method target j) = .ok a := by
  have htype : MediaType.isJson jsonType = true := by decide +kernel
  unfold readBody Client.carrying
  dsimp only
  rw [Option.any_some, htype, if_neg (by decide), if_neg (Nat.not_lt.2 hsize), h]
  rfl

/-- The query of a listing asks for the data source that was meant. -/
theorem list_target {r : Request} {source : Option String}
    (h : r.target = Client.listTarget source) :
    r.path = "/trigger/list".toList ∧ readSource r = .ok source := by
  have hslash : "/trigger/list".toList = '/' :: "trigger/list".toList := by decide
  have hmark : "/trigger/list?".toList = "/trigger/list".toList ++ ['?'] := by decide
  cases source with
  | none =>
    have htarget : r.target.toList = '/' :: "trigger/list".toList := by
      rw [h]
      exact hslash
    obtain ⟨hpath, hquery⟩ := Request.path_eq htarget (by decide) (by decide)
    refine ⟨hpath.trans hslash.symm, ?_⟩
    unfold readSource
    rw [hquery]
    rfl
  | some source =>
    have htarget : r.target.toList =
        '/' :: "trigger/list".toList ++ '?' :: Percent.formQuery "source" source := by
      have hparts : (Client.listTarget (some source)).toList =
          "/trigger/list?".toList ++ Percent.formQuery "source" source :=
        String.toList_append.trans (congrArg _ String.toList_ofList)
      rw [h, hparts, hmark, hslash, List.append_assoc]
      rfl
    have hhash : '#' ∉ "trigger/list".toList ++ '?' :: Percent.formQuery "source" source := by
      have hform : ∀ s, '#' ∉ Percent.encodeForm s :=
        Percent.not_mem_encodeForm (by decide) (by decide) (by decide)
      unfold Percent.formQuery
      simp only [List.mem_append, List.mem_cons, not_or]
      exact ⟨by decide, by decide, hform "source", by decide, hform source⟩
    obtain ⟨hpath, hquery⟩ := Request.path_query htarget (by decide) hhash
    refine ⟨hpath.trans hslash.symm, ?_⟩
    have hsingle : ([("source", source)].filter fun p : String × String => p.1 == "source") =
        [("source", source)] := List.filter_cons_of_pos (beq_self_eq_true _)
    unfold readSource
    rw [hquery, Option.getD_some, Percent.formPairs_formQuery]
    dsimp only
    rw [hsingle]
    rfl

/-! ## What the server answers -/

/-- The answer to an operation of the engine that returns a value. -/
def answer {α : Type} (encode : α → Json) (outcome : Except EngineError α) : Response :=
  match outcome with
  | .ok a => respond 200 (encode a)
  | .error err => failure err

/-- The summaries of triggers. -/
def summaries (ts : List Trigger) : Json :=
  .array (ts.map fun t => t.summary.toJson)

theorem handle_create (c : Client) (r : CreateRequest)
    (hsize : r.toJson.render.utf8ByteSize ≤ maxBodySize) :
    handle fresh (c.carrying .post "/trigger/create" r.toJson) e =
      (answer Trigger.toJson (e.create fresh r).1, (e.create fresh r).2) := by
  have hslash : "/trigger/create".toList = '/' :: "trigger/create".toList := by decide
  have hpath :
      (c.carrying .post "/trigger/create" r.toJson).path = '/' :: "trigger/create".toList :=
    (Request.path_eq hslash (by decide) (by decide)).1
  have hroute : Route.ofPath? "/trigger/create".toList = some .create := by decide
  have hdispatch : handle fresh (c.carrying .post "/trigger/create" r.toJson) e =
      create fresh (c.carrying .post "/trigger/create" r.toJson) e := by
    show dispatch fresh .post _ e = _
    unfold dispatch
    rw [hpath, ← hslash, hroute]
  rw [hdispatch]
  unfold create
  rw [readBody_carrying r.ofText_render hsize]
  dsimp only
  rcases e.create fresh r with ⟨_ | _, e'⟩ <;> rfl

theorem handle_list (c : Client) (source : Option String) :
    handle fresh (c.bare .get (Client.listTarget source)) e =
      (answer summaries (e.list source).1, (e.list source).2) := by
  obtain ⟨hpath, hsource⟩ := list_target (r := c.bare .get (Client.listTarget source)) rfl
  have hroute : Route.ofPath? "/trigger/list".toList = some .list := by decide
  show dispatch fresh .get _ e = _
  unfold dispatch
  rw [hpath, hroute]
  show list _ e = _
  unfold list
  rw [hsource]
  dsimp only
  rcases e.list source with ⟨_ | _, e'⟩ <;> rfl

/-- A request about a trigger comes to the trigger of that identifier. -/
theorem handle_trigger {r : Request} {id : Uuid} (h : r.target = Client.triggerTarget id)
    (hmethod : r.method = .get ∨ r.method = .put ∨ r.method = .delete) :
    handle fresh r e = handleTrigger r.method id r e := by
  have hhandle : handle fresh r e = dispatch fresh r.method r e := by
    unfold handle
    rcases hmethod with h | h | h <;> rw [h]
  have hmem : r.method ∈ [Method.get, .put, .delete] := by
    rcases hmethod with h | h | h <;> rw [h] <;> decide
  rw [hhandle]
  unfold dispatch
  rw [path_trigger h, ofPath?_trigger]
  dsimp only
  rw [if_pos hmem, readId?_chars]

theorem handle_update {r : Request} {id : Uuid} {t : Trigger}
    (htarget : r.target = Client.triggerTarget id) (hmethod : r.method = .put)
    (hbody : readBody Trigger.record r = .ok t) :
    handle fresh r e =
      (answer Trigger.toJson (e.update { t with id }).1, (e.update { t with id }).2) := by
  rw [handle_trigger htarget (.inr (.inl hmethod)), hmethod]
  show update id r e = _
  unfold update
  rw [hbody]
  dsimp only
  rcases e.update { t with id } with ⟨_ | _, e'⟩ <;> rfl

/-- A body that is refused does not reach the engine. -/
theorem handle_update_refused {r : Request} {id : Uuid} {status : Nat}
    (htarget : r.target = Client.triggerTarget id) (hmethod : r.method = .put)
    (hbody : readBody Trigger.record r = .error status) :
    handle fresh r e = (plain status, e) := by
  rw [handle_trigger htarget (.inr (.inl hmethod)), hmethod]
  show update id r e = _
  unfold update
  rw [hbody]

/-- A body that is too large is refused. -/
theorem readBody_of_too_large {α : Type} {record : Json.Record α} {j : Json}
    (hsize : maxBodySize < j.render.utf8ByteSize) (c : Client) (method : Method) (target : String) :
    readBody record (c.carrying method target j) = .error 413 := by
  have htype : MediaType.isJson jsonType = true := by decide +kernel
  unfold readBody Client.carrying
  dsimp only
  rw [Option.any_some, htype, if_neg (by decide), if_pos hsize]

end Api

/-! ## What the client reads -/

/-- What a client is told of an error of the engine. -/
def ClientError.ofEngine : EngineError → ClientError
  | .notFound id => .api 404 ("Trigger " ++ id.text ++ " not found")
  | .storeBackend _ => .api 500 "Internal server error"
  | .pattern e => .api 400 (EngineError.pattern e).message
  | .definition e => .api 400 (EngineError.definition e).message
  | .period e => .api 400 (EngineError.period e).message
  | err => .api 500 err.message

theorem ClientError.isNotFound_ofEngine (err : EngineError) :
    (ofEngine err).isNotFound = true ↔ ∃ id, err = .notFound id := by
  cases err <;> simp [ofEngine, isNotFound]

/-- The text of an error is read from the answer that tells it. -/
theorem ClientError.textOf_error (message : String) :
    textOf (Json.object [("error", .string message)]).render = message := by
  have hfits : Json.Fits 127 (.object [("error", .string message)]) :=
    .object (List.forall_mem_singleton.2 (.string _))
  unfold textOf
  rw [Json.parse?_render hfits]
  rfl

namespace Client

variable {fresh : Uuid} {e : Engine} {α : Type}

theorem success_errorResponse {status : Nat} (h : (Api.plain status).isSuccess = false)
    (message : String) :
    success (.ok (Api.errorResponse status message)) = .error (.api status message) := by
  have hsuccess : (Api.errorResponse status message).isSuccess = false := h
  have htext : (Api.errorResponse status message).text =
      (Json.object [("error", .string message)]).render := by
    unfold Response.text Api.errorResponse Api.respond Json.render
    rw [String.toList_ofList]
    rfl
  unfold success
  dsimp only
  rw [hsuccess, htext, ClientError.textOf_error]
  rfl

/-- **An error of the engine is read as what is told of it.** -/
theorem success_failure (err : EngineError) :
    success (.ok (Api.failure err)) = .error (.ofEngine err) := by
  have hmissing : (Api.plain 404).isSuccess = false := by decide
  have hclient : (Api.plain 400).isSuccess = false := by decide
  have hserver : (Api.plain 500).isSuccess = false := by decide
  cases err with
  | notFound id => exact success_errorResponse hmissing _
  | storeBackend text => exact success_errorResponse hserver _
  | pattern e => exact success_errorResponse hclient _
  | definition e => exact success_errorResponse hclient _
  | period e => exact success_errorResponse hclient _
  | unknownCheckerType type => exact success_errorResponse hserver _
  | unknownBackendType type => exact success_errorResponse hserver _
  | invalidConfig reason => exact success_errorResponse hserver _

theorem read_failure (decode : String → Except DecodeError α) (err : EngineError) :
    read decode (.ok (Api.failure err)) = .error (.ofEngine err) := by
  unfold read
  rw [success_failure]
  rfl

theorem read_respond {decode : String → Except DecodeError α} {j : Json} {a : α}
    (h : decode j.render = .ok a) : read decode (.ok (Api.respond 200 j)) = .ok a := by
  have hsuccess : success (.ok (Api.respond 200 j)) = .ok j.render := rfl
  unfold read
  rw [hsuccess]
  show (decode j.render).mapError _ = _
  rw [h]
  rfl

/-- **What the engine returns is read as it was meant**, if it is read back from its encoding. -/
theorem read_answer {β : Type} {encode : α → Json} {decode : String → Except DecodeError β}
    {f : α → β} {outcome : Except EngineError α}
    (h : ∀ a, outcome = .ok a → decode (encode a).render = .ok (f a)) :
    read decode (.ok (Api.answer encode outcome)) = (outcome.map f).mapError .ofEngine := by
  cases outcome with
  | ok a => exact read_respond (h a rfl)
  | error err => exact read_failure decode err

/-- A trigger is read as that trigger, if it has a whole number of seconds to expire. -/
theorem read_trigger {outcome : Except EngineError Trigger}
    (h : ∀ t, outcome = .ok t → t.timeToExpire.nanos = 0) :
    read Trigger.record.ofText (.ok (Api.answer Trigger.toJson outcome)) =
      outcome.mapError .ofEngine := by
  have hsame : outcome.map id = outcome := by cases outcome <;> rfl
  rw [read_answer (f := id) fun t ht => (Trigger.readsBack_of_nanos (h t ht)).2.2, hsame]

end Client

/-! ## Whole seconds -/

/-- The times to expire of the engine are whole numbers of seconds. -/
structure Engine.WholeSeconds (e : Engine) : Prop where
  default : e.defaultTimeToExpire.nanos = 0
  armed : ∀ id l, e.armed.find? id = some l → l.trigger.timeToExpire.nanos = 0

namespace Engine

variable {fresh : Uuid} {e : Engine} {t : Trigger}

theorem WholeSeconds.create (h : e.WholeSeconds) {r : CreateRequest}
    (ht : (e.create fresh r).1 = .ok t) : t.timeToExpire.nanos = 0 := by
  obtain ⟨d, hd, rfl⟩ := create_ok ht
  unfold timeToExpire at hd
  split at hd
  · exact Duration.nanos_of_ofPeriod hd
  · cases hd
    exact h.default

theorem WholeSeconds.get (h : e.WholeSeconds) {id : Uuid} (ht : e.get id = .ok t) :
    t.timeToExpire.nanos = 0 := by
  unfold Engine.get at ht
  split at ht
  · rename_i l hl
    cases ht
    exact h.armed id l hl
  · cases ht

/-- Nothing is lost of what is looked up when it is written in whole seconds. -/
theorem WholeSeconds.map_withWholeSecs_get (h : e.WholeSeconds) (id : Uuid) :
    (e.get id).map Trigger.withWholeSecs = e.get id := by
  cases ht : e.get id with
  | error err => rfl
  | ok t => exact congrArg _ (Trigger.withWholeSecs_eq_self (h.get ht))

/-- A replacement keeps its time to expire. -/
theorem timeToExpire_of_update {t' : Trigger} (h : (e.update t).1 = .ok t') :
    t'.timeToExpire = t.timeToExpire := by
  rcases e.update_cases t with ⟨err, e', hu, -⟩ | ⟨l, hl, -, hu⟩ <;> rw [hu] at h
  · cases h
  · have htrigger := (Lifecycle.arm_ok hl).1
    rw [← Except.ok.inj h, htrigger]

end Engine

/-! ## Calls -/

namespace Client

variable {t : Trigger}

theorem create_run (c : Client) (fresh : Uuid) (h : e.WholeSeconds) {r : CreateRequest}
    (hsize : r.toJson.render.utf8ByteSize ≤ Api.maxBodySize) :
    (c.create (Api.exchange fresh) r).run e =
      ((e.create fresh r).1.mapError .ofEngine, (e.create fresh r).2) := by
  show (read Trigger.record.ofText (.ok (Api.handle fresh _ e).1), (Api.handle fresh _ e).2) = _
  rw [Api.handle_create c r hsize, read_trigger fun t ht => h.create ht]

theorem get_run (c : Client) (fresh : Uuid) (e : Engine) (id : Uuid) :
    (c.get (Api.exchange fresh) id).run e =
      (((e.get id).map Trigger.withWholeSecs).mapError .ofEngine, e) := by
  show (read Trigger.record.ofText (.ok (Api.handle fresh _ e).1), (Api.handle fresh _ e).2) = _
  have htarget : (c.bare .get (triggerTarget id)).target = triggerTarget id := rfl
  have hanswer : Api.get id e = Api.answer Trigger.toJson (e.get id) := by
    unfold Api.get
    cases e.get id <;> rfl
  rw [Api.handle_trigger htarget (.inl rfl)]
  show (read Trigger.record.ofText (.ok (Api.get id e)), e) = _
  rw [hanswer, read_answer fun t _ => t.ofText_render]

theorem list_run (c : Client) (fresh : Uuid) (e : Engine) (source : Option String) :
    (c.list (Api.exchange fresh) source).run e =
      (((e.list source).1.map (·.map Trigger.summary)).mapError .ofEngine, (e.list source).2) := by
  have hread : ∀ ts : List Trigger, Summary.record.listOfText (Api.summaries ts).render =
      .ok (ts.map Trigger.summary) := by
    intro ts
    rw [← Summary.listOfText_render, List.map_map]
    rfl
  show (read Summary.record.listOfText (.ok (Api.handle fresh _ e).1), (Api.handle fresh _ e).2) = _
  rw [Api.handle_list, read_answer fun ts _ => hread ts]

/-- A replacement that is not too large reaches the engine, and the client reads what becomes of
it. -/
theorem update_run (c : Client) (fresh : Uuid) (e : Engine) (id : Uuid)
    (ht : t.timeToExpire.nanos = 0) (hsize : t.toJson.render.utf8ByteSize ≤ Api.maxBodySize) :
    (c.update (Api.exchange fresh) id t).run e =
      ((e.update { t with id }).1.mapError .ofEngine, (e.update { t with id }).2) := by
  have hbody := Api.readBody_carrying (Trigger.readsBack_of_nanos ht).2.2 hsize c .put
    (triggerTarget id)
  have hseconds : ∀ t', (e.update { t with id }).1 = .ok t' → t'.timeToExpire.nanos = 0 := by
    intro t' ht'
    rw [Engine.timeToExpire_of_update ht']
    exact ht
  show (read Trigger.record.ofText (.ok (Api.handle fresh _ e).1), (Api.handle fresh _ e).2) = _
  rw [Api.handle_update rfl rfl hbody, read_trigger hseconds]

/-- A replacement that is too large does not reach the engine. -/
theorem update_run_of_too_large (c : Client) (fresh : Uuid) (e : Engine) (id : Uuid)
    (hsize : Api.maxBodySize < t.toJson.render.utf8ByteSize) :
    ∃ err, (c.update (Api.exchange fresh) id t).run e = (.error err, e) := by
  have hbody : Api.readBody Trigger.record (c.carrying .put (triggerTarget id) t.toJson) =
      .error 413 := Api.readBody_of_too_large hsize c .put _
  refine ⟨.api 413 (ClientError.textOf (Api.plain 413).text), ?_⟩
  show (read Trigger.record.ofText (.ok (Api.handle fresh _ e).1), (Api.handle fresh _ e).2) = _
  rw [Api.handle_update_refused rfl rfl hbody]
  rfl

theorem remove_run (c : Client) (fresh : Uuid) (e : Engine) (id : Uuid) :
    (c.remove (Api.exchange fresh) id).run e =
      ((e.remove id).1.mapError .ofEngine, (e.remove id).2) := by
  show (acknowledge (.ok (Api.handle fresh _ e).1), (Api.handle fresh _ e).2) = _
  have htarget : (c.bare .delete (triggerTarget id)).target = triggerTarget id := rfl
  rw [Api.handle_trigger htarget (.inr (.inr rfl))]
  show (acknowledge (.ok (Api.remove id e).1), (Api.remove id e).2) = _
  unfold Api.remove
  rcases e.remove id with ⟨err | _, e'⟩
  · dsimp only [acknowledge]
    rw [success_failure]
    rfl
  · rfl

end Client

/-- **The interface and its client are transparent.** A call of the client whose request is answered
by the server is the operation of the engine: it leaves the same engine, and returns the same value,
or of a listing the summaries in their order. Of an error it returns the status and the text that
are told of it. What was asked about is not there exactly if the engine has not found it. Bodies
must not be too large, and times to expire must be whole numbers of seconds. -/
theorem Client.transparent (c : Client) (fresh : Uuid) {e : Engine} (h : e.WholeSeconds) :
    (∀ r : CreateRequest, r.toJson.render.utf8ByteSize ≤ Api.maxBodySize →
      (c.create (Api.exchange fresh) r).run e =
        ((e.create fresh r).1.mapError .ofEngine, (e.create fresh r).2)) ∧
    (∀ source, (c.list (Api.exchange fresh) source).run e =
      (((e.list source).1.map (·.map Trigger.summary)).mapError .ofEngine, (e.list source).2)) ∧
    (∀ id, (c.get (Api.exchange fresh) id).run e = ((e.get id).mapError .ofEngine, e)) ∧
    (∀ id (t : Trigger), t.timeToExpire.nanos = 0 →
      t.toJson.render.utf8ByteSize ≤ Api.maxBodySize →
      (c.update (Api.exchange fresh) id t).run e =
        ((e.update { t with id }).1.mapError .ofEngine, (e.update { t with id }).2)) ∧
    (∀ id, (c.remove (Api.exchange fresh) id).run e =
      ((e.remove id).1.mapError .ofEngine, (e.remove id).2)) ∧
    ∀ err, (ClientError.ofEngine err).isNotFound = true ↔ ∃ id, err = .notFound id := by
  refine ⟨fun r => c.create_run fresh h, c.list_run fresh e, fun id => ?_,
    fun id t => c.update_run fresh e id, c.remove_run fresh e, ClientError.isNotFound_ofEngine⟩
  rw [get_run, h.map_withWholeSecs_get]

namespace Sample

/-- A client of the server. -/
def client : Client :=
  .new "http://localhost:8080/"

theorem wholeSeconds : engine.WholeSeconds where
  default := by decide
  armed := fun id l h => by cases h

end Sample

/-- The daily trigger is created. Of a data source with a space and an ampersand in its name nothing
is listed, and another trigger is not found. -/
theorem Client.transparent_daily :
    Sample.engine.WholeSeconds ∧
      Sample.daily.toJson.render.utf8ByteSize ≤ Api.maxBodySize ∧
      (Sample.client.create (Api.exchange Sample.first) Sample.daily).run Sample.engine =
        ((Sample.engine.create Sample.first Sample.daily).1.mapError .ofEngine,
          (Sample.engine.create Sample.first Sample.daily).2) ∧
      ((Sample.client.list (Api.exchange Sample.first) (some "red & blue")).run Sample.engine).1 =
        .ok [] ∧
      ((Sample.client.get (Api.exchange Sample.first) Sample.second).run Sample.engine).1 =
        .error (.api 404 "Trigger 00000000-0000-0000-0000-000000000002 not found") := by
  have hsize : Sample.daily.toJson.render.utf8ByteSize ≤ Api.maxBodySize := by decide +kernel
  obtain ⟨hcreate, hlist, hget, -⟩ :=
    Client.transparent Sample.client Sample.first Sample.wholeSeconds
  refine ⟨Sample.wholeSeconds, hsize, hcreate _ hsize, ?_, ?_⟩
  · rw [hlist]
    decide +kernel
  · rw [hget]
    decide +kernel

end Lookout
