import Lookout.Engine
import Lookout.Http
import Lookout.Http.MediaType
import Lookout.Http.Percent
import Lookout.Json.Document
import Lookout.Json.Writer

/-!
# The administrative interface

What a server answers to requests about its triggers.

| Request | Answer |
|---|---|
| `GET /health` | the server is there, and its data source |
| `POST /trigger/create` | the new trigger |
| `GET /trigger/list?source=S` | the summaries of the triggers of a data source |
| `GET /trigger/ID` | an armed trigger |
| `PUT /trigger/ID` | the trigger after its definition was replaced |
| `DELETE /trigger/ID` | nothing |
| `GET /checker/status` | the numbers of keys and triggers |

* `Api.handle` answers one request. `HEAD` is answered like `GET`, without the body.
* `Api.failure` is the answer to an error of the engine.
-/

namespace Lookout.Api

open Http

/-! ## Responses -/

/-- A response without a body. -/
def plain (status : Nat) : Response :=
  { status, body := "" }

/-- A response in JSON. -/
def respond (status : Nat) (j : Json) : Response :=
  { status, body := j.render }

/-- A response that tells an error. -/
def errorResponse (status : Nat) (message : String) : Response :=
  respond status (.object [("error", .string message)])

/-- The response to an error of the engine. What has gone wrong in the store is not told. -/
def failure : EngineError → Response
  | .notFound id => errorResponse 404 ("Trigger " ++ id.text ++ " not found")
  | .storeBackend _ => errorResponse 500 "Internal server error"
  | e => errorResponse (if e.isInvalidInput then 400 else 500) e.message

/-! ## Routes -/

/-- What a request may be about. -/
inductive Route
  | health
  | create
  | list
  | status
  /-- A trigger, whose identifier is not read yet. -/
  | trigger (id : List Char)
  deriving DecidableEq, Repr

/-- The route of a path. -/
def Route.ofPath? (path : List Char) : Option Route :=
  if path = "/health".toList then some .health
  else if path = "/trigger/create".toList then some .create
  else if path = "/trigger/list".toList then some .list
  else if path = "/checker/status".toList then some .status
  else if "/trigger/".toList.isPrefixOf path then
    let id := path.drop "/trigger/".length
    if id.isEmpty || id.contains '/' then none else some (.trigger id)
  else none

/-- The identifier in a path. -/
def readId? (id : List Char) : Option Uuid :=
  (Percent.decode? id).bind Uuid.ofText?

/-! ## Bodies -/

/-- The most bytes of a body. -/
def maxBodySize : Nat := 2 * 1024 * 1024

/-- Reads the body of a request; fails with the status that tells why. -/
def readBody {α : Type} (record : Json.Record α) (r : Request) : Except Nat α :=
  if !(r.contentType.any MediaType.isJson) then .error 415
  else if maxBodySize < r.body.utf8ByteSize then .error 413
  else (record.ofText r.body).mapError fun e => if e.isSyntactic then 400 else 422

/-! ## Queries -/

/-- The data source that a query asks for, if it does; it may be given once. -/
def readSource (r : Request) : Except Nat (Option String) :=
  let pairs := Percent.formPairs (r.query?.getD [])
  match (pairs.filter fun p => p.1 == "source").map (·.2) with
  | [] => .ok none
  | [source] => .ok (some source)
  | _ => .error 400

/-! ## Answers -/

/-- Tells that the server is there. -/
def health (e : Engine) : Response :=
  respond 200 (.object [("status", .string "ok"), ("data_source", .string e.dataSource)])

/-- Creates a trigger under a fresh identifier. -/
def create (fresh : Uuid) (r : Request) (e : Engine) : Response × Engine :=
  match readBody CreateRequest.record r with
  | .error status => (plain status, e)
  | .ok request =>
    match e.create fresh request with
    | (.ok t, e) => (respond 200 t.toJson, e)
    | (.error err, e) => (failure err, e)

/-- Lists the triggers of a data source. -/
def list (r : Request) (e : Engine) : Response × Engine :=
  match readSource r with
  | .error status => (plain status, e)
  | .ok source =>
    match e.list source with
    | (.ok triggers, e) => (respond 200 (.array (triggers.map fun t => t.summary.toJson)), e)
    | (.error err, e) => (failure err, e)

/-- Tells an armed trigger. -/
def get (id : Uuid) (e : Engine) : Response :=
  match e.get id with
  | .ok t => respond 200 t.toJson
  | .error err => failure err

/-- Replaces the definition of a trigger; the identifier in the body does not matter. -/
def update (id : Uuid) (r : Request) (e : Engine) : Response × Engine :=
  match readBody Trigger.record r with
  | .error status => (plain status, e)
  | .ok t =>
    match e.update { t with id } with
    | (.ok t, e) => (respond 200 t.toJson, e)
    | (.error err, e) => (failure err, e)

/-- Removes a trigger. -/
def remove (id : Uuid) (e : Engine) : Response × Engine :=
  match e.remove id with
  | (.ok (), e) => (plain 204, e)
  | (.error err, e) => (failure err, e)

/-- Answers a request about one trigger. -/
def handleTrigger (method : Method) (id : Uuid) (r : Request) (e : Engine) : Response × Engine :=
  match method with
  | .get => (get id e, e)
  | .put => update id r e
  | .delete => remove id e
  | _ => (plain 405, e)

/-- Answers a request, whose method is given apart. An identifier for a new trigger is ready. -/
def dispatch (fresh : Uuid) (method : Method) (r : Request) (e : Engine) : Response × Engine :=
  match Route.ofPath? r.path, method with
  | none, _ => (plain 404, e)
  | some .health, .get => (health e, e)
  | some .create, .post => create fresh r e
  | some .list, .get => list r e
  | some .status, .get => (respond 200 e.status.toJson, e)
  | some (.trigger id), method =>
    if method ∈ [.get, .put, .delete] then
      match readId? id with
      | some id => handleTrigger method id r e
      | none => (plain 400, e)
    else (plain 405, e)
  | some _, _ => (plain 405, e)

/-- Answers a request. -/
def handle (fresh : Uuid) (r : Request) (e : Engine) : Response × Engine :=
  match r.method with
  | .head =>
    let (response, e) := dispatch fresh .get r e
    ({ response with body := "" }, e)
  | method => dispatch fresh method r e

end Lookout.Api
