import Lookout.Http
import Lookout.Http.Percent
import Lookout.Json.Document
import Lookout.Json.Writer
import Lookout.Trigger.Request

/-!
# The client

Asks a server about its triggers. Requests are sent by an exchange that the caller brings along.

* `Client.create`, `Client.list`, `Client.get`, `Client.update`, `Client.remove`, `Client.status`,
  `Client.health`: one request each.
* `ClientError`: there was no answer, the answer was an error, or it could not be read.
-/

namespace Lookout

/-- The ways in which a call fails. -/
inductive ClientError
  /-- There was no answer. -/
  | request (reason : String)
  /-- The answer was not one of success. -/
  | api (status : Nat) (message : String)
  /-- The answer could not be read. -/
  | parse (reason : String)
  deriving DecidableEq, Repr

namespace ClientError

/-- The wording of a client error. -/
def message : ClientError → String
  | request reason => "HTTP request failed: " ++ reason
  | api status text => "API error (status " ++ Text.showNat status ++ "): " ++ text
  | parse reason => "Failed to parse response: Failed to parse JSON response: " ++ reason

/-- What was asked about is not there. -/
def isNotFound : ClientError → Bool
  | api 404 _ => true
  | _ => false

/-- The server blames the client. -/
def isClientError : ClientError → Bool
  | api status _ => 400 ≤ status && status < 500
  | _ => false

/-- The server blames itself. -/
def isServerError : ClientError → Bool
  | api status _ => 500 ≤ status
  | _ => false

/-- The error that an answer tells: the member `error` if it is a string, else all of the text. -/
def textOf (text : String) : String :=
  match (Json.parse? text).bind (·.sorted.member? "error") with
  | some (.string error) => error
  | _ => text

end ClientError

/-- A client of the server at an address. -/
structure Client where
  address : String
  deriving DecidableEq, Repr

namespace Client

open Http

/-- The client of a server; slashes at the end of the address do not count. -/
def new (address : String) : Client :=
  { address := trimAddress address }

/-! ## Requests -/

/-- A request without a body. -/
def bare (c : Client) (method : Method) (target : String) : Request :=
  { method, address := c.address, target }

/-- A request with a body in JSON. -/
def carrying (c : Client) (method : Method) (target : String) (body : Json) : Request :=
  { method, address := c.address, target, contentType := some jsonType, body := body.render }

/-- The target of requests about one trigger. -/
def triggerTarget (id : Uuid) : String :=
  "/trigger/" ++ id.text

/-- The target of listings. -/
def listTarget : Option String → String
  | none => "/trigger/list"
  | some source => "/trigger/list?" ++ String.ofList (Percent.formQuery "source" source)

/-! ## Answers -/

/-- The body of an answer of success. -/
def success (answer : Except String Response) : Except ClientError String :=
  match answer with
  | .error reason => .error (.request reason)
  | .ok r =>
    if r.isSuccess then .ok r.body else .error (.api r.status (ClientError.textOf r.text))

/-- Reads the value that an answer of success carries. -/
def read {α : Type} (decode : String → Except DecodeError α) (answer : Except String Response) :
    Except ClientError α :=
  success answer >>= fun body => (decode body).mapError fun e => .parse e.message

/-- Takes notice of an answer without a value. -/
def acknowledge (answer : Except String Response) : Except ClientError Unit :=
  (success answer).map fun _ => ()

/-! ## Calls -/

variable {m : Type → Type} [Monad m]

/-- Creates a trigger. -/
def create (c : Client) (send : Exchange m) (r : CreateRequest) : m (Except ClientError Trigger) :=
  return read Trigger.record.ofText (← send (c.carrying .post "/trigger/create" r.toJson))

/-- Lists the triggers of a data source, by default that of the server. -/
def list (c : Client) (send : Exchange m) (source : Option String) :
    m (Except ClientError (List Summary)) :=
  return read Summary.record.listOfText (← send (c.bare .get (listTarget source)))

/-- Asks for an armed trigger. -/
def get (c : Client) (send : Exchange m) (id : Uuid) : m (Except ClientError Trigger) :=
  return read Trigger.record.ofText (← send (c.bare .get (triggerTarget id)))

/-- Replaces the definition of a trigger. -/
def update (c : Client) (send : Exchange m) (id : Uuid) (t : Trigger) :
    m (Except ClientError Trigger) :=
  return read Trigger.record.ofText (← send (c.carrying .put (triggerTarget id) t.toJson))

/-- Removes a trigger. -/
def remove (c : Client) (send : Exchange m) (id : Uuid) : m (Except ClientError Unit) :=
  return acknowledge (← send (c.bare .delete (triggerTarget id)))

/-- Asks for the numbers of keys and triggers. -/
def status (c : Client) (send : Exchange m) : m (Except ClientError Status) :=
  return read Status.record.ofText (← send (c.bare .get "/checker/status"))

/-- Asks whether the server is there. -/
def health (c : Client) (send : Exchange m) : m (Except ClientError Unit) :=
  return acknowledge (← send (c.bare .get "/health"))

end Client
end Lookout
