import Lookout.Firing
import Lookout.Http
import Lookout.Json.Writer

/-!
# Carrying out actions

How the action of a trigger is told to the outside world.

* `Delivery.log`: not at all; it always succeeds.
* `Delivery.http`: a flow is launched by a request to the flow executor, a notice is sent to its own
  address. Both carry the firing in JSON.
* `Delivery.fire`: carries out an action.
-/

namespace Lookout

/-- How actions are carried out. -/
inductive Delivery
  | log
  /-- By requests; flows are launched by the flow executor at the address. -/
  | http (address : String)
  deriving DecidableEq, Repr

namespace Delivery

open Http

/-- By requests; slashes at the end of the address do not count. -/
def toAddress (address : String) : Delivery :=
  .http (trimAddress address)

/-- The request that launches a flow. -/
def flowRequest (address : String) (projectId : Int64) (flowName : String) (f : Firing) :
    Request :=
  { method := .post
    address
    target := "/flow/execute"
    contentType := some jsonType
    body :=
      (Json.object
        ([("project_id", .integer projectId.toInt), ("flow_name", .string flowName)] ++
          f.members)).render }

/-- The request that sends a notice. -/
def noticeRequest (url : String) (f : Firing) : Request :=
  { method := .post, address := url, target := "", contentType := some jsonType,
    body := f.toJson.render }

/-- The request of an action. -/
def request (address : String) (f : Firing) : Action → Request
  | .executeFlow projectId flowName => flowRequest address projectId flowName f
  | .webhook url => noticeRequest url f

/-- What an answer means. -/
def check : Except String Response → Except ActionError Unit
  | .error reason => .error (.request reason)
  | .ok r => if r.isSuccess then .ok () else .error (.rejected r.status r.text)

/-- Carries out an action. -/
def fire {m : Type → Type} [Monad m] (send : Exchange m) (action : Action) (f : Firing) :
    Delivery → m (Except ActionError Unit)
  | .log => return .ok ()
  | .http address => return check (← send (request address f action))

end Delivery
end Lookout
