import Lookout.Text.Pieces

/-!
# Requests and responses

What goes to and fro between a server and its clients.

* `Request.path`, `Request.query?`: the path and the query in a request's target.
* `Exchange`: sends a request and waits for the response.
-/

namespace Lookout.Http

/-- The methods of requests. -/
inductive Method
  | get
  | head
  | post
  | put
  | delete
  | other (name : String)
  deriving DecidableEq, Repr

namespace Method

/-- The name of a method. -/
def name : Method → String
  | get => "GET"
  | head => "HEAD"
  | post => "POST"
  | put => "PUT"
  | delete => "DELETE"
  | other name => name

/-- The methods that have a meaning here. -/
def known : List Method :=
  [get, head, post, put, delete]

/-- The method of a name; case matters. -/
def ofName (s : String) : Method :=
  (known.find? fun m => m.name == s).getD (other s)

end Method

/-- A request. -/
structure Request where
  method : Method
  /-- Where the server is: what stands in front of the target. -/
  address : String := ""
  /-- The path, and a query after a question mark, both percent-encoded. The whole address of what
  is asked for may be given as well. -/
  target : String
  contentType : Option String := none
  body : String := ""
  deriving DecidableEq, Repr

/-- A response. -/
structure Response where
  status : Nat
  body : String
  deriving DecidableEq, Repr

namespace Request

/-- The text after the scheme and the authority in front of a path, if it has them. -/
def afterAuthority (s : List Char) : List Char :=
  match s.dropWhile fun c => c != ':' && c != '/' with
  | ':' :: '/' :: '/' :: rest => rest.dropWhile fun c => c != '/' && c != '?'
  | _ => s

/-- The path and the query; what follows a number sign belongs to neither. -/
def targetChars (r : Request) : List Char :=
  afterAuthority (r.target.toList.takeWhile (· != '#'))

/-- The path. -/
def path (r : Request) : List Char :=
  r.targetChars.takeWhile (· != '?')

/-- The query. -/
def query? (r : Request) : Option (List Char) :=
  (Text.splitFirst? '?' r.targetChars).map (·.2)

end Request

namespace Response

/-- The status is one of success. -/
def isSuccess (r : Response) : Bool :=
  200 ≤ r.status && r.status < 300

/-- The text of the body. A byte order mark in front of it is no part of the text. -/
def text (r : Response) : String :=
  match r.body.toList with
  | '\ufeff' :: rest => String.ofList rest
  | _ => r.body

end Response

/-- Sends a request and waits for the response. When there is none the reason is told. -/
abbrev Exchange (m : Type → Type) := Request → m (Except String Response)

/-- The type of bodies in JSON. -/
def jsonType : String := "application/json"

/-- An address without slashes at its end. -/
def trimAddress (address : String) : String :=
  String.ofList (address.toList.reverse.dropWhile (· == '/')).reverse

end Lookout.Http
