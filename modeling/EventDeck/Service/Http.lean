import EventDeck.Json.Reader
import EventDeck.Service.Basic
import EventDeck.Service.Path

/-!
# The service over HTTP

The endpoints of the service have paths and methods, and bodies are JSON.  A path that leads nowhere
is looked for again without slashes at its end.  The body of a request is looked at before the
session it is for.  A fault is an internal error; what was done up to then stays done.
-/

namespace EventDeck.Http

/-- A request of a client; a request without a body has an empty one. -/
structure Request where
  method : String
  target : String
  body : String := ""

/-- The body of a reply. -/
inductive Body
  | json (value : Json)
  | text (content : String)

/-- A reply to a client. -/
structure Reply where
  status : Nat
  body : Body

/-! ## Endpoints -/

/-- What a client may ask for. -/
inductive Endpoint
  | health
  | create
  | list
  | look (session : String)
  | finish (session : String)
  | reveal (session : String)
  | select (session : String)
  | advance (session : String)
  | press (session control : String)

/-- The endpoints at a path whose last segment is a fixed word, with their methods. -/
def fixedEndpoints : List String → List (String × Endpoint)
  | ["api", "v1", "health"] => [("GET", .health)]
  | ["api", "v1", "sessions"] => [("POST", .create), ("GET", .list)]
  | ["api", "v1", "sessions", session, "reveal"] => [("POST", .reveal session)]
  | ["api", "v1", "sessions", session, "actions"] => [("POST", .select session)]
  | ["api", "v1", "sessions", session, "advance"] => [("POST", .advance session)]
  | _ => []

/-- The endpoints at a path whose last segment is a name, with their methods. -/
def namedEndpoints : List String → List (String × Endpoint)
  | ["api", "v1", "sessions", session] => [("GET", .look session), ("DELETE", .finish session)]
  | ["api", "v1", "sessions", session, "controls", control] => [("POST", .press session control)]
  | _ => []

/-- Takes a line break off the end of the last segment. -/
def dropLineBreak (segments : List String) : List String :=
  match segments.reverse with
  | [] => []
  | last :: before => ((last.dropSuffix "\n").toString :: before).reverse

/-- The endpoints at a path.  A line break behind a fixed word does not matter. -/
def endpointsAt (segments : List String) : List (String × Endpoint) :=
  if segments.contains "" then []
  else fixedEndpoints (dropLineBreak segments) ++ namedEndpoints segments

/-- The endpoints that a target leads to. -/
def endpoints (target : String) : List (String × Endpoint) :=
  let segments := Path.segments target
  match endpointsAt segments with
  | [] => endpointsAt (Path.withoutEnd segments)
  | found => found

/-! ## Bodies -/

/-- Why the body of a request is refused. -/
inductive BodyError
  | unreadable
  | misfits (errors : List ShapeError)

/-- A body that is not there. -/
def missingBody : BodyError :=
  .misfits [⟨[], .missing⟩]

/-- The text of a body without a byte order mark. -/
def withoutMark (body : String) : List Char :=
  match body.toList with
  | '\ufeff' :: text => text
  | text => text

/-- Reads a body of a shape.  No value at all is the same as no body. -/
def readBody {α : Type} (shape : Shape α) (body : String) : Except BodyError α :=
  if body.isEmpty then .error missingBody
  else
    let text := withoutMark body
    match Json.readAll text with
    | .error .tooManyDigits => .error .unreadable
    | .error (.malformed left) =>
      .error (.misfits [⟨[.item (text.length - left)], .jsonInvalid⟩])
    | .ok .null => .error missingBody
    | .ok json => (shape json).result.mapError .misfits

/-! ## Replies -/

/-- A reply with a JSON body.  Numbers that JSON has no notation for are null. -/
def jsonReply (status : Nat) (value : Json) : Reply :=
  ⟨status, .json value.finite⟩

/-- A reply with nothing but a detail. -/
def detailReply (status : Nat) (detail : Json) : Reply :=
  jsonReply status (.object [("detail", detail)])

/-- The reply to a request that cannot be answered. -/
def internalError : Reply :=
  ⟨500, .text "Internal Server Error"⟩

/-- The reply to a request with a body that is refused. -/
def BodyError.reply : BodyError → Reply
  | unreadable => detailReply 400 (.string "There was an error parsing the body")
  | misfits errors =>
    detailReply 422 (.array (errors.map fun e => { e with path := .field "body" :: e.path }.toJson))

/-- The reply for a response of the service; the status is for one without an error. -/
def Reply.ofResponse (status : Nat) (response : Response) : Reply :=
  match response with
  | .error view => jsonReply view.code.status response.toJson
  | _ => jsonReply status response.toJson

/-! ## Answers -/

/-- What is said about the service itself. -/
def healthJson : Json :=
  .object [("status", .string "healthy"), ("service", .string "omen-engine"),
    ("version", .string "1.0.0")]

/-- Makes a request to the service. -/
def ask (status : Nat) (request : Serve Response) : Serve Reply :=
  .ofResponse status <$> request

/-- Makes a request with a body to the service. -/
def askWith {α : Type} (shape : Shape α) (body : String) (status : Nat)
    (request : α → Serve Response) : Serve Reply :=
  match readBody shape body with
  | .ok a => ask status (request a)
  | .error e => return e.reply

/-- The sessions that can go on, as JSON. -/
def listJson (service : Service) : Json :=
  .object [("sessions", .texts service.active), ("count", .int service.active.length)]

/-- Asks an endpoint. -/
def perform (endpoint : Endpoint) (body : String) : Serve Reply :=
  match endpoint with
  | .health => return jsonReply 200 healthJson
  | .create => askWith (CreateRequest.shape .attributesType) body 201 Service.create
  | .list => do return jsonReply 200 (listJson (← get))
  | .look session => ask 200 (Service.look session)
  | .finish session => do
    let (ended, service) := (← get).finish session
    set service
    return jsonReply 200
      (.object [("success", .bool ended.isSome), ("session_id", .string session)])
  | .reveal session => ask 200 (Service.reveal session)
  | .select session => askWith (SelectRequest.shape .attributesType) body 200 (Service.select session)
  | .advance session => ask 200 (Service.advance session)
  | .press session control => ask 200 (Service.press session control)

/-- Finds the endpoint for a request and asks it. -/
def dispatch (request : Request) : Serve Reply :=
  let found := endpoints request.target
  match found.lookup request.method.toUpper with
  | some endpoint => perform endpoint request.body
  | none =>
    return if found.isEmpty then detailReply 404 (.string "Not Found")
      else detailReply 405 (.string "Method Not Allowed")

/-- The reply that is sent: one to a request for the head has no body. -/
def Reply.sent (reply : Reply) (method : String) : Reply :=
  if method.toUpper = "HEAD" then { reply with body := .text "" } else reply

/-- Answers a request. -/
def answer (request : Request) (service : Service) : Reply × Service :=
  match (dispatch request).run.run service with
  | (.ok reply, service) => (reply.sent request.method, service)
  | (.error _, service) => (internalError.sent request.method, service)

end EventDeck.Http
