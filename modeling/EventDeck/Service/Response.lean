import EventDeck.Json.Basic
import EventDeck.Session

/-!
# Responses

What the service answers to a client: everything needed to draw the current turn, or an error with a
code.  Responses are shown as JSON objects.
-/

namespace EventDeck

/-- The codes of errors. -/
inductive ErrorCode
  | sessionNotFound | invalidDeck | inputBlocked | invalidAction | unknownControl | invalidState
  | internalError
deriving DecidableEq, Repr

/-- The word for a code. -/
def ErrorCode.word : ErrorCode → String
  | sessionNotFound => "SESSION_NOT_FOUND"
  | invalidDeck => "INVALID_DECK"
  | inputBlocked => "INPUT_BLOCKED"
  | invalidAction => "INVALID_ACTION"
  | unknownControl => "UNKNOWN_CONTROL"
  | invalidState => "INVALID_STATE"
  | internalError => "INTERNAL_ERROR"

/-- The status of a reply with a code. -/
def ErrorCode.status : ErrorCode → Nat
  | sessionNotFound => 404
  | invalidDeck => 422
  | inputBlocked | invalidState => 409
  | invalidAction | unknownControl => 400
  | internalError => 500

/-- The code with which a client is told about a refused request. -/
def ErrorCode.ofDiagnostic : DiagnosticCode → ErrorCode
  | .inputBlocked => inputBlocked
  | .invalidAction => invalidAction
  | .unknownControl => unknownControl
  | _ => internalError

/-- An error, with the errors of a deck if it is about one. -/
structure ErrorView where
  error : String
  code : ErrorCode
  deckErrors : Option (List String) := none

/-- A session as a client sees it. -/
structure SessionView where
  id : String
  deckId : String
  deckName : String
  state : SessionState
  phase : Phase
  inputOpen : Bool
  turn : Nat
  current : Option Card
  offers : List Offer
  queueLength : Nat
  poolSize : Nat
  vars : List Variable
  availableControls : List String
  diagnostics : List String

/-- A resolved turn as a client sees it. -/
structure TurnView where
  card : Option String
  title : Option String
  description : Option String
  effectsApplied : List String
  changes : List String
  warnings : List String
  session : SessionView

/-- A pressed control as a client sees it. -/
structure ControlView where
  control : String
  effectsApplied : List String
  changes : List String
  session : SessionView

/-- The answer to a request. -/
inductive Response
  | error (view : ErrorView)
  | session (view : SessionView)
  | turn (view : TurnView)
  | control (view : ControlView)

/-! ## JSON -/

namespace Json

/-- A list of texts. -/
def texts (list : List String) : Json :=
  array (list.map string)

/-- A value that may be missing. -/
def orNull {α : Type} (encode : α → Json) (value : Option α) : Json :=
  (value.map encode).getD null

end Json

/-- An error as a JSON object. -/
def ErrorView.toJson (view : ErrorView) : Json :=
  .object [("error", .string view.error), ("error_code", .string view.code.word),
    ("details", .orNull (fun errors => .object [("errors", .texts errors)]) view.deckErrors),
    ("api_version", .string "v1")]

/-- A card as a JSON object. -/
def Card.toJson (card : Card) : Json :=
  .object [("instance_id", .string card.id), ("name", .string card.name),
    ("title", .string card.title), ("description", .string card.description)]

/-- The index of an offer, or the word for going on. -/
def Offer.indexJson (offer : Offer) : Json :=
  match offer.action with
  | some index => .int index
  | none => .string Choice.continueWord

/-- An offer as a JSON object. -/
def Offer.toJson (offer : Offer) : Json :=
  .object [("index", offer.indexJson), ("description", .string offer.description),
    ("available", .bool offer.available)]

/-- A variable as a JSON object. -/
def Variable.toJson (v : Variable) : Json :=
  .object [("name", .string v.name), ("value", .float v.value), ("max", .float v.max)]

/-- A session as a JSON object. -/
def SessionView.toJson (view : SessionView) : Json :=
  .object [("session_id", .string view.id), ("deck_id", .string view.deckId),
    ("deck_name", .string view.deckName), ("status", .string view.state.word),
    ("scheduler_state", .string view.phase.word), ("input_active", .bool view.inputOpen),
    ("turn_number", .int view.turn), ("current_event", .orNull Card.toJson view.current),
    ("actions", .array (view.offers.map Offer.toJson)), ("queue_length", .int view.queueLength),
    ("pool_size", .int view.poolSize), ("variables", .array (view.vars.map Variable.toJson)),
    ("available_controls", .texts view.availableControls),
    ("diagnostics", .texts view.diagnostics)]

/-- A turn as a JSON object. -/
def TurnView.toJson (view : TurnView) : Json :=
  .object [("success", .bool true), ("event_id", .orNull .string view.card),
    ("event_title", .orNull .string view.title),
    ("action_description", .orNull .string view.description),
    ("effects_applied", .texts view.effectsApplied), ("changes", .texts view.changes),
    ("warnings", .texts view.warnings), ("session", view.session.toJson)]

/-- A pressed control as a JSON object. -/
def ControlView.toJson (view : ControlView) : Json :=
  .object [("success", .bool true), ("control", .string view.control),
    ("effects_applied", .texts view.effectsApplied), ("changes", .texts view.changes),
    ("session", view.session.toJson)]

/-- A response as a JSON object. -/
def Response.toJson : Response → Json
  | error view => view.toJson
  | session view => view.toJson
  | turn view => view.toJson
  | control view => view.toJson

end EventDeck
