import EventDeck.Deck.Reader
import EventDeck.Service.Response

/-!
# The service

The service keeps the sessions that are being played, in the order of their creation, and answers
the requests of clients.  It looks at a session without leaving reports behind.  A session that is
created has the next number; a deck with errors uses none.  A fault ends a request with everything
as it is at that moment.
-/

namespace EventDeck

/-- The sessions being played.  `chance` gives a session its source of chance, by its seed. -/
structure Service where
  settings : Settings
  chance : Option Int → Generator
  sessions : List Session := []
  created : Nat := 0
  now : Float := 0.0

/-- A request to the service. -/
abbrev Serve := ExceptT Fault (StateM Service)

/-- A request to create a session. -/
structure CreateRequest where
  deck : Deck
  seed : Option Int

/-- A request to select an action, or to go on without one. -/
structure SelectRequest where
  action : Option Int

/-- The shape of a request to create a session. -/
def CreateRequest.shape (refusal : Misfit) : Shape CreateRequest :=
  Shape.object refusal fun json =>
    CreateRequest.mk <$> Shape.field "deck" (Deck.shape refusal) json
      <*> Shape.optionalField ["seed"] (Shape.nullable Shape.int) none json

/-- The shape of a request to select an action. -/
def SelectRequest.shape (refusal : Misfit) : Shape SelectRequest :=
  Shape.object refusal fun json =>
    SelectRequest.mk <$> Shape.optionalField ["action_index"] (Shape.nullable Shape.int) none json

/-- The choice that a request means. -/
def SelectRequest.choice (request : SelectRequest) : Choice :=
  (request.action.map .action).getD .goOn

namespace Service

/-! ## Sessions -/

/-- The session of an identifier. -/
def find? (service : Service) (id : String) : Option Session :=
  service.sessions.find? (·.id = id)

/-- Puts a session in the place of the one with its identifier. -/
def replace (service : Service) (session : Session) : Service :=
  { service with sessions := service.sessions.map fun other =>
      if other.id = session.id then session else other }

/-- The identifiers of the sessions that can go on. -/
def active (service : Service) : List String :=
  (service.sessions.filter Session.isActive).map (·.id)

/-- Ends a session: the session as it is afterwards. -/
def finish (service : Service) (id : String) : Option Session × Service :=
  ((service.find? id).map fun session => { session with ended := true },
    { service with sessions := service.sessions.filter (·.id != id) })

/-- Ends all sessions that are older than an age in seconds, and says how many there were. -/
def finishStale (service : Service) (age : Float) : Nat × Service :=
  let stale (session : Session) : Bool := age < service.now - session.createdAt
  ((service.sessions.filter stale).length,
    { service with sessions := service.sessions.filter (!stale ·) })

/-- Makes a request to the game of a session. -/
def play {α : Type} (session : Session) (request : Play α) : Serve α := ExceptT.mk do
  let (result, game) := request.run.run session.game
  modify fun service => service.replace { session with game }
  return result

/-- Builds a session and takes it up among those being played. -/
def take (deck : Deck) (seed : Option Int) : Serve (Except (List String) Session) := do
  let service ← get
  match Session.buildGame deck service.settings (service.chance seed) with
  | .error (.invalidDeck errors) => return .error errors
  | .error (.fault fault) => throw fault
  | .ok game =>
    -- no number is given twice, whatever becomes of the sessions
    let number := service.created + 1
    let session : Session := {
      id := s!"session-{Decimal.integerText number}", deck, game, createdAt := service.now }
    set { service with sessions := service.sessions ++ [session], created := number }
    return .ok session

/-- Creates a session, and starts it if that is asked for: the session as it is then.  It is among
those being played before it is started. -/
def launch (request : CreateRequest) (starts : Bool) : Serve (Except (List String) Session) := do
  match ← take request.deck request.seed with
  | .error errors => return .error errors
  | .ok session =>
    if starts then
      play session do
        let _ ← Session.start Game.silent
        return .ok { session with game := ← get }
    else return .ok session

/-! ## Looking at a session -/

/-- Makes a request without reports. -/
def muted {α : Type} (request : Play α) : Play α := ExceptT.mk do
  modify fun game => { game with diagnostics := game.diagnostics.mute }
  let result ← request.run
  modify fun game => { game with diagnostics := game.diagnostics.unmute }
  return result

/-- How many of the latest diagnostics a client is shown. -/
def recentDiagnostics : Nat := 20

/-- A session as a client sees it. -/
def view (session : Session) : Play SessionView := do
  let (offers, availableControls) ← muted do
    return (← Game.choices, ← Game.availableControls)
  let game ← get
  return {
    id := session.id
    deckId := session.deck.id
    deckName := session.deck.name
    state := { session with game }.state
    phase := game.scheduler.phase
    inputOpen := game.scheduler.inputOpen
    turn := game.scheduler.turn
    current := game.scheduler.current.map game.catalog.card
    offers
    queueLength := game.catalog.queue.length
    poolSize := game.catalog.pool.length
    vars := game.store.vars
    availableControls
    diagnostics :=
      (Diagnostics.lastOf recentDiagnostics game.diagnostics.entries).map (·.text) }

/-- Makes a request to a session, if there is one. -/
def withSession (id : String) (request : Session → Play Response) : Serve Response := do
  match (← get).find? id with
  | none => return .error { error := s!"Session not found: {id}", code := .sessionNotFound }
  | some session => play session (request session)

/-! ## Requests of clients -/

/-- Creates a session, starts it and shows it. -/
def create (request : CreateRequest) : Serve Response := do
  match ← launch request true with
  | .error errors =>
    return .error {
      error := Deck.refusalMessage errors, code := .invalidDeck, deckErrors := some errors }
  | .ok session => play session do return .session (← view session)

/-- Shows a session. -/
def look (id : String) : Serve Response :=
  withSession id fun session => return .session (← view session)

/-- Is told that the current card has been revealed. -/
def reveal (id : String) : Serve Response :=
  withSession id fun session => do
    let _ ← Game.reveal
    return .session (← view session)

/-- Draws again after play has halted. -/
def advance (id : String) : Serve Response :=
  withSession id fun session => do
    let phase := (← get).scheduler.phase
    if phase = .idle || phase = .halted then
      let _ ← Game.advance
      return .session (← view session)
    else
      return .error {
        error := s!"Cannot advance while the scheduler is {phase.word}", code := .invalidState }

/-- Selects an action of the current card. -/
def select (id : String) (request : SelectRequest) : Serve Response :=
  withSession id fun session => do
    let result ← Game.select Game.silent request.choice
    match result.error with
    | some (code, message) =>
      return .error { error := message, code := .ofDiagnostic code }
    | none =>
      let catalog := (← get).catalog
      return .turn {
        card := result.card.map fun key => (catalog.card key).id
        title := result.title
        description := result.description
        effectsApplied := result.outcome.effectsApplied
        changes := result.outcome.changes
        warnings := result.warnings
        session := ← view session }

/-- Presses a control. -/
def press (id name : String) : Serve Response :=
  withSession id fun session => do
    let result ← Game.press Game.silent name
    match result.error with
    | some (_, message) => return .error { error := message, code := .unknownControl }
    | none =>
      return .control {
        control := name
        effectsApplied := result.outcome.effectsApplied
        changes := result.outcome.changes
        session := ← view session }

end Service

end EventDeck
