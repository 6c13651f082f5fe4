import EventDeck.Console
import EventDeck.Deck.Validation

/-!
# Sessions

A session is one play of a deck.  It is built from a deck without errors: the variables are
declared, the cards are dealt and shuffled, and the controls are put up.  It has started once its
observers were told the first values and the first card was drawn.
-/

namespace EventDeck

/-- Why no session can be built. -/
inductive BuildError
  | invalidDeck (errors : List String)
  | fault (fault : Fault)

/-- Where a session stands. -/
inductive SessionState
  | created | active | halted | ended
deriving DecidableEq, Repr

/-- The word for the state of a session. -/
def SessionState.word : SessionState → String
  | created => "created"
  | active => "active"
  | halted => "halted"
  | ended => "ended"

/-- One play of a deck. -/
structure Session where
  id : String
  deck : Deck
  game : Game
  createdAt : Float := 0.0
  ended : Bool := false

namespace Session

/-- A game with declared variables. -/
def declare (game : Game) (declarations : List Declaration) : Game :=
  let define (store : Store) (d : Declaration) : Store := store.define d.name d.value d.max
  { game with store := declarations.foldl define game.store }

/-- The game of a deck. -/
def buildGame (deck : Deck) (settings : Settings) (generator : Generator) :
    Except BuildError Game := do
  let errors := deck.findings.errors
  unless errors.isEmpty do throw (.invalidDeck errors)
  let diagnostics ← (Diagnostics.withLimit settings.diagnosticsLimit).mapError .fault
  let (catalog, generator) := Catalog.ofTemplates deck.templates generator
  -- the game goes on with the source of chance as the shuffles have left it
  let game := declare (Game.empty settings diagnostics generator) deck.declarations
  return { game with catalog, panel := Panel.ofList deck.buttons }

/-- Where a session stands. -/
def state (session : Session) : SessionState :=
  if session.ended then .ended
  else match session.game.scheduler.phase with
    | .idle => .created
    | .halted => .halted
    | _ => .active

/-- Whether a session can go on. -/
def isActive (session : Session) : Bool :=
  session.state != .ended

/-- Starts a session: observers are told the first values, and the first card is drawn. -/
def start (tell : Game.Tell) : Play Phase := do
  Game.broadcast tell
  Game.advance

end Session

end EventDeck
