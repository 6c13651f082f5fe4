import EventDeck.Game.Turn

/-!
# The console of a game

A console answers requests to a running game one by one.  Observers react to what they are told by
requests of their own, which may lead to more reactions; the depth to which reactions may set each
other off is bounded, and going beyond it is a fault.
-/

namespace EventDeck

/-- The cards that a search for an event finds. -/
structure Found where
  all : List Nat
  first : Option Nat
  inactive : Option Nat
  active : Option Nat
  queued : Option Nat

/-- The answer to a request. -/
inductive Reply
  | nothing
  | number (x : Float)
  | integer (n : Int)
  | flag (b : Bool)
  | text (s : String)
  | texts (list : List String)
  | phase (phase : Phase)
  | place (place : Variable.Place)
  | variable (v : Option Variable)
  | snapshot (vars : List Variable)
  | overview (head : Option Nat) (remaining : Nat) (events : List String)
  | found (cards : Found)
  | command (result : CommandResult)
  | controls (controls : List Control)
  | control (control : Option Control) (available : Bool)
  | pressed (result : ControlResult)
  | actions (indices : List Nat)
  | offers (offers : List Offer)
  | turn (result : TurnResult)

namespace Console

open Game

/-! ## Observers -/

/-- Remembers an observer with its reaction, unless it is known. -/
def introduce (id : String) (reaction : List Request) : Play Unit :=
  modify fun game =>
    if game.observers.any (·.id = id) then game
    else { game with observers := game.observers ++ [{ id, reaction }] }

/-- The reaction of an observer. -/
def reactionOf (id : String) : Play (List Request) := do
  return (((← get).observers.find? (·.id = id)).map (·.reaction)).getD []

/-- Tells an observer about a change: it takes note of it and then makes its own requests. -/
def react (run : Request → Play Reply) : Tell := fun id change => do
  modify fun game => { game with notices := ⟨id, change⟩ :: game.notices }
  for request in ← reactionOf id do
    let _ ← run request

/-! ## Cards -/

/-- The card with an identifier; the last one if there are several. -/
def keyOf? (catalog : Catalog) (id : String) : Option Nat :=
  (List.range catalog.cards.size).reverse.find? fun key => (catalog.card key).id = id

/-- Asks something about the catalog. -/
def ask (question : Catalog → Reply) : Play Reply := do
  return question (← get).catalog

/-- Asks something about a card. -/
def askCard (id : String) (question : Catalog → Nat → Reply) : Play Reply := do
  let catalog := (← get).catalog
  return ((keyOf? catalog id).map (question catalog)).getD .nothing

/-- Changes the catalog by something done to a card, and answers with something that was true of the
card before. -/
def changeCard (id : String) (change : Catalog → Nat → Catalog)
    (reply : Catalog → Nat → Reply := fun _ _ => .nothing) : Play Reply := do
  let catalog := (← get).catalog
  match keyOf? catalog id with
  | none => return .nothing
  | some key =>
    changeCatalog (change · key)
    return reply catalog key

/-- Sets those flags of a card that are given. -/
def setFlags (active discarded : Option Bool) (catalog : Catalog) (key : Nat) : Catalog :=
  let catalog := (active.map (catalog.setActive key)).getD catalog
  (discarded.map (catalog.setDiscarded key)).getD catalog

/-- All searches for an event. -/
def search (name : String) (catalog : Catalog) : Reply :=
  .found {
    all := catalog.findAll name
    first := catalog.findFirst? name
    inactive := catalog.findInactive? name
    active := catalog.findActive? name
    queued := catalog.findQueued? name }

/-! ## Requests -/

/-- Answers a request, given how observers are told about changes. -/
def respond (tell : Tell) : Request → Play Reply
  | .define name value max => do
    changeStore (·.define name value max)
    return .variable ((← get).store.find? name)
  | .set name value => .number <$> setVariable tell name value
  | .get name => .number <$> valueOf name
  | .has name => do return .flag ((← get).store.has name)
  | .lookup name => do return .variable ((← get).store.find? name)
  | .place value max => return .place (Variable.place { name := "", max } value)
  | .names => do return .texts (← get).store.names
  | .snapshot => do return .snapshot (← get).store.vars
  | .subscribe name observer reaction => do
    introduce observer reaction
    changeStore (·.subscribe name observer)
    return .nothing
  | .unsubscribe name observer reaction => do
    introduce observer reaction
    changeStore (·.unsubscribe name observer)
    return .nothing
  | .broadcast => do
    broadcast tell
    return .nothing
  | .evaluate text => .number <$> evaluate tell text
  | .constant x => return .number x
  | .evaluateCondition text => .flag <$> evaluateCondition text
  | .holds condition => .flag <$> holds condition
  | .substitute text => do return .text (String.ofList (← substitute text.toList))
  | .randomBetween low high => .integer <$> randomBetween low high
  | .overview => ask fun catalog => .overview catalog.head? catalog.queue.length catalog.eventNames
  | .isQueued card => askCard card fun catalog key => .flag (catalog.queue.contains key)
  | .isPooled card => askCard card fun catalog key => .flag (catalog.pool.contains key)
  | .enqueue card => changeCard card Catalog.enqueue
  | .dequeue card => changeCard card Catalog.dequeue fun old key => .flag (old.queue.contains key)
  | .destroy card => changeCard card Catalog.destroy fun old key => .flag (old.pool.contains key)
  | .insertAt card place => changeCard card fun catalog key => catalog.insertAt key place
  | .setFlags card active discarded => changeCard card (setFlags active discarded)
  | .hasEvent name => ask fun catalog => .flag (catalog.findFirst? name).isSome
  | .find name => ask (search name)
  | .clearQueue => do
    changeCatalog (·.clearQueue)
    return .nothing
  | .shufflePool => do
    changeByChance Catalog.shufflePool
    return .nothing
  | .shuffleQueue => do
    changeByChance Catalog.shuffleQueue
    return .nothing
  | .runSpecial text => .command <$> runSpecial text
  | .controls => do return .controls (← get).panel
  | .control name => do
    let control := (← get).panel.get? name
    return .control control (← controlAvailable name)
  | .availableControls => .texts <$> availableControls
  | .press name => .pressed <$> press tell name
  | .start => do
    broadcast tell
    .phase <$> advance
  | .advance => .phase <$> advance
  | .checkConditions => do
    checkConditions
    return .nothing
  | .reshuffle => .flag <$> reshuffle
  | .reveal => .flag <$> reveal
  | .availableActions => .actions <$> availableActions
  | .choices => .offers <$> choices
  | .select choice => .turn <$> select tell choice

/-- Answers a request; reactions may set each other off to a depth. -/
def answer : Nat → Request → Play Reply
  | 0 => respond fun _ _ => throw .endlessReaction
  | depth + 1 => respond (react (answer depth))

/-- How deep reactions may set each other off. -/
def reactionDepth : Nat := 1000

/-- Answers a request to a game. -/
def run (request : Request) : Play Reply :=
  answer reactionDepth request

end Console

end EventDeck
