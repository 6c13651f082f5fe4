import EventDeck.Game.Effects

/-!
# The scheduler

In one turn the conditions of the cards are checked, the first card of the queue is presented, it is
revealed, one of its actions is chosen and resolved, and the card is discarded.  When the queue is
empty it is rebuilt from the active cards; when nothing can be drawn even then, play halts.

Input is open only between the reveal and the choice.
-/

namespace EventDeck

/-- A choice as it is offered. -/
structure Offer where
  /-- The index of the action, or nothing for going on without one. -/
  action : Option Nat
  description : String
  available : Bool

/-- What came of a selected choice. -/
structure TurnResult where
  phase : Phase
  error : Option (DiagnosticCode × String) := none
  card : Option Nat := none
  title : Option String := none
  description : Option String := none
  outcome : Outcome := {}
  warnings : List String := []

/-- Whether the selection was accepted. -/
def TurnResult.success (result : TurnResult) : Bool :=
  result.error.isNone

namespace Game

/-! ## Drawing -/

/-- Brings a card into the queue or out of it, as its condition says.  Discarded cards and cards
without a condition stay where they are. -/
def checkCondition (key : Nat) : Play Unit := do
  let card := (← get).catalog.card key
  if card.discarded || Text.isBlankText card.condition then return
  let wanted ← evaluateCondition card.condition
  let queued := (← get).catalog.queue.contains key
  if wanted && !queued then changeCatalog (·.enqueue key)
  else if !wanted && queued then changeCatalog (·.dequeue key)

/-- Checks the conditions of all cards in the pool. -/
def checkConditions : Play Unit := do
  for key in (← get).catalog.pool do
    checkCondition key

/-- Brings an active card back into the queue. -/
def restore (catalog : Catalog) (key : Nat) : Catalog :=
  if catalog.active key then (catalog.setDiscarded key false).enqueue key else catalog

/-- The queue before the active cards come back: the inactive sentinel alone, if there is one. -/
def sentinelFirst (sentinel : String) (catalog : Catalog) : Catalog :=
  match catalog.findInactive? sentinel with
  | some key => catalog.clearQueue.enqueue key
  | none => catalog.clearQueue

/-- Rebuilds the queue: the sentinel, and all active cards in a new order.  Whether there are any. -/
def reshuffle : Play Bool := do
  enter .reshuffling
  changeScheduler fun scheduler => { scheduler with reshuffles := scheduler.reshuffles + 1 }
  let sentinel := (← get).settings.sentinelName
  changeCatalog (sentinelFirst sentinel)
  changeByChance Catalog.shufflePool
  -- behind the sentinel, in the order of the shuffled pool
  changeCatalog fun catalog => catalog.pool.foldl restore catalog
  if (← get).catalog.queue.isEmpty then
    report .emptyDeckAfterReshuffle "There are no active events even after the reshuffle"
    return false
  else return true

/-- Opens input for the card that is being presented; otherwise nothing happens. -/
def reveal : Play Bool := do
  if (← get).scheduler.phase = .presenting then
    changeScheduler fun scheduler => { scheduler with inputOpen := true, phase := .awaitingAction }
    return true
  else return false

/-- Presents a card. -/
def present (key : Nat) : Play Unit := do
  changeScheduler fun scheduler =>
    { scheduler with
      current := some key, inputOpen := false, phase := .presenting
      presented := key :: scheduler.presented }
  if (← get).settings.autoReveal then
    let _ ← reveal

/-- Stops play until it is advanced again. -/
def halt : Play Unit :=
  changeScheduler fun scheduler =>
    { scheduler with current := none, inputOpen := false, phase := .halted }

/-- Checks conditions and presents the first card of the queue.  Whether there was one. -/
def draw : Play Bool := do
  enter .checkingConditions
  checkConditions
  match (← get).catalog.head? with
  | some key =>
    present key
    return true
  | none => return false

/-- Moves on to the next card, with at most one reshuffle. -/
def advance : Play Phase := do
  unless ← draw do
    -- only one reshuffle: conditions that hold for no card would let it go on for ever
    if ← reshuffle then
      unless ← draw do halt
    else halt
  return (← get).scheduler.phase

/-! ## Choosing -/

/-- The actions of the current card. -/
def currentActions : Play (List Action) := do
  let game ← get
  match game.scheduler.current with
  | none => return []
  | some key => return (game.catalog.card key).actions

/-- The indices of the actions of the current card whose conditions hold. -/
def availableActions : Play (List Nat) := do
  let actions ← currentActions
  return (← actions.zipIdx.filterM fun (action, _) => holds action.condition).map (·.2)

/-- What the player is offered: every action of the current card, and going on without one when
none of them is available. -/
def choices : Play (List Offer) := do
  if (← get).scheduler.current.isNone then return []
  let available ← availableActions
  let actions := (← currentActions).zipIdx.map fun (action, index) =>
    { action := some index, description := action.description,
      available := available.contains index : Offer }
  if available.isEmpty then
    let label := (← get).settings.continueLabel
    return actions ++ [{ action := none, description := label, available := true }]
  else return actions

/-- A choice that is not accepted, with a report. -/
def invalid (message : String) : Play TurnResult := do
  report .invalidAction message
  let scheduler := (← get).scheduler
  return { phase := scheduler.phase, card := scheduler.current,
           error := some (.invalidAction, message) }

/-- The action that a choice means among the available ones: none for going on without one. -/
def chosen (choice : Choice) (actions : List Action) (available : List Nat) :
    Except String (Option Action) :=
  if choice = .goOn then
    if available.isEmpty then .ok none
    else .error "Continue is only offered when no action is available"
  else
    let action? := choice.index?.bind fun index =>
      if available.any fun n => (n : Int) = index then actions[index.toNat]? else none
    match action? with
    | some action => .ok (some action)
    | none => .error s!"Action {choice.text} is not available"

/-- Discards a card after it has been resolved. -/
def discard (key : Nat) : Play Unit := do
  changeCatalog fun catalog => (catalog.setDiscarded key true).dequeue key
  changeScheduler fun scheduler => { scheduler with turn := scheduler.turn + 1, current := none }

/-- Resolves the current card with an action, or without one, and moves on. -/
def resolve (tell : Tell) (key : Nat) (action : Option Action) (mark : Nat) : Play TurnResult := do
  changeScheduler fun scheduler => { scheduler with inputOpen := false, phase := .resolving }
  -- what the card says is read before its effects are carried out
  let game ← get
  let outcome ← match action with
    | some action => runEffects tell action.effects action.specials
    | none => pure {}
  discard key
  let phase ← advance
  return {
    phase
    card := some key
    title := some (game.catalog.card key).title
    description := some ((action.map (·.description)).getD game.settings.continueLabel)
    outcome
    warnings := ((← get).diagnostics.since mark).map (·.text) }

/-- The answer while input is blocked. -/
def blocked (scheduler : Scheduler) : TurnResult :=
  { phase := scheduler.phase, error := some (.inputBlocked, "Input is blocked") }

/-- Selects a choice for the current card.  While input is blocked nothing happens. -/
def select (tell : Tell) (choice : Choice) : Play TurnResult := do
  let scheduler := (← get).scheduler
  match scheduler.current with
  | some key =>
    if scheduler.inputOpen && scheduler.phase = .awaitingAction then
      -- the warnings are what is reported from here on
      let mark := (← get).diagnostics.mark
      let available ← availableActions
      match chosen choice (← currentActions) available with
      | .ok action => resolve tell key action mark
      | .error message => invalid message
    else return blocked scheduler
  | none => return blocked scheduler

end Game

end EventDeck
