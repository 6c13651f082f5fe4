import EventDeck.Command
import EventDeck.Game.Basic

/-!
# Running deck commands

A command works on the catalog.  The card that is being resolved is the first of the queue.  A
command that cannot be read, or that names an event without a card in the state it needs, is
reported and changes nothing.
-/

namespace EventDeck

/-- What came of a command.  `changes` says in words what was done. -/
structure CommandResult where
  command : Option Command
  error : Option (DiagnosticCode × String) := none
  changes : List String := []

/-- Whether a command was carried out. -/
def CommandResult.success (result : CommandResult) : Bool :=
  result.error.isNone

namespace Game

/-! ## Results -/

/-- A command that was carried out. -/
def applied (command : Command) (change : String) : Play CommandResult :=
  return { command := some command, changes := [change] }

/-- A command that was not carried out, with a report. -/
def refused (command : Option Command) (code : DiagnosticCode) (message : String) :
    Play CommandResult := do
  report code message
  return { command, error := some (code, message) }

/-- A command that names an event without a card in the state it needs. -/
def missing (command : Command) (name state : String) : Play CommandResult :=
  refused command .missingEventLookup s!"Cannot find an event named '{name}' ({state})"

/-- The identifier of a card. -/
def idOf (key : Nat) : Play String := do
  return ((← get).catalog.card key).id

/-! ## Commands -/

/-- Removes the first card of the queue from the game. -/
def runDestroy (command : Command) : Play CommandResult := do
  match (← get).catalog.head? with
  | none =>
    refused command .missingEventLookup "destroy: there is no event being resolved"
  | some key =>
    changeCatalog (·.destroy key)
    applied command s!"Destroyed {← idOf key}"

/-- Activates an inactive card and puts it at a random place behind the first card of the queue.  A
card that is itself the first of the queue stays there. -/
def runAdd (command : Command) (name : String) : Play CommandResult := do
  match (← get).catalog.findInactive? name with
  | none => missing command name "inactive"
  | some key =>
    changeCatalog (·.setActive key true)
    if (← get).catalog.head? = some key then applied command s!"Activated {← idOf key}"
    else
      -- an inactive card may be queued all the same
      changeCatalog (·.dequeue key)
      let length := (← get).catalog.queue.length
      -- never in front of the card that is being resolved
      let place : Nat ← if length = 0 then pure 0 else (· + 1) <$> drawBelow length
      changeCatalog (·.insertAt key place)
      applied command s!"Added {← idOf key} at position {Decimal.integerText place}"

/-- Deactivates a queued active card and takes it out of the queue. -/
def runRemove (command : Command) (name : String) : Play CommandResult := do
  match (← get).catalog.findQueued? name with
  | none => missing command name "active queued"
  | some key =>
    changeCatalog fun catalog => (catalog.setActive key false).dequeue key
    applied command s!"Removed {← idOf key}"

/-- Activates an inactive card. -/
def runActivate (command : Command) (name : String) : Play CommandResult := do
  match (← get).catalog.findInactive? name with
  | none => missing command name "inactive"
  | some key =>
    changeCatalog (·.setActive key true)
    applied command s!"Activated {← idOf key}"

/-- Deactivates an active card. -/
def runDeactivate (command : Command) (name : String) : Play CommandResult := do
  match (← get).catalog.findActive? name with
  | none => missing command name "active"
  | some key =>
    changeCatalog (·.setActive key false)
    applied command s!"Deactivated {← idOf key}"

/-- Puts a card right behind the first of the queue; a card that is queued further down is moved. -/
def runChain (command : Command) (name : String) : Play CommandResult := do
  match (← get).catalog.findFirst? name with
  | none => missing command name "any"
  | some key =>
    let catalog := (← get).catalog
    if catalog.queue.isEmpty then
      refused command .missingEventLookup s!"chain: cannot chain '{name}' onto an empty queue"
    else
      -- the first card is left in front, and is queued a second time
      unless catalog.head? = some key do changeCatalog (·.dequeue key)
      changeCatalog (·.insertAt key 1)
      applied command s!"Chained {← idOf key}"

/-- Chains one of two cards; the first when a number drawn below one hundred is below the percent. -/
def runRandomChain (command : Command) (first second : String) (percent : Float) :
    Play CommandResult := do
  let roll ← drawBelow 100
  runChain command (if Float.ofNat roll < percent then first else second)

/-- Carries out a command. -/
def execute (command : Command) : Play CommandResult :=
  match command with
  | .destroy => runDestroy command
  | .add name => runAdd command name
  | .remove name => runRemove command name
  | .activate name => runActivate command name
  | .deactivate name => runDeactivate command name
  | .chain name => runChain command name
  | .randomChain first second percent => runRandomChain command first second percent

/-- Reads and carries out a special effect. -/
def runSpecial (text : String) : Play CommandResult :=
  match Command.parse text with
  | .ok command => execute command
  | .error e => refused none .unknownCommand e.message

end Game

end EventDeck
