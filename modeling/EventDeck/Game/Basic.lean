import EventDeck.Catalog
import EventDeck.Control
import EventDeck.Diagnostics
import EventDeck.Request
import EventDeck.Settings
import EventDeck.Store

/-!
# The state of a game

A game has variables, cards, controls and a scheduler that presents one card after the other, and
all of them share one sink of diagnostics and one source of chance.  Requests run in `Play`: they
change the state, and a fault ends them with the state as it is at that moment.
-/

namespace EventDeck

/-- Where the scheduler stands. -/
inductive Phase
  | idle | checkingConditions | presenting | awaitingAction | resolving | reshuffling | halted
deriving DecidableEq, Repr

/-- The word for a phase. -/
def Phase.word : Phase → String
  | idle => "idle"
  | checkingConditions => "checking_conditions"
  | presenting => "presenting"
  | awaitingAction => "awaiting_action"
  | resolving => "resolving"
  | reshuffling => "reshuffling"
  | halted => "halted"

/-- The state of the scheduler.  `current` is the card being presented, `presented` every card
presented so far, the latest first. -/
structure Scheduler where
  phase : Phase := .idle
  inputOpen : Bool := false
  current : Option Nat := none
  turn : Nat := 0
  reshuffles : Nat := 0
  presented : List Nat := []

/-- What an observer was told. -/
structure Notice where
  observer : String
  change : Change

/-- The state of a game.  `observers` are all that were ever mentioned, `notices` is everything that
they were told, the latest first. -/
structure Game where
  settings : Settings
  diagnostics : Diagnostics
  store : Store
  generator : Generator
  catalog : Catalog
  panel : Panel
  scheduler : Scheduler := {}
  observers : List Observer := []
  notices : List Notice := []

/-- A request to a game. -/
abbrev Play := ExceptT Fault (StateM Game)

namespace Game

/-- A game with nothing in it. -/
def empty (settings : Settings) (diagnostics : Diagnostics) (generator : Generator) : Game where
  settings := settings
  diagnostics := diagnostics
  store := { epsilon := settings.epsilon }
  generator := generator
  catalog := ⟨#[], [], []⟩
  panel := []

/-! ## Changing one part -/

/-- Changes the store. -/
def changeStore (f : Store → Store) : Play Unit :=
  modify fun game => { game with store := f game.store }

/-- Changes the catalog. -/
def changeCatalog (f : Catalog → Catalog) : Play Unit :=
  modify fun game => { game with catalog := f game.catalog }

/-- Changes the scheduler. -/
def changeScheduler (f : Scheduler → Scheduler) : Play Unit :=
  modify fun game => { game with scheduler := f game.scheduler }

/-- Enters a phase. -/
def enter (phase : Phase) : Play Unit :=
  changeScheduler fun scheduler => { scheduler with phase }

/-- Changes the catalog with the help of chance. -/
def changeByChance (f : Catalog → Generator → Catalog × Generator) : Play Unit :=
  modify fun game =>
    let (catalog, generator) := f game.catalog game.generator
    { game with catalog, generator }

/-- Reports a problem. -/
def report (code : DiagnosticCode) (message : String) : Play Unit :=
  modify fun game => { game with diagnostics := game.diagnostics.report ⟨code, message⟩ }

/-- Draws a number of the half-open unit interval. -/
def drawUniform : Play Float :=
  modifyGet fun game =>
    let (u, generator) := game.generator.uniform
    (u, { game with generator })

/-- Draws a natural number below a positive bound. -/
def drawBelow (bound : Nat) : Play Nat :=
  modifyGet fun game =>
    let (n, generator) := game.generator.below bound
    (n, { game with generator })

end Game

end EventDeck
