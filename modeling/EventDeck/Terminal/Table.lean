import EventDeck.Session
import EventDeck.Terminal.Entry

/-!
# Playing at the terminal

Before each entry the player is shown the variables, the current card, what can be chosen and which
controls can be pressed.  Play ends when nothing can be drawn, after a number of turns, when the
player leaves, or at the end of the input.
-/

namespace EventDeck.Terminal

open Game

/-- Lines of text, each with its end. -/
def lines (list : List String) : String :=
  String.join (list.map (· ++ "\n"))

/-- The lines of a text; the last one may lack its end. -/
def linesOf (text : String) : List String :=
  let parts := text.splitOn "\n"
  if parts.getLast? = some "" then parts.dropLast else parts

/-- What the player is asked with. -/
def prompt : String := "> "

/-! ## Showing a card -/

/-- The variables on one line. -/
def variablesLine (vars : List Variable) : String :=
  "  ".intercalate (vars.map fun v => s!"{v.name}={Decimal.briefText v.value}")

/-- The key for an offer. -/
def offerKey (offer : Offer) : String :=
  match offer.action with
  | some index => Decimal.integerText index
  | none => "c"

/-- An offer with its key. -/
def offerLine (offer : Offer) : String :=
  let marker := if offer.available then "" else " (unavailable)"
  s!"  [{offerKey offer}] {offer.description}{marker}"

/-- The controls that can be pressed, if there are any. -/
def controlLines (names : List String) : List String :=
  if names.isEmpty then []
  else ["  controls: " ++ ", ".intercalate (names.map ("!" ++ ·))]

/-- A card with what is written on it. -/
def cardLines (card : Card) : List String :=
  s!"== {card.title} ==" :: if card.description.isEmpty then [] else [card.description]

/-- What the player is shown before an entry. -/
def scene : Play String := do
  let game ← get
  let card := (game.scheduler.current.map game.catalog.card).map cardLines
  let offers ← choices
  let controls ← availableControls
  return lines (["", variablesLine game.store.vars] ++ card.getD [] ++
    offers.map offerLine ++ controlLines controls)

/-! ## Entries -/

/-- What came of a turn. -/
def turnLines (result : TurnResult) : List String :=
  match result.error with
  | some (_, message) => [message]
  | none => result.outcome.changes.map ("  * " ++ ·) ++ result.warnings.map ("  ! " ++ ·)

/-- Does what the player wants and says what came of it; nothing when the player leaves. -/
def respond : Entry → Play (Option String)
  | .leave => return none
  | .press control => do
    let result ← press silent control
    return some (lines ((result.error.map (·.2)).toList))
  | .choose choice => return some (lines (turnLines (← select silent choice)))
  | .unknown text => return some (lines [s!"Unknown input: {text}"])

/-- Whether play goes on: something was drawn, and not all turns have been played. -/
def goesOn (turns : Option Int) : Play Bool := do
  let scheduler := (← get).scheduler
  return scheduler.phase != .halted && turns.all fun limit => (scheduler.turn : Int) < limit

/-- What is said at the end. -/
def closing : Play String := do
  let scheduler := (← get).scheduler
  return lines ((if scheduler.phase = .halted then ["", "No events left to draw."] else []) ++
    [s!"Turns played: {Decimal.integerText scheduler.turn}"])

/-- What is shown before an entry, or nothing at the end of play. -/
def ask (turns : Option Int) : Play (Option String) := do
  if ← goesOn turns then return some ((← scene) ++ prompt) else return none

/-- Does what a line of input says; nothing when the player leaves. -/
def enter (line : String) : Play (Option String) := do
  respond (← Entry.ofLine line)

/-! ## Whole plays -/

/-- Plays with all lines of the input, after what has been written. -/
def rounds (turns : Option Int) (written : String) : List String → Play String
  | [] => do return written ++ (← ask turns).getD ""
  | line :: rest => do
    match ← ask turns with
    | none => return written
    | some shown =>
      match ← enter line with
      | none => return written ++ shown
      | some said => rounds turns (written ++ shown ++ said) rest

/-- A whole play, after what has been written. -/
def play (turns : Option Int) (written : String) (input : List String) : Play String := do
  return (← rounds turns written input) ++ (← closing)

end EventDeck.Terminal
