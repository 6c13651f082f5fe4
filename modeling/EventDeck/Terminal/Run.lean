import EventDeck.Deck.Reader
import EventDeck.Json.Reader
import EventDeck.Service.Basic
import EventDeck.Terminal.Arguments
import EventDeck.Terminal.Table

/-!
# The command line

A run of the program: its arguments are read, then the environment, then the file of the deck; the
deck is checked, or a session of it is played.
-/

namespace EventDeck.Terminal

/-- Why a text is no deck. -/
inductive Unreadable
  /-- It is not JSON from a character on. -/
  | malformed (place : Nat)
  /-- It has an integer of too many digits. -/
  | tooManyDigits
  /-- It is JSON of another shape. -/
  | misshapen (errors : List ShapeError)

/-- What a run can see and draw on, and the words in which it says why a text is no deck. -/
structure Surroundings where
  environment : String → Option String
  /-- The text of a file, if there is one. -/
  file : String → Option String
  chance : Option Int → Generator
  wording : Unreadable → String := fun _ => ""

/-- How a run ends: with its output, or with an account of how the program is used. -/
inductive Ending
  | usage (status : Nat)
  | output (status : Nat) (text : String)

/-! ## Decks -/

/-- Reads the text of a deck. -/
def deckOfText (text : String) : Except Unreadable Deck := do
  let json ← (Json.readAll text.toList).mapError fun
    | .malformed left => .malformed (text.length - left)
    | .tooManyDigits => .tooManyDigits
  (Deck.ofJson json).mapError .misshapen

/-- Reads the file of a deck. -/
def loadDeck (surroundings : Surroundings) (path : String) : Except Ending Deck :=
  match surroundings.file path with
  | none => .error (.output 1 (lines [s!"Error: File not found: {path}"]))
  | some text => (deckOfText text).mapError fun reason =>
    .output 1 (lines [s!"Error: Cannot parse {path}:" ++ surroundings.wording reason])

/-- The lines of a list under its heading, if there are any. -/
def itemized (heading : String) (items : List String) : List String :=
  if items.isEmpty then [] else ["", heading] ++ items.map ("  - " ++ ·)

/-- What is said about a deck. -/
def deckLines (deck : Deck) : List String :=
  let findings := deck.findings
  let count {α : Type} (items : List α) : String := Decimal.integerText items.length
  [s!"Deck: {deck.title}", s!"Variables: {count deck.declarations}",
      s!"Events: {count deck.events}", s!"Controls: {count deck.controls}"] ++
    itemized "Warnings:" findings.warnings ++ itemized "Errors:" findings.errors ++
    if deck.valid then ["", "Deck is valid"] else []

/-- Checks a deck. -/
def validate (deck : Deck) : Ending :=
  .output (if deck.valid then 0 else 1) (lines (deckLines deck))

/-! ## Sessions -/

/-- A session that is about to be played, and what is said at its start. -/
structure Table where
  game : Game
  turns : Option Int
  greeting : String

/-- Sets up a session of a deck. -/
def setTable (surroundings : Surroundings) (settings : Settings) (deck : Deck)
    (seed turns : Option Int) : Except Fault (Except Ending Table) := do
  let service : Service := {
    settings := { settings with autoReveal := true }, chance := surroundings.chance }
  match ← ((Service.launch ⟨deck, seed⟩ true).run.run service).1 with
  | .error errors =>
    let message := s!"Error: {Deck.refusalMessage errors}"
    return .error (.output 1 (lines (message :: errors.map ("  - " ++ ·))))
  | .ok session =>
    return .ok {
      game := session.game, turns
      greeting := lines [s!"Playing {deck.title} (session {session.id})"] }

/-! ## Runs -/

/-- Does everything up to the first entry of a player: there is an ending, or a table is set. -/
def begin (surroundings : Surroundings) (arguments : List String) :
    Except Fault (Except Ending Table) := do
  match Arguments.ofList arguments with
  | .error .help => return .error (.usage 0)
  | .error .refused => return .error (.usage 2)
  | .ok read =>
    let settings ← Settings.ofEnvironment surroundings.environment
    match read.task with
    | none => return .error (.usage 1)
    | some task =>
      match loadDeck surroundings task.path with
      | .error ending => return .error ending
      | .ok deck =>
        match task with
        | .validate _ => return .error (validate deck)
        | .play _ seed turns => setTable surroundings settings deck seed turns

/-- A whole run with all lines of the input. -/
def run (surroundings : Surroundings) (arguments input : List String) : Except Fault Ending := do
  match ← begin surroundings arguments with
  | .error ending => return ending
  | .ok table =>
    let text ← ((play table.turns table.greeting input).run.run table.game).1
    return .output 0 text

end EventDeck.Terminal
