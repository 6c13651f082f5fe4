import EventDeck.Terminal.Run

/-!
# The program

Reads the arguments, the environment and the file of the deck, and plays with whoever types at the
terminal.
-/

namespace EventDeck.Terminal

/-- How the program is used. -/
def usage : String :=
  lines ["usage: omen [-h] [--log-level LOG_LEVEL] command ...", "",
    "  validate deck_file                              check a deck",
    "  play deck_file [--seed SEED] [--turns TURNS]    play a deck in the terminal"]

/-- The names that settings have in the environment. -/
def settingNames : List String :=
  ["OMEN_SENTINEL_NAME", "OMEN_CONTINUE_LABEL", "OMEN_REVEAL_DELAY", "OMEN_AUTO_REVEAL",
    "OMEN_LOG_LEVEL"]

/-- The settings in the environment of the program. -/
def readEnvironment : IO (List (String × String)) :=
  settingNames.filterMapM fun name => do return (← IO.getEnv name).map (name, ·)

/-- The text of a file, if there is one.  Bytes that are no text are no deck either. -/
def readFile (path : String) : IO (Option String) := do
  try
    let bytes ← IO.FS.readBinFile path
    return some ((String.fromUTF8? bytes).getD "")
  catch
    | .noFileOrDirectory .. => return none
    | failure => throw failure

/-- The text of the file that the arguments name.  It is looked at when the settings have been read. -/
def readDeckFile (environment : String → Option String) (arguments : List String) :
    IO (Option String) :=
  match Arguments.ofList arguments, Settings.ofEnvironment environment with
  | .ok { task := some task, .. }, .ok _ => readFile task.path
  | _, _ => return none

/-- A place inside a deck, in words. -/
def placeText (path : List PathStep) : String :=
  ".".intercalate (path.map fun
    | .field name => name
    | .item index => Decimal.integerText index)

/-- Why a text is no deck, in words. -/
def reasonText : Unreadable → String
  | .malformed place => s!" malformed at character {Decimal.integerText place}"
  | .tooManyDigits => " an integer has too many digits"
  | .misshapen errors =>
    String.join (errors.map fun e => s!"\n  {placeText e.path}: {e.misfit.word}")

/-- Says what is said at the end. -/
def finish (output : IO.FS.Stream) (game : Game) : IO (Except Fault Unit) := do
  match (closing.run.run game).1 with
  | .error fault => return .error fault
  | .ok text =>
    output.putStr text
    return .ok ()

/-- Plays until an entry, the end of the input or a fault ends it. -/
partial def converse (input output : IO.FS.Stream) (turns : Option Int) (game : Game) :
    IO (Except Fault Unit) := do
  let (shown, game) := (ask turns).run.run game
  match shown with
  | .error fault => return .error fault
  | .ok none => finish output game
  | .ok (some text) =>
    output.putStr text
    output.flush
    let line ← input.getLine
    if line.isEmpty then finish output game
    else
      let (said, game) := (enter line).run.run game
      match said with
      | .error fault => return .error fault
      | .ok none => finish output game
      | .ok (some text) =>
        output.putStr text
        converse input output turns game

/-- The status after a fault, which is shown. -/
def showFault (fault : Fault) : IO UInt32 := do
  IO.eprintln fault.message
  return 1

end EventDeck.Terminal

open EventDeck Terminal

/-- Runs the program. -/
def main (arguments : List String) : IO UInt32 := do
  let found ← readEnvironment
  let environment (name : String) : Option String := found.lookup name
  let file ← readDeckFile environment arguments
  let seed ← IO.rand 0 (Twister.wordValues - 1)
  let surroundings : Surroundings := {
    environment
    file := fun _ => file
    chance := fun given => .ofSeed (given.getD seed)
    wording := reasonText }
  match begin surroundings arguments with
  | .error fault => showFault fault
  | .ok (.error (.usage status)) =>
    if status = 2 then IO.eprint usage else IO.print usage
    return status.toUInt32
  | .ok (.error (.output status text)) =>
    IO.print text
    return status.toUInt32
  | .ok (.ok table) =>
    IO.print table.greeting
    match ← converse (← IO.getStdin) (← IO.getStdout) table.turns table.game with
    | .error fault => showFault fault
    | .ok () => return 0
