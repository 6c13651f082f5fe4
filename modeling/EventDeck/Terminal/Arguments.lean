import EventDeck.Decimal.Integer
import EventDeck.Terminal.Options

/-!
# Arguments

A command line names a task, checking a deck or playing it, and the file of the deck.  Options for
all tasks come before the name of the task, options of the task behind it.  Something that is not
understood is refused, but only after everything behind it has been read: help that is asked for
further on is given.
-/

namespace EventDeck.Terminal

/-- What is to be done. -/
inductive Task
  /-- Checks a deck. -/
  | validate (path : String)
  /-- Plays a deck, with a seed for chance and for a number of turns at most. -/
  | play (path : String) (seed turns : Option Int)

/-- The file of a task's deck. -/
def Task.path : Task → String
  | validate path => path
  | play path _ _ => path

/-- The arguments of a command line. -/
structure Arguments where
  logLevel : Option String := none
  task : Option Task := none

/-! ## The arguments of a task -/

/-- What has been read of the arguments of a task: its words, the values of its options, the latest
first, and whether something was not understood. -/
structure Found where
  words : List String := []
  values : List (Flag × String) := []
  strange : Bool := false

namespace Found

/-- One more word. -/
def addWord (found : Found) (text : String) : Found :=
  { found with words := found.words ++ [text] }

/-- What was found with everything behind a double hyphen, which has to be next to the only word. -/
def addAll (found : Found) (nextToWord : Bool) (rest : List Piece) : Found :=
  match rest with
  | [] => { found with strange := found.strange || !nextToWord }
  | _ => rest.foldl (fun found piece =>
      match piece with
      | .word text => found.addWord text
      | _ => found) found

/-- The value of an option. -/
def value? (found : Found) (name : String) : Option String :=
  (found.values.find? fun (flag, _) => flag.names.contains name).map (·.2)

/-- The only word, if everything was understood. -/
def onlyWord (found : Found) : Except Stop String :=
  match found.words, found.strange with
  | [word], false => .ok word
  | _, _ => .error .refused

end Found

/-- Reads words and options in any order.  `nextToWord` says that the argument before was a word. -/
def readFound (found : Found) (nextToWord : Bool) (pieces : List Piece) : Except Stop Found :=
  match pieces with
  | [] => .ok found
  | .word text :: rest => readFound (found.addWord text) true rest
  | .separator :: rest => .ok (found.addAll nextToWord rest)
  | .unknown :: rest => readFound { found with strange := true } false rest
  | .flag flag value :: rest =>
    match h : takeValue flag value rest with
    | .error stop => .error stop
    | .ok (text, left) =>
      have := length_le_of_takeValue h
      readFound { found with values := (flag, text) :: found.values } false left
termination_by pieces.length
decreasing_by all_goals simp only [List.length_cons] at *; omega

/-! ## Tasks -/

/-- An option with a whole number. -/
def integerFlag (name : String) : Flag :=
  ⟨[name], .value fun text => (Decimal.typedInteger text).toOption.isSome⟩

/-- The whole number that is given by an option. -/
def Found.integer? (found : Found) (name : String) : Option Int :=
  (found.value? name).bind fun text => (Decimal.typedInteger text).toOption

/-- The options of playing. -/
def playFlags : List Flag :=
  [.help, integerFlag "--seed", integerFlag "--turns"]

/-- Reads the arguments of a task. -/
def readTask (name : String) (arguments : List String) : Except Stop Task :=
  if name = "validate" then do
    let found ← readFound {} false (← classifyAll [.help] arguments)
    return .validate (← found.onlyWord)
  else if name = "play" then do
    let found ← readFound {} false (← classifyAll playFlags arguments)
    return .play (← found.onlyWord) (found.integer? "--seed") (found.integer? "--turns")
  else throw .refused

/-! ## Command lines -/

/-- The options for all tasks. -/
def commonFlags : List Flag :=
  [.help, ⟨["--log-level"], .value fun _ => true⟩]

/-- Reads options up to the name of a task.  The arguments behind it, which are as many as the
pieces that are left, are read as those of the task. -/
def readCommon (arguments : List String) (read : Arguments) (strange : Bool)
    (pieces : List Piece) : Except Stop Arguments :=
  match pieces with
  | [] => if strange then .error .refused else .ok read
  | .word name :: rest => do
    let task ← readTask name (arguments.drop (arguments.length - rest.length))
    if strange then throw .refused
    return { read with task := some task }
  | .separator :: _ => .error .refused
  | .unknown :: rest => readCommon arguments read true rest
  | .flag flag value :: rest =>
    match h : takeValue flag value rest with
    | .error stop => .error stop
    | .ok (text, left) =>
      have := length_le_of_takeValue h
      readCommon arguments { read with logLevel := some text } strange left
termination_by pieces.length
decreasing_by all_goals simp only [List.length_cons] at *; omega

/-- Reads the arguments of a command line. -/
def Arguments.ofList (arguments : List String) : Except Stop Arguments := do
  readCommon arguments {} false (← classifyAll commonFlags arguments)

end EventDeck.Terminal
