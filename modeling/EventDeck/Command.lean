import EventDeck.Decimal.Reader
import EventDeck.Text.Split
import EventDeck.Text.Uppercase
import EventDeck.Text.Word

/-!
# Deck commands

Special effects are commands that change the deck.  A command is written as a call, a word and
arguments in parentheses, or in the form `word:name`.  The word may be in any case, and blanks
around the parts do not matter.
-/

namespace EventDeck

open Text

/-- A change of the deck. -/
inductive Command
  /-- Removes the card that is being resolved from the game. -/
  | destroy
  /-- Activates an inactive card and puts it at a random place of the queue. -/
  | add (name : String)
  /-- Deactivates a queued active card and takes it out of the queue. -/
  | remove (name : String)
  /-- Activates an inactive card. -/
  | activate (name : String)
  /-- Deactivates an active card. -/
  | deactivate (name : String)
  /-- Puts a card right behind the one that is being resolved. -/
  | chain (name : String)
  /-- Chains the first card with a chance given in percent, and else the second. -/
  | randomChain (first second : String) (percent : Float)

/-- The commands that take one name. -/
inductive CommandWord
  | add | remove | activate | deactivate | chain
deriving DecidableEq, Repr

namespace CommandWord

/-- How the word of a command is written. -/
def word : CommandWord → String
  | add => "add"
  | remove => "remove"
  | activate => "activate"
  | deactivate => "deactivate"
  | chain => "chain"

/-- All words of commands with one name. -/
def all : List CommandWord := [add, remove, activate, deactivate, chain]

/-- The command with a name. -/
def command (word : CommandWord) (name : String) : Command :=
  match word with
  | add => .add name
  | remove => .remove name
  | activate => .activate name
  | deactivate => .deactivate name
  | chain => .chain name

end CommandWord

/-- Why a text is not a command. -/
inductive CommandError
  | notACall (text : String)
  | unknownWord (text : String)
  | emptyArgument (text : String)
  | destroyWithArguments
  | randomChainArguments
  | percentNotANumber (text : String)
  | notOneName (word : CommandWord)
deriving DecidableEq, Repr

/-- The wording of a refusal. -/
def CommandError.message : CommandError → String
  | notACall text => s!"Not a command call: '{text}'"
  | unknownWord text => s!"Unknown special effect '{text}'"
  | emptyArgument text => s!"Empty argument in '{text}'"
  | destroyWithArguments => "destroy takes no arguments"
  | randomChainArguments => "randomchain takes two event names and a percent"
  | percentNotANumber text => s!"randomchain percent is not a number: '{text}'"
  | notOneName word => s!"{word.word} takes exactly one event name"

namespace Command

/-! ## Calls -/

/-- A word with arguments, before it is known what they mean. -/
structure Call where
  word : List Char
  arguments : List (List Char)

/-- The arguments between the parentheses of a call; blanks alone are no argument. -/
def splitArguments (text : List Char) : List (List Char) :=
  match (pieces ',' text).map trim with
  | [[]] => []
  | arguments => arguments

/-- A call with parentheses or without: a word, blanks, and arguments that reach to the end. -/
def parenthesized? (text : List Char) : Option Call :=
  if !text.head?.any isNameStart then none
  else
    let word := text.takeWhile isWordChar
    match (text.dropWhile isWordChar).dropWhile isBlank with
    | [] => some ⟨word, []⟩
    | '(' :: rest => (before? [')'] rest).map fun inside => ⟨word, splitArguments inside⟩
    | _ => none

/-- The call that a trimmed text is.  A colon makes a call of its own, unless there is an opening
parenthesis. -/
def call? (text : List Char) : Option Call :=
  match if text.contains '(' then none else cut [':'] text with
  | some (word, argument) => some ⟨trim word, [trim argument]⟩
  | none => parenthesized? text

/-! ## Commands -/

/-- A command from a word in small letters and arguments that are not empty; `none` for a word that
is not known. -/
def ofParts? (word : String) (arguments : List (List Char)) : Option (Except CommandError Command) :=
  if word = "destroy" then
    some (if arguments.isEmpty then .ok destroy else .error .destroyWithArguments)
  else if word = "randomchain" then
    some (match arguments with
      | [first, second, percent] =>
        match Decimal.read? percent with
        | some number =>
          .ok (randomChain (String.ofList first) (String.ofList second) number)
        | none => .error (.percentNotANumber (String.ofList percent))
      | _ => .error .randomChainArguments)
  else (CommandWord.all.find? (·.word = word)).map fun known =>
    match arguments with
    | [name] => .ok (known.command (String.ofList name))
    | _ => .error (.notOneName known)

/-- The command that a text is. -/
def parse (text : String) : Except CommandError Command :=
  let body := trim text.toList
  match call? body with
  | none => .error (.notACall (String.ofList body))
  | some call =>
    match ofParts? (lowerAscii (String.ofList call.word)) call.arguments with
    | none => .error (.unknownWord (String.ofList body))
    | some command =>
      if call.arguments.any List.isEmpty then .error (.emptyArgument (String.ofList body))
      else command

/-- The names of the events that a command refers to. -/
def references : Command → List String
  | destroy => []
  | add name | remove name | activate name | deactivate name | chain name => [name]
  | randomChain first second _ => [first, second]

end Command

end EventDeck
