import EventDeck.Command
import EventDeck.Deck.Basic
import EventDeck.Expr.Check

/-!
# Checking decks

A deck is checked before it is played: names are unique, variables have names that expressions can
refer to, every event has a copy, and conditions, effects and special effects can be read.  A
reference to an event that is not there is only a warning, because cards may be missing in play.
-/

namespace EventDeck

/-- What was found in a deck: errors forbid playing it, warnings do not. -/
structure Findings where
  errors : List String := []
  warnings : List String := []

namespace Findings

/-- The findings of two parts. -/
instance : Append Findings where
  append a b := ⟨a.errors ++ b.errors, a.warnings ++ b.warnings⟩

/-- One error. -/
def error (message : String) : Findings := ⟨[message], []⟩

/-- One warning. -/
def warning (message : String) : Findings := ⟨[], [message]⟩

/-- The findings of a list of parts. -/
def gather {α : Type} (parts : List α) (find : α → Findings) : Findings :=
  parts.foldl (fun findings part => findings ++ find part) {}

/-- A finding, if something is the case. -/
def when (condition : Bool) (findings : Findings) : Findings :=
  if condition then findings else {}

end Findings

namespace Deck

open Findings

/-! ## Parts of a deck -/

/-- The names that occur more than once, in the order of their first occurrence. -/
def repeated (names : List String) : List String :=
  names.eraseDups.filter fun name => 1 < names.count name

/-- Names that are not unique. -/
def checkUnique (kind : String) (names : List String) : Findings :=
  gather (repeated names) fun name => error s!"Duplicate {kind} name '{name}'"

/-- A declared variable. -/
def checkDeclaration (d : Declaration) : Findings :=
  when (!Expr.isIdentifier d.name.toList)
      (error s!"Variable name '{d.name}' is not a valid identifier") ++
    when (d.max != -1.0 && d.max < 0.0) (error s!"Variable '{d.name}' has a negative max")

/-- An authored text; a blank one is no text at all. -/
def checkText (place kind : String) (statement : Bool) (text : String) : Findings :=
  if Text.isBlankText text then {}
  else match Expr.problem? text statement with
    | none => {}
    | some problem => error s!"{place} {kind} '{text}' is malformed: {problem.message}"

/-- A special effect. -/
def checkSpecial (place : String) (eventNames : List String) (text : String) : Findings :=
  if Text.isBlankText text then {}
  else match Command.parse text with
    | .error e => error s!"{place} special effect '{text}': {e.message}"
    | .ok command =>
      gather (command.references.filter (!eventNames.contains ·)) fun name =>
        warning s!"{place} special effect '{text}' references unknown event '{name}'"

/-- A condition with effects and special effects. -/
def checkReaction (place : String) (eventNames : List String) (condition : String)
    (effects specials : List String) : Findings :=
  checkText place "condition" false condition ++
    gather effects (checkText place "effect" true) ++
    gather specials (checkSpecial place eventNames)

/-- An action of an event. -/
def checkAction (place : String) (eventNames : List String) (action : Action) : Findings :=
  checkReaction place eventNames action.condition action.effects action.specials ++
    when (action.effects.isEmpty && action.specials.isEmpty)
      (warning s!"{place} has no effects")

/-- An event. -/
def checkEvent (eventNames : List String) (event : Template) : Findings :=
  let place := s!"Event '{event.name}'"
  when (event.copies < 1) (error s!"{place} must have at least one copy") ++
    checkText place "condition" false event.condition ++
    gather event.actions.zipIdx fun (action, index) =>
      checkAction s!"{place} action {Decimal.integerText index}" eventNames action

/-- A control. -/
def checkControl (eventNames : List String) (control : Control) : Findings :=
  checkReaction s!"Control '{control.name}'" eventNames control.condition control.effects
    control.specials

/-! ## Whole decks -/

/-- Whether there is anything to draw. -/
def checkEvents (events : List Template) : Findings :=
  if events.isEmpty then warning "No events defined - deck is empty"
  else when (!events.any (·.active))
    (warning "No active events - the deck only fills through conditions and commands")

/-- Everything that is found in a deck. -/
def findings (deck : Deck) : Findings :=
  let eventNames := deck.events.map (·.name)
  checkUnique "event" eventNames ++
    checkUnique "variable" (deck.declarations.map (·.name)) ++
    checkUnique "control" (deck.controls.map (·.name)) ++
    gather deck.declarations checkDeclaration ++
    gather deck.events (checkEvent eventNames) ++
    gather deck.controls (checkControl eventNames) ++
    checkEvents deck.events

/-- Whether a deck can be played. -/
def valid (deck : Deck) : Bool :=
  deck.findings.errors.isEmpty

/-- What is said about a deck with errors. -/
def refusalMessage (errors : List String) : String :=
  s!"Deck validation failed with {Decimal.integerText errors.length} error(s)"

end Deck

end EventDeck
