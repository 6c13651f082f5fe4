import EventDeck.Decimal.Numeral
import EventDeck.Text.Quoted

/-!
# Choices

A player answers a presented card with one of its actions or by going on without one.
-/

namespace EventDeck

/-- What a player may choose. -/
inductive Choice
  /-- An action of the current card. -/
  | action (index : Int)
  /-- An action, referred to by a truth value: one for true and zero for false. -/
  | flag (value : Bool)
  /-- A word; only the word for going on without an action means something. -/
  | word (text : String)
deriving DecidableEq, Repr

namespace Choice

/-- The word for going on without an action. -/
def continueWord : String := "continue"

/-- Going on without an action. -/
abbrev goOn : Choice := word continueWord

/-- The index of the action that is chosen. -/
def index? : Choice → Option Int
  | action index => some index
  | flag value => some (if value then 1 else 0)
  | word _ => none

/-- A choice as it is quoted in a message. -/
def text : Choice → String
  | action index => Decimal.integerText index
  | flag value => if value then "True" else "False"
  | word text => Text.quoted text

end Choice

end EventDeck
