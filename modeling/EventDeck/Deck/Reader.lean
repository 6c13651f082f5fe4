import EventDeck.Deck.Basic
import EventDeck.Deck.Shape

/-!
# Reading decks

The shape of a deck and its parts.  Unknown keys do not matter.  Special effects and the number of
copies have two keys each, of which the first one that is there counts.
-/

namespace EventDeck.Deck

open Shape

/-- A text that may be left out. -/
def textField (key : String) (default : String := "") : Shape String :=
  optionalField [key] string default

/-- A list of texts that may be left out. -/
def textsField (keys : List String) : Shape (List String) :=
  optionalField keys (list string) []

/-- The keys of special effects. -/
def specialKeys : List String := ["specialEffects", "special_effects"]

/-- The shape of a declared variable. -/
def declarationShape (refusal : Misfit) : Shape Declaration :=
  object refusal fun json =>
    Declaration.mk <$> field "name" string json
      <*> optionalField ["value"] float 0.0 json
      <*> optionalField ["max"] float 100.0 json

/-- The shape of an action. -/
def actionShape (refusal : Misfit) : Shape Action :=
  object refusal fun json =>
    Action.mk <$> textField "description" "" json
      <*> textField "condition" "" json
      <*> textsField ["effects"] json
      <*> textsField specialKeys json

/-- The shape of an event. -/
def eventShape (refusal : Misfit) : Shape Template :=
  object refusal fun json =>
    Template.mk <$> field "name" string json
      <*> textField "title" "" json
      <*> textField "description" "" json
      <*> textField "condition" "" json
      <*> optionalField ["number", "copies"] int 1 json
      <*> optionalField ["active"] bool true json
      <*> optionalField ["actions"] (list (actionShape refusal)) [] json

/-- The shape of a control. -/
def controlShape (refusal : Misfit) : Shape Control :=
  object refusal fun json =>
    Control.mk <$> field "name" string json
      <*> textField "label" "" json
      <*> textField "condition" "" json
      <*> textsField ["effects"] json
      <*> textsField specialKeys json

/-- The shape of a deck. -/
def shape (refusal : Misfit) : Shape Deck :=
  object refusal fun json =>
    Deck.mk <$> textField "deck_id" "deck" json
      <*> textField "name" "" json
      <*> optionalField ["variables"] (list (declarationShape refusal)) [] json
      <*> optionalField ["events"] (list (eventShape refusal)) [] json
      <*> optionalField ["controls"] (list (controlShape refusal)) [] json

/-- Reads a deck. -/
def ofJson (json : Json) : Except (List ShapeError) Deck :=
  (shape .modelType json).result

end EventDeck.Deck
