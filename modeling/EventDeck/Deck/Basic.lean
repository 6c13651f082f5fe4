import EventDeck.Catalog
import EventDeck.Control

/-!
# Decks

A deck is what an author writes: declared variables, events with their actions, and controls.  Where
a title or a label is left out, the name is shown instead.
-/

namespace EventDeck

/-- A declared variable. -/
structure Declaration where
  name : String
  value : Float := 0.0
  max : Float := 100.0

/-- A deck as its author writes it. -/
structure Deck where
  id : String := "deck"
  name : String := ""
  declarations : List Declaration := []
  events : List Template := []
  controls : List Control := []

namespace Deck

/-- A text, or another one in its place when it is empty. -/
def orElse (text other : String) : String :=
  if text.isEmpty then other else text

/-- The events with their titles. -/
def templates (deck : Deck) : List Template :=
  deck.events.map fun event => { event with title := orElse event.title event.name }

/-- The controls with their labels. -/
def buttons (deck : Deck) : List Control :=
  deck.controls.map fun control => { control with label := orElse control.label control.name }

/-- The first event of a name. -/
def event? (deck : Deck) (name : String) : Option Template :=
  deck.events.find? (·.name = name)

/-- What a deck is called: its name, or else its identifier. -/
def title (deck : Deck) : String :=
  orElse deck.name deck.id

end Deck

end EventDeck
