import EventDeck.Decimal.Numeral
import EventDeck.Shuffle

/-!
# Cards, the pool and the queue

The author of a deck writes templates; each is dealt as a number of cards, which are independent of
each other.  A card is known by its key, its place in the catalog.  The *pool* is the cards that are
in the game, the *queue* the cards to be drawn, first the one that is being presented; both are
lists of keys, and a card that was taken out of the game keeps its key.
-/

namespace EventDeck

/-- A choice that an event offers. -/
structure Action where
  description : String
  condition : String := ""
  effects : List String := []
  specials : List String := []

/-- An event as its author writes it. -/
structure Template where
  name : String
  title : String := ""
  description : String := ""
  condition : String := ""
  copies : Int := 1
  active : Bool := true
  actions : List Action := []

/-- One of the copies of an event. -/
structure Card where
  name : String
  copy : Int
  title : String := ""
  description : String := ""
  condition : String := ""
  actions : List Action := []
  active : Bool := true
  discarded : Bool := false

namespace Card

/-- The identifier of a card: the name of its event and the number of the copy. -/
def id (card : Card) : String :=
  s!"{card.name}#{Decimal.integerText card.copy}"

/-- A card with its flags, as it is shown. -/
def text (card : Card) : String :=
  let state := if card.active then "active" else "inactive"
  let discard := if card.discarded then ", discarded" else ""
  s!"<EventInstance {card.id} ({state}{discard})>"

/-- A copy of a template. -/
def ofTemplate (template : Template) (copy : Int) : Card where
  name := template.name
  copy := copy
  title := template.title
  description := template.description
  condition := template.condition
  actions := template.actions
  active := template.active

end Card

/-- The cards of a template, numbered from one. -/
def Template.cards (template : Template) : List Card :=
  (List.range template.copies.toNat).map fun (i : Nat) => Card.ofTemplate template (i + 1)

/-- All cards of a game, the pool and the queue. -/
structure Catalog where
  cards : Array Card
  pool : List Nat
  queue : List Nat

namespace Catalog

/-! ## Building -/

/-- The cards in their order; the active ones are queued. -/
def ofCards (cards : List Card) : Catalog where
  cards := cards.toArray
  pool := List.range cards.length
  queue := (List.range cards.length).filter fun key => (cards[key]?).any (·.active)

/-- Shuffles the pool. -/
def shufflePool (catalog : Catalog) (generator : Generator) : Catalog × Generator :=
  let (pool, generator) := shuffle catalog.pool generator
  ({ catalog with pool }, generator)

/-- Shuffles the queue. -/
def shuffleQueue (catalog : Catalog) (generator : Generator) : Catalog × Generator :=
  let (queue, generator) := shuffle catalog.queue generator
  ({ catalog with queue }, generator)

/-- The cards of all templates, the active ones queued; pool and queue are shuffled. -/
def ofTemplates (templates : List Template) (generator : Generator) : Catalog × Generator :=
  let (catalog, generator) := (ofCards (templates.flatMap Template.cards)).shufflePool generator
  catalog.shuffleQueue generator

/-! ## Looking up -/

/-- The card of a key. -/
def card (catalog : Catalog) (key : Nat) : Card :=
  catalog.cards.getD key { name := "", copy := 0 }

/-- The card that is being presented: the first of the queue. -/
def head? (catalog : Catalog) : Option Nat :=
  catalog.queue.head?

/-- Whether a card is of an event. -/
def named (catalog : Catalog) (name : String) (key : Nat) : Bool :=
  (catalog.card key).name = name

/-- Whether a card is active. -/
def active (catalog : Catalog) (key : Nat) : Bool :=
  (catalog.card key).active

/-- The cards of an event, in the order of the pool. -/
def findAll (catalog : Catalog) (name : String) : List Nat :=
  catalog.pool.filter (catalog.named name)

/-- The first card of an event in the pool. -/
def findFirst? (catalog : Catalog) (name : String) : Option Nat :=
  catalog.pool.find? (catalog.named name)

/-- The first inactive card of an event in the pool. -/
def findInactive? (catalog : Catalog) (name : String) : Option Nat :=
  catalog.pool.find? fun key => catalog.named name key && !catalog.active key

/-- The first active card of an event in the pool. -/
def findActive? (catalog : Catalog) (name : String) : Option Nat :=
  catalog.pool.find? fun key => catalog.named name key && catalog.active key

/-- The first active card of an event in the queue. -/
def findQueued? (catalog : Catalog) (name : String) : Option Nat :=
  catalog.queue.find? fun key => catalog.named name key && catalog.active key

/-- The names of the events that have cards in the pool, each once. -/
def eventNames (catalog : Catalog) : List String :=
  (catalog.pool.map fun key => (catalog.card key).name).foldl
    (fun names name => if names.contains name then names else names ++ [name]) []

/-! ## Changing the queue and the pool -/

/-- Puts a card at the end of the queue unless it is queued. -/
def enqueue (catalog : Catalog) (key : Nat) : Catalog :=
  if catalog.queue.contains key then catalog
  else { catalog with queue := catalog.queue ++ [key] }

/-- Takes a card out of the queue, once. -/
def dequeue (catalog : Catalog) (key : Nat) : Catalog :=
  { catalog with queue := catalog.queue.erase key }

/-- Puts a card at a place of the queue.  A place beyond the end is the end; a negative one is
counted from the end. -/
def insertAt (catalog : Catalog) (key : Nat) (place : Int) : Catalog :=
  let length : Int := catalog.queue.length
  let index := if place < 0 then (place + length).toNat else (min place length).toNat
  { catalog with queue := catalog.queue.take index ++ key :: catalog.queue.drop index }

/-- Takes a card out of the game. -/
def destroy (catalog : Catalog) (key : Nat) : Catalog :=
  { catalog.dequeue key with pool := catalog.pool.erase key }

/-- Empties the queue. -/
def clearQueue (catalog : Catalog) : Catalog :=
  { catalog with queue := [] }

/-- Activates or deactivates a card. -/
def setActive (catalog : Catalog) (key : Nat) (active : Bool) : Catalog :=
  { catalog with cards := catalog.cards.modify key fun card => { card with active } }

/-- Marks a card as discarded or not. -/
def setDiscarded (catalog : Catalog) (key : Nat) (discarded : Bool) : Catalog :=
  { catalog with cards := catalog.cards.modify key fun card => { card with discarded } }

end Catalog

end EventDeck
