import EventDeck.Choice

/-!
# Requests

The requests that a running game answers, as data.  An observer reacts to what it is told by a list
of requests, so reactions are data as well.
-/

namespace EventDeck

/-- A request to a running game. -/
inductive Request
  -- Variables
  | define (name : String) (value max : Float)
  | set (name : String) (value : Float)
  | get (name : String)
  | has (name : String)
  | lookup (name : String)
  /-- Where a value lies in relation to a maximum. -/
  | place (value max : Float)
  | names
  | snapshot
  /-- Subscribes an observer; its reaction is the one it is first mentioned with. -/
  | subscribe (name observer : String) (reaction : List Request)
  | unsubscribe (name observer : String) (reaction : List Request)
  | broadcast
  -- Expressions
  | evaluate (text : String)
  /-- A number in the place of an effect; it stands for itself. -/
  | constant (x : Float)
  | evaluateCondition (text : String)
  | holds (condition : String)
  | substitute (text : String)
  | randomBetween (low high : Float)
  -- Cards; a card is given by its identifier
  | overview
  | isQueued (card : String)
  | isPooled (card : String)
  | enqueue (card : String)
  | dequeue (card : String)
  | destroy (card : String)
  | insertAt (card : String) (place : Int)
  | setFlags (card : String) (active discarded : Option Bool)
  | hasEvent (name : String)
  | find (name : String)
  | clearQueue
  | shufflePool
  | shuffleQueue
  -- Special effects and controls
  | runSpecial (text : String)
  | controls
  | control (name : String)
  | availableControls
  | press (name : String)
  -- The scheduler
  | start
  | advance
  | checkConditions
  | reshuffle
  | reveal
  | availableActions
  | choices
  | select (choice : Choice)

/-- An observer of variables. -/
structure Observer where
  id : String
  reaction : List Request

end EventDeck
