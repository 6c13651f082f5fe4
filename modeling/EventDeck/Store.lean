import EventDeck.Fault
import EventDeck.Tolerance

/-!
# Variables

A store holds named numbers in the order in which they were created.  A variable may be bounded,
and then its value is kept between zero and its maximum on every write.  Observers subscribe to
names; they are told about every write that changes a value by more than a tolerance.

A name can be declared again, which puts a new variable in the place of the old one.  An observer
that is being told about the old one goes on to be told about it, so the store remembers variables
that were replaced.
-/

namespace EventDeck

/-- The maximum of a variable without bounds. -/
def unbounded : Float := -1.0

/-- A named number. -/
structure Variable where
  name : String
  value : Float := 0.0
  max : Float := unbounded
  /-- How often the name had been declared before. -/
  version : Nat := 0

namespace Variable

/-- Whether the value is kept between zero and the maximum. -/
def bounded (v : Variable) : Bool :=
  v.max != unbounded

/-- Where a value lies in relation to the bounds of a variable. -/
inductive Place
  | within | below | above
deriving DecidableEq, Repr

/-- Where a value lies.  Not-a-number lies within all bounds, and nothing lies above not-a-number.
When the maximum is negative, every number lies above it. -/
def place (v : Variable) (x : Float) : Place :=
  if !v.bounded then .within
  else if x < 0.0 then if v.max < 0.0 then .above else .below
  else if v.max < x then .above
  else .within

/-- The value within the bounds that stands for a value: itself, zero or the maximum. -/
def clamp (v : Variable) (x : Float) : Float :=
  match v.place x with
  | .within => x
  | .below => 0.0
  | .above => v.max

end Variable

/-- What an observer is told: the old value, the new value and the maximum. -/
structure Change where
  old : Float
  new : Float
  max : Float

/-- The variables of a game and who observes them. -/
structure Store where
  epsilon : Float
  vars : List Variable := []
  replaced : List Variable := []
  subscriptions : List (String × List String) := []

namespace Store

/-! ## Reading -/

/-- The variable of a name. -/
def find? (store : Store) (name : String) : Option Variable :=
  store.vars.find? (·.name = name)

/-- Whether there is a variable of a name. -/
def has (store : Store) (name : String) : Bool :=
  (store.find? name).isSome

/-- The names of the variables, in the order of their creation. -/
def names (store : Store) : List String :=
  store.vars.map (·.name)

/-- How many variables there are. -/
def size (store : Store) : Nat :=
  store.vars.length

/-- A variable as it is now, whether it still has its place or was replaced. -/
def current (store : Store) (v : Variable) : Variable :=
  ((store.vars ++ store.replaced).find? fun w =>
    w.name = v.name && w.version = v.version).getD v

/-! ## Writing -/

/-- Gives a variable a value. -/
def assign (store : Store) (name : String) (x : Float) : Store :=
  { store with vars := store.vars.map fun v =>
      if v.name = name then { v with value := x } else v }

/-- Adds a variable at the end. -/
def append (store : Store) (v : Variable) : Store :=
  { store with vars := store.vars ++ [v] }

/-- Declares a variable, in the place of the one of its name if there is one. -/
def define (store : Store) (name : String) (x max : Float) : Store :=
  let fresh : Variable := { name, max }
  let declared := { fresh with value := fresh.clamp x }
  match store.find? name with
  | none => store.append declared
  | some old =>
    -- the place stays, so the order of the names does
    { store with
      vars := store.vars.map fun v =>
        if v.name = name then { declared with version := old.version + 1 } else v
      replaced := old :: store.replaced }

/-- What a write does. -/
inductive Write
  /-- The name was unknown: an unbounded variable was created. -/
  | created
  /-- The value was left as it is, within the tolerance. -/
  | kept (value : Float)
  /-- The variable has a new value; observers are to be told. -/
  | changed (v : Variable) (old : Float)

/-- Writes a value to a name. -/
def write (store : Store) (name : String) (x : Float) : Except Fault (Store × Write) :=
  match store.find? name with
  | none => .ok (store.append { name, value := x }, .created)
  | some v =>
    let y := v.clamp x
    if store.epsilon < 0 then .error .negativeTolerance
    else if (Tolerance.mk 0.0 store.epsilon).equates v.value y then .ok (store, .kept v.value)
    else .ok (store.assign name y, .changed { v with value := y } v.value)

/-! ## Observers -/

/-- The observers of a name, in the order of subscription. -/
def observersOf (store : Store) (name : String) : List String :=
  (store.subscriptions.lookup name).getD []

/-- Changes the list of observers of a name. -/
def setObservers (name : String) (observers : List String) :
    List (String × List String) → List (String × List String)
  | [] => [(name, observers)]
  | entry :: entries =>
    if entry.1 = name then (name, observers) :: entries
    else entry :: setObservers name observers entries

/-- Subscribes an observer to a name, which need not be that of a variable. -/
def subscribe (store : Store) (name observer : String) : Store :=
  { store with subscriptions :=
      setObservers name (store.observersOf name ++ [observer]) store.subscriptions }

/-- Takes back the first subscription of an observer to a name. -/
def unsubscribe (store : Store) (name observer : String) : Store :=
  { store with subscriptions :=
      setObservers name ((store.observersOf name).erase observer) store.subscriptions }

end Store

end EventDeck
