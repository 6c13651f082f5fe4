import EventDeck.Decimal.Floor
import EventDeck.Twister

/-!
# Sources of chance

Everything that is left to chance in a game is drawn from one generator.  A scripted generator goes
through a given list of numbers of the unit interval over and over, one for each draw; the other
sort is a Mersenne twister.  A generator is asked for a uniform number or for a natural number below
a bound.
-/

namespace EventDeck

/-- A source of chance.  A scripted one has its whole script and what is left of this round. -/
inductive Generator
  | scripted (script upcoming : List Float)
  | twister (state : Twister)

namespace Generator

/-- A scripted generator; an empty script stands for zeros. -/
def ofScript (script : List Float) : Generator :=
  if script.isEmpty then scripted [0.0] [0.0] else scripted script script

/-- A seeded generator. -/
def ofSeed (seed : Int) : Generator :=
  twister (Twister.ofSeed seed)

/-- The next number of a script. -/
def nextScripted (script upcoming : List Float) : Float × Generator :=
  match upcoming, script with
  | u :: rest, _ => (u, scripted script rest)
  | [], u :: rest => (u, scripted script rest)
  | [], [] => (0.0, scripted [] [])

/-- Draws a number of the half-open unit interval. -/
def uniform : Generator → Float × Generator
  | scripted script upcoming => nextScripted script upcoming
  | twister state =>
    let (u, state) := state.uniform
    (u, twister state)

/-- How often a number of random bits is drawn again because it is not below the bound.  Each time
this has a chance of less than one half. -/
def patience : Nat := 1000

/-- Draws numbers of `count` bits until one is below the bound. -/
def drawBelow (count bound : Nat) : Nat → Twister → Nat × Twister
  | 0, state => (0, state)
  | tries + 1, state =>
    let (n, state) := state.bits count
    if n < bound then (n, state) else drawBelow count bound tries state

/-- Draws a natural number below a positive bound. -/
def below (bound : Nat) : Generator → Nat × Generator
  | scripted script upcoming =>
    let (u, generator) := nextScripted script upcoming
    match Decimal.floor (u * Float.ofNat bound) with
    | .ok n => (n.toNat, generator)
    | .error _ => (0, generator)
  | twister state =>
    -- as many bits as the bound itself has
    let (n, state) := drawBelow (bound.log2 + 1) bound patience state
    (n, twister state)

end Generator

end EventDeck
