import EventDeck.Expr.Parser
import EventDeck.Expr.RandomCall
import EventDeck.Expr.Statement
import EventDeck.Decimal.Notation
import EventDeck.Game.Basic

/-!
# Effects and conditions

An authored text is evaluated in two stages.  First every name is replaced by the value of its
variable, written so that it reads back, and every random call by the number drawn for it; then
what remains is evaluated as numbers and operators.  A statement may write one variable, after
everything else.

Whatever is wrong with a text is reported, and its value is zero or false.  Only a random call whose
bounds have no floor is a fault.
-/

namespace EventDeck.Game

open EventDeck.Expr Text

/-- A part of a request that may fail because of an authored text. -/
abbrev Attempt := ExceptT ExprError Play

/-- How observers are told about a change. -/
abbrev Tell := String → Change → Play Unit

/-- Observers that do nothing. -/
def silent : Tell := fun _ _ => pure ()

/-! ## Reading -/

/-- The value of a variable; zero, and a report, for an unknown name. -/
def valueOf (name : String) : Play Float := do
  match (← get).store.find? name with
  | some v => return v.value
  | none =>
    report .unboundVariable s!"Variable '{name}' not found, reading 0"
    return 0.0

/-- Replaces every name in a text by the value of its variable. -/
def substitute (text : List Char) : Play (List Char) :=
  replaceNames (fun name => return Decimal.write (← valueOf (String.ofList name))) text

/-- A random whole number from a lower bound up to but not including an upper one; the lower bound
when there is none between them. -/
def randomBetween (low high : Float) : Play Int := do
  if high ≤ low then Decimal.floor low
  else
    let u ← drawUniform
    Decimal.floor (low + u * (high - low))

/-- The number drawn for a random call, written out. -/
def drawCall (call : RandomCall) : Attempt (List Char) := do
  let low ← evaluateNumber .evaluating call.low
  let high ← evaluateNumber .evaluating call.high
  return Decimal.integer (← randomBetween low high)

/-- The value of an expression. -/
def evaluateValue (text : List Char) : Attempt Value := do
  let substituted ← replaceRandoms drawCall (← substitute text)
  evaluateText .evaluating substituted

/-! ## Writing -/

/-- Tells the observers of a variable about a change of it, with the value and the maximum that the
variable has when it is the turn of each. -/
def tellObservers (tell : Tell) (v : Variable) (old : Float) : Play Unit := do
  for observer in (← get).store.observersOf v.name do
    let now := (← get).store.current v
    tell observer ⟨old, now.value, now.max⟩

/-- Writes a variable and returns the value written. -/
def setVariable (tell : Tell) (name : String) (x : Float) : Play Float := do
  let (store, write) ← (← get).store.write name x
  changeStore fun _ => store
  match write with
  | .created => return x
  | .kept value => return value
  | .changed v old =>
    tellObservers tell v old
    return v.value

/-- Tells every observer the value of its variable, with zero as the old value.  A store that has
gained a variable meanwhile cannot be gone through any further. -/
def broadcast (tell : Tell) : Play Unit := do
  let names := (← get).store.names
  for place in List.range names.length do
    if let some v := (← get).store.vars[place]? then tellObservers tell v 0.0
    unless (← get).store.size = names.length do throw .changedWhileTelling

/-! ## Statements -/

/-- The value from which a write to a name starts; an unknown name starts from zero. -/
def startingValue (name : String) : Play Float := do
  return (((← get).store.find? name).map (·.value)).getD 0.0

/-- The number that a compound assignment writes. -/
def combine (operation : BinaryOp) (x y : Float) : Except ExprError Float := do
  (← operation.apply .evaluating (.number x) (.number y)).toNumber

/-- Evaluates a statement: the value it has, or the value that was written. -/
def evaluateStatement (tell : Tell) (text : List Char) : Attempt Float := do
  -- what is written to is looked at before anything is evaluated
  match Statement.ofText text with
  | .expression body => return (← evaluateValue body).toFloat
  | .step up target =>
    let name ← targetName target
    let x ← startingValue name
    setVariable tell name (if up then x + 1.0 else x - 1.0)
  | .update operation target body =>
    let name ← targetName target
    let x ← startingValue name
    let y ← (← evaluateValue body).toNumber
    setVariable tell name (← combine operation x y)
  | .assignment target body =>
    let name ← targetName target
    let x ← (← evaluateValue body).toNumber
    setVariable tell name x

/-! ## Entry points -/

/-- Runs an attempt for a text; a failure is reported and has a value of its own. -/
def orReport {α : Type} (text : List Char) (otherwise : α) (attempt : Attempt α) : Play α := do
  match ← attempt.run with
  | .ok a => return a
  | .error e =>
    report .malformedExpression s!"Cannot evaluate '{String.ofList text}': {e.message}"
    return otherwise

/-- Evaluates an effect. -/
def evaluate (tell : Tell) (text : String) : Play Float :=
  let body := trim text.toList
  orReport body 0.0 (evaluateStatement tell body)

/-- Evaluates a condition. -/
def evaluateCondition (text : String) : Play Bool :=
  let body := trim text.toList
  orReport body false (return (← evaluateValue body).isTrue)

/-- Whether a condition holds; a blank one always does. -/
def holds (condition : String) : Play Bool :=
  if isBlankText condition then pure true else evaluateCondition condition

end EventDeck.Game
