import EventDeck.Expr.Error
import EventDeck.Tolerance

/-!
# Values of expressions

An expression is a number or a truth value.  Numbers count as true when they are not zero; truth
values are not numbers, so arithmetic and comparison refuse them.
-/

namespace EventDeck.Expr

/-- What an expression evaluates to. -/
inductive Value
  | number (x : Float)
  | truth (b : Bool)

namespace Value

/-- The number that a value is. -/
def toNumber : Value → Except ExprError Float
  | number x => .ok x
  | truth _ => .error .booleanArithmetic

/-- Whether a value counts as true; not-a-number does. -/
def isTrue : Value → Bool
  | number x => x != 0
  | truth b => b

/-- The number that stands for a value outside expressions: one for true and zero for false. -/
def toFloat : Value → Float
  | number x => x
  | truth b => if b then 1.0 else 0.0

end Value

/-! ## Operations -/

/-- The operations that take two values and give a value. -/
inductive BinaryOp
  | or | and | plus | minus | times | divide
deriving DecidableEq, Repr

/-- The comparisons. -/
inductive Comparison
  | equal | unequal | lessEqual | greaterEqual | less | greater
deriving DecidableEq, Repr

/-- Expressions are evaluated for their value, or only checked for their form. -/
inductive Mode
  | evaluating | checking
deriving DecidableEq, Repr

/-- The quotient of two numbers. -/
def quotientOf (a b : Float) : Except ExprError Float :=
  if b == 0 then .error .divisionByZero else .ok (a / b)

/-- An operation on two numbers. -/
def BinaryOp.onNumbers (calculate : Float → Float → Except ExprError Float) (a b : Value) :
    Except ExprError Value := do
  let x ← a.toNumber
  let y ← b.toNumber
  return .number (← calculate x y)

/-- The value of an operation.  A check cannot know a divisor, so it lets a zero one pass. -/
def BinaryOp.apply (mode : Mode) (op : BinaryOp) (a b : Value) : Except ExprError Value :=
  match op with
  | or => .ok (.truth (a.isTrue || b.isTrue))
  | and => .ok (.truth (a.isTrue && b.isTrue))
  | plus => onNumbers (fun x y => .ok (x + y)) a b
  | minus => onNumbers (fun x y => .ok (x - y)) a b
  | times => onNumbers (fun x y => .ok (x * y)) a b
  | divide =>
    match mode with
    | .evaluating => onNumbers quotientOf a b
    | .checking => do
      if (← b.toNumber) == 0 then return .number 0.0
      onNumbers quotientOf a b

/-- Whether a comparison holds; equality has a tolerance and the orderings have none. -/
def Comparison.holds (comparison : Comparison) (x y : Float) : Bool :=
  match comparison with
  | equal => Tolerance.comparison.equates x y
  | unequal => !Tolerance.comparison.equates x y
  | lessEqual => x ≤ y
  | greaterEqual => y ≤ x
  | less => x < y
  | greater => y < x

/-- The value of a comparison. -/
def Comparison.apply (comparison : Comparison) (a b : Value) : Except ExprError Value := do
  let x ← a.toNumber
  let y ← b.toNumber
  return .truth (comparison.holds x y)

end EventDeck.Expr
