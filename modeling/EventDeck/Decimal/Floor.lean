import EventDeck.Decimal.Binary
import EventDeck.Fault

/-!
# Floors and whole numbers

The floor of a finite double is exact, whatever its size; infinities and not-a-number have none.
-/

namespace EventDeck.Decimal

/-- The floor of `± m * 2 ^ e`. -/
def floorOf (negative : Bool) (significand : Nat) (exponent : Int) : Int :=
  let (numerator, denominator) := quotient significand exponent
  Int.fdiv (if negative then -(numerator : Int) else numerator) denominator

/-- The greatest whole number that is not above a double. -/
def floor (x : Float) : Except Fault Int :=
  match Binary.ofFloat x with
  | .finite negative significand exponent => .ok (floorOf negative significand exponent)
  | .infinite _ => .error .infinityToInteger
  | .notANumber => .error .nanToInteger

example : (floor 2.5).toOption = some 2 ∧ (floor (-2.5)).toOption = some (-3) := by decide +kernel
example : (floor (-0.0)).toOption = some 0 := by decide +kernel

/-- A double that is a whole number, and which. -/
def whole? (x : Float) : Option Int :=
  match Binary.ofFloat x with
  | .finite negative significand exponent =>
    let (numerator, denominator) := quotient significand exponent
    if numerator % denominator = 0 then some (floorOf negative significand exponent) else none
  | _ => none

/-- The double nearest to a whole number; there is none beyond the range of doubles. -/
def ofInt (n : Int) : Except Fault Float :=
  let x := Float.ofInt n
  if x.isInf then .error .integerTooLarge else .ok x

end EventDeck.Decimal
