import EventDeck.Decimal.Binary

/-!
# Decimal numerals

A numeral is a whole number of steps of a power of ten.  Reading it gives the double nearest to
its value, the one with an even significand when two are equally near.
-/

namespace EventDeck.Decimal

/-- The number `digits * 10 ^ exponent`. -/
structure Numeral where
  digits : Nat
  exponent : Int
deriving DecidableEq, Repr

/-- The decimal digits of a whole number. -/
def digitsOf (n : Nat) : List Char :=
  Nat.toDigits 10 n

/-- A whole number written in decimal. -/
def integer (n : Int) : List Char :=
  if n < 0 then '-' :: digitsOf n.natAbs else digitsOf n.natAbs

/-- A whole number written in decimal, as a string. -/
def integerText (n : Int) : String :=
  String.ofList (integer n)

namespace Numeral

/-- The nearest double.  A numeral of 310 digits before the point is beyond every double, and one
that begins 400 places after it is nearer to zero than to any other double. -/
def toFloat (n : Numeral) : Float :=
  if n.digits = 0 then 0.0
  else
    let length : Int := (digitsOf n.digits).length
    if 310 < n.exponent + length then 1.0 / 0.0
    else if n.exponent + length < -400 then 0.0
    else Float.ofScientific n.digits (n.exponent < 0) n.exponent.natAbs

end Numeral

end EventDeck.Decimal
