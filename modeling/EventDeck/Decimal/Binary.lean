/-!
# Doubles taken apart

A double is a sign, a whole significand and a power of two, or an infinity, or not a number.  What
is computed exactly from a double (its floor, its digits) is computed from these parts in whole
numbers.
-/

namespace EventDeck.Decimal

/-- The parts of a double.  A finite one is `± significand * 2 ^ exponent`. -/
inductive Binary
  | finite (negative : Bool) (significand : Nat) (exponent : Int)
  | infinite (negative : Bool)
  | notANumber
deriving DecidableEq, Repr

namespace Binary

/-- The weight of the sign bit. -/
def signBit : Nat := 0x8000000000000000

/-- The weight of the lowest bit of the exponent, and of the leading bit that is not stored. -/
def hiddenBit : Nat := 0x10000000000000

/-- Reads the sign bit, the eleven bits of the exponent and the fifty-two bits of the fraction. -/
def ofBits (bits : Nat) : Binary :=
  let negative : Bool := signBit ≤ bits
  let field : Nat := bits / hiddenBit % 2048
  let fraction : Nat := bits % hiddenBit
  if field = 2047 then
    if fraction = 0 then .infinite negative else .notANumber
  else if field = 0 then .finite negative fraction (-1074)
  else .finite negative (hiddenBit + fraction) (field - 1075)

/-- The parts of a double. -/
def ofFloat (x : Float) : Binary :=
  ofBits x.toBits.toNat

example : ofFloat 1.5 = .finite false (3 * 2 ^ 51) (-52) := by decide +kernel
example : ofFloat (-0.0) = .finite true 0 (-1074) := by decide +kernel

end Binary

/-- `m * 2 ^ e` as a quotient of two whole numbers. -/
def quotient (significand : Nat) (exponent : Int) : Nat × Nat :=
  if 0 ≤ exponent then (significand * Nat.pow 2 exponent.toNat, 1)
  else (significand, Nat.pow 2 exponent.natAbs)

theorem quotient_snd_pos (m : Nat) (e : Int) : 0 < (quotient m e).2 := by
  unfold quotient
  split
  · exact Nat.one_pos
  · exact Nat.two_pow_pos _

end EventDeck.Decimal
