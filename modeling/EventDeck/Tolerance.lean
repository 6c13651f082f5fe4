/-!
# Equality up to a tolerance

Two numbers count as equal when they are the same, or when both are finite and their distance is
within an absolute bound or within a fraction of the larger magnitude of the two.
-/

namespace EventDeck

/-- How far apart two numbers may be and still count as equal. -/
structure Tolerance where
  relative : Float
  absolute : Float

/-- The tolerance of comparisons inside expressions. -/
def Tolerance.comparison : Tolerance := ⟨1e-9, 1e-9⟩

/-- Whether two numbers count as equal.  Not-a-number equals nothing, an infinity only itself. -/
def Tolerance.equates (tolerance : Tolerance) (a b : Float) : Bool :=
  if a == b then true
  else if a.isInf || b.isInf then false
  else
    let distance := (b - a).abs
    distance ≤ (tolerance.relative * b).abs || distance ≤ (tolerance.relative * a).abs ||
      distance ≤ tolerance.absolute

end EventDeck
