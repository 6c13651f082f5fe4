import EventDeck.Decimal.Numeral

/-!
# Shortest numerals

The shortest numeral of a double is the one with the fewest digits among those that read back as
the double; of two with the same number of digits it is the nearer, and of two equally near the
even one.  Only the two neighbours of the value on each decimal grid have to be tried, because a
point of the grid that reads back lies no nearer than the neighbour on its side.  The main
statement is `toFloat_shortest`: what is found by the search reads back.
-/

namespace EventDeck.Decimal

/-- The exponent of the first digit of a positive quotient: the `k` with
`10 ^ k ≤ numerator / denominator < 10 ^ (k + 1)`.  The quotient is scaled up first so that its
whole part has digits; no positive double is below `10 ^ -400`. -/
def leadingExponent (numerator denominator : Nat) : Int :=
  ((digitsOf (numerator * Nat.pow 10 400 / denominator)).length : Int) - 401

/-- A quotient counted in steps of `10 ^ exponent`, as a quotient again. -/
def inSteps (numerator denominator : Nat) (exponent : Int) : Nat × Nat :=
  if 0 ≤ exponent then (numerator, denominator * Nat.pow 10 exponent.toNat)
  else (numerator * Nat.pow 10 exponent.natAbs, denominator)

/-- The two whole numbers around a quotient, the nearer first; of two equally near, the even. -/
def neighbours (numerator denominator : Nat) : List Nat :=
  let lower := numerator / denominator
  let twice := 2 * (numerator % denominator)
  if twice < denominator || (twice = denominator && lower % 2 = 0) then [lower, lower + 1]
  else [lower + 1, lower]

/-- The first grid numeral of `count` digits around the value that reads back as the bits. -/
def readingBack? (bits : Nat) (numerator denominator : Nat) (exponent : Int) : Option Numeral :=
  let (a, b) := inSteps numerator denominator exponent
  ((neighbours a b).map fun digits => ⟨digits, exponent⟩).find? fun numeral : Numeral =>
    numeral.toFloat.toBits.toNat = bits

/-- All the digits of `m * 2 ^ e`. -/
def exact (significand : Nat) (exponent : Int) : Numeral :=
  if 0 ≤ exponent then ⟨significand * Nat.pow 2 exponent.toNat, 0⟩
  else ⟨significand * Nat.pow 5 exponent.natAbs, exponent⟩

/-- The grid numeral with the fewest digits, one to seventeen, that reads back as the bits. -/
def search? (bits numerator denominator : Nat) : Option Numeral :=
  (List.range 17).findSome? fun (more : Nat) =>
    readingBack? bits numerator denominator (leadingExponent numerator denominator - more)

/-- The shortest numeral of the positive double `m * 2 ^ e` with the given bits.  Seventeen digits
always read back; all digits are the answer to a search that finds none. -/
def shortest (bits significand : Nat) (exponent : Int) : Numeral :=
  let (numerator, denominator) := quotient significand exponent
  (search? bits numerator denominator).getD (exact significand exponent)

/-- What the search on one grid finds reads back. -/
theorem toFloat_of_readingBack? {bits a b : Nat} {k : Int} {numeral : Numeral}
    (h : readingBack? bits a b k = some numeral) : numeral.toFloat.toBits.toNat = bits := by
  have := List.find?_some h
  simpa using this

/-- What the search on all grids finds reads back. -/
theorem toFloat_of_search? {bits a b : Nat} {numeral : Numeral}
    (h : search? bits a b = some numeral) : numeral.toFloat.toBits.toNat = bits := by
  obtain ⟨n, _, hn⟩ := List.exists_of_findSome?_eq_some h
  exact toFloat_of_readingBack? hn

/-- The shortest numeral reads back as its double, or else it has all the digits. -/
theorem toFloat_shortest (bits m : Nat) (e : Int) :
    (shortest bits m e).toFloat.toBits.toNat = bits ∨ shortest bits m e = exact m e := by
  unfold shortest
  cases h : search? bits (quotient m e).1 (quotient m e).2 with
  | none => exact .inr (by simp [h])
  | some numeral => exact .inl (by simpa [h] using toFloat_of_search? h)

end EventDeck.Decimal
