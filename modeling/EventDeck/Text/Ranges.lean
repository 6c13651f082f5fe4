/-!
# Tables of character ranges

A property of characters that no short rule describes is written as a table of closed ranges of
code points, in increasing order.  Membership is a search through the table; the properties that
use one decide ASCII characters first, so that only other characters pay for the search.
-/

namespace EventDeck.Text

/-- A closed range of code points, its first and its last. -/
abbrev CodeRange := Nat × Nat

/-- A character is in a table when its code point lies in one of the ranges. -/
def inRanges (table : List CodeRange) (c : Char) : Bool :=
  table.any fun range => range.1 ≤ c.toNat && c.toNat ≤ range.2

theorem inRanges_iff {table : List CodeRange} {c : Char} :
    inRanges table c = true ↔ ∃ range ∈ table, range.1 ≤ c.toNat ∧ c.toNat ≤ range.2 := by
  simp [inRanges]

end EventDeck.Text
