import Mathlib

/-!
# The order of doubles

Not-a-number is not comparable with anything; any two other doubles are (`le_iff`).
-/

namespace EventDeck.Decimal

open Float.Model

variable {x y : Float} {a b : UnpackedFloat}

/-- Comparing the other way round gives the opposite. -/
theorem compare_swap (a b : UnpackedFloat) : b.compare a = (a.compare b).map Ordering.swap := by
  have hsize : ∀ (e f : Int) (m n : Nat), (compare f e).then (compare n m) =
      ((compare e f).then (compare m n)).swap := by
    intro e f m n
    rw [Ordering.swap_then, ← Std.OrientedOrd.eq_swap, ← Std.OrientedOrd.eq_swap]
  rcases a with (_ | _) | _ | (_ | _) | ⟨_ | _, m, e, _⟩ <;>
    rcases b with (_ | _) | _ | (_ | _) | ⟨_ | _, n, f, _⟩ <;>
    first
    | rfl
    | exact congrArg some (hsize ..)
    | exact congrArg some (congrArg Ordering.swap (hsize ..))

/-- Only what is not a number cannot be compared. -/
theorem compare_eq_none_iff : a.compare b = none ↔ a.isNaN ∨ b.isNaN := by
  rcases a with (_ | _) | _ | (_ | _) | ⟨_ | _, m, e, _⟩ <;>
    rcases b with (_ | _) | _ | (_ | _) | ⟨_ | _, n, f, _⟩ <;>
    simp [UnpackedFloat.compare]

/-- The order and the equality of doubles are read off one comparison. -/
theorem lt_iff_compare : x < y ↔ x.toModel.unpack.compare y.toModel.unpack = some .lt := by
  change decide (x.toModel < y.toModel) = true ↔ _
  rw [decide_eq_true_iff]
  change (x.toModel.unpack.compare y.toModel.unpack == some .lt) = true ↔ _
  exact beq_iff_eq

theorem le_iff_compare :
    x ≤ y ↔ ∃ order, x.toModel.unpack.compare y.toModel.unpack = some order ∧ order.isLE := by
  change decide (x.toModel ≤ y.toModel) = true ↔ _
  rw [decide_eq_true_iff]
  change ((x.toModel.unpack.compare y.toModel.unpack).any (·.isLE)) = true ↔ _
  cases x.toModel.unpack.compare y.toModel.unpack <;> simp

theorem beq_iff_compare :
    (x == y) = true ↔ x.toModel.unpack.compare y.toModel.unpack = some .eq := by
  change (x.toModel.unpack.compare y.toModel.unpack == some .eq) = true ↔ _
  exact beq_iff_eq

/-- A double is not less than itself. -/
theorem not_lt_self (x : Float) : ¬x < x := by
  intro h
  have hswap := compare_swap x.toModel.unpack x.toModel.unpack
  rw [lt_iff_compare.mp h] at hswap
  cases hswap

/-- Doubles are in order unless one of them is not a number or they are in the opposite order. -/
theorem le_iff : x ≤ y ↔ x.isNaN = false ∧ y.isNaN = false ∧ ¬y < x := by
  have hnone := compare_eq_none_iff (a := x.toModel.unpack) (b := y.toModel.unpack)
  rw [le_iff_compare, lt_iff_compare, compare_swap x.toModel.unpack]
  change _ ↔ x.toModel.unpack.isNaN = false ∧ y.toModel.unpack.isNaN = false ∧ _
  cases hcompare : x.toModel.unpack.compare y.toModel.unpack with
  | none =>
    rcases hnone.mp hcompare with h | h <;> simp [h]
  | some order =>
    have hnumbers : ¬(x.toModel.unpack.isNaN ∨ y.toModel.unpack.isNaN) := fun h => by
      rw [hnone.mpr h] at hcompare
      cases hcompare
    rw [not_or, Bool.not_eq_true, Bool.not_eq_true] at hnumbers
    simp only [hnumbers, true_and, Option.some.injEq, exists_eq_left', Option.map_some]
    cases order <;> decide

/-! ## Not-a-number -/

/-- What is not a number, in the form of the library. -/
theorem isNaN_iff : x.isNaN ↔ x.toModel.unpack = .notANumber :=
  UnpackedFloat.isNaN_iff

/-- What is computed to be not-a-number is so when it has been packed. -/
theorem isNaN_pack {result : UnpackedFloat} (h : result = .notANumber) :
    (Float.ofModel (pack result)).isNaN := by
  rw [h]
  decide

theorem isNaN_abs (h : x.isNaN) : x.abs.isNaN := by
  refine isNaN_pack ?_
  rw [isNaN_iff.mp h]
  rfl

/-- A difference from what is not a number is not one. -/
theorem isNaN_sub (h : x.isNaN ∨ y.isNaN) : (x - y).isNaN := by
  refine isNaN_pack ?_
  rcases h with h | h
  · rw [isNaN_iff.mp h]
    cases y.toModel.unpack <;> rfl
  · rw [isNaN_iff.mp h]
    cases x.toModel.unpack <;> rfl

/-- Not-a-number is not less than anything, and nothing is less than it. -/
theorem not_lt_of_isNaN (h : x.isNaN ∨ y.isNaN) : ¬x < y := by
  rw [lt_iff_compare, compare_eq_none_iff.mpr h]
  exact nofun

/-- What is in an order is a number. -/
theorem not_isNaN_of_lt (h : x < y) : x.isNaN = false ∧ y.isNaN = false := by
  by_contra hnot
  rw [← Bool.not_eq_true, ← Bool.not_eq_true, ← not_or, not_not] at hnot
  exact not_lt_of_isNaN hnot h

/-- What is not a number equals nothing, not even itself. -/
theorem not_beq_of_isNaN (h : x.isNaN ∨ y.isNaN) : (x == y) = false := by
  rw [Float.isNaN_eq_decide_eq_nan, Float.isNaN_eq_decide_eq_nan, decide_eq_true_iff,
    decide_eq_true_iff] at h
  rcases h with rfl | rfl
  · exact Float.nan_beq_eq_false y
  · exact Float.beq_nan_eq_false x

end EventDeck.Decimal
