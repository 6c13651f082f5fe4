import Mathlib.Data.Int.Log
import Mathlib.Data.Rat.Floor
import Mathlib.Tactic.FieldSimp
import Mathlib.Tactic.Linarith
import Mathlib.Tactic.Positivity
import Mathlib.Tactic.Ring

/-!
# Rounding to doubles

The doubles around a number form a grid: they have at most fifty-three binary digits, and their distance
is a power of two that depends on the magnitude of the number and is not below `2 ^ -1074`.  `nearest`
takes a number to the nearest point of its grid, and of two equally near to the one that is an even
number of steps from zero.  No number is too large for this; that doubles end is not a matter of rounding.

The main statements are `nearest_mono`, that rounding keeps the order, and `nearest_eq_self`, that it
leaves the points of the grids alone.  So a number is rounded past no point of a grid.
-/

namespace EventDeck.Decimal

variable {q r : ℚ}

/-! ## Whole numbers -/

/-- The nearest whole number; of two equally near, the even. -/
def nearestInt (q : ℚ) : ℤ :=
  if Int.fract q < 1 / 2 then ⌊q⌋
  else if 1 / 2 < Int.fract q then ⌊q⌋ + 1
  else ⌊q⌋ + ⌊q⌋ % 2

/-- A whole number is nearest to a number: nearer than any other, or even and one of two. -/
def IsNearestInt (q : ℚ) (n : ℤ) : Prop :=
  |q - n| < 1 / 2 ∨ |q - n| = 1 / 2 ∧ n % 2 = 0

/-- The nearest whole number is half a step away at most. -/
theorem IsNearestInt.abs_sub_le {n : ℤ} (h : IsNearestInt q n) : |q - n| ≤ 1 / 2 :=
  h.elim le_of_lt fun h => h.1.le

/-- Rounding to whole numbers is to the nearest, and to the even one of two. -/
theorem isNearestInt_nearestInt (q : ℚ) : IsNearestInt q (nearestInt q) := by
  have hfloor : q = ⌊q⌋ + Int.fract q := (Int.floor_add_fract q).symm
  have hlow := Int.fract_nonneg q
  have hhigh := Int.fract_lt_one q
  unfold nearestInt
  split_ifs with hless hmore
  · left
    rw [abs_lt]
    constructor <;> linarith
  · left
    rw [abs_lt]
    push_cast
    constructor <;> linarith
  · have hhalf : Int.fract q = 1 / 2 := le_antisymm (not_lt.mp hmore) (not_lt.mp hless)
    right
    refine ⟨?_, by omega⟩
    rcases Int.emod_two_eq_zero_or_one ⌊q⌋ with heven | hodd
    · rw [heven, add_zero, abs_of_nonneg] <;> linarith
    · rw [hodd, Int.cast_add, Int.cast_one, abs_of_nonpos] <;> linarith

/-- Nearest whole numbers are in the order of the numbers. -/
theorem IsNearestInt.mono {n m : ℤ} (hq : IsNearestInt q n) (hr : IsNearestInt r m) (h : q ≤ r) :
    n ≤ m := by
  by_contra hnot
  have hstep : (m : ℚ) + 1 ≤ n := by exact_mod_cast Int.add_one_le_iff.mpr (not_le.mp hnot)
  have hlow := abs_le.mp hq.abs_sub_le
  have hhigh := abs_le.mp hr.abs_sub_le
  -- both are a half away and so even, but they follow each other
  have hn : (n : ℚ) = m + 1 := by linarith
  have hq' : q - n = -(1 / 2) := by linarith
  have hr' : r - m = 1 / 2 := by linarith
  have hneven : n % 2 = 0 := by
    rcases hq with hless | ⟨-, heven⟩
    · rw [hq', abs_neg] at hless
      norm_num at hless
    · exact heven
  have hmeven : m % 2 = 0 := by
    rcases hr with hless | ⟨-, heven⟩
    · rw [hr'] at hless
      norm_num at hless
    · exact heven
  have hsucc : n = m + 1 := by exact_mod_cast hn
  omega

/-- Rounding to whole numbers keeps the order. -/
theorem nearestInt_mono (h : q ≤ r) : nearestInt q ≤ nearestInt r :=
  (isNearestInt_nearestInt q).mono (isNearestInt_nearestInt r) h

/-- There is only one nearest whole number, ties having been decided. -/
theorem IsNearestInt.eq {n : ℤ} (h : IsNearestInt q n) : nearestInt q = n :=
  le_antisymm ((isNearestInt_nearestInt q).mono h le_rfl) (h.mono (isNearestInt_nearestInt q) le_rfl)

@[simp] theorem nearestInt_intCast (n : ℤ) : nearestInt n = n :=
  IsNearestInt.eq (.inl (by simp))

@[simp] theorem nearestInt_neg (q : ℚ) : nearestInt (-q) = -nearestInt q := by
  have habs : |-q - ((-nearestInt q : ℤ) : ℚ)| = |q - nearestInt q| := by
    rw [Int.cast_neg, ← abs_neg]
    congr 1
    ring
  refine IsNearestInt.eq ?_
  rcases isNearestInt_nearestInt q with h | ⟨h, heven⟩
  · exact .inl (habs ▸ h)
  · exact .inr ⟨habs ▸ h, by omega⟩

/-! ## Grids -/

/-- The exponent of the distance of the doubles around a number. -/
def gridExponent (q : ℚ) : ℤ :=
  max (Int.log 2 |q| - 52) (-1074)

/-- The nearest point of the grid of doubles around a number; of two equally near, the even. -/
def nearest (q : ℚ) : ℚ :=
  nearestInt (q / 2 ^ gridExponent q) * 2 ^ gridExponent q

/-- A point of a grid of doubles. -/
def OnGrid (q : ℚ) : Prop :=
  ∃ m e : ℤ, |m| ≤ 2 ^ 53 ∧ -1074 ≤ e ∧ q = m * 2 ^ e

theorem two_zpow_pos (e : ℤ) : (0 : ℚ) < 2 ^ e :=
  zpow_pos two_pos e

theorem two_zpow_add (e f : ℤ) : (2 : ℚ) ^ (e + f) = 2 ^ e * 2 ^ f :=
  zpow_add₀ two_ne_zero e f

theorem two_zpow_le {e f : ℤ} (h : e ≤ f) : (2 : ℚ) ^ e ≤ 2 ^ f :=
  zpow_le_zpow_right₀ one_le_two h

/-- No grid is finer than that of the smallest doubles. -/
theorem le_gridExponent (q : ℚ) : -1074 ≤ gridExponent q := le_max_right _ _

@[simp] theorem gridExponent_neg (q : ℚ) : gridExponent (-q) = gridExponent q := by
  rw [gridExponent, abs_neg, gridExponent]

/-- Grids become coarser with the magnitude. -/
theorem gridExponent_mono (hq : q ≠ 0) (h : |q| ≤ |r|) : gridExponent q ≤ gridExponent r :=
  max_le_max_right _ (Int.sub_le_sub_right (Int.log_mono_right (abs_pos.mpr hq) h) _)

/-- A number has at most fifty-three binary digits before the steps of its grid. -/
theorem abs_lt_gridExponent (q : ℚ) : |q| < 2 ^ (gridExponent q + 53) := by
  have hlog : |q| < 2 ^ (Int.log 2 |q| + 1) := by
    exact_mod_cast Int.lt_zpow_succ_log_self (b := 2) (by decide) |q|
  have hexponent : Int.log 2 |q| + 1 ≤ gridExponent q + 53 := by
    have := le_max_left (Int.log 2 |q| - 52) (-1074)
    rw [gridExponent]
    omega
  exact hlog.trans_le (two_zpow_le hexponent)

/-- Unless its grid is the finest, a number has no fewer of them. -/
theorem gridExponent_le_abs (hq : q ≠ 0) (h : -1074 < gridExponent q) :
    2 ^ (gridExponent q + 52) ≤ |q| := by
  have hlog : (2 : ℚ) ^ Int.log 2 |q| ≤ |q| := by
    exact_mod_cast Int.zpow_log_le_self (b := 2) (by decide) (abs_pos.mpr hq)
  have hexponent : gridExponent q + 52 = Int.log 2 |q| := by
    rw [gridExponent] at h ⊢
    omega
  rwa [hexponent]

/-- A number with more than 52 steps of a grid has no finer grid of its own. -/
theorem le_gridExponent_of_le {e : ℤ} (hq : q ≠ 0) (h : 2 ^ (e + 52) ≤ |q|) :
    e ≤ gridExponent q := by
  have hlog : e + 52 ≤ Int.log 2 |q| := by
    rw [← Int.zpow_le_iff_le_log (b := 2) (by decide) (abs_pos.mpr hq)]
    exact_mod_cast h
  exact (by omega : e ≤ Int.log 2 |q| - 52).trans (le_max_left _ _)

/-- The grid around a number that is less than a power of two. -/
theorem gridExponent_le {e : ℤ} (he : -1074 ≤ e) (hq : q ≠ 0) (h : |q| < 2 ^ (e + 53)) :
    gridExponent q ≤ e := by
  by_contra hnot
  have hlow := gridExponent_le_abs hq (he.trans_lt (not_le.mp hnot))
  have hpower : (2 : ℚ) ^ (e + 53) ≤ 2 ^ (gridExponent q + 52) := two_zpow_le (by omega)
  linarith

/-! ## Rounding -/

@[simp] theorem nearest_zero : nearest 0 = 0 := by
  rw [nearest, zero_div, ← Int.cast_zero, nearestInt_intCast, Int.cast_zero, zero_mul]

/-- Rounding does not depend on the sign. -/
@[simp] theorem nearest_neg (q : ℚ) : nearest (-q) = -nearest q := by
  rw [nearest, gridExponent_neg, neg_div, nearestInt_neg, Int.cast_neg, neg_mul, nearest]

/-- Rounding moves a number by half a step at most. -/
theorem abs_sub_nearest_le (q : ℚ) : |q - nearest q| ≤ 2 ^ gridExponent q / 2 := by
  have hstep := two_zpow_pos (gridExponent q)
  have hscaled : q - nearest q =
      (q / 2 ^ gridExponent q - nearestInt (q / 2 ^ gridExponent q)) * 2 ^ gridExponent q := by
    rw [nearest, sub_mul, div_mul_cancel₀ _ hstep.ne']
  have hhalf := (isNearestInt_nearestInt (q / 2 ^ gridExponent q)).abs_sub_le
  rw [hscaled, abs_mul, abs_of_pos hstep]
  calc _ ≤ 1 / 2 * 2 ^ gridExponent q := mul_le_mul_of_nonneg_right hhalf hstep.le
    _ = _ := by ring

/-- Rounding may reach the next power of two, but does not go beyond it. -/
theorem abs_nearestInt_le (q : ℚ) : |nearestInt (q / 2 ^ gridExponent q)| ≤ 2 ^ 53 := by
  have hstep := two_zpow_pos (gridExponent q)
  have hlt := abs_lt.mp (abs_lt_gridExponent q)
  rw [two_zpow_add, mul_comm] at hlt
  have hhigh : q / 2 ^ gridExponent q ≤ ((2 ^ 53 : ℤ) : ℚ) := by
    rw [div_le_iff₀ hstep]
    push_cast
    exact hlt.2.le
  have hlow : ((-2 ^ 53 : ℤ) : ℚ) ≤ q / 2 ^ gridExponent q := by
    rw [le_div_iff₀ hstep]
    push_cast
    linarith [hlt.1]
  have hlow' := nearestInt_mono hlow
  have hhigh' := nearestInt_mono hhigh
  rw [nearestInt_intCast] at hlow' hhigh'
  exact abs_le.mpr ⟨hlow', hhigh'⟩

/-- What is rounded is a point of the grid. -/
theorem onGrid_nearest (q : ℚ) : OnGrid (nearest q) :=
  ⟨_, _, abs_nearestInt_le q, le_gridExponent q, rfl⟩

theorem onGrid_neg (h : OnGrid q) : OnGrid (-q) := by
  obtain ⟨m, e, hm, he, rfl⟩ := h
  exact ⟨-m, e, by rwa [abs_neg], he, by push_cast; ring⟩

/-- A point of a grid is a whole number of steps of its own grid. -/
theorem exists_steps (h : OnGrid q) : ∃ k : ℤ, q = k * 2 ^ gridExponent q := by
  obtain ⟨m, e, hm, he, rfl⟩ := h
  -- a significand of 53 bits is a count of steps, and one of 2 ^ 53 is a power of two
  by_cases hzero : (m : ℚ) * 2 ^ e = 0
  · exact ⟨0, by rw [hzero]; simp⟩
  have hmagnitude : |(m : ℚ) * 2 ^ e| = (|m| : ℤ) * 2 ^ e := by
    rw [abs_mul, abs_of_pos (two_zpow_pos e), Int.cast_abs]
  rcases hm.lt_or_eq with hlt | heq
  · -- the steps of the own grid are the same or finer
    have hfine : gridExponent (m * 2 ^ e) ≤ e := by
      refine gridExponent_le he hzero ?_
      rw [hmagnitude, add_comm, two_zpow_add]
      have hcast : ((|m| : ℤ) : ℚ) < 2 ^ (53 : ℤ) := by exact_mod_cast hlt
      exact mul_lt_mul_of_pos_right hcast (two_zpow_pos e)
    obtain ⟨k, hk⟩ := Int.le.dest hfine
    refine ⟨m * 2 ^ k, ?_⟩
    conv_lhs => rw [← hk, two_zpow_add, zpow_natCast]
    push_cast
    ring
  · -- a power of two, whose own grid may be one step coarser
    have hfine : gridExponent (m * 2 ^ e) ≤ e + 1 := by
      refine gridExponent_le (by omega) hzero ?_
      rw [hmagnitude, heq]
      have hpower : (((2 : ℤ) ^ 53 : ℤ) : ℚ) * 2 ^ e = 2 ^ (e + 53) := by
        rw [add_comm, two_zpow_add]
        norm_num
      rw [hpower]
      exact zpow_lt_zpow_right₀ one_lt_two (by omega)
    obtain ⟨k, hk⟩ := Int.le.dest hfine
    have heven : m = 2 * (m / 2) := by
      rcases abs_eq (by norm_num : (0 : ℤ) ≤ 2 ^ 53) |>.mp heq with rfl | rfl <;> norm_num
    refine ⟨m / 2 * 2 ^ k, ?_⟩
    have hsplit : (2 : ℚ) ^ e * 2 = 2 ^ gridExponent (m * 2 ^ e) * 2 ^ k := by
      rw [← zpow_natCast, ← two_zpow_add, hk, two_zpow_add, zpow_one]
    have hcast : (m : ℚ) = 2 * ((m / 2 : ℤ) : ℚ) := by exact_mod_cast heven
    calc (m : ℚ) * 2 ^ e = ((m / 2 : ℤ) : ℚ) * (2 ^ e * 2) := by
          conv_lhs => rw [hcast]
          ring
      _ = _ := by
          rw [hsplit]
          push_cast
          ring

/-- Rounding leaves the points of grids alone. -/
theorem nearest_eq_self (h : OnGrid q) : nearest q = q := by
  obtain ⟨k, hk⟩ := exists_steps h
  have hsteps : q / 2 ^ gridExponent q = k := by
    rw [div_eq_iff (two_zpow_pos _).ne']
    exact hk
  rw [nearest, hsteps, nearestInt_intCast, ← hk]

/-- Rounding keeps signs. -/
theorem nearest_nonneg (h : 0 ≤ q) : 0 ≤ nearest q := by
  have hsteps : ((0 : ℤ) : ℚ) ≤ q / 2 ^ gridExponent q := by
    simpa using div_nonneg h (two_zpow_pos (gridExponent q)).le
  have hint := nearestInt_mono hsteps
  rw [nearestInt_intCast] at hint
  exact mul_nonneg (by exact_mod_cast hint) (two_zpow_pos _).le

/-- Rounding keeps the order of numbers above zero. -/
theorem nearest_mono_of_pos (hq : 0 < q) (h : q ≤ r) : nearest q ≤ nearest r := by
  have hr : 0 < r := hq.trans_le h
  have hgrid : gridExponent q ≤ gridExponent r :=
    gridExponent_mono hq.ne' (by rwa [abs_of_pos hq, abs_of_pos hr])
  -- On different grids the power of two between them keeps the results apart; on one grid it is the
  -- order of the whole numbers.
  rcases hgrid.lt_or_eq with hcoarser | hsame
  · -- a power of two lies between the numbers, and it is a point of both grids
    have hlow : nearest q ≤ 2 ^ (gridExponent q + 53) := by
      have hsteps := (abs_le.mp (abs_nearestInt_le q)).2
      rw [nearest, add_comm, two_zpow_add]
      refine mul_le_mul_of_nonneg_right ?_ (two_zpow_pos _).le
      exact_mod_cast hsteps
    have hhigh : 2 ^ (gridExponent r + 52) ≤ nearest r := by
      have hmagnitude := gridExponent_le_abs hr.ne' ((le_gridExponent q).trans_lt hcoarser)
      rw [abs_of_pos hr, add_comm, two_zpow_add] at hmagnitude
      have hsteps : ((2 ^ 52 : ℤ) : ℚ) ≤ r / 2 ^ gridExponent r := by
        rw [le_div_iff₀ (two_zpow_pos _)]
        exact_mod_cast hmagnitude
      have hint := nearestInt_mono hsteps
      rw [nearestInt_intCast] at hint
      rw [nearest, add_comm, two_zpow_add]
      refine mul_le_mul_of_nonneg_right ?_ (two_zpow_pos _).le
      exact_mod_cast hint
    exact hlow.trans ((two_zpow_le (by omega)).trans hhigh)
  · have hsteps := div_le_div_of_nonneg_right h (two_zpow_pos (gridExponent r)).le
    rw [nearest, nearest, hsame]
    refine mul_le_mul_of_nonneg_right ?_ (two_zpow_pos _).le
    exact_mod_cast nearestInt_mono hsteps

/-- Rounding keeps the order of numbers. -/
theorem nearest_mono (h : q ≤ r) : nearest q ≤ nearest r := by
  rcases lt_trichotomy 0 q with hq | rfl | hq
  · exact nearest_mono_of_pos hq h
  · simpa using nearest_nonneg h
  · rcases le_or_gt 0 r with hr | hr
    · have hneg := nearest_nonneg (neg_nonneg.mpr hq.le)
      rw [nearest_neg] at hneg
      linarith [nearest_nonneg hr]
    · have hneg := nearest_mono_of_pos (neg_pos.mpr hr) (neg_le_neg h)
      rw [nearest_neg, nearest_neg] at hneg
      linarith

/-- A number is rounded past no point of a grid from below. -/
theorem nearest_le (hr : OnGrid r) (h : q ≤ r) : nearest q ≤ r := by
  have hmono := nearest_mono h
  rwa [nearest_eq_self hr] at hmono

/-- A number is rounded past no point of a grid from above. -/
theorem le_nearest (hr : OnGrid r) (h : r ≤ q) : r ≤ nearest q := by
  have hmono := nearest_mono h
  rwa [nearest_eq_self hr] at hmono

/-- A number below half of the finest step is rounded to zero. -/
theorem nearest_eq_zero (hq : 0 ≤ q) (h : q < 2 ^ (-1075 : ℤ)) : nearest q = 0 := by
  rcases hq.eq_or_lt with rfl | hpos
  · exact nearest_zero
  have hgrid : gridExponent q = -1074 := by
    refine le_antisymm (gridExponent_le le_rfl hpos.ne' ?_) (le_gridExponent q)
    rw [abs_of_pos hpos]
    exact h.trans_le (two_zpow_le (by norm_num))
  have hhalf : q / 2 ^ (-1074 : ℤ) < 1 / 2 := by
    rw [div_lt_iff₀ (two_zpow_pos _)]
    calc q < 2 ^ (-1 + -1074 : ℤ) := h
      _ = 1 / 2 * 2 ^ (-1074 : ℤ) := by
        rw [two_zpow_add]
        norm_num
  have hzero : nearestInt (q / 2 ^ (-1074 : ℤ)) = 0 := by
    refine IsNearestInt.eq (.inl ?_)
    rw [Int.cast_zero, sub_zero, abs_of_nonneg (div_nonneg hq (two_zpow_pos _).le)]
    exact hhalf
  rw [nearest, hgrid, hzero, Int.cast_zero, zero_mul]

/-- Rounding makes a number greater by a part of `2 ^ -53` of it at most, unless it is tiny; so it does
not make up for a part of `2 ^ -53` that has been taken off a number. -/
theorem nearest_lt (hq : 0 ≤ q) (hr : 1 ≤ r) (h : q ≤ r * (1 - 2 ^ (-53 : ℤ))) : nearest q < r := by
  rcases hq.eq_or_lt with rfl | hpos
  · rw [nearest_zero]
    linarith
  have hround : nearest q ≤ q + 2 ^ gridExponent q / 2 := by
    linarith [(abs_le.mp (abs_sub_nearest_le q)).1]
  have hunit : (0 : ℚ) < 2 ^ (-53 : ℤ) := two_zpow_pos _
  -- Half a step is at most a part of 2 ^ -53 of the number, unless the grid is the finest one; there it
  -- is less than 2 ^ -53.
  rcases (le_gridExponent q).lt_or_eq with hgrid | hgrid
  · have hmagnitude := gridExponent_le_abs hpos.ne' hgrid
    rw [abs_of_pos hpos] at hmagnitude
    have hhalf : (2 : ℚ) ^ gridExponent q / 2 = 2 ^ (gridExponent q + 52) * 2 ^ (-53 : ℤ) := by
      rw [← two_zpow_add, div_eq_mul_inv, ← zpow_neg_one, ← two_zpow_add]
      congr 1
      ring
    have hpart : (2 : ℚ) ^ gridExponent q / 2 ≤ q * 2 ^ (-53 : ℤ) := by
      rw [hhalf]
      exact mul_le_mul_of_nonneg_right hmagnitude hunit.le
    generalize (2 : ℚ) ^ (-53 : ℤ) = unit at *
    calc nearest q ≤ q * (1 + unit) := by linarith
      _ ≤ r * (1 - unit) * (1 + unit) := mul_le_mul_of_nonneg_right h (by linarith)
      _ < r := by nlinarith [mul_pos hunit hunit]
  · have hhalf : (2 : ℚ) ^ gridExponent q / 2 < 2 ^ (-53 : ℤ) := by
      rw [← hgrid, div_eq_mul_inv, ← zpow_neg_one, ← two_zpow_add]
      exact zpow_lt_zpow_right₀ one_lt_two (by norm_num)
    have hpart := mul_le_mul_of_nonneg_right hr hunit.le
    generalize (2 : ℚ) ^ (-53 : ℤ) = unit at *
    linarith

/-- The least number that is too great is half a step below `2 ^ 1024`. -/
theorem nearest_lt_two_zpow (h : q < 2 ^ (1024 : ℤ) - 2 ^ (970 : ℤ)) : nearest q < 2 ^ (1024 : ℤ) := by
  rcases le_or_gt q (2 ^ (1023 : ℤ)) with hsmall | hlarge
  · exact (nearest_le ⟨1, 1023, by norm_num, by norm_num, by simp⟩ hsmall).trans_lt
      (zpow_lt_zpow_right₀ one_lt_two (by norm_num))
  have hpos : 0 < q := (two_zpow_pos _).trans hlarge
  -- such a number is on the grid of the greatest doubles, half a step and more below the next power of
  -- two
  have hgrid : gridExponent q = 971 := by
    have hlow : (2 : ℚ) ^ ((971 : ℤ) + 52) ≤ |q| := by
      rw [abs_of_pos hpos]
      exact hlarge.le
    have hhigh : |q| < 2 ^ ((971 : ℤ) + 53) := by
      rw [abs_of_pos hpos]
      exact h.trans (sub_lt_self _ (two_zpow_pos _))
    exact le_antisymm (gridExponent_le (by norm_num) hpos.ne' hhigh)
      (le_gridExponent_of_le hpos.ne' hlow)
  have hsplit : (2 : ℚ) ^ (1024 : ℤ) - 2 ^ (970 : ℤ) = (2 ^ 53 - 1 / 2) * 2 ^ (971 : ℤ) := by
    have hsteps : (2 : ℚ) ^ (53 : ℤ) - 2 ^ (-1 : ℤ) = 2 ^ 53 - 1 / 2 := by norm_num
    rw [show (1024 : ℤ) = 53 + 971 by norm_num, two_zpow_add,
      show (970 : ℤ) = -1 + 971 by norm_num, two_zpow_add, ← sub_mul, hsteps]
  have hsteps : q / 2 ^ (971 : ℤ) < 2 ^ 53 - 1 / 2 := by
    rw [div_lt_iff₀ (two_zpow_pos _), ← hsplit]
    exact h
  have hint : nearestInt (q / 2 ^ (971 : ℤ)) < 2 ^ 53 := by
    have hclose := (abs_le.mp (isNearestInt_nearestInt (q / 2 ^ (971 : ℤ))).abs_sub_le).1
    have hcast : (nearestInt (q / 2 ^ (971 : ℤ)) : ℚ) < 2 ^ 53 := by linarith
    exact_mod_cast hcast
  rw [nearest, hgrid, show (1024 : ℤ) = 53 + 971 by norm_num, two_zpow_add]
  exact mul_lt_mul_of_pos_right (by exact_mod_cast hint) (two_zpow_pos _)

/-- Powers of two are points of the grid. -/
theorem onGrid_two_zpow {e : ℤ} (he : -1074 ≤ e) : OnGrid (2 ^ e) :=
  ⟨1, e, by norm_num, he, by simp⟩

end EventDeck.Decimal
