import EventDeck.Proofs.Decimal.Arithmetic
import EventDeck.Proofs.Game.Checked

/-!
# Numbers drawn between two bounds

A number is drawn between two bounds by adding to the lower one a part of their distance.  The distance,
the part of it and the sum are rounded one after the other.  The part stays below the distance, and so
the sum that is rounded last is below the upper bound (`add_share_lt`), but it may be so near to it that it
is rounded to it.  Between whole numbers on both sides of zero this does not happen.  The main statement
is `run_randomBetween_ofInt`.

Between finite bounds whose distance is finite everything that is computed is finite
(`rational_between`).
-/

namespace EventDeck

open Game Decimal

namespace Decimal

/-! ## The unit interval -/

/-- A number of the half-open unit interval. -/
structure InUnit (u : Float) : Prop where
  nonneg : 0.0 ≤ u
  lt_one : u < 1.0

variable {u low high : Float}

theorem rational_zero : isFinite 0.0 = true ∧ rational 0.0 = 0 := by
  have h := rational_of_whole? (x := 0.0) (k := 0) (by decide +kernel)
  rwa [Int.cast_zero] at h

theorem rational_one : isFinite 1.0 = true ∧ rational 1.0 = 1 := by
  have h := rational_of_whole? (x := 1.0) (k := 1) (by decide +kernel)
  rwa [Int.cast_one] at h

theorem InUnit.isFinite (h : InUnit u) : isFinite u = true :=
  isFinite_of_between rational_zero.1 rational_one.1 h.nonneg h.lt_one

theorem InUnit.rational_nonneg (h : InUnit u) : 0 ≤ rational u := by
  have hle := (le_iff_rational rational_zero.1 h.isFinite).1 h.nonneg
  rwa [rational_zero.2] at hle

/-- The last double below one is `2 ^ -53` below it. -/
theorem InUnit.rational_le (h : InUnit u) : rational u ≤ 1 - 2 ^ (-53 : ℤ) := by
  have hlt := (lt_iff_rational h.isFinite rational_one.1).1 h.lt_one
  rw [rational_one.2] at hlt
  have hnonneg := h.rational_nonneg
  obtain ⟨k, hk⟩ := exists_steps (onGrid_rational u)
  rcases hnonneg.eq_or_lt with hzero | hpos
  · rw [← hzero]
    norm_num
  have hgrid : gridExponent (rational u) ≤ -53 := by
    refine gridExponent_le (by norm_num) hpos.ne' ?_
    rw [abs_of_pos hpos]
    exact hlt
  -- below one half there is nothing to show; above it the number is a whole number of steps of 2 ^ -53
  rcases hgrid.lt_or_eq with hfine | hcoarse
  · have hhalf := abs_lt_gridExponent (rational u)
    rw [abs_of_pos hpos] at hhalf
    have hpower : (2 : ℚ) ^ (gridExponent (rational u) + 53) ≤ 2 ^ (-1 : ℤ) := two_zpow_le (by omega)
    norm_num at hpower ⊢
    linarith
  · rw [hcoarse] at hk
    have hstep : (k : ℚ) < 2 ^ 53 := by
      rw [hk, zpow_neg, ← div_eq_mul_inv, div_lt_one (two_zpow_pos _)] at hlt
      exact_mod_cast hlt
    have hle : (k : ℚ) ≤ 2 ^ 53 - 1 := by
      have hint : k ≤ 2 ^ 53 - 1 := Int.le_sub_one_of_lt (by exact_mod_cast hstep)
      exact_mod_cast hint
    rw [hk]
    calc (k : ℚ) * 2 ^ (-53 : ℤ) ≤ (2 ^ 53 - 1) * 2 ^ (-53 : ℤ) :=
          mul_le_mul_of_nonneg_right hle (two_zpow_pos _).le
      _ = 1 - 2 ^ (-53 : ℤ) := by norm_num

/-! ## Parts of a distance -/

/-- A part of a distance, rounded. -/
def share (u : Float) (distance : ℚ) : ℚ :=
  nearest (rational u * distance)

theorem share_nonneg (hu : InUnit u) {d : ℚ} (hd : 0 ≤ d) : 0 ≤ share u d :=
  nearest_nonneg (mul_nonneg hu.rational_nonneg hd)

theorem share_le (hu : InUnit u) {d : ℚ} (hgrid : OnGrid d) (hd : 0 ≤ d) : share u d ≤ d := by
  refine nearest_le hgrid (mul_le_of_le_one_left hd (hu.rational_le.trans ?_))
  linarith [two_zpow_pos (-53)]

/-- A part of a distance that is not tiny is less than the distance. -/
theorem share_lt (hu : InUnit u) {d : ℚ} (hd : 1 ≤ d) : share u d < d := by
  refine nearest_lt (mul_nonneg hu.rational_nonneg (by linarith)) hd ?_
  rw [mul_comm d]
  exact mul_le_mul_of_nonneg_right hu.rational_le (by linarith)

/-- A distance that is not too great is rounded up by half a step of the greatest doubles at most, so a
part of it does not lead beyond the upper bound by as much. -/
theorem add_share_lt_two_zpow (hu : InUnit u) {l h : ℚ} (hlh : l ≤ h)
    (hl : l ≤ 2 ^ (1024 : ℤ) - 2 ^ (971 : ℤ)) (hh : h ≤ 2 ^ (1024 : ℤ) - 2 ^ (971 : ℤ))
    (hd : nearest (h - l) < 2 ^ (1024 : ℤ)) :
    l + share u (nearest (h - l)) < 2 ^ (1024 : ℤ) - 2 ^ (970 : ℤ) := by
  have hspare : (2 : ℚ) ^ (971 : ℤ) = 2 * 2 ^ (970 : ℤ) := by
    rw [show (971 : ℤ) = 1 + 970 by norm_num, two_zpow_add, zpow_one]
  have hone : (1 : ℚ) < 2 ^ (970 : ℤ) := one_lt_zpow₀ one_lt_two (by norm_num)
  have hdistance : 0 ≤ h - l := sub_nonneg.mpr hlh
  -- The share is less than the distance by a part of it; what rounding has added to the distance is
  -- half a step of the greatest doubles at most.
  rcases le_or_gt 1 (nearest (h - l)) with hlarge | hsmall
  · have hlt := share_lt hu hlarge
    have hround := (abs_le.mp (abs_sub_nearest_le (h - l))).1
    have hgrid : gridExponent (h - l) ≤ 971 := by
      by_contra hnot
      have hne : h - l ≠ 0 := by
        intro hzero
        rw [hzero, nearest_zero] at hlarge
        norm_num at hlarge
      have hmagnitude : (2 : ℚ) ^ (1024 : ℤ) ≤ |h - l| :=
        (two_zpow_le (by omega)).trans (gridExponent_le_abs hne (by omega))
      rw [abs_of_nonneg hdistance] at hmagnitude
      exact hd.not_ge (le_nearest (onGrid_two_zpow (by norm_num)) hmagnitude)
    have hstep : (2 : ℚ) ^ gridExponent (h - l) ≤ 2 ^ (971 : ℤ) := two_zpow_le hgrid
    rw [hspare] at hh hstep
    generalize (2 : ℚ) ^ (1024 : ℤ) = top at *
    generalize (2 : ℚ) ^ (970 : ℤ) = half at *
    linarith
  · have hle := share_le hu (onGrid_nearest _) (nearest_nonneg hdistance)
    rw [hspare] at hl
    generalize (2 : ℚ) ^ (1024 : ℤ) = top at *
    generalize (2 : ℚ) ^ (970 : ℤ) = half at *
    linarith only [hsmall, hle, hl, hone]

/-- Nothing that is computed on the way to a number between finite bounds is infinite, if their distance
is not. -/
theorem rational_between (hlow : isFinite low = true) (hhigh : isFinite high = true)
    (hdistance : isFinite (high - low) = true) (hle : rational low ≤ rational high) (hu : InUnit u) :
    isFinite (low + u * (high - low)) = true ∧ rational (low + u * (high - low)) =
      nearest (rational low + share u (nearest (rational high - rational low))) := by
  have hdifference := isNearest_sub hhigh hlow
  have hsub := hdifference.rational_eq hdistance
  have hd : 0 ≤ rational (high - low) := by
    rw [hsub]
    exact nearest_nonneg (sub_nonneg.mpr hle)
  have hdlt : rational (high - low) < 2 ^ (1024 : ℤ) := by
    rw [hsub]
    exact (le_abs_self _).trans_lt (hdifference.isFinite_iff.1 hdistance)
  have hproduct := isNearest_mul hu.isFinite hdistance
  have hshare := share_nonneg hu hd
  -- each of the three operations is finite, so each rounds the exact result
  have hfinite : isFinite (u * (high - low)) = true := by
    rw [hproduct.isFinite_iff]
    exact (abs_of_nonneg hshare).trans_lt ((share_le hu (onGrid_rational _) hd).trans_lt hdlt)
  have hmul : rational (u * (high - low)) = share u (rational (high - low)) :=
    hproduct.rational_eq hfinite
  have hsum := isNearest_add hlow hfinite
  rw [hmul] at hsum
  obtain ⟨hlow1, hlow2⟩ := abs_le.mp (abs_rational_le low)
  have hbelow := add_share_lt_two_zpow hu hle hlow2 (abs_le.mp (abs_rational_le high)).2 (hsub ▸ hdlt)
  rw [← hsub] at hbelow
  have habove : -2 ^ (1024 : ℤ) < nearest (rational low + share u (rational (high - low))) := by
    have hle : rational low ≤ nearest (rational low + share u (rational (high - low))) :=
      le_nearest (onGrid_rational low) (by linarith only [hshare])
    have hpos := two_zpow_pos 971
    generalize (2 : ℚ) ^ (1024 : ℤ) = top at *
    generalize (2 : ℚ) ^ (971 : ℤ) = step at *
    linarith
  have hend : isFinite (low + u * (high - low)) = true := by
    rw [hsum.isFinite_iff, abs_lt]
    exact ⟨habove, nearest_lt_two_zpow hbelow⟩
  exact ⟨hend, by rw [hsum.rational_eq hend, hsub]⟩

/-! ## Whole bounds -/

variable {a b : ℤ}

theorem onGrid_intCast {n : ℤ} (h : |n| ≤ 2 ^ 53) : OnGrid n :=
  ⟨n, 0, h, by norm_num, by simp⟩

/-- Whole numbers of fifty-three binary digits are doubles. -/
theorem rational_ofInt {n : ℤ} (h : |n| ≤ 2 ^ 53) :
    isFinite (Float.ofInt n) = true ∧ rational (Float.ofInt n) = n := by
  have hround := isNearest_ofInt n
  have hself := nearest_eq_self (onGrid_intCast h)
  have hfinite : isFinite (Float.ofInt n) = true := by
    rw [hround.isFinite_iff, hself]
    calc |(n : ℚ)| ≤ 2 ^ (53 : ℤ) := by exact_mod_cast h
      _ < 2 ^ (1024 : ℤ) := zpow_lt_zpow_right₀ one_lt_two (by norm_num)
  exact ⟨hfinite, (hround.rational_eq hfinite).trans hself⟩

/-- Doubles from `2 ^ 53` on are even. -/
theorem exists_eq_two_mul {q : ℚ} (h : OnGrid q) (hq : 2 ^ 53 ≤ q) : ∃ k : ℤ, q = 2 * k := by
  obtain ⟨k, hk⟩ := exists_steps h
  have hpos : 0 < q := lt_of_lt_of_le (by norm_num) hq
  have hgrid : 1 ≤ gridExponent q := by
    refine le_gridExponent_of_le hpos.ne' ?_
    rw [abs_of_pos hpos]
    exact_mod_cast hq
  obtain ⟨n, hn⟩ := Int.le.dest hgrid
  refine ⟨k * 2 ^ n, ?_⟩
  conv_lhs => rw [hk, ← hn, two_zpow_add, zpow_natCast, zpow_one]
  push_cast
  ring

/-- A part of the distance of two whole numbers is less than the distance, even where it is a part of the
rounded distance and that is greater. -/
theorem share_nearest_lt (hu : InUnit u) {d : ℤ} (hpos : 0 < d) (hle : d ≤ 2 ^ 54) :
    share u (nearest d) < d := by
  have hone : (1 : ℚ) ≤ d := by exact_mod_cast hpos
  have hlt : share u (nearest d) < nearest d :=
    share_lt hu (le_nearest ⟨1, 0, by norm_num, by norm_num, by simp⟩ hone)
  by_cases hgrid : OnGrid d
  · rwa [nearest_eq_self hgrid] at hlt ⊢
  have hlarge : (2 : ℚ) ^ 53 < d := by
    by_contra hnot
    refine hgrid (onGrid_intCast (abs_le.mpr ⟨by linarith, ?_⟩))
    exact_mod_cast not_lt.mp hnot
  have hsmall : (d : ℚ) < 2 ^ ((1 : ℤ) + 53) := by
    have hne : d ≠ 2 ^ 54 := by
      rintro rfl
      exact hgrid ⟨1, 54, by norm_num, by norm_num, by norm_num⟩
    exact_mod_cast hle.lt_of_ne hne
  have hround : nearest d ≤ d + 1 := by
    have hstep : (2 : ℚ) ^ gridExponent d ≤ 2 ^ (1 : ℤ) :=
      two_zpow_le (gridExponent_le (by norm_num) (by linarith) (by rwa [abs_of_pos (by linarith)]))
    rw [zpow_one] at hstep
    linarith [(abs_le.mp (abs_sub_nearest_le (d : ℚ))).1]
  rcases lt_or_ge (share u (nearest d)) (2 ^ 53) with hless | hmore
  · exact hless.trans hlarge
  -- both are even, so they are two apart
  obtain ⟨k, hk⟩ := exists_eq_two_mul (onGrid_nearest _) hmore
  obtain ⟨n, hn⟩ := exists_eq_two_mul (onGrid_nearest _) (hmore.trans hlt.le)
  change share u (nearest d) = 2 * k at hk
  rw [hk, hn] at hlt
  have hstep : (k : ℚ) + 1 ≤ n := by
    have hint : k < n := by
      have : (k : ℚ) < n := by linarith
      exact_mod_cast this
    exact_mod_cast hint
  rw [hk]
  linarith

/-- What is rounded last is below the upper bound. -/
theorem add_share_lt (hu : InUnit u) (hab : a < b) (ha : |a| ≤ 2 ^ 53) (hb : |b| ≤ 2 ^ 53) :
    (a : ℚ) + share u (nearest (b - a)) < b := by
  have hleft := abs_le.mp ha
  have hright := abs_le.mp hb
  have hlt := share_nearest_lt hu (sub_pos.mpr hab) (by omega)
  push_cast at hlt
  linarith

/-- The exponent of the steps in which both a number and the whole numbers are counted. -/
def commonExponent (q : ℚ) : ℤ :=
  min (gridExponent q) 0

theorem exists_common_steps {q : ℚ} (h : OnGrid q) : ∃ k : ℤ, q = k * 2 ^ commonExponent q := by
  obtain ⟨k, hk⟩ := exists_steps h
  obtain ⟨l, hl⟩ := Int.le.dest (min_le_left (gridExponent q) 0)
  refine ⟨k * 2 ^ l, ?_⟩
  conv_lhs => rw [hk, ← hl, two_zpow_add, zpow_natCast]
  rw [commonExponent]
  push_cast
  ring

/-- A whole number in these steps. -/
def wholeSteps (q : ℚ) (n : ℤ) : ℤ :=
  n * 2 ^ (-commonExponent q).toNat

theorem eq_wholeSteps (q : ℚ) (n : ℤ) : (n : ℚ) = wholeSteps q n * 2 ^ commonExponent q := by
  have hexponent : ((-commonExponent q).toNat : ℤ) + commonExponent q = 0 := by
    have : commonExponent q ≤ 0 := min_le_right _ _
    omega
  have hunit : (2 : ℚ) ^ (-commonExponent q).toNat * 2 ^ commonExponent q = 1 := by
    rw [← zpow_natCast, ← two_zpow_add, hexponent, zpow_zero]
  rw [wholeSteps]
  push_cast
  rw [mul_assoc, hunit, mul_one]

/-- A whole number below a number has no more than `2 ^ 53` of the steps. -/
theorem wholeSteps_le {q : ℚ} (hb0 : 0 ≤ b) (hb : b ≤ 2 ^ 53) (hle : (b : ℚ) ≤ q) :
    wholeSteps q b ≤ 2 ^ 53 := by
  rcases le_or_gt (gridExponent q) 0 with hfine | hcoarse
  · -- the number is fewer than `2 ^ 53` steps of its grid
    have hmagnitude := abs_lt_gridExponent q
    have hbpos : (0 : ℚ) ≤ b := by exact_mod_cast hb0
    rw [abs_of_nonneg (hbpos.trans hle), add_comm, two_zpow_add, ← min_eq_left hfine] at hmagnitude
    rw [eq_wholeSteps q b] at hle
    have hlt := lt_of_mul_lt_mul_right (hle.trans_lt hmagnitude) (two_zpow_pos _).le
    exact_mod_cast hlt.le
  · have hzero : (-commonExponent q).toNat = 0 := by
      rw [commonExponent]
      omega
    rwa [wholeSteps, hzero, pow_zero, mul_one]

/-- From a lower bound that is not positive to an upper one that is not negative, the last sum is rounded
to a number below the upper bound: it is counted in steps that are no coarser than those of the bound. -/
theorem nearest_add_share_lt (hu : InUnit u) (hab : a < b) (ha : |a| ≤ 2 ^ 53) (hb : |b| ≤ 2 ^ 53)
    (ha0 : a ≤ 0) (hb0 : 0 ≤ b) : nearest (a + share u (nearest (b - a))) < b := by
  have hlt := add_share_lt hu hab ha hb
  have hgrid : OnGrid (share u (nearest (b - a))) := onGrid_nearest _
  generalize share u (nearest (b - a)) = part at hlt hgrid ⊢
  have ha0' : (a : ℚ) ≤ 0 := by exact_mod_cast ha0
  rcases lt_or_ge part b with hless | hmore
  · exact (nearest_le hgrid (by linarith)).trans_lt hless
  have hstep := two_zpow_pos (commonExponent part)
  -- Bounds and share are whole numbers of the steps of the share, and so the sum is below the bound by
  -- one step at least.
  obtain ⟨k, hk⟩ := exists_common_steps hgrid
  have hsum : (a : ℚ) + part = ((wholeSteps part a + k : ℤ) : ℚ) * 2 ^ commonExponent part := by
    rw [Int.cast_add, add_mul, ← eq_wholeSteps, ← hk]
  have hsteps : wholeSteps part a + k ≤ wholeSteps part b - 1 := by
    rw [hsum, eq_wholeSteps part b, mul_lt_mul_iff_left₀ hstep] at hlt
    exact Int.le_sub_one_of_lt (by exact_mod_cast hlt)
  have hfew : |wholeSteps part b - 1| ≤ 2 ^ 53 := by
    have hnonneg : 0 ≤ wholeSteps part b := mul_nonneg hb0 (by positivity)
    have hbound := wholeSteps_le hb0 (abs_le.mp hb).2 hmore
    exact abs_le.mpr ⟨by omega, by omega⟩
  have hmin : -1074 ≤ commonExponent part := le_min (le_gridExponent _) (by norm_num)
  calc nearest (a + part) ≤ ((wholeSteps part b - 1 : ℤ) : ℚ) * 2 ^ commonExponent part := by
        refine nearest_le ⟨_, _, hfew, hmin, rfl⟩ ?_
        rw [hsum]
        exact mul_le_mul_of_nonneg_right (by exact_mod_cast hsteps) hstep.le
    _ < b := by
      conv_rhs => rw [eq_wholeSteps part b]
      exact mul_lt_mul_of_pos_right (by exact_mod_cast sub_one_lt (wholeSteps part b)) hstep

end Decimal

namespace Game

variable {a b : ℤ}

/-- Between whole bounds a whole number is drawn that is not below the lower bound and not above the
upper one.  It is the upper one exactly if the last of three roundings ends there, though what is rounded
is below it; on both sides of zero that does not happen. -/
theorem run_randomBetween_ofInt (hab : a < b) (ha : |a| ≤ 2 ^ 53) (hb : |b| ≤ 2 ^ 53) (game : Game)
    (hu : InUnit game.generator.uniform.1) :
    ∃ r, (randomBetween (Float.ofInt a) (Float.ofInt b)).run.run game =
        (.ok r, { game with generator := game.generator.uniform.2 }) ∧
      a ≤ r ∧ r ≤ b ∧
      (a : ℚ) + share game.generator.uniform.1 (nearest (b - a)) < b ∧
      (r = b ↔ nearest (a + share game.generator.uniform.1 (nearest (b - a))) = b) ∧
      (a ≤ 0 → 0 ≤ b → r < b) := by
  obtain ⟨hfa, hva⟩ := rational_ofInt ha
  obtain ⟨hfb, hvb⟩ := rational_ofInt hb
  have hlt : (a : ℚ) < b := by exact_mod_cast hab
  have hapart : ¬Float.ofInt b ≤ Float.ofInt a := by
    rw [le_iff_rational hfb hfa, hva, hvb]
    exact not_le.mpr hlt
  have hdistance : isFinite (Float.ofInt b - Float.ofInt a) = true := by
    have hleft := abs_le.mp ha
    have hright := abs_le.mp hb
    rw [(isNearest_sub hfb hfa).isFinite_iff, hva, hvb, abs_of_nonneg (nearest_nonneg (by linarith))]
    have hle : (b : ℚ) - a ≤ 2 ^ (54 : ℤ) := by
      have hint : b - a ≤ 2 ^ 54 := by omega
      exact_mod_cast hint
    exact (nearest_le (onGrid_two_zpow (by norm_num)) hle).trans_lt
      (zpow_lt_zpow_right₀ one_lt_two (by norm_num))
  obtain ⟨hfinite, hvalue⟩ := rational_between hfa hfb hdistance (by rw [hva, hvb]; exact hlt.le) hu
  rw [hva, hvb] at hvalue
  have hbelow := add_share_lt hu hab ha hb
  have hshare : 0 ≤ share game.generator.uniform.1 (nearest (b - a)) :=
    share_nonneg hu (nearest_nonneg (by linarith))
  have hlow : (a : ℚ) ≤ nearest (a + share game.generator.uniform.1 (nearest (b - a))) :=
    le_nearest (onGrid_intCast ha) (by linarith)
  have hhigh : nearest (a + share game.generator.uniform.1 (nearest (b - a))) ≤ b :=
    nearest_le (onGrid_intCast hb) hbelow.le
  refine ⟨⌊nearest (a + share game.generator.uniform.1 (nearest (b - a)))⌋, ?_, Int.le_floor.mpr hlow,
    Int.floor_le_iff.mpr (by linarith), hbelow, ?_, fun ha0 hb0 => ?_⟩
  · rw [run_randomBetween, drawBetween, if_neg hapart]
    dsimp only
    rw [floor_eq hfinite, hvalue]
  · rw [Int.floor_eq_iff]
    exact ⟨fun h => le_antisymm hhigh h.1, fun h => ⟨h.ge, by linarith⟩⟩
  · exact Int.floor_lt.mpr (nearest_add_share_lt hu hab ha hb ha0 hb0)

/-- A game in which a number is always drawn for the same place of the unit interval. -/
def chanceGame (u : Float) : Game :=
  { debtGame with generator := .ofScript [u] }

theorem uniform_chanceGame (u : Float) : (chanceGame u).generator.uniform.1 = u := rfl

/-- The last double before one. -/
def lastDraw : Float := 0.9999999999999999

theorem inUnit_lastDraw : InUnit lastDraw := by
  constructor <;> decide +kernel

/-- From one to three, with the middle of the unit drawn. -/
theorem run_randomBetween_one_three :
    InUnit (chanceGame 0.5).generator.uniform.1 ∧
      ∃ r, ((randomBetween (Float.ofInt 1) (Float.ofInt 3)).run.run (chanceGame 0.5)).1 = .ok r ∧
        1 ≤ r ∧ r ≤ 3 := by
  have hu : InUnit (chanceGame 0.5).generator.uniform.1 := by
    rw [uniform_chanceGame]
    constructor <;> decide +kernel
  obtain ⟨r, hrun, hlow, hhigh, -⟩ := run_randomBetween_ofInt (a := 1) (b := 3) (by norm_num)
    (by norm_num) (by norm_num) (chanceGame 0.5) hu
  exact ⟨hu, r, by rw [hrun], hlow, hhigh⟩

theorem ok_of_toOption {α : Type} {x : Except Fault α} {a : α} (h : x.toOption = some a) :
    x = .ok a := by
  cases x with
  | ok b => exact congrArg Except.ok (Option.some.inj h)
  | error fault => cases h

/-- A number between one and two is drawn that is two. -/
theorem run_randomBetween_one_two :
    InUnit (chanceGame lastDraw).generator.uniform.1 ∧
      ∃ r, ((randomBetween (Float.ofInt 1) (Float.ofInt 2)).run.run (chanceGame lastDraw)).1 = .ok r ∧
        ¬r < 2 := by
  have hapart : ¬Float.ofInt 2 ≤ Float.ofInt 1 := by decide +kernel
  have hfloor : (floor (Float.ofInt 1 + lastDraw * (Float.ofInt 2 - Float.ofInt 1))).toOption =
      some 2 := by decide +kernel
  refine ⟨inUnit_lastDraw, 2, ?_, by decide⟩
  rw [run_randomBetween, drawBetween, if_neg hapart]
  exact ok_of_toOption hfloor

end Game

end EventDeck
