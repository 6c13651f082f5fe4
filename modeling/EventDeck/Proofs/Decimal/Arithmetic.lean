import EventDeck.Proofs.Decimal.Doubles

/-!
# Arithmetic of doubles

The sum, the difference, the product and the quotient of two doubles are the exact ones, rounded
(`isNearest_add`, `isNearest_sub`, `isNearest_mul`, `isNearest_div`); they are infinite when the rounded
number is `2 ^ 1024` or more in magnitude (`IsNearest`).  A whole number becomes the double nearest to it
(`isNearest_ofNat`, `isNearest_ofInt`), and so does a numeral (`isNearest_ofScientific`).

A result is computed as a significand of whole steps, with two bits that say how far the number is from
them: whether by a half or more, and whether by anything else.  These are kept when the steps become
coarser (`Represents`), until they are those of the grid around the number.
-/

namespace EventDeck.Decimal

open Float.Model Float.Model.UnpackedFloat

variable {x y : Float} {m n : ℕ} {e f : ℤ} {q r : ℚ}

/-! ## Steps and what is left -/

/-- What is told of the part of a step that is left over. -/
def Accuracy.Tells : Accuracy → ℚ → Prop
  | .exact, r => r = 0
  | .inexact order, r => 0 < r ∧ r < 1 ∧ order = compare r (1 / 2)

/-- A significand with the two bits behind it stands for a number of steps. -/
def Represents (em : ExtendedMantissa) (q : ℚ) : Prop :=
  ∃ rest, 0 ≤ rest ∧ rest < 1 / 2 ∧ (em.stickyBit = true ↔ rest ≠ 0) ∧
    q = em.mantissa + (if em.roundBit then 1 / 2 else 0) + rest

theorem Accuracy.Tells.bounds {accuracy : Accuracy} (h : Tells accuracy r) : 0 ≤ r ∧ r < 1 := by
  cases accuracy with
  | exact =>
    rw [show r = 0 from h]
    norm_num
  | inexact order => exact ⟨h.1.le, h.2.1⟩

theorem Accuracy.Tells.represents {accuracy : Accuracy} (h : Tells accuracy r) (m : ℕ) :
    Represents (.ofMantissaAndAccuracy m accuracy) (m + r) := by
  cases accuracy with
  | exact =>
    obtain rfl : r = 0 := h
    exact ⟨0, le_rfl, by norm_num, by simp [ExtendedMantissa.ofMantissaAndAccuracy],
      by simp [ExtendedMantissa.ofMantissaAndAccuracy]⟩
  | inexact order =>
    obtain ⟨hpos, hlt, rfl⟩ := h
    -- What is left of an inexact number was compared with a half; the order decides the first bit, and
    -- the second bit is set unless the comparison was exact.
    rcases lt_trichotomy r (1 / 2) with hless | rfl | hmore
    · rw [compare_lt_iff_lt.2 hless]
      exact ⟨r, hpos.le, hless, by simp [ExtendedMantissa.ofMantissaAndAccuracy, hpos.ne'],
        by simp [ExtendedMantissa.ofMantissaAndAccuracy]⟩
    · rw [compare_eq_iff_eq.2 rfl]
      exact ⟨0, le_rfl, by norm_num, by simp [ExtendedMantissa.ofMantissaAndAccuracy],
        by simp [ExtendedMantissa.ofMantissaAndAccuracy]⟩
    · rw [compare_gt_iff_gt.2 hmore]
      have hne : r - 1 / 2 ≠ 0 := by linarith
      refine ⟨r - 1 / 2, by linarith, by linarith, ?_, ?_⟩
      · simp only [ExtendedMantissa.ofMantissaAndAccuracy, true_iff]
        exact hne
      · simp only [ExtendedMantissa.ofMantissaAndAccuracy, if_true]
        ring

namespace Represents

variable {em : ExtendedMantissa}

/-- A shift by one place moves the last bit into the first of the two bits and gathers what was left in
the second. -/
theorem shiftRightOne (h : Represents em q) : Represents em.shiftRightOne (q / 2) := by
  obtain ⟨rest, hlow, hhigh, hsticky, rfl⟩ := h
  have hsplit : (em.mantissa : ℚ) = 2 * ((em.mantissa / 2 : ℕ) : ℚ) + ((em.mantissa % 2 : ℕ) : ℚ) := by
    exact_mod_cast (Nat.div_add_mod em.mantissa 2).symm
  refine ⟨(if em.roundBit then 1 / 4 else 0) + rest / 2, ?_, ?_, ?_, ?_⟩
  · split_ifs <;> linarith
  · split_ifs <;> linarith
  · rw [ExtendedMantissa.shiftRightOne, Bool.or_eq_true, hsticky]
    split_ifs with hround
    · have hne : 1 / 4 + rest / 2 ≠ 0 := by linarith
      exact iff_of_true (.inl hround) hne
    · rw [zero_add, or_iff_right hround]
      exact not_congr ⟨fun h => by rw [h, zero_div], fun h => by linarith⟩
  · have hhalf : (if (em.mantissa % 2 != 0) = true then (1 : ℚ) / 2 else 0) =
        ((em.mantissa % 2 : ℕ) : ℚ) / 2 := by
      rcases Nat.mod_two_eq_zero_or_one em.mantissa with h | h <;> simp [h]
    rw [ExtendedMantissa.shiftRightOne]
    dsimp only
    rw [hhalf]
    split_ifs <;> linarith

/-- A shift by many places is many shifts by one. -/
theorem shiftRight (h : Represents em q) (count : ℕ) :
    Represents (em >>> count) (q / 2 ^ count) := by
  change Represents (count.repeat ExtendedMantissa.shiftRightOne em) _
  induction count with
  | zero => rwa [pow_zero, div_one]
  | succ count ih =>
    rw [Nat.repeat, pow_succ, ← div_div]
    exact ih.shiftRightOne

/-- The two bits are all that the choice of the nearest significand depends on. -/
theorem isNearestInt (h : Represents em q) : IsNearestInt q em.roundedMantissa := by
  obtain ⟨rest, hlow, hhigh, hsticky, rfl⟩ := h
  obtain ⟨m, round, sticky⟩ := em
  have hmod : ((m + m % 2 : ℕ) : ℤ) % 2 = 0 := by omega
  -- no rest, less than a half, a half exactly, more than a half
  cases round <;> cases sticky <;>
    simp only [ExtendedMantissa.roundedMantissa, ExtendedMantissa.accuracy,
      Accuracy.roundToNearestEven, Bool.false_eq_true, false_iff, true_iff, if_true, if_false,
      not_not, ne_eq] at hsticky ⊢
  · refine .inl ?_
    rw [hsticky, abs_lt]
    constructor <;> push_cast <;> linarith
  · refine .inl ?_
    rw [abs_lt]
    constructor <;> push_cast <;> linarith
  · refine .inr ⟨?_, hmod⟩
    rw [hsticky]
    rcases Nat.mod_two_eq_zero_or_one m with heven | hodd
    · rw [heven, abs_of_nonneg] <;> push_cast <;> linarith
    · rw [hodd, abs_of_nonpos] <;> push_cast <;> linarith
  · refine .inl ?_
    have hpos : 0 < rest := lt_of_le_of_ne hlow fun h => hsticky h.symm
    rw [abs_lt]
    constructor <;> push_cast <;> linarith

end Represents

/-! ## Exponents -/

/-- Significands are cut to 53 bits, and no exponent is below the least one. -/
theorem targetExponent_eq (e : ℤ) : Format.binary64.targetExponent e = max (e - 53) (-1074) := by
  have hmin : Format.binary64.minExponent = -1074 := by decide
  have hbits : (Format.binary64.mantissaBits : ℤ) = 53 := by decide
  rw [Format.targetExponent, hmin, hbits]

theorem two_pow_log2_le (h : 0 < m) : (2 : ℚ) ^ (m.log2 : ℤ) ≤ m := by
  rw [zpow_natCast]
  exact_mod_cast Nat.log2_self_le h.ne'

/-- A part of a unit behind a number does not make it longer. -/
theorem lt_two_pow_log2 (m : ℕ) (hr : r < 1) : (m : ℚ) + r < 2 ^ ((m.log2 : ℤ) + 1) := by
  have hsucc : (m : ℚ) + 1 ≤ 2 ^ (m.log2 + 1) := by exact_mod_cast Nat.lt_log2_self
  have hpower : (2 : ℚ) ^ ((m.log2 : ℤ) + 1) = 2 ^ (m.log2 + 1) := by
    rw [← zpow_natCast]
    push_cast
    rfl
  rw [hpower]
  linarith

/-- The exponent that is aimed at is that of the grid around the number. -/
theorem targetExponent_eq_gridExponent (hm : 0 < m) (hr : 0 ≤ r) (hr1 : r < 1) (e : ℤ) :
    Format.binary64.targetExponent (totalExponent m e) = gridExponent ((m + r) * 2 ^ e) := by
  have hlow : (2 : ℚ) ^ ((m.log2 : ℤ) + e) ≤ (m + r) * 2 ^ e := by
    rw [two_zpow_add]
    exact mul_le_mul_of_nonneg_right (by linarith [two_pow_log2_le hm]) (two_zpow_pos e).le
  have hhigh : (m + r) * 2 ^ e < (2 : ℚ) ^ ((m.log2 : ℤ) + 1 + e) := by
    rw [two_zpow_add]
    exact mul_lt_mul_of_pos_right (lt_two_pow_log2 m hr1) (two_zpow_pos e)
  have hpos : 0 < (m + r) * 2 ^ e := (two_zpow_pos _).trans_le hlow
  rw [targetExponent_eq, totalExponent]
  refine le_antisymm (max_le ?_ (le_gridExponent _)) (gridExponent_le (le_max_right _ _) hpos.ne' ?_)
  · refine le_gridExponent_of_le hpos.ne' ?_
    rw [abs_of_pos hpos]
    exact (two_zpow_le (by omega)).trans hlow
  · rw [abs_of_pos hpos]
    exact hhigh.trans_le (two_zpow_le (by omega))

/-- Digits of a significand that is long, or of a number that has few, are on the grid. -/
theorem le_gridExponent_of_long (hm : 0 < m) (h : 2 ^ 52 ≤ m ∨ e ≤ -1074) :
    e ≤ gridExponent (m * 2 ^ e) := by
  rcases h with hlong | hlow
  · have hpos : (0 : ℚ) < m * 2 ^ e := mul_pos (by exact_mod_cast hm) (two_zpow_pos e)
    refine le_gridExponent_of_le hpos.ne' ?_
    rw [abs_of_pos hpos]
    exact two_zpow_le_of_long hlong e
  · exact hlow.trans (le_gridExponent _)

/-- Steps that are as fine as the grid are made as coarse as it is. -/
theorem max_targetExponent_eq (hq : q = (m + r) * 2 ^ e) (hr : 0 ≤ r) (hr1 : r < 1) (hpos : 0 < q)
    (hfine : e ≤ gridExponent q) (hdigits : 0 < m ∨ e ≤ -1074) :
    max e (Format.binary64.targetExponent (totalExponent m e)) = gridExponent q := by
  rcases Nat.eq_zero_or_pos m with rfl | hm
  · -- less than a step of the finest grid
    have hlow : e ≤ -1074 := hdigits.resolve_left (lt_irrefl 0)
    have hgrid : gridExponent q = -1074 := by
      refine le_antisymm (gridExponent_le le_rfl hpos.ne' ?_) (le_gridExponent q)
      rw [abs_of_pos hpos, hq, Nat.cast_zero, zero_add]
      calc r * 2 ^ e < 1 * 2 ^ e := mul_lt_mul_of_pos_right hr1 (two_zpow_pos e)
        _ ≤ 2 ^ (-1074 + 53 : ℤ) := by
          rw [one_mul]
          exact two_zpow_le (by omega)
    rw [targetExponent_eq, totalExponent, hgrid, Nat.log2_zero]
    omega
  · rw [targetExponent_eq_gridExponent hm hr hr1 e, ← hq, max_eq_right hfine]

/-- The significand of a rounded number is long, unless the grid is the finest one. -/
theorem exists_significand (hpos : 0 < q) : ∃ k : ℕ, nearest q = k * 2 ^ gridExponent q ∧
    nearestInt (q / 2 ^ gridExponent q) = k ∧ k ≤ 2 ^ 53 ∧
      (2 ^ 52 ≤ k ∨ gridExponent q = -1074) := by
  have hsteps : 0 ≤ nearestInt (q / 2 ^ gridExponent q) := by
    have hmono := nearestInt_mono (div_pos hpos (two_zpow_pos (gridExponent q))).le
    rwa [← Int.cast_zero, nearestInt_intCast] at hmono
  obtain ⟨k, hk⟩ := Int.eq_ofNat_of_zero_le hsteps
  refine ⟨k, by rw [nearest, hk, Int.cast_natCast], hk, ?_, ?_⟩
  · have habs := abs_nearestInt_le q
    rw [hk, Nat.abs_cast] at habs
    exact_mod_cast habs
  · rcases (le_gridExponent q).lt_or_eq with hgrid | hgrid
    · left
      have hmagnitude := gridExponent_le_abs hpos.ne' hgrid
      rw [abs_of_pos hpos, add_comm, two_zpow_add, ← le_div_iff₀ (two_zpow_pos _)] at hmagnitude
      have hint : (2 ^ 52 : ℤ) ≤ nearestInt (q / 2 ^ gridExponent q) := by
        rw [← nearestInt_intCast (2 ^ 52)]
        exact nearestInt_mono (by exact_mod_cast hmagnitude)
      rw [hk] at hint
      exact_mod_cast hint
    · exact .inr hgrid.symm

/-- Rounding does not depend on the sign. -/
theorem nearest_factor_mul (negative : Bool) (q : ℚ) :
    nearest (factor negative * q) = factor negative * nearest q := by
  cases negative
  · rw [factor, if_neg Bool.false_ne_true, one_mul, one_mul]
  · rw [factor, if_pos rfl, neg_one_mul, neg_one_mul, nearest_neg]

/-! ## Rounding a computed number -/

/-- A computed double is a number, rounded; the exponent may be too great for a double. -/
structure Approximates (a : UnpackedFloat) (q : ℚ) : Prop where
  isCanonical : IsCanonical a
  isFinite : a.isFinite = true
  value_eq : (parts a).value = nearest q

/-- Exponents are only raised: a number with fewer digits than there are places is left as it is. -/
theorem shiftToExponent_eq (m : ℕ) (e : ℤ) (accuracy : Accuracy) (target : ℤ) :
    (shiftToExponent m e accuracy target).2 = max e target := by
  change e + ((target - e).toNat : ℤ) = max e target
  omega

/-- A shifted number, counted in steps of the new exponent. -/
theorem represents_shiftToExponent {accuracy : Accuracy} (h : Accuracy.Tells accuracy r) (m : ℕ)
    (e target : ℤ) :
    Represents (shiftToExponent m e accuracy target).1 ((m + r) * 2 ^ e / 2 ^ max e target) := by
  have hshift := (h.represents m).shiftRight (target - e).toNat
  have hexponent : max e target = e + ((target - e).toNat : ℤ) := by omega
  have hsteps : (m + r) * 2 ^ e / 2 ^ max e target = (m + r) / 2 ^ (target - e).toNat := by
    rw [hexponent, two_zpow_add, zpow_natCast, mul_comm, mul_div_mul_left _ _ (two_zpow_pos e).ne']
  rw [hsteps]
  exact hshift

/-- A significand that is not too long is left as it is. -/
theorem shiftToTargetExponent_of_lt (hlt : m < 2 ^ 53) (he : -1074 ≤ e) :
    (shiftToTargetExponent Format.binary64 m e .exact).1.mantissa = m ∧
      (shiftToTargetExponent Format.binary64 m e .exact).2 = e := by
  have hlog : m.log2 ≤ 52 := by
    rcases Nat.eq_zero_or_pos m with rfl | hm
    · decide
    · have := (Nat.log2_lt hm.ne').2 hlt
      omega
  have hshift : (Format.binary64.targetExponent (totalExponent m e) - e).toNat = 0 := by
    rw [targetExponent_eq, totalExponent]
    omega
  unfold shiftToTargetExponent shiftToExponent
  dsimp only
  rw [hshift]
  exact ⟨rfl, by omega⟩

/-- The one significand that rounding makes too long is halved. -/
theorem shiftToTargetExponent_of_eq (he : -1074 ≤ e) :
    (shiftToTargetExponent Format.binary64 (2 ^ 53) e .exact).1.mantissa = 2 ^ 52 ∧
      (shiftToTargetExponent Format.binary64 (2 ^ 53) e .exact).2 = e + 1 := by
  have hlog : (2 ^ 53 : ℕ).log2 = 53 := Nat.log2_two_pow
  have hshift : (Format.binary64.targetExponent (totalExponent (2 ^ 53) e) - e).toNat = 1 := by
    rw [targetExponent_eq, totalExponent, hlog]
    omega
  unfold shiftToTargetExponent shiftToExponent
  dsimp only
  rw [hshift]
  exact ⟨rfl, by omega⟩

/-- Rounding takes a number to the nearest point of its grid, provided that the steps in which it is
counted are as fine as the grid. -/
theorem approximates_roundWithAccuracy {accuracy : Accuracy} (s : Sign)
    (htells : Accuracy.Tells accuracy r) (hq : q = (m + r) * 2 ^ e) (hpos : 0 < q)
    (hfine : e ≤ gridExponent q) (hdigits : 0 < m ∨ e ≤ -1074) :
    Approximates (roundWithAccuracy Format.binary64 s m e accuracy) (factor (isMinus s) * q) := by
  obtain ⟨hr, hr1⟩ := htells.bounds
  obtain ⟨k, hnearest, hsteps, hkle, hlong⟩ := exists_significand hpos
  have htarget := max_targetExponent_eq hq hr hr1 hpos hfine hdigits
  have hrepresents := represents_shiftToExponent htells m e
    (Format.binary64.targetExponent (totalExponent m e))
  have hexponent := shiftToExponent_eq m e accuracy
    (Format.binary64.targetExponent (totalExponent m e))
  rw [htarget] at hrepresents hexponent
  rw [← hq] at hrepresents
  -- The shift goes to the grid of the number, where the significand is the number of steps of the
  -- nearest point.
  obtain ⟨em, hem, hk⟩ : ∃ em, shiftToTargetExponent Format.binary64 m e accuracy =
      (em, gridExponent q) ∧ em.roundedMantissa = k := by
    refine ⟨_, Prod.ext rfl hexponent, ?_⟩
    exact_mod_cast hrepresents.isNearestInt.eq.symm.trans hsteps
  have hvalue : factor (isMinus s) * ((k : ℚ) * 2 ^ gridExponent q) =
      nearest (factor (isMinus s) * q) := by
    rw [nearest_factor_mul, hnearest]
  have hgrid := le_gridExponent q
  unfold roundWithAccuracy
  simp only [hem, hk]
  -- A significand may become longer by one bit in rounding, and then it is shifted once more.
  rcases hkle.lt_or_eq with hlt | rfl
  · obtain ⟨hmantissa, hlast⟩ := shiftToTargetExponent_of_lt hlt hgrid
    simp only [hmantissa, hlast]
    split_ifs with hzero
    · refine ⟨trivial, rfl, ?_⟩
      rw [← hvalue, parts, Binary.value, hzero]
      simp
    · exact ⟨⟨hlt, hgrid, hlong⟩, rfl, hvalue⟩
  · -- a significand that has become too long
    obtain ⟨hmantissa, hlast⟩ := shiftToTargetExponent_of_eq hgrid
    simp only [hmantissa, hlast]
    rw [dif_neg (by norm_num)]
    refine ⟨⟨by norm_num, by omega, .inl le_rfl⟩, rfl, ?_⟩
    rw [← hvalue, parts, Binary.value, two_zpow_add]
    push_cast
    ring

/-- A lower exponent and more steps: the number stays the same. -/
theorem decreaseExponent_eq (m : ℕ) (e target : ℤ) :
    decreaseExponent m e target = (m * 2 ^ (e - target).toNat, min e target) := by
  unfold decreaseExponent
  refine Prod.ext (Nat.shiftLeft_eq ..) ?_
  change e - ((e - target).toNat : ℤ) = min e target
  omega

/-- Lowering the exponent leaves the number as it is. -/
theorem decreaseExponent_value (m : ℕ) (e target : ℤ) :
    ((m * 2 ^ (e - target).toNat : ℕ) : ℚ) * 2 ^ min e target = m * 2 ^ e := by
  have hexponent : e = ((e - target).toNat : ℤ) + min e target := by omega
  conv_rhs => rw [hexponent, two_zpow_add, zpow_natCast]
  push_cast
  ring

/-- Rounding of a number that is known exactly. -/
theorem approximates_round (s : Sign) (hm : 0 < m) (e : ℤ) :
    Approximates (UnpackedFloat.round Format.binary64 s m e) (factor (isMinus s) * (m * 2 ^ e)) := by
  have hpos : (0 : ℚ) < m * 2 ^ e := mul_pos (by exact_mod_cast hm) (two_zpow_pos e)
  have htarget := targetExponent_eq_gridExponent hm le_rfl one_pos e
  rw [add_zero] at htarget
  have hvalue := decreaseExponent_value m e (gridExponent (m * 2 ^ e))
  unfold UnpackedFloat.round
  dsimp only
  rw [htarget, decreaseExponent_eq]
  refine approximates_roundWithAccuracy (r := 0) s rfl ?_ hpos (min_le_right _ _)
    (.inl (Nat.mul_pos hm (Nat.two_pow_pos _)))
  rw [add_zero, hvalue]

@[simp] theorem value_parts_zero (s : Sign) : (parts (.zero s)).value = 0 := by
  rw [parts, Binary.value, Nat.cast_zero, zero_mul, mul_zero]

theorem approximates_zero (s : Sign) : Approximates (.zero s) 0 :=
  ⟨trivial, rfl, by rw [nearest_zero, value_parts_zero]⟩

/-- Rounding of a sum: its sign is found, then it is rounded. -/
theorem approximates_normalize (k : ℤ) (e : ℤ) (s : Sign) :
    Approximates (UnpackedFloat.normalize Format.binary64 k e s) (k * 2 ^ e) := by
  unfold UnpackedFloat.normalize
  rcases lt_trichotomy k 0 with h | rfl | h
  · rw [compare_lt_iff_lt.2 h]
    have hround := approximates_round .negative (m := (-k).toNat) (by omega) e
    have hcast : (((-k).toNat : ℕ) : ℚ) = -k := by
      have : (((-k).toNat : ℕ) : ℤ) = -k := by omega
      exact_mod_cast this
    rwa [hcast, isMinus, factor, if_pos rfl, neg_one_mul, neg_mul, neg_neg] at hround
  · rw [compare_eq_iff_eq.2 rfl, Int.cast_zero, zero_mul]
    exact approximates_zero s
  · rw [compare_gt_iff_gt.2 h]
    have hround := approximates_round .positive (m := k.toNat) (by omega) e
    have hcast : ((k.toNat : ℕ) : ℚ) = k := by
      have : ((k.toNat : ℕ) : ℤ) = k := by omega
      exact_mod_cast this
    rwa [hcast, isMinus, factor, if_neg (by decide), one_mul] at hround

/-! ## Doubles nearest to a number -/

/-- A double is what a number becomes: the number rounded, unless that is too great. -/
structure IsNearest (x : Float) (q : ℚ) : Prop where
  isFinite_iff : isFinite x = true ↔ |nearest q| < 2 ^ (1024 : ℤ)
  rational_eq : isFinite x = true → rational x = nearest q

/-- A rounded number, packed into the bits of a double, is nearest to what was computed. -/
theorem Approximates.isNearest {a : UnpackedFloat} (h : Approximates a q) :
    IsNearest (.ofModel (.pack a)) q := by
  obtain ⟨hcanonical, hfinite, hvalue⟩ := h
  have hpack := ofFloat_pack hcanonical
  rcases a with s | _ | s | ⟨s, m, e, hm⟩
  · cases hfinite
  · cases hfinite
  · rw [parts, Binary.bounded, if_pos (by decide)] at hpack
    have hzero : nearest q = 0 := by
      rw [← hvalue, value_parts_zero]
    refine ⟨iff_of_true (isFinite_of_ofFloat hpack) ?_, fun _ => ?_⟩
    · rw [hzero, abs_zero]
      exact two_zpow_pos _
    · rw [rational, hpack, ← hvalue, parts]
  · have hfits : Fits m e := hcanonical
    have habs : |nearest q| = m * 2 ^ e := by
      rw [← hvalue, parts, Binary.value, abs_factor_mul, abs_of_nonneg]
      exact mul_nonneg (Nat.cast_nonneg m) (two_zpow_pos e).le
    rw [parts, Binary.bounded] at hpack
    -- the double is finite unless the exponent is beyond the greatest, where the packed form is an
    -- infinity
    have hiff : Decimal.isFinite (.ofModel (.pack (.finite s m e hm))) = true ↔ e ≤ 971 := by
      rw [Decimal.isFinite, hpack]
      split_ifs with hle
      · exact iff_of_true rfl hle
      · exact iff_of_false not_false hle
    refine ⟨by rw [hiff, habs, hfits.lt_great_iff], fun h => ?_⟩
    rw [if_pos (hiff.1 h)] at hpack
    rw [rational, hpack, ← hvalue, parts]

/-! ## Sums and differences -/

theorem exists_unpack_of_isFinite (h : isFinite x = true) :
    x.toModel.unpack.isFinite = true ∧ rational x = (parts x.toModel.unpack).value := by
  rw [← isFinite_eq, rational, ofFloat_eq]
  exact ⟨h, rfl⟩

/-- What is stored is a point of the grid, and rounding leaves it as it is. -/
theorem IsCanonical.nearest_eq {a : UnpackedFloat} (h : IsCanonical a) :
    nearest (parts a).value = (parts a).value := by
  rcases a with s | _ | s | ⟨s, m, e, hm⟩
  · exact nearest_zero
  · exact nearest_zero
  · simp [parts, Binary.value]
  · refine nearest_eq_self ?_
    have hgrid := Fits.onGrid h
    cases s
    · simpa [parts, Binary.value, isMinus, factor] using onGrid_neg hgrid
    · simpa [parts, Binary.value, isMinus, factor] using hgrid

/-- A sign is applied to a whole number or to its value. -/
theorem apply_eq (s : Sign) (k : ℕ) : ((s.apply k : ℤ) : ℚ) = factor (isMinus s) * k := by
  cases s <;> simp [Sign.apply, isMinus, factor]

/-- The sum of two numbers is rounded once. -/
theorem approximates_add {a b : UnpackedFloat} (ha : IsCanonical a) (hb : IsCanonical b)
    (hfa : a.isFinite = true) (hfb : b.isFinite = true) :
    Approximates (UnpackedFloat.add Format.binary64 a b) ((parts a).value + (parts b).value) := by
  -- only zeros and numbers are finite; a zero leaves the other number as it is, which is rounded
  -- already
  rcases a with s | _ | s | ⟨s, m, e, hm⟩ <;> rcases b with t | _ | t | ⟨t, n, f, hn⟩ <;>
    first | exact Bool.noConfusion hfa | exact Bool.noConfusion hfb | skip
  · rw [value_parts_zero, value_parts_zero, add_zero]
    unfold UnpackedFloat.add
    dsimp only
    split_ifs <;> exact approximates_zero _
  · rw [value_parts_zero, zero_add]
    exact ⟨hb, rfl, (IsCanonical.nearest_eq hb).symm⟩
  · rw [value_parts_zero, add_zero]
    exact ⟨ha, rfl, (IsCanonical.nearest_eq ha).symm⟩
  · unfold UnpackedFloat.add
    simp only [decreaseExponent_eq]
    -- both numbers are counted in steps of the lower exponent, and their sum is exact
    have hsum := approximates_normalize (s.apply (m * 2 ^ (e - min e f).toNat : ℕ) +
      t.apply (n * 2 ^ (f - min e f).toNat : ℕ)) (min e f) .positive
    have hleft := decreaseExponent_value m e (min e f)
    have hright := decreaseExponent_value n f (min e f)
    rw [min_eq_right (min_le_left e f)] at hleft
    rw [min_eq_right (min_le_right e f)] at hright
    rw [Int.cast_add, apply_eq, apply_eq, add_mul, mul_assoc, mul_assoc, hleft, hright] at hsum
    exact hsum

/-- The sum of two doubles is the exact sum, rounded. -/
theorem isNearest_add (hx : isFinite x = true) (hy : isFinite y = true) :
    IsNearest (x + y) (rational x + rational y) := by
  obtain ⟨hfx, hvx⟩ := exists_unpack_of_isFinite hx
  obtain ⟨hfy, hvy⟩ := exists_unpack_of_isFinite hy
  rw [hvx, hvy]
  exact (approximates_add (isCanonical_unpack x) (isCanonical_unpack y) hfx hfy).isNearest

/-- A difference is the sum with the negative number. -/
theorem sub_eq_add (a b : UnpackedFloat) (hfa : a.isFinite = true) (hfb : b.isFinite = true) :
    UnpackedFloat.sub Format.binary64 a b = UnpackedFloat.add Format.binary64 a b.neg := by
  have happly : ∀ (t : Sign) (k : ℤ), (-t).apply k = -t.apply k := by
    intro t k
    cases t
    · exact (Int.neg_neg k).symm
    · rfl
  rcases a with s | _ | s | ⟨s, m, e, hm⟩ <;> rcases b with t | _ | t | ⟨t, n, f, hn⟩ <;>
    first | exact Bool.noConfusion hfa | exact Bool.noConfusion hfb | rfl | skip
  unfold UnpackedFloat.sub UnpackedFloat.neg UnpackedFloat.add
  simp only [happly, Int.sub_eq_add_neg]

/-- The difference of two doubles is the exact difference, rounded. -/
theorem isNearest_sub (hx : isFinite x = true) (hy : isFinite y = true) :
    IsNearest (x - y) (rational x - rational y) := by
  obtain ⟨hfx, hvx⟩ := exists_unpack_of_isFinite hx
  obtain ⟨hfy, hvy⟩ := exists_unpack_of_isFinite hy
  have hfneg : y.toModel.unpack.neg.isFinite = true := by
    cases hu : y.toModel.unpack <;> rw [hu] at hfy <;> first | rfl | cases hfy
  have hsum := (approximates_add (isCanonical_unpack x) (isCanonical_neg (isCanonical_unpack y))
    hfx hfneg).isNearest
  rw [← sub_eq_add _ _ hfx hfy, parts_neg, Binary.value_neg, ← hvx, ← hvy,
    ← sub_eq_add_neg] at hsum
  exact hsum

/-! ## Products and quotients -/

/-- A product is negative when one of its factors is. -/
theorem isMinus_mul (s t : Sign) : isMinus (s * t) = (isMinus s ^^ isMinus t) := by
  cases s <;> cases t <;> rfl

theorem isMinus_div (s t : Sign) : isMinus (s / t) = (isMinus s ^^ isMinus t) := by
  cases s <;> cases t <;> rfl

theorem factor_xor (negative other : Bool) :
    factor (negative ^^ other) = factor negative * factor other := by
  cases negative <;> cases other <;> norm_num [factor]

/-- Signs are divided as they are multiplied. -/
theorem factor_div (negative other : Bool) :
    factor negative / factor other = factor (negative ^^ other) := by
  cases negative <;> cases other <;> norm_num [factor]

/-- Products are computed exactly and rounded once.  The assumption says that the product has digits
enough, or is so small that it is counted in the finest steps. -/
theorem approximates_mul_finite (s t : Sign) (hm : 0 < m) (hn : 0 < n)
    (h : 2 ^ 52 ≤ m * n ∨ e + f ≤ -1074) :
    Approximates (UnpackedFloat.mul Format.binary64 (.finite s m e hm) (.finite t n f hn))
      (factor (isMinus s) * (m * 2 ^ e) * (factor (isMinus t) * (n * 2 ^ f))) := by
  have hmn : 0 < m * n := Nat.mul_pos hm hn
  have hpos : (0 : ℚ) < (m * n : ℕ) * 2 ^ (e + f) :=
    mul_pos (by exact_mod_cast hmn) (two_zpow_pos _)
  have htells : Accuracy.Tells .exact 0 := rfl
  have hround := approximates_roundWithAccuracy (e := e + f) (s * t) htells (by rw [add_zero]) hpos
    (le_gridExponent_of_long hmn h) (.inl hmn)
  have hvalue : factor (isMinus s) * (m * 2 ^ e) * (factor (isMinus t) * (n * 2 ^ f)) =
      factor (isMinus (s * t)) * ((m * n : ℕ) * 2 ^ (e + f)) := by
    rw [isMinus_mul, factor_xor, two_zpow_add]
    push_cast
    ring
  rw [hvalue]
  exact hround

/-- The product of two numbers is rounded once. -/
theorem approximates_mul {a b : UnpackedFloat} (ha : IsCanonical a) (hb : IsCanonical b)
    (hfa : a.isFinite = true) (hfb : b.isFinite = true) :
    Approximates (UnpackedFloat.mul Format.binary64 a b) ((parts a).value * (parts b).value) := by
  rcases a with s | _ | s | ⟨s, m, e, hm⟩ <;> rcases b with t | _ | t | ⟨t, n, f, hn⟩ <;>
    first | exact Bool.noConfusion hfa | exact Bool.noConfusion hfb | skip
  · rw [value_parts_zero, zero_mul]
    exact approximates_zero _
  · rw [value_parts_zero, zero_mul]
    exact approximates_zero _
  · rw [value_parts_zero, mul_zero]
    exact approximates_zero _
  · refine approximates_mul_finite s t hm hn ?_
    have ha : Fits m e := ha
    have hb : Fits n f := hb
    rcases ha.long with hlong | he
    · exact .inl (hlong.trans (Nat.le_mul_of_pos_right m hn))
    · rcases hb.long with hlong | hf
      · exact .inl (hlong.trans (Nat.le_mul_of_pos_left n hm))
      · exact .inr (by omega)

/-- The product of two doubles is the exact product, rounded. -/
theorem isNearest_mul (hx : isFinite x = true) (hy : isFinite y = true) :
    IsNearest (x * y) (rational x * rational y) := by
  obtain ⟨hfx, hvx⟩ := exists_unpack_of_isFinite hx
  obtain ⟨hfy, hvy⟩ := exists_unpack_of_isFinite hy
  rw [hvx, hvy]
  exact (approximates_mul (isCanonical_unpack x) (isCanonical_unpack y) hfx hfy).isNearest

/-- What a division leaves is compared with a half of the divisor. -/
theorem tells_accuracyOfFraction {k : ℕ} (h : k < n) :
    Accuracy.Tells (accuracyOfFraction k n) (k / n) := by
  have hn : (0 : ℚ) < n := by exact_mod_cast Nat.zero_lt_of_lt h
  unfold accuracyOfFraction
  split_ifs with hzero
  · rw [hzero, Nat.cast_zero, zero_div]
    rfl
  · have hk : (0 : ℚ) < k := by exact_mod_cast Nat.pos_of_ne_zero hzero
    refine ⟨div_pos hk hn, (div_lt_one hn).2 (by exact_mod_cast h), ?_⟩
    rcases lt_trichotomy (2 * k) n with hlt | heq | hgt
    · rw [compare_lt_iff_lt.2 hlt, eq_comm, compare_lt_iff_lt, div_lt_div_iff₀ hn two_pos]
      have : (2 * k : ℚ) < n := by exact_mod_cast hlt
      linarith
    · rw [compare_eq_iff_eq.2 heq, eq_comm, compare_eq_iff_eq, div_eq_div_iff hn.ne' two_ne_zero]
      have : (2 * k : ℚ) = n := by exact_mod_cast heq
      linarith
    · rw [compare_gt_iff_gt.2 hgt, eq_comm, compare_gt_iff_gt, div_lt_div_iff₀ two_pos hn]
      have : (n : ℚ) < 2 * k := by exact_mod_cast hgt
      linarith

/-- The quotient of two significands has its first digit where their lengths say, or one behind. -/
theorem two_zpow_le_quotient (hm : 0 < m) (hn : 0 < n) (e f : ℤ) :
    (2 : ℚ) ^ ((m.log2 : ℤ) + e - (n.log2 + f) - 1) ≤ m / n * 2 ^ (e - f) := by
  have hlog : (n : ℚ) ≤ 2 ^ ((n.log2 : ℤ) + 1) := by
    have hlt := lt_two_pow_log2 n (r := 0) one_pos
    rw [add_zero] at hlt
    exact hlt.le
  have hquotient : (2 : ℚ) ^ ((m.log2 : ℤ) - (n.log2 + 1)) ≤ m / n := by
    rw [zpow_sub₀ two_ne_zero]
    exact div_le_div₀ (Nat.cast_nonneg m) (two_pow_log2_le hm) (by exact_mod_cast hn) hlog
  have hexponent : (m.log2 : ℤ) + e - (n.log2 + f) - 1 = (m.log2 : ℤ) - (n.log2 + 1) + (e - f) := by
    ring
  rw [hexponent, two_zpow_add]
  exact mul_le_mul_of_nonneg_right hquotient (two_zpow_pos _).le

/-- A significand that is moved to the left is divided with a remainder. -/
theorem quotient_eq_steps (m : ℕ) (hn : 0 < n) {e target : ℤ} {shift : ℕ} (he : e = shift + target) :
    (m : ℚ) / n * 2 ^ e =
      (((m <<< shift / n : ℕ) : ℚ) + ((m <<< shift % n : ℕ) : ℚ) / n) * 2 ^ target := by
  have hn : (n : ℚ) ≠ 0 := by exact_mod_cast hn.ne'
  have hdivmod : ((m <<< shift : ℕ) : ℚ) = n * (m <<< shift / n : ℕ) + (m <<< shift % n : ℕ) := by
    exact_mod_cast (Nat.div_add_mod (m <<< shift) n).symm
  have hsum : ((m <<< shift / n : ℕ) : ℚ) + ((m <<< shift % n : ℕ) : ℚ) / n = (m <<< shift : ℕ) / n := by
    rw [hdivmod]
    field_simp
  rw [hsum, Nat.shiftLeft_eq, he, two_zpow_add, zpow_natCast]
  push_cast
  ring

/-- A quotient is computed in steps that are fine enough, and there are enough of them. -/
theorem approximates_div_finite (s t : Sign) (hm : 0 < m) (hn : 0 < n) (e f : ℤ) :
    Approximates (UnpackedFloat.div Format.binary64 (.finite s m e hm) (.finite t n f hn))
      (factor (isMinus s) * (m * 2 ^ e) / (factor (isMinus t) * (n * 2 ^ f))) := by
  set q : ℚ := m / n * 2 ^ (e - f) with hqdef
  have hnpos : (0 : ℚ) < n := by exact_mod_cast hn
  have hlow : (2 : ℚ) ^ ((m.log2 : ℤ) + e - (n.log2 + f) - 1) ≤ q := two_zpow_le_quotient hm hn e f
  have hpos : 0 < q := (two_zpow_pos _).trans_le hlow
  have hvalue : factor (isMinus s) * (m * 2 ^ e) / (factor (isMinus t) * (n * 2 ^ f)) =
      factor (isMinus (s / t)) * q := by
    rw [mul_div_mul_comm, factor_div, isMinus_div, mul_div_mul_comm, ← zpow_sub₀ two_ne_zero]
  obtain ⟨aim, htarget⟩ :
    ∃ aim, Format.binary64.targetExponent (totalExponent m e - totalExponent n f) = aim := ⟨_, rfl⟩
  have haim := htarget
  rw [targetExponent_eq, totalExponent, totalExponent] at haim
  -- the quotient has a digit before the fifty-second step
  have hgrid : aim ≤ gridExponent q := by
    rw [← haim]
    refine max_le (le_gridExponent_of_le hpos.ne' ?_) (le_gridExponent q)
    rw [abs_of_pos hpos]
    exact (two_zpow_le (by omega)).trans hlow
  rw [hvalue]
  unfold UnpackedFloat.div divCore
  dsimp only
  rw [htarget]
  set target : ℤ := min (e - f) aim with htargetdef
  have hexponent : e - f = ((e - f - target).toNat : ℤ) + target := by omega
  have hsteps := quotient_eq_steps m hn hexponent
  refine approximates_roundWithAccuracy (s / t) (tells_accuracyOfFraction (Nat.mod_lt _ hn)) hsteps
    hpos ((min_le_right _ _).trans hgrid) ?_
  rcases le_or_gt target (-1074) with hfew | hmany
  · exact .inr hfew
  · left
    refine Nat.pos_of_ne_zero fun hzero => ?_
    rw [hzero, Nat.cast_zero, zero_add, ← hqdef] at hsteps
    have hless : q < 2 ^ target := by
      rw [hsteps]
      refine mul_lt_of_lt_one_left (two_zpow_pos _) ((div_lt_one hnpos).2 ?_)
      exact_mod_cast Nat.mod_lt _ hn
    have hpower : (2 : ℚ) ^ target ≤ 2 ^ ((m.log2 : ℤ) + e - (n.log2 + f) - 1) :=
      two_zpow_le (by omega)
    linarith

/-- A quotient is rounded once: the division is carried so far that only the order of what is left
matters. -/
theorem approximates_div {a b : UnpackedFloat} (hfa : a.isFinite = true) (hfb : b.isFinite = true)
    (hne : (parts b).value ≠ 0) :
    Approximates (UnpackedFloat.div Format.binary64 a b) ((parts a).value / (parts b).value) := by
  rcases a with s | _ | s | ⟨s, m, e, hm⟩ <;> rcases b with t | _ | t | ⟨t, n, f, hn⟩ <;>
    first
    | exact Bool.noConfusion hfa
    | exact Bool.noConfusion hfb
    | exact absurd (value_parts_zero t) hne
    | skip
  · rw [value_parts_zero, zero_div]
    exact approximates_zero _
  · exact approximates_div_finite s t hm hn e f

/-- The quotient of two doubles is the exact quotient, rounded. -/
theorem isNearest_div (hx : isFinite x = true) (hy : isFinite y = true) (hne : rational y ≠ 0) :
    IsNearest (x / y) (rational x / rational y) := by
  obtain ⟨hfx, hvx⟩ := exists_unpack_of_isFinite hx
  obtain ⟨hfy, hvy⟩ := exists_unpack_of_isFinite hy
  rw [hvy] at hne
  rw [hvx, hvy]
  exact (approximates_div hfx hfy hne).isNearest

/-! ## Numbers that are read -/

/-- What is not less than `2 ^ 1024` becomes an infinity. -/
theorem isNearest_of_great (hx : isFinite x = false) (hq : 2 ^ (1024 : ℤ) ≤ q) : IsNearest x q := by
  have hgreat := le_nearest (onGrid_two_zpow (by norm_num)) hq
  refine ⟨iff_of_false (by rw [hx]; decide) ?_, fun h => absurd (hx.symm.trans h) (by decide)⟩
  rw [not_lt]
  exact hgreat.trans (le_abs_self _)

/-- What is below half of the finest step becomes zero. -/
theorem isNearest_of_small (hx : whole? x = some 0) (hq : 0 ≤ q) (hlt : q < 2 ^ (-1075 : ℤ)) :
    IsNearest x q := by
  obtain ⟨hfinite, hzero⟩ := rational_of_whole? hx
  have hnearest := nearest_eq_zero hq hlt
  refine ⟨iff_of_true hfinite ?_, fun _ => by rw [hzero, hnearest, Int.cast_zero]⟩
  rw [hnearest, abs_zero]
  exact two_zpow_pos _

/-- A power of ten beyond all doubles. -/
theorem two_zpow_le_ten_zpow : (2 : ℚ) ^ (1024 : ℤ) ≤ 10 ^ (309 : ℤ) := by
  have h : 2 ^ 1024 ≤ 10 ^ 309 := by decide +kernel
  exact_mod_cast h

/-- A power of ten that is less than half of the least double. -/
theorem ten_zpow_lt_two_zpow : (10 : ℚ) ^ (-400 : ℤ) < 2 ^ (-1075 : ℤ) := by
  have h : 2 ^ 1075 < 10 ^ 400 := by decide +kernel
  rw [zpow_neg, zpow_neg, inv_lt_inv₀ (zpow_pos (by norm_num) _) (two_zpow_pos _)]
  exact_mod_cast h

theorem ten_zpow_pos (e : ℤ) : (0 : ℚ) < 10 ^ e :=
  zpow_pos (by norm_num) e

theorem ten_zpow_le {e f : ℤ} (h : e ≤ f) : (10 : ℚ) ^ e ≤ 10 ^ f :=
  zpow_le_zpow_right₀ (by norm_num) h

/-- Whole numbers of fifty-three binary digits are doubles. -/
theorem rational_toUInt64 (hm : m < 2 ^ 53) :
    isFinite m.toUInt64.toFloat = true ∧ rational m.toUInt64.toFloat = m := by
  have hround : IsNearest m.toUInt64.toFloat ((m.toUInt64.toNat : ℤ) * 2 ^ (0 : ℤ)) :=
    (approximates_normalize (m.toUInt64.toNat : ℤ) 0 .positive).isNearest
  have hcast : m.toUInt64.toNat = m := by
    change m % 2 ^ 64 = m
    exact Nat.mod_eq_of_lt (hm.trans (by norm_num))
  have hvalue : ((m.toUInt64.toNat : ℤ) : ℚ) * 2 ^ (0 : ℤ) = m := by
    rw [hcast, zpow_zero, mul_one, Int.cast_natCast]
  have hgrid : nearest m = m :=
    nearest_eq_self ⟨m, 0, by rw [Nat.abs_cast]; exact_mod_cast hm.le, by norm_num, by simp⟩
  rw [hvalue] at hround
  have hfinite : isFinite m.toUInt64.toFloat = true := by
    rw [hround.isFinite_iff, hgrid, Nat.abs_cast]
    calc (m : ℚ) < 2 ^ (53 : ℤ) := by exact_mod_cast hm
      _ ≤ 2 ^ (1024 : ℤ) := two_zpow_le (by norm_num)
  exact ⟨hfinite, (hround.rational_eq hfinite).trans hgrid⟩

/-- The table of powers of ten is exact. -/
theorem whole?_powersOfTen : ∀ e : Fin 23,
    whole? (Float.exactlyRepresentablePowersOfTen[e.val]) = some (10 ^ e.val) := by
  decide +kernel

/-- A numeral that is too great for a double. -/
theorem two_zpow_le_scientific {k : ℤ} (h : (10 : ℚ) ^ k ≤ m) (he : 309 ≤ k + e) :
    (2 : ℚ) ^ (1024 : ℤ) ≤ m * 10 ^ e :=
  calc (2 : ℚ) ^ (1024 : ℤ) ≤ 10 ^ (309 : ℤ) := two_zpow_le_ten_zpow
    _ ≤ 10 ^ (k + e) := ten_zpow_le he
    _ = 10 ^ k * 10 ^ e := zpow_add₀ (by norm_num) _ _
    _ ≤ m * 10 ^ e := mul_le_mul_of_nonneg_right h (ten_zpow_pos e).le

/-- A numeral that is too small for a double. -/
theorem scientific_lt_two_zpow {k : ℤ} (h : (m : ℚ) ≤ 10 ^ k) (he : k + e ≤ -400) :
    m * 10 ^ e < (2 : ℚ) ^ (-1075 : ℤ) :=
  calc (m : ℚ) * 10 ^ e ≤ 10 ^ k * 10 ^ e := mul_le_mul_of_nonneg_right h (ten_zpow_pos e).le
    _ = 10 ^ (k + e) := (zpow_add₀ (by norm_num) _ _).symm
    _ ≤ 10 ^ (-400 : ℤ) := ten_zpow_le he
    _ < 2 ^ (-1075 : ℤ) := ten_zpow_lt_two_zpow

/-- A number times a power of ten, as it is computed: with a significand that has been made long. -/
theorem approximates_mul_ten (k : ℕ) (hm : 0 < m <<< Format.binary64.mantissaBits)
    (hpower : 0 < 10 ^ k) :
    Approximates (UnpackedFloat.mul Format.binary64
      (.finite .positive (m <<< Format.binary64.mantissaBits) (-(Format.binary64.mantissaBits : ℤ)) hm)
      (.finite .positive (10 ^ k) 0 hpower)) (m * 10 ^ (k : ℤ)) := by
  have hlong : 2 ^ 52 ≤ m <<< Format.binary64.mantissaBits * 10 ^ k := by
    rw [Nat.shiftLeft_eq] at hm ⊢
    have hbits : 2 ^ 52 ≤ m * 2 ^ 53 := by
      have : 0 < m := Nat.pos_of_mul_pos_right hm
      omega
    exact hbits.trans (Nat.le_mul_of_pos_right _ hpower)
  have hproduct := approximates_mul_finite (e := -(Format.binary64.mantissaBits : ℤ)) (f := 0)
    .positive .positive hm hpower (.inl hlong)
  have hvalue : factor (isMinus .positive) * ((m <<< Format.binary64.mantissaBits : ℕ) *
      2 ^ (-(Format.binary64.mantissaBits : ℤ))) *
      (factor (isMinus .positive) * ((10 ^ k : ℕ) * 2 ^ (0 : ℤ))) = (m : ℚ) * 10 ^ (k : ℤ) := by
    rw [Nat.shiftLeft_eq, zpow_neg, zpow_natCast, zpow_natCast]
    push_cast [isMinus, factor]
    field_simp
  rwa [hvalue] at hproduct

/-- Division by a power of ten. -/
theorem approximates_div_ten (k : ℕ) (hm : 0 < m) (hpower : 0 < 10 ^ k) :
    Approximates (UnpackedFloat.div Format.binary64 (.finite .positive m 0 hm)
      (.finite .positive (10 ^ k) 0 hpower)) (m * 10 ^ (-k : ℤ)) := by
  have hquotient := approximates_div_finite .positive .positive hm hpower 0 0
  have hvalue : factor (isMinus .positive) * ((m : ℚ) * 2 ^ (0 : ℤ)) /
      (factor (isMinus .positive) * ((10 ^ k : ℕ) * 2 ^ (0 : ℤ))) = (m : ℚ) * 10 ^ (-k : ℤ) := by
    rw [zpow_neg, zpow_natCast]
    push_cast [isMinus, factor]
    simp [div_eq_mul_inv]
  rwa [hvalue] at hquotient

/-- A numeral is nearest to its value, however great or small its exponent is. -/
theorem isNearest_modelOfScientific (m : ℕ) (e : ℤ) :
    IsNearest (.ofModel (Float.Model.ofScientific m e)) (m * 10 ^ e) := by
  unfold Float.Model.ofScientific UnpackedFloat.ofScientific
  -- zero; an exponent that is too great; one that is too small; a product with a power of ten; a
  -- quotient by one
  split_ifs with hm hgreat hsmall hsign
  · rw [hm, Nat.cast_zero, zero_mul]
    exact (approximates_zero _).isNearest
  · have hone : (10 : ℚ) ^ (0 : ℤ) ≤ m := by
      rw [zpow_zero]
      exact_mod_cast Nat.pos_of_ne_zero hm
    have hexponent : e > 2 ^ 11 := hgreat
    exact isNearest_of_great (by decide +kernel) (two_zpow_le_scientific hone (by omega))
  · have hdigits : (m : ℚ) ≤ 10 ^ ((m.log2 : ℤ) + 1) := by
      have hlt := lt_two_pow_log2 m (r := 0) one_pos
      rw [add_zero] at hlt
      exact hlt.le.trans (zpow_le_zpow_left₀ (by omega) (by norm_num) (by norm_num))
    have hexponent : e < -((2 ^ 11 : ℤ) + m.log2) := hsmall
    exact isNearest_of_small (by decide +kernel)
      (mul_nonneg (Nat.cast_nonneg m) (ten_zpow_pos e).le)
      (scientific_lt_two_zpow hdigits (by omega))
  · have hlong : 0 < m <<< Format.binary64.mantissaBits := by
      rw [Nat.shiftLeft_eq]
      exact Nat.mul_pos (Nat.pos_of_ne_zero hm) (Nat.two_pow_pos _)
    have hproduct := (approximates_mul_ten e.toNat hlong (Nat.pow_pos (by decide))).isNearest
    rwa [Int.toNat_of_nonneg hsign] at hproduct
  · have hquotient := (approximates_div_ten (-e).toNat (Nat.pos_of_ne_zero hm)
      (Nat.pow_pos (by decide))).isNearest
    rwa [Int.toNat_of_nonneg (by omega), neg_neg] at hquotient

/-- A numeral becomes the double nearest to it; one with few digits and a small power of ten is computed
from doubles that are exact. -/
theorem isNearest_ofScientific (m : ℕ) (negative : Bool) (e : ℕ) :
    IsNearest (Float.ofScientific m negative e) (m * 10 ^ (if negative then -(e : ℤ) else e)) := by
  unfold Float.ofScientific
  split
  · next h =>
    obtain ⟨hm, hv⟩ := rational_toUInt64 h.1
    obtain ⟨ht, hw⟩ := rational_of_whole? (whole?_powersOfTen ⟨e, by omega⟩)
    -- Both the digits and the power of ten are exact doubles here, so one operation rounds once.
    have hten : ((10 ^ e : ℤ) : ℚ) ≠ 0 := by positivity
    cases negative
    · have hproduct := isNearest_mul hm ht
      rw [hv, hw] at hproduct
      simp only [Bool.false_eq_true, if_false, zpow_natCast]
      push_cast at hproduct
      exact hproduct
    · have hquotient := isNearest_div hm ht (by rw [hw]; exact hten)
      rw [hv, hw] at hquotient
      simp only [if_true, zpow_neg, zpow_natCast]
      push_cast [div_eq_mul_inv] at hquotient
      exact hquotient
  · have hmodel := isNearest_modelOfScientific m (if negative then -(e : ℤ) else e)
    cases negative
    · exact hmodel
    · have hneg : Int.negOfNat e = -(e : ℤ) := by cases e <;> rfl
      simp only [if_true] at hmodel ⊢
      rw [hneg]
      exact hmodel

theorem isNearest_ofNat (n : ℕ) : IsNearest (Float.ofNat n) n := by
  have h := isNearest_ofScientific n false 0
  rw [if_neg (by decide), Nat.cast_zero, zpow_zero, mul_one] at h
  exact h

theorem IsNearest.neg (h : IsNearest x q) : IsNearest (-x) (-q) := by
  refine ⟨?_, fun hfinite => ?_⟩
  · rw [isFinite_neg, nearest_neg, abs_neg]
    exact h.isFinite_iff
  · rw [isFinite_neg] at hfinite
    rw [rational_neg, nearest_neg, h.rational_eq hfinite]

/-- A whole number becomes the nearest double. -/
theorem isNearest_ofInt (n : ℤ) : IsNearest (Float.ofInt n) n := by
  cases n with
  | ofNat n => exact isNearest_ofNat n
  | negSucc n =>
    have h := (isNearest_ofNat (n + 1)).neg
    rw [Int.cast_negSucc]
    exact h

end EventDeck.Decimal
