import EventDeck.Decimal.Floor
import EventDeck.Proofs.Decimal.Form
import EventDeck.Proofs.Decimal.Order
import EventDeck.Proofs.Decimal.Rounding

/-!
# Doubles as numbers

A finite double is a rational number, its sign times its significand times a power of two
(`rational`).  Doubles are computed in another form, with a zero of its own that has no significand;
`parts` takes that form to the parts of a double, and `ofFloat_eq` says that nothing else is stored.

Significands and exponents fit each other (`Fits`): a significand has fifty-three binary digits, or fewer
with the lowest exponent.  So two finite doubles of one value and one sign are the same
(`eq_of_rational_eq`), and finite doubles are in the order of their values (`lt_iff_rational`).
-/

namespace EventDeck.Decimal

open Float.Model Float.Model.UnpackedFloat

variable {x y : Float} {m n : ℕ} {e f : ℤ}

/-! ## Values -/

/-- The number of a sign. -/
def factor (negative : Bool) : ℚ :=
  if negative then -1 else 1

/-- The value of a double; what is not finite has the value zero. -/
def Binary.value : Binary → ℚ
  | .finite negative significand exponent => factor negative * (significand * 2 ^ exponent)
  | _ => 0

/-- The value of a double. -/
def rational (x : Float) : ℚ :=
  (Binary.ofFloat x).value

/-- A sign does not change a magnitude. -/
theorem abs_factor_mul (negative : Bool) (q : ℚ) : |factor negative * q| = |q| := by
  cases negative <;> simp [factor]

theorem factor_not (negative : Bool) : factor (!negative) = -factor negative := by
  cases negative <;> simp [factor]

/-! ## The computed form -/

/-- Whether a sign is a minus. -/
def isMinus : Sign → Bool
  | .negative => true
  | .positive => false

/-- The parts of a double in the form in which doubles are computed. -/
def parts : UnpackedFloat → Binary
  | .infinity sign => .infinite (isMinus sign)
  | .notANumber => .notANumber
  | .zero sign => .finite (isMinus sign) 0 (-1074)
  | .finite sign significand exponent _ => .finite (isMinus sign) significand exponent

theorem isMinus_injective {s t : Sign} (h : isMinus s = isMinus t) : s = t := by
  cases s <;> cases t <;> first | rfl | cases h

/-- The form of a number has no more in it than its parts. -/
theorem parts_injective {a b : UnpackedFloat} (h : parts a = parts b) : a = b := by
  rcases a with s | _ | s | ⟨s, m, e, hm⟩ <;> rcases b with t | _ | t | ⟨t, n, f, hn⟩ <;>
    simp only [parts, Binary.infinite.injEq, Binary.finite.injEq, reduceCtorEq] at h
  · rw [isMinus_injective h]
  · rfl
  · rw [isMinus_injective h.1]
  · exact absurd h.2.1.symm hn.ne'
  · exact absurd h.2.1 hm.ne'
  · obtain ⟨hsign, rfl, rfl⟩ := h
    rw [isMinus_injective hsign]

section Bits

variable (bits : BitVec Format.binary64.numBits)

/-- The significand is in the low bits, the exponent in the eleven bits above them. -/
theorem toNat_unpackMantissa :
    (unpackMantissa bits).toNat = bits.toNat % Binary.hiddenBit := by
  rw [unpackMantissa_def, BitVec.extractLsb'_toNat, Nat.shiftRight_zero]
  rfl

theorem toNat_unpackExponent :
    (unpackExponent bits).toNat = bits.toNat / Binary.hiddenBit % 2048 := by
  rw [unpackExponent_def, BitVec.extractLsb'_toNat, Nat.shiftRight_eq_div_pow]
  rfl

/-- The sign is the highest bit. -/
theorem isMinus_unpackSign :
    isMinus (Sign.ofBitVec (unpackSign bits)) = decide (Binary.signBit ≤ bits.toNat) := by
  have hsign : (unpackSign bits).toNat = bits.toNat / Binary.signBit % 2 := by
    rw [unpackSign_def, BitVec.extractLsb'_toNat, Nat.shiftRight_eq_div_pow]
    rfl
  have hlt : bits.toNat < 2 * Binary.signBit := bits.isLt
  unfold Sign.ofBitVec
  -- the bit is set when the number of the bits reaches it, since there are no bits above
  by_cases hle : Binary.signBit ≤ bits.toNat
  · have hone : unpackSign bits ≠ 0#1 := by
      intro hzero
      rw [hzero] at hsign
      have : bits.toNat / Binary.signBit = 1 := Nat.div_eq_of_lt_le (by omega) (by omega)
      rw [this] at hsign
      cases hsign
    rw [if_neg hone, decide_eq_true hle]
    rfl
  · have hzero : unpackSign bits = 0#1 := by
      apply BitVec.eq_of_toNat_eq
      rw [hsign, Nat.div_eq_of_lt (not_le.mp hle)]
      rfl
    rw [if_pos hzero, decide_eq_false hle]
    rfl

/-- The library and this development read the same number off the bits of a double. -/
theorem parts_unpack :
    parts (UnpackedFloat.unpack Format.binary64 bits) = Binary.ofBits bits.toNat := by
  have hexponent := toNat_unpackExponent bits
  have hmantissa := toNat_unpackMantissa bits
  have hfull : unpackExponent bits = -1#_ ↔ bits.toNat / Binary.hiddenBit % 2048 = 2047 := by
    rw [← hexponent, ← BitVec.toNat_inj]
    rfl
  have hempty : unpackExponent bits = 0#_ ↔ bits.toNat / Binary.hiddenBit % 2048 = 0 := by
    rw [← hexponent, ← BitVec.toNat_inj]
    rfl
  have hnone : unpackMantissa bits = 0#_ ↔ bits.toNat % Binary.hiddenBit = 0 := by
    rw [← hmantissa, ← BitVec.toNat_inj]
    rfl
  unfold UnpackedFloat.unpack Binary.ofBits
  dsimp only
  rw [← isMinus_unpackSign]
  simp only [hfull, hempty, hnone]
  -- an infinity, no number, zero, a short significand, a long one with its leading bit
  split_ifs with h₁ h₂ h₃ h₄
  · rfl
  · rfl
  · rw [h₄]
    rfl
  · rw [parts, hmantissa, hexponent, h₃]
    rfl
  · have hleading : (1#1 ++ unpackMantissa bits).toNat =
        Binary.hiddenBit + bits.toNat % Binary.hiddenBit := by
      rw [BitVec.toNat_append, ← Nat.shiftLeft_add_eq_or_of_lt (unpackMantissa bits).isLt, hmantissa]
      rfl
    rw [parts, hleading, hexponent]
    rfl

end Bits

/-- The parts of a double are those of its computed form. -/
theorem ofFloat_eq (x : Float) : Binary.ofFloat x = parts x.toModel.unpack :=
  (parts_unpack x.toModel.toBits.toBitVec).symm

/-- A double is known by its parts. -/
theorem eq_of_ofFloat_eq (h : Binary.ofFloat x = Binary.ofFloat y) : x = y := by
  rw [ofFloat_eq, ofFloat_eq] at h
  have hbits := (unpack_inj_of_valid x.toModel.valid y.toModel.valid).1 (parts_injective h)
  exact Float.toBits_inj.1 (UInt64.toBitVec_inj.1 hbits)

/-! ## Significands and exponents -/

/-- A significand and an exponent that belong together in a double, or in one that were finite if
exponents could be greater. -/
structure Fits (m : ℕ) (e : ℤ) : Prop where
  lt : m < 2 ^ 53
  le : -1074 ≤ e
  long : 2 ^ 52 ≤ m ∨ e = -1074

/-- What is read off bits fits a double. -/
theorem fits_of_ofBits {bits : ℕ} {negative : Bool} (h : Binary.ofBits bits = .finite negative m e) :
    Fits m e ∧ e ≤ 971 := by
  have hfraction : bits % Binary.hiddenBit < 2 ^ 52 := Nat.mod_lt _ (by decide)
  have hfield : bits / Binary.hiddenBit % 2048 < 2048 := Nat.mod_lt _ (by decide)
  have hhidden : Binary.hiddenBit = 2 ^ 52 := rfl
  unfold Binary.ofBits at h
  dsimp only at h
  split_ifs at h
  · cases h
    exact ⟨⟨by omega, le_rfl, .inr rfl⟩, by decide⟩
  · cases h
    exact ⟨⟨by omega, by omega, .inl (by omega)⟩, by omega⟩

theorem fits_of_ofFloat {negative : Bool} (h : Binary.ofFloat x = .finite negative m e) :
    Fits m e ∧ e ≤ 971 :=
  fits_of_ofBits h

theorem two_zpow_le_of_long (h : 2 ^ 52 ≤ m) (e : ℤ) : (2 : ℚ) ^ (e + 52) ≤ m * 2 ^ e := by
  rw [add_comm, two_zpow_add]
  exact mul_le_mul_of_nonneg_right (by exact_mod_cast h) (two_zpow_pos e).le

namespace Fits

/-- A significand has 53 bits at most. -/
theorem lt_two_zpow (h : Fits m e) : (m : ℚ) * 2 ^ e < 2 ^ (e + 53) := by
  rw [add_comm, two_zpow_add]
  exact mul_lt_mul_of_pos_right (by exact_mod_cast h.lt) (two_zpow_pos e)

/-- The exponent says whether the number is too great. -/
theorem lt_great_iff (h : Fits m e) : (m : ℚ) * 2 ^ e < 2 ^ (1024 : ℤ) ↔ e ≤ 971 := by
  constructor
  · intro hlt
    by_contra hnot
    have hlong : 2 ^ 52 ≤ m := h.long.resolve_right (by omega)
    have hgreat : (2 : ℚ) ^ (1024 : ℤ) ≤ 2 ^ (e + 52) := two_zpow_le (by omega)
    exact (hgreat.trans (two_zpow_le_of_long hlong e)).not_gt hlt
  · intro hle
    exact h.lt_two_zpow.trans_le (two_zpow_le (by omega))

/-- The exponent is that of the grid around the number. -/
theorem gridExponent_eq (h : Fits m e) (hm : m ≠ 0) : gridExponent (m * 2 ^ e) = e := by
  have hpos : (0 : ℚ) < m * 2 ^ e :=
    mul_pos (by exact_mod_cast Nat.pos_of_ne_zero hm) (two_zpow_pos e)
  refine le_antisymm (gridExponent_le h.le hpos.ne' ?_) ?_
  · rw [abs_of_pos hpos]
    exact h.lt_two_zpow
  · rcases h.long with hlong | rfl
    · refine le_gridExponent_of_le hpos.ne' ?_
      rw [abs_of_pos hpos]
      exact two_zpow_le_of_long hlong e
    · exact le_gridExponent _

/-- What fits a double is a point of its grid. -/
theorem onGrid (h : Fits m e) : OnGrid (m * 2 ^ e) :=
  ⟨m, e, by rw [Nat.abs_cast]; exact_mod_cast h.lt.le, h.le, by simp⟩

/-- A number has one significand and one exponent. -/
theorem unique (h : Fits m e) (h' : Fits n f) (heq : (m : ℚ) * 2 ^ e = n * 2 ^ f) :
    m = n ∧ (m ≠ 0 → e = f) := by
  by_cases hm : m = 0
  · subst hm
    rw [Nat.cast_zero, zero_mul, eq_comm, mul_eq_zero, or_iff_left (two_zpow_pos f).ne'] at heq
    exact ⟨by exact_mod_cast heq.symm, fun hnot => absurd rfl hnot⟩
  · have hn : n ≠ 0 := by
      rintro rfl
      rw [Nat.cast_zero, zero_mul, mul_eq_zero, or_iff_left (two_zpow_pos e).ne'] at heq
      exact hm (by exact_mod_cast heq)
    have hexponent : e = f := by rw [← h.gridExponent_eq hm, heq, h'.gridExponent_eq hn]
    subst hexponent
    have hcast := mul_right_cancel₀ (two_zpow_pos e).ne' heq
    exact ⟨by exact_mod_cast hcast, fun _ => rfl⟩

end Fits

theorem exists_ofFloat_of_isFinite (h : isFinite x = true) :
    ∃ negative m e, Binary.ofFloat x = .finite negative m e := by
  unfold isFinite at h
  split at h
  · next negative m e heq => exact ⟨negative, m, e, heq⟩
  · cases h

theorem isFinite_of_ofFloat {negative : Bool} (h : Binary.ofFloat x = .finite negative m e) :
    isFinite x = true := by
  rw [isFinite, h]

/-- The values of doubles are points of grids. -/
theorem onGrid_rational (x : Float) : OnGrid (rational x) := by
  rw [rational]
  cases hx : Binary.ofFloat x with
  | finite negative m e =>
    have hgrid := (fits_of_ofFloat hx).1.onGrid
    cases negative
    · simpa [Binary.value, factor] using hgrid
    · simpa [Binary.value, factor] using onGrid_neg hgrid
  | _ => exact ⟨0, 0, by norm_num, by norm_num, by simp [Binary.value]⟩

/-- Two finite doubles of one value that is not zero are the same. -/
theorem eq_of_rational_eq (hx : isFinite x = true) (hy : isFinite y = true)
    (h : rational x = rational y) (hne : rational x ≠ 0) : x = y := by
  obtain ⟨negative, m, e, hx⟩ := exists_ofFloat_of_isFinite hx
  obtain ⟨negative', n, f, hy⟩ := exists_ofFloat_of_isFinite hy
  have hfits := (fits_of_ofFloat hx).1
  have hfits' := (fits_of_ofFloat hy).1
  rw [rational, hx, Binary.value] at h hne
  rw [rational, hy, Binary.value] at h
  have hm : m ≠ 0 := by
    rintro rfl
    simp at hne
  -- the signs are told apart by the value, the rest by its magnitude
  have hmagnitude : (m : ℚ) * 2 ^ e = n * 2 ^ f := by
    have habs := congrArg (fun q : ℚ => |q|) h
    rw [abs_factor_mul, abs_factor_mul, abs_of_nonneg, abs_of_nonneg] at habs
    · exact habs
    · exact mul_nonneg (Nat.cast_nonneg n) (two_zpow_pos f).le
    · exact mul_nonneg (Nat.cast_nonneg m) (two_zpow_pos e).le
  obtain ⟨rfl, hexponent⟩ := hfits.unique hfits' hmagnitude
  obtain rfl := hexponent hm
  have hsign : negative = negative' := by
    have hcancel := mul_right_cancel₀ (right_ne_zero_of_mul hne) h
    cases negative <;> cases negative' <;> first | rfl | (norm_num [factor] at hcancel)
  exact eq_of_ofFloat_eq (by rw [hx, hy, hsign])

/-! ## Packing -/

/-- A computed double whose significand and exponent fit each other. -/
def IsCanonical : UnpackedFloat → Prop
  | .finite _ significand exponent _ => Fits significand exponent
  | _ => True

/-- A long significand has 53 bits. -/
theorem log2_eq_of_fits (h : 2 ^ 52 ≤ m) (hlt : m < 2 ^ 53) : m.log2 = 52 := by
  rw [Nat.log2_eq_iff (by omega)]
  exact ⟨h, hlt⟩

/-- The exponent as it is stored. -/
theorem biased_eq (e : ℤ) :
    e + (Format.binary64.exponentBias : ℤ) + ((52 : ℕ) : ℤ) = e + 1075 := by
  rw [add_assoc]
  rfl

/-- A short significand is stored as it is; its exponent is the lowest one. -/
theorem unpack_pack_short (s : Sign) (hm : 0 < m) (hshort : m < 2 ^ 52) :
    UnpackedFloat.unpack Format.binary64 (UnpackedFloat.pack Format.binary64
      (.finite s m (-1074) hm)) = .finite s m (-1074) hm := by
  have hlog : ¬m.log2 + 1 = Format.binary64.mantissaBits := by
    have : m.log2 < 52 := (Nat.log2_lt hm.ne').2 hshort
    change ¬m.log2 + 1 = 53
    omega
  have hne : BitVec.ofNat 52 m ≠ 0#52 := by
    rw [ne_eq, ← BitVec.toNat_inj, BitVec.toNat_ofNat, Nat.mod_eq_of_lt hshort]
    exact hm.ne'
  unfold UnpackedFloat.pack
  dsimp only
  rw [biased_eq, if_neg (by decide), if_neg hlog]
  unfold UnpackedFloat.unpack
  simp only [unpackMantissa_packComponents, unpackExponent_packComponents,
    unpackSign_packComponents, Sign.ofBitVec_toBitVec]
  rw [if_neg (by decide), if_pos trivial, dif_neg hne]
  congr 1
  rw [BitVec.toNat_ofNat, Nat.mod_eq_of_lt hshort]

/-- A long significand is stored without its leading bit. -/
theorem unpack_pack_long (s : Sign) (hm : 0 < m) (hlong : 2 ^ 52 ≤ m) (hlt : m < 2 ^ 53)
    (hlow : -1074 ≤ e) (hhigh : e ≤ 971) :
    UnpackedFloat.unpack Format.binary64 (UnpackedFloat.pack Format.binary64 (.finite s m e hm)) =
      .finite s m e hm := by
  -- The stored exponent is neither the one of infinities nor the one of short significands.
  have hfew : ¬2 ^ 11 ≤ (e + 1075).toNat + 1 := by omega
  have hlog : m.log2 + 1 = Format.binary64.mantissaBits := by
    rw [log2_eq_of_fits hlong hlt]
    rfl
  have hfield : (BitVec.ofNat 11 (e + 1075).toNat).toNat = (e + 1075).toNat := by
    rw [BitVec.toNat_ofNat, Nat.mod_eq_of_lt (by omega)]
  have hfull : BitVec.ofNat 11 (e + 1075).toNat ≠ -1#11 := by
    rw [ne_eq, ← BitVec.toNat_inj, hfield]
    change ¬(e + 1075).toNat = 2047
    omega
  have hempty : BitVec.ofNat 11 (e + 1075).toNat ≠ 0#11 := by
    rw [ne_eq, ← BitVec.toNat_inj, hfield]
    change ¬(e + 1075).toNat = 0
    omega
  -- the leading bit that is not stored comes back
  have hleading : (1#1 ++ BitVec.ofNat 52 m).toNat = m := by
    rw [BitVec.toNat_append, ← Nat.shiftLeft_add_eq_or_of_lt (BitVec.ofNat 52 m).isLt,
      BitVec.toNat_ofNat]
    change 2 ^ 52 + m % 2 ^ 52 = m
    omega
  unfold UnpackedFloat.pack
  dsimp only
  rw [biased_eq, if_neg hfew, if_pos hlog]
  unfold UnpackedFloat.unpack
  simp only [unpackMantissa_packComponents, unpackExponent_packComponents,
    unpackSign_packComponents, Sign.ofBitVec_toBitVec]
  rw [if_neg hfull, if_neg hempty]
  congr 1
  rw [hfield]
  change ((e + 1075).toNat : ℤ) - 1075 = e
  omega

/-- A number beyond the greatest double is stored as an infinity. -/
theorem unpack_pack_great (s : Sign) (hm : 0 < m) (hgreat : 971 < e) :
    UnpackedFloat.unpack Format.binary64 (UnpackedFloat.pack Format.binary64 (.finite s m e hm)) =
      .infinity s := by
  have hmany : 2 ^ 11 ≤ (e + 1075).toNat + 1 := by omega
  unfold UnpackedFloat.pack
  dsimp only
  rw [biased_eq, if_pos hmany]
  unfold UnpackedFloat.unpack packedInfinity
  simp only [unpackMantissa_packComponents, unpackExponent_packComponents,
    unpackSign_packComponents, Sign.ofBitVec_toBitVec]
  rfl

/-- What fits is unpacked as it was packed, and what is too great is unpacked as an infinity. -/
theorem unpack_pack_finite (s : Sign) (hm : 0 < m) (h : Fits m e) :
    UnpackedFloat.unpack Format.binary64 (UnpackedFloat.pack Format.binary64 (.finite s m e hm)) =
      if e ≤ 971 then .finite s m e hm else .infinity s := by
  split_ifs with hhigh
  · rcases Nat.lt_or_ge m (2 ^ 52) with hshort | hlong
    · obtain rfl : e = -1074 := h.long.resolve_left (by omega)
      exact unpack_pack_short s hm hshort
    · exact unpack_pack_long s hm hlong h.lt h.le hhigh
  · exact unpack_pack_great s hm (not_le.mp hhigh)

/-- What is too great becomes an infinity. -/
def Binary.bounded : Binary → Binary
  | .finite negative significand exponent =>
    if exponent ≤ 971 then .finite negative significand exponent else .infinite negative
  | other => other

/-- The parts of a double that has been computed. -/
theorem ofFloat_pack {a : UnpackedFloat} (h : IsCanonical a) :
    Binary.ofFloat (.ofModel (.pack a)) = (parts a).bounded := by
  rw [ofFloat_eq]
  change parts (UnpackedFloat.unpack Format.binary64 (UnpackedFloat.pack Format.binary64 a)) = _
  rcases a with s | _ | s | ⟨s, m, e, hm⟩
  · cases s <;> decide +kernel
  · decide +kernel
  · cases s <;> decide +kernel
  · rw [unpack_pack_finite s hm h, parts, Binary.bounded]
    split_ifs <;> rfl

/-! ## Signs -/

theorem isMinus_neg (s : Sign) : isMinus (-s) = !isMinus s := by
  cases s <;> rfl

/-- The other sign. -/
def Binary.neg : Binary → Binary
  | .finite negative significand exponent => .finite (!negative) significand exponent
  | .infinite negative => .infinite (!negative)
  | .notANumber => .notANumber

/-- What is read off a double has the one form in which it is stored. -/
theorem isCanonical_unpack (x : Float) : IsCanonical x.toModel.unpack := by
  cases hx : x.toModel.unpack with
  | finite s m e hm =>
    have hparts : Binary.ofFloat x = .finite (isMinus s) m e := by rw [ofFloat_eq, hx, parts]
    exact (fits_of_ofFloat hparts).1
  | _ => trivial

theorem isCanonical_neg {a : UnpackedFloat} (h : IsCanonical a) : IsCanonical a.neg := by
  cases a <;> exact h

theorem parts_neg (a : UnpackedFloat) : parts a.neg = (parts a).neg := by
  cases a <;> simp [UnpackedFloat.neg, parts, Binary.neg, isMinus_neg]

@[simp] theorem Binary.value_neg (a : Binary) : a.neg.value = -a.value := by
  cases a <;> simp [Binary.neg, Binary.value, factor_not]

/-- The negative of a double is the double with the other sign. -/
theorem ofFloat_neg (x : Float) : Binary.ofFloat (-x) = (Binary.ofFloat x).neg := by
  change Binary.ofFloat (.ofModel (.pack x.toModel.unpack.neg)) = _
  rw [ofFloat_pack (isCanonical_neg (isCanonical_unpack x)), parts_neg, ← ofFloat_eq]
  cases hx : Binary.ofFloat x with
  | finite negative m e => rw [Binary.neg, Binary.bounded, if_pos (fits_of_ofFloat hx).2]
  | _ => rfl

@[simp] theorem isFinite_neg (x : Float) : isFinite (-x) = isFinite x := by
  rw [isFinite, isFinite, ofFloat_neg]
  cases Binary.ofFloat x <;> rfl

/-- The negative of a double has the negative value. -/
@[simp] theorem rational_neg (x : Float) : rational (-x) = -rational x := by
  rw [rational, ofFloat_neg, Binary.value_neg, rational]

/-! ## Order -/

/-- Exponents decide first which of two numbers is less, as each has as many digits as it can. -/
theorem Fits.lt_of_lt (h : Fits m e) (h' : Fits n f) (hlt : e < f) :
    (m : ℚ) * 2 ^ e < n * 2 ^ f := by
  have hlong : 2 ^ 52 ≤ n := h'.long.resolve_right (by have := h.le; omega)
  calc (m : ℚ) * 2 ^ e < 2 ^ (e + 53) := h.lt_two_zpow
    _ ≤ 2 ^ (f + 52) := two_zpow_le (by omega)
    _ ≤ n * 2 ^ f := two_zpow_le_of_long hlong f

/-- Significands of different exponents need not be brought to one: the exponents decide. -/
theorem Fits.compare_eq (h : Fits m e) (h' : Fits n f) :
    (compare e f).then (compare m n) = compare ((m : ℚ) * 2 ^ e) (n * 2 ^ f) := by
  rcases lt_trichotomy e f with hlt | rfl | hlt
  · rw [compare_lt_iff_lt.2 hlt, compare_lt_iff_lt.2 (h.lt_of_lt h' hlt)]
    rfl
  · have hstep := two_zpow_pos e
    rw [compare_eq_iff_eq.2 rfl, Ordering.eq_then]
    rcases lt_trichotomy m n with hlt | rfl | hlt
    · rw [compare_lt_iff_lt.2 hlt, compare_lt_iff_lt.2]
      exact mul_lt_mul_of_pos_right (by exact_mod_cast hlt) hstep
    · rw [compare_eq_iff_eq.2 rfl, compare_eq_iff_eq.2 rfl]
    · rw [compare_gt_iff_gt.2 hlt, compare_gt_iff_gt.2]
      exact mul_lt_mul_of_pos_right (by exact_mod_cast hlt) hstep
  · rw [compare_gt_iff_gt.2 hlt, compare_gt_iff_gt.2 (h'.lt_of_lt h hlt)]
    rfl

theorem compare_neg_neg (q r : ℚ) : compare (-q) (-r) = (compare q r).swap := by
  rcases lt_trichotomy q r with h | rfl | h
  · rw [compare_lt_iff_lt.2 h, compare_gt_iff_gt.2 (neg_lt_neg h)]
    rfl
  · rw [compare_eq_iff_eq.2 rfl, compare_eq_iff_eq.2 rfl]
    rfl
  · rw [compare_gt_iff_gt.2 h, compare_lt_iff_lt.2 (neg_lt_neg h)]
    rfl

/-- Computed forms are compared as the numbers that they are. -/
theorem compare_parts {a b : UnpackedFloat} (ha : IsCanonical a) (hb : IsCanonical b)
    (hfa : a.isFinite = true) (hfb : b.isFinite = true) :
    a.compare b = some (compare (parts a).value (parts b).value) := by
  have hpos : ∀ {m : ℕ} {e : ℤ}, 0 < m → (0 : ℚ) < m * 2 ^ e := fun hm =>
    mul_pos (by exact_mod_cast hm) (two_zpow_pos _)
  -- zeros, then numbers of either sign; a number against a zero is decided by its sign, two numbers of
  -- one sign by their magnitudes
  rcases a with s | _ | s | ⟨s, m, e, hm⟩ <;> rcases b with t | _ | t | ⟨t, n, f, hn⟩ <;>
    first | exact Bool.noConfusion hfa | exact Bool.noConfusion hfb | skip
  · simp [UnpackedFloat.compare, parts, Binary.value]
  · have hvalue := hpos (e := f) hn
    cases t
    · rw [eq_comm, UnpackedFloat.compare, Option.some.injEq, compare_gt_iff_gt]
      simpa [parts, Binary.value, isMinus, factor] using hvalue
    · rw [eq_comm, UnpackedFloat.compare, Option.some.injEq, compare_lt_iff_lt]
      simpa [parts, Binary.value, isMinus, factor] using hvalue
  · have hvalue := hpos (e := e) hm
    cases s
    · rw [eq_comm, UnpackedFloat.compare, Option.some.injEq, compare_lt_iff_lt]
      simpa [parts, Binary.value, isMinus, factor] using hvalue
    · rw [eq_comm, UnpackedFloat.compare, Option.some.injEq, compare_gt_iff_gt]
      simpa [parts, Binary.value, isMinus, factor] using hvalue
  · have hleft := hpos (e := e) hm
    have hright := hpos (e := f) hn
    have hcompare := Fits.compare_eq ha hb
    cases s <;> cases t <;>
      simp only [UnpackedFloat.compare, parts, Binary.value, isMinus, factor, if_true, one_mul,
        neg_one_mul, Bool.false_eq_true, if_false, Option.some.injEq]
    · rw [compare_neg_neg, hcompare]
    · rw [eq_comm, compare_lt_iff_lt]
      linarith
    · rw [eq_comm, compare_gt_iff_gt]
      linarith
    · exact hcompare

theorem isFinite_eq (x : Float) : isFinite x = x.toModel.unpack.isFinite := by
  rw [isFinite, ofFloat_eq]
  cases x.toModel.unpack <;> rfl

/-- Finite doubles are in the order of their values. -/
theorem lt_iff_rational (hx : isFinite x = true) (hy : isFinite y = true) :
    x < y ↔ rational x < rational y := by
  rw [isFinite_eq] at hx hy
  rw [lt_iff_compare, compare_parts (isCanonical_unpack x) (isCanonical_unpack y) hx hy,
    Option.some.injEq, compare_lt_iff_lt, rational, rational, ofFloat_eq, ofFloat_eq]

/-- Finite doubles are equal when their values are. -/
theorem beq_iff_rational (hx : isFinite x = true) (hy : isFinite y = true) :
    (x == y) = true ↔ rational x = rational y := by
  rw [isFinite_eq] at hx hy
  rw [beq_iff_compare, compare_parts (isCanonical_unpack x) (isCanonical_unpack y) hx hy,
    Option.some.injEq, compare_eq_iff_eq, rational, rational, ofFloat_eq, ofFloat_eq]

/-- What is finite is a number. -/
theorem isNaN_of_isFinite (h : isFinite x = true) : x.isNaN = false := by
  rw [isFinite_eq] at h
  change x.toModel.unpack.isNaN = false
  cases hx : x.toModel.unpack <;> rw [hx] at h <;> first | rfl | cases h

/-- Finite doubles are ordered as their values. -/
theorem le_iff_rational (hx : isFinite x = true) (hy : isFinite y = true) :
    x ≤ y ↔ rational x ≤ rational y := by
  rw [le_iff, lt_iff_rational hy hx, not_lt]
  exact ⟨fun h => h.2.2, fun h => ⟨isNaN_of_isFinite hx, isNaN_of_isFinite hy, h⟩⟩

/-- What lies between finite doubles is finite. -/
theorem isFinite_of_between {z : Float} (hx : isFinite x = true) (hz : isFinite z = true) (hxy : x ≤ y)
    (hyz : y < z) : isFinite y = true := by
  rw [isFinite_eq] at hx hz ⊢
  rw [lt_iff_compare] at hyz
  obtain ⟨order, hcompare, horder⟩ := le_iff_compare.mp hxy
  generalize x.toModel.unpack = a at *
  generalize y.toModel.unpack = b at *
  generalize z.toModel.unpack = c at *
  rcases b with (_ | _) | _ | s | ⟨s, m, e, hm⟩
  · rcases a with s | _ | s | ⟨_ | _, n, f, hn⟩ <;>
      first | exact Bool.noConfusion hx | (cases hcompare; cases horder)
  · rcases c with s | _ | s | ⟨_ | _, n, f, hn⟩ <;> first | exact Bool.noConfusion hz | cases hyz
  · cases hyz
  · rfl
  · rfl

/-- No finite double is greater than the one before `2 ^ 1024`. -/
theorem abs_rational_le (x : Float) : |rational x| ≤ 2 ^ (1024 : ℤ) - 2 ^ (971 : ℤ) := by
  have hsplit : (2 : ℚ) ^ (1024 : ℤ) - 2 ^ (971 : ℤ) = (2 ^ 53 - 1) * 2 ^ (971 : ℤ) := by
    have hsteps : (2 : ℚ) ^ (53 : ℤ) = 2 ^ 53 := by norm_num
    rw [show (1024 : ℤ) = 53 + 971 by norm_num, two_zpow_add, sub_mul, one_mul, hsteps]
  have hpos : (0 : ℚ) ≤ (2 ^ 53 - 1) * 2 ^ (971 : ℤ) :=
    mul_nonneg (by norm_num) (two_zpow_pos _).le
  rw [hsplit, rational]
  cases hx : Binary.ofFloat x with
  | finite negative m e =>
    obtain ⟨hfits, hle⟩ := fits_of_ofFloat hx
    have hm : (m : ℚ) ≤ 2 ^ 53 - 1 := by
      have hsucc : (m : ℚ) + 1 ≤ 2 ^ 53 := by exact_mod_cast hfits.lt
      linarith
    rw [Binary.value, abs_factor_mul, abs_of_nonneg (mul_nonneg (Nat.cast_nonneg m) (two_zpow_pos e).le)]
    exact mul_le_mul hm (two_zpow_le hle) (two_zpow_pos e).le (by norm_num)
  | _ =>
    change |(0 : ℚ)| ≤ _
    rw [abs_zero]
    exact hpos

/-! ## Floors -/

/-- A magnitude as a quotient of two whole numbers. -/
theorem quotient_eq (m : ℕ) (e : ℤ) : ((quotient m e).1 : ℚ) / (quotient m e).2 = m * 2 ^ e := by
  unfold quotient
  split_ifs with h
  · obtain ⟨n, rfl⟩ := Int.eq_ofNat_of_zero_le h
    simp
  · obtain ⟨n, rfl⟩ := Int.exists_eq_neg_ofNat (not_le.mp h).le
    simp [div_eq_mul_inv]

/-- The floor is computed from the parts of a double alone. -/
theorem floorOf_eq (negative : Bool) (m : ℕ) (e : ℤ) :
    floorOf negative m e = ⌊(Binary.finite negative m e).value⌋ := by
  have hquotient := quotient_eq m e
  have hpos := quotient_snd_pos m e
  unfold floorOf
  dsimp only
  rw [Int.fdiv_eq_ediv_of_nonneg _ (Int.natCast_nonneg _), Binary.value, ← hquotient,
    ← Rat.floor_intCast_div_natCast]
  cases negative <;> simp [factor, neg_div]

/-- The floor of a finite double is the floor of its value. -/
theorem floor_eq (h : isFinite x = true) : floor x = .ok ⌊rational x⌋ := by
  obtain ⟨negative, m, e, hx⟩ := exists_ofFloat_of_isFinite h
  rw [floor, rational, hx]
  exact congrArg Except.ok (floorOf_eq negative m e)

/-- What is read as a whole number has its value. -/
theorem rational_of_whole? {k : ℤ} (h : whole? x = some k) : isFinite x = true ∧ rational x = k := by
  unfold whole? at h
  split at h
  · next negative m e hx =>
    refine ⟨isFinite_of_ofFloat hx, ?_⟩
    dsimp only at h
    split_ifs at h with hwhole
    obtain ⟨steps, hsteps⟩ := Nat.dvd_of_mod_eq_zero hwhole
    have hpos : ((quotient m e).2 : ℚ) ≠ 0 := by exact_mod_cast (quotient_snd_pos m e).ne'
    have hmagnitude : (m : ℚ) * 2 ^ e = steps := by
      rw [← quotient_eq, hsteps, Nat.cast_mul, mul_div_cancel_left₀ _ hpos]
    have hvalue : (Binary.finite negative m e).value = ((if negative then -steps else steps : ℤ) : ℚ) := by
      rw [Binary.value, hmagnitude]
      cases negative <;> simp [factor]
    rw [rational, hx, ← Option.some.inj h, floorOf_eq, hvalue, Int.floor_intCast]
  · cases h

end EventDeck.Decimal
