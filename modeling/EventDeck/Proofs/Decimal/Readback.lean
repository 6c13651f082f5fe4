import EventDeck.Decimal.Notation
import EventDeck.Proofs.Decimal.Arithmetic

/-!
# Reading back what is written

A finite double that is written in full is read back as the same double, zeros with their sign
(`read?_write`), and a whole number is read back as the double nearest to it (`read?_integer`).

A double is not written with its value but with a shorter numeral that is rounded to it.  What is
written of a numeral has the value of the numeral, wherever the point stands and whatever the exponent
is (`numeral?_write`), and the double nearest to a numeral depends on its value alone
(`isNearest_toFloat`).
-/

namespace EventDeck.Decimal

open EventDeck.Expr Text

variable {x : Float} {m : ℕ} {e : ℤ}

/-! ## The value of a numeral -/

/-- The number that a numeral is. -/
def Numeral.value (n : Numeral) : ℚ :=
  n.digits * 10 ^ n.exponent

theorem value_nonneg (n : Numeral) : 0 ≤ n.value :=
  mul_nonneg (Nat.cast_nonneg _) (ten_zpow_pos _).le

theorem value_eq_zero_iff {n : Numeral} : n.value = 0 ↔ n.digits = 0 := by
  rw [Numeral.value, mul_eq_zero, or_iff_left (ten_zpow_pos _).ne', Nat.cast_eq_zero]

theorem lt_ten_pow_length (n : ℕ) : n < 10 ^ (digitsOf n).length :=
  (Nat.length_toDigits_le_iff (by decide) Nat.length_toDigits_pos).1 le_rfl

theorem ten_pow_le_of_length {n : ℕ} (hn : n ≠ 0) : 10 ^ ((digitsOf n).length - 1) ≤ n := by
  by_contra hnot
  rw [not_le] at hnot
  rcases Nat.eq_zero_or_pos ((digitsOf n).length - 1) with hzero | hpos
  · rw [hzero] at hnot
    omega
  · have := (Nat.length_toDigits_le_iff (b := 10) (by decide) hpos).2 hnot
    have hlength : 0 < (digitsOf n).length := Nat.length_toDigits_pos
    change (digitsOf n).length ≤ _ at this
    omega

/-- A numeral becomes the double nearest to its value.  The numerals that are told by their length to be
too great or too small are so. -/
theorem isNearest_toFloat (n : Numeral) : IsNearest n.toFloat n.value := by
  have hlength : 0 < (digitsOf n.digits).length := Nat.length_toDigits_pos
  unfold Numeral.toFloat
  dsimp only
  split_ifs with hzero hgreat hsmall
  · have hvalue := value_eq_zero_iff.2 hzero
    exact isNearest_of_small (by decide +kernel) hvalue.ge (hvalue.trans_lt (two_zpow_pos _))
  · have hdigits : (10 : ℚ) ^ (((digitsOf n.digits).length - 1 : ℕ) : ℤ) ≤ n.digits := by
      rw [zpow_natCast]
      exact_mod_cast ten_pow_le_of_length hzero
    exact isNearest_of_great (by decide +kernel) (two_zpow_le_scientific hdigits (by omega))
  · have hdigits : (n.digits : ℚ) ≤ 10 ^ ((digitsOf n.digits).length : ℤ) := by
      rw [zpow_natCast]
      exact_mod_cast (lt_ten_pow_length n.digits).le
    exact isNearest_of_small (by decide +kernel) (value_nonneg n)
      (scientific_lt_two_zpow hdigits (by omega))
  · have hround := isNearest_ofScientific n.digits (n.exponent < 0) n.exponent.natAbs
    have hexponent : (if decide (n.exponent < 0) = true then -(n.exponent.natAbs : ℤ)
        else n.exponent.natAbs) = n.exponent := by
      split_ifs with h <;> rw [decide_eq_true_eq] at h <;> omega
    rwa [hexponent] at hround

/-- A numeral with the value of a double becomes that double. -/
theorem ofFloat_toFloat {n : Numeral} (h : Fits m e) (he : e ≤ 971) (hvalue : n.value = m * 2 ^ e) :
    Binary.ofFloat n.toFloat = .finite false m e := by
  by_cases hzero : n.digits = 0
  · have hm : m = 0 := by
      rw [value_eq_zero_iff.2 hzero, eq_comm, mul_eq_zero, or_iff_left (two_zpow_pos e).ne'] at hvalue
      exact_mod_cast hvalue
    obtain rfl := h.long.resolve_left (by omega)
    rw [Numeral.toFloat, if_pos hzero, hm]
    decide +kernel
  have hpos : (0 : ℚ) < m * 2 ^ e := by
    rw [← hvalue]
    exact lt_of_le_of_ne (value_nonneg n) fun h => hzero (value_eq_zero_iff.1 h.symm)
  -- The numeral becomes the double nearest to a value that is one; a double that is not zero is
  -- determined by its value.
  have hround := isNearest_toFloat n
  have hself := nearest_eq_self h.onGrid
  rw [hvalue] at hround
  have hfinite : isFinite n.toFloat = true := by
    rw [hround.isFinite_iff, hself, abs_of_pos hpos]
    exact h.lt_great_iff.2 he
  obtain ⟨negative, m', e', hparts⟩ := exists_ofFloat_of_isFinite hfinite
  have hrational := hround.rational_eq hfinite
  rw [hself, rational, hparts, Binary.value] at hrational
  have hnonneg : (0 : ℚ) ≤ m' * 2 ^ e' := mul_nonneg (Nat.cast_nonneg _) (two_zpow_pos _).le
  cases negative
  · rw [factor, if_neg (by decide), one_mul] at hrational
    obtain ⟨rfl, hexponent⟩ := (fits_of_ofFloat hparts).1.unique h hrational
    rw [hparts, hexponent]
    rintro rfl
    simp at hpos
  · rw [factor, if_pos rfl] at hrational
    linarith

/-! ## Digits -/

theorem natOfDigits_append (l k : List Char) :
    natOfDigits (l ++ k) = natOfDigits l * 10 ^ k.length + natOfDigits k := by
  have happend := Nat.ofDigitChars_append (b := 10) (l := l) (m := k) 0
  rw [Nat.ofDigitChars_eq_ofDigitChars_zero (l := k)] at happend
  rw [mul_comm (natOfDigits l)]
  exact happend

theorem natOfDigits_zeros (k : ℕ) : natOfDigits (List.replicate k '0') = 0 :=
  (Nat.ofDigitChars_replicate_zero (b := 10)).trans (mul_zero _)

@[simp] theorem natOfDigits_digitsOf (n : ℕ) : natOfDigits (digitsOf n) = n :=
  Nat.ofDigitChars_ten_toDigits

/-- Zeros in front count nothing. -/
theorem natOfDigits_zeros_append (k : ℕ) (l : List Char) :
    natOfDigits (List.replicate k '0' ++ l) = natOfDigits l := by
  rw [natOfDigits_append, natOfDigits_zeros, zero_mul, zero_add]

/-- Zeros at the end move the digits. -/
theorem natOfDigits_append_zeros (l : List Char) (k : ℕ) :
    natOfDigits (l ++ List.replicate k '0') = natOfDigits l * 10 ^ k := by
  rw [natOfDigits_append, natOfDigits_zeros, add_zero, List.length_replicate]

/-- Digits are what is left of them without zeros at the end, and these. -/
theorem exists_zeros (digits : List Char) :
    ∃ k, digits = (digits.reverse.dropWhile (· = '0')).reverse ++ List.replicate k '0' := by
  have hsplit := List.takeWhile_append_dropWhile (p := fun c : Char => decide (c = '0'))
    (l := digits.reverse)
  have hzeros : (digits.reverse.takeWhile fun c => decide (c = '0')) =
      List.replicate (digits.reverse.takeWhile fun c => decide (c = '0')).length '0' := by
    refine List.eq_replicate_of_mem fun c hc => ?_
    simpa using List.mem_takeWhile_imp hc
  refine ⟨(digits.reverse.takeWhile fun c => decide (c = '0')).length, ?_⟩
  have hreverse := congrArg List.reverse hsplit
  rw [List.reverse_reverse, List.reverse_append, hzeros, List.reverse_replicate] at hreverse
  exact hreverse.symm

/-- The value of a numeral by its significant digits and the exponent of the first. -/
theorem value_eq_significant (n : Numeral) :
    n.value = natOfDigits (significant n).1 *
      10 ^ ((significant n).2 + 1 - ((significant n).1.length : ℤ)) := by
  unfold significant
  dsimp only
  split_ifs with hzero
  · rw [value_eq_zero_iff.2 hzero]
    simp [natOfDigits]
  -- the zeros that are cut off at the end go into the exponent
  · obtain ⟨k, hk⟩ := exists_zeros (digitsOf n.digits)
    set digits := ((digitsOf n.digits).reverse.dropWhile (· = '0')).reverse
    have hdigits : n.digits = natOfDigits digits * 10 ^ k := by
      rw [← natOfDigits_append_zeros, ← hk, natOfDigits_digitsOf]
    have hlength : (digitsOf n.digits).length = digits.length + k := by
      conv_lhs => rw [hk]
      rw [List.length_append, List.length_replicate]
    have hexponent : n.exponent + ((digitsOf n.digits).length : ℤ) - 1 + 1 - digits.length =
        k + n.exponent := by
      rw [hlength]
      push_cast
      ring
    rw [Numeral.value, hexponent, hdigits, zpow_add₀ (by norm_num), zpow_natCast]
    push_cast
    ring

/-! ## Written numerals -/

theorem all_zeros (k : ℕ) : (List.replicate k '0').all isPlainDigit = true := by
  rw [List.all_replicate]
  simp [show isPlainDigit '0' = true from by decide]

theorem all_append_zeros {digits : List Char} (h : digits.all isPlainDigit = true) (k : ℕ) :
    (digits ++ List.replicate k '0').all isPlainDigit = true := by
  rw [List.all_append, h, all_zeros]
  rfl

/-- The point moves the digits back by as many places as there are behind it. -/
theorem numeral?_pointed {before after : List Char} (hbefore : before.all isPlainDigit = true)
    (hne : before ≠ []) (hafter : after.all isPlainDigit = true) :
    numeral? (before ++ '.' :: after) = some ⟨natOfDigits (before ++ after), -after.length⟩ := by
  have h : numeral? (before ++ '.' :: (after ++ [])) = _ :=
    numeral?_point hbefore hafter (.inl hne) nofun
  rw [List.append_nil] at h
  rw [h]
  simp [exponent?]

section Positional

variable {digits : List Char}

theorem numeral?_zeros_digits (hall : digits.all isPlainDigit = true) (j : ℕ) :
    ∃ k, numeral? (['0'] ++ '.' :: (List.replicate j '0' ++ digits)) = some k ∧
      k.value = natOfDigits digits * 10 ^ (-(j + digits.length) : ℤ) := by
  have hafter : (List.replicate j '0' ++ digits).all isPlainDigit = true := by
    rw [List.all_append, all_zeros, hall]
    rfl
  refine ⟨_, numeral?_pointed (by decide) (by simp) hafter, ?_⟩
  have hdigits : natOfDigits (['0'] ++ (List.replicate j '0' ++ digits)) = natOfDigits digits :=
    (natOfDigits_zeros_append 1 _).trans (natOfDigits_zeros_append j digits)
  rw [Numeral.value, hdigits, List.length_append, List.length_replicate, Nat.cast_add]

theorem numeral?_digits_zeros (hall : digits.all isPlainDigit = true) (hne : digits ≠ []) (j : ℕ) :
    ∃ k, numeral? (digits ++ List.replicate j '0' ++ '.' :: ['0']) = some k ∧
      k.value = natOfDigits digits * 10 ^ (j : ℤ) := by
  refine ⟨_, numeral?_pointed (all_append_zeros hall j) (by simp [hne]) (by decide), ?_⟩
  have hdigits : natOfDigits (digits ++ List.replicate j '0' ++ ['0']) =
      natOfDigits digits * 10 ^ j * 10 ^ 1 := by
    rw [← natOfDigits_append_zeros digits j]
    exact natOfDigits_append_zeros _ 1
  rw [Numeral.value, hdigits, zpow_natCast]
  push_cast
  simp

theorem numeral?_take_drop (hall : digits.all isPlainDigit = true) (hne : digits ≠ []) {j : ℕ}
    (hj : j ≠ 0) : ∃ k, numeral? (digits.take j ++ '.' :: digits.drop j) = some k ∧
      k.value = natOfDigits digits * 10 ^ (-(digits.length - j : ℕ) : ℤ) := by
  have hbefore : (digits.take j).all isPlainDigit = true := by
    rw [List.all_eq_true] at hall ⊢
    exact fun c hc => hall c (List.mem_of_mem_take hc)
  have hafter : (digits.drop j).all isPlainDigit = true := by
    rw [List.all_eq_true] at hall ⊢
    exact fun c hc => hall c (List.mem_of_mem_drop hc)
  have htake : digits.take j ≠ [] := by
    rw [ne_eq, List.take_eq_nil_iff]
    simp [hne, hj]
  refine ⟨_, numeral?_pointed hbefore htake hafter, ?_⟩
  rw [Numeral.value, List.take_append_drop, List.length_drop]

/-- Wherever the point stands, the digits have the same value. -/
theorem numeral?_positional (hall : digits.all isPlainDigit = true) (hne : digits ≠ [])
    (first : ℤ) :
    ∃ k, numeral? (positional full digits first) = some k ∧
      k.value = natOfDigits digits * 10 ^ (first + 1 - digits.length) := by
  rw [positional]
  split_ifs with hfirst
  · have hexponent : first + 1 - digits.length =
        -(((first.natAbs - 1 : ℕ) : ℤ) + digits.length) := by omega
    rw [hexponent]
    exact numeral?_zeros_digits hall _
  · dsimp only
    split_ifs with hshort
    · have hexponent : first + 1 - digits.length = ((first.toNat + 1 - digits.length : ℕ) : ℤ) := by
        omega
      rw [hexponent]
      exact numeral?_digits_zeros hall hne _
    · have hexponent : first + 1 - digits.length =
          -((digits.length - (first.toNat + 1) : ℕ) : ℤ) := by omega
      rw [hexponent, List.append_assoc]
      exact numeral?_take_drop hall hne (Nat.succ_ne_zero _)

end Positional

theorem exponent?_written (first : ℤ) (k : ℕ) :
    exponent? ('e' :: (if first < 0 then '-' else '+') ::
      (List.replicate k '0' ++ digitsOf first.natAbs)) = some first := by
  have hall : (List.replicate k '0' ++ digitsOf first.natAbs).all isPlainDigit = true := by
    rw [List.all_append, all_zeros, all_isPlainDigit_digitsOf]
    rfl
  have hne : (List.replicate k '0' ++ digitsOf first.natAbs).isEmpty = false := by
    rw [List.isEmpty_eq_false_iff]
    simp [digitsOf_ne_nil]
  have hsign : ∀ digits, takeSign ((if first < 0 then '-' else '+') :: digits) =
      (decide (first < 0), digits) := by
    intro digits
    split_ifs with h <;> simp [takeSign, h]
  rw [exponent?, if_pos (by decide), hsign]
  dsimp only
  rw [hall, hne, natOfDigits_zeros_append, natOfDigits_digitsOf, if_neg (by decide)]
  split_ifs with h <;> rw [decide_eq_true_eq] at h <;> congr 1 <;> omega

/-- The exponent is that of the first digit. -/
theorem numeral?_scientific {digits : List Char} (hall : digits.all isPlainDigit = true)
    (hne : digits ≠ []) (first : ℤ) :
    ∃ k, numeral? (scientific digits first) = some k ∧
      k.value = natOfDigits digits * 10 ^ (first + 1 - digits.length) := by
  rcases digits with _ | ⟨d, ds⟩
  · exact absurd rfl hne
  rw [List.all_cons, Bool.and_eq_true] at hall
  have hexponent := exponent?_written first (2 - (digitsOf first.natAbs).length)
  have hhead : ∀ c cs, 'e' :: (if first < 0 then '-' else '+') ::
      (List.replicate (2 - (digitsOf first.natAbs).length) '0' ++ digitsOf first.natAbs) = c :: cs →
        isPlainDigit c = false ∧ c ≠ '.' := by
    rintro _ _ ⟨⟩
    decide
  have hd : [d].all isPlainDigit = true := by simp [hall.1]
  rw [scientific]
  -- a single digit is written without a point
  by_cases hone : (d :: ds).length ≤ 1
  · obtain rfl : ds = [] := by
      rw [← List.length_eq_zero_iff]
      simpa using hone
    have h := numeral?_whole hd (by simp) hhead
    rw [hexponent] at h
    refine ⟨⟨natOfDigits [d], first⟩, (congrArg numeral? ?_).trans h, by simp [Numeral.value]⟩
    rw [if_pos hone]
    simp
  · have h := numeral?_point hd hall.2 (.inl (by simp)) fun c cs heq => (hhead c cs heq).1
    rw [hexponent] at h
    refine ⟨⟨natOfDigits ([d] ++ ds), first - ds.length⟩, (congrArg numeral? ?_).trans h, ?_⟩
    · rw [if_neg hone]
      simp
    · have hlength : first - (ds.length : ℤ) = first + 1 - ((d :: ds).length : ℕ) := by
        rw [List.length_cons]
        push_cast
        ring
      rw [Numeral.value, hlength]
      rfl

/-- What is written of a numeral has the value of the numeral. -/
theorem numeral?_write (n : Numeral) :
    ∃ k, numeral? (n.write full) = some k ∧ k.value = n.value := by
  obtain ⟨hall, hne⟩ := significant_fst n
  rw [Numeral.write, value_eq_significant]
  dsimp only
  split_ifs
  · exact numeral?_positional hall hne _
  · exact numeral?_scientific hall hne _

/-! ## Reading back -/

/-- A text that begins with a digit is none of the words for infinity and not-a-number. -/
theorem word?_of_digit {c : Char} (h : isPlainDigit c = true) (cs : List Char) :
    word? (c :: cs) = none := by
  have hlower : c.toLower = c := by
    have hrange : '0' ≤ c ∧ c ≤ '9' := by simpa [isPlainDigit] using h
    have hle : c.toNat ≤ 57 := hrange.2
    rw [Char.toLower, dif_neg]
    rintro ⟨hge, -⟩
    have hge : 65 ≤ c.toNat := hge
    omega
  have hletters : c ≠ 'i' ∧ c ≠ 'n' := by constructor <;> rintro rfl <;> exact absurd h (by decide)
  rw [word?, List.map_cons, hlower]
  simp [hletters.1, hletters.2]

theorem plainDigit_of_isPlainDigit {c : Char} (h : isPlainDigit c = true) : plainDigit c = c := by
  have hdigit : ('0' ≤ c && c ≤ '9') = true := h
  rw [plainDigit, digitValue?, if_pos hdigit]
  have hle : 48 ≤ c.toNat := by
    rw [Bool.and_eq_true, decide_eq_true_eq] at hdigit
    exact hdigit.1
  dsimp only
  rw [Nat.add_sub_cancel' hle, Char.ofNat_toNat]

theorem map_plainDigit {digits : List Char} (h : digits.all isPlainDigit = true) :
    digits.map plainDigit = digits := by
  rw [List.all_eq_true] at h
  conv_rhs => rw [← List.map_id digits]
  exact List.map_congr_left fun c hc => plainDigit_of_isPlainDigit (h c hc)

/-- Reading a written numeral replaces no character of it. -/
theorem map_plainDigit_write (n : Numeral) : (n.write full).map plainDigit = n.write full := by
  obtain ⟨hall, -⟩ := significant_fst n
  have hdigits := map_plainDigit hall
  have hexponent := map_plainDigit (all_isPlainDigit_digitsOf (significant n).2.natAbs)
  have hzero : plainDigit '0' = '0' := by decide
  have hpoint : plainDigit '.' = '.' := by decide
  have hmark : plainDigit 'e' = 'e' := by decide
  have hminus : plainDigit '-' = '-' := by decide
  have hplus : plainDigit '+' = '+' := by decide
  rw [Numeral.write]
  dsimp only
  split_ifs
  · rw [positional]
    dsimp only
    split_ifs <;> simp only [full, List.map_append, List.map_cons, List.map_nil, List.map_replicate,
      List.map_take, List.map_drop, hdigits, hzero, hpoint]
  · rw [scientific]
    by_cases hone : (significant n).1.length ≤ 1 <;> by_cases hsign : (significant n).2 < 0 <;>
      simp only [hone, hsign, if_true, if_false, List.map_append, List.map_cons, List.map_nil,
        List.map_replicate, List.map_take, List.map_drop, hdigits, hexponent, hzero, hpoint, hmark,
        hminus, hplus]

/-- A written numeral, with its sign, is read as the double of a numeral of the same value. -/
theorem read?_signed_write (negative : Bool) (n : Numeral) :
    ∃ k : Numeral, k.value = n.value ∧
      read? (signed negative (n.write full)) = some (if negative then -k.toFloat else k.toFloat) := by
  obtain ⟨k, hk, hvalue⟩ := numeral?_write n
  have hnumber := (isWritten_write n).isNumber
  have hplain := map_plainDigit_write n
  -- a numeral begins with a digit, so it is none of the words for infinities and for what is no number
  have hword : word? (n.write full) = none := by
    obtain ⟨c, cs, hcons, hdigit⟩ := (isWritten_write n).begins
    have hc : isPlainDigit c = true := by
      rw [hcons, List.map_cons, List.cons.injEq] at hplain
      rw [← hplain.1]
      exact isPlainDigit_plainDigit hdigit
    rw [hcons]
    exact word?_of_digit hc cs
  have hsign := hnumber.takeSign
  rw [hplain] at hsign
  have hread : read? (n.write full) = some k.toFloat := by
    rw [read?, freeForm?_of_isNumberChar hnumber.isNumberChar, hplain, Option.bind_some, readPlain?,
      hsign]
    dsimp only
    rw [hword, hk]
    rfl
  refine ⟨k, hvalue, ?_⟩
  cases negative
  · rw [signed, if_neg (by decide), hread]
    rfl
  · rw [signed, if_pos rfl, hnumber.read?_minus, hread]
    rfl

/-- Without the sign bit, bits have the same exponent and the same fraction. -/
theorem ofBits_mod_signBit {bits : ℕ} {negative : Bool} (h : Binary.ofBits bits = .finite negative m e) :
    Binary.ofBits (bits % Binary.signBit) = .finite false m e := by
  have hweight : Binary.signBit = Binary.hiddenBit * 2048 := rfl
  have hpositive : ¬Binary.signBit ≤ bits % Binary.signBit := not_le.mpr (Nat.mod_lt _ (by decide))
  have hfield : bits % Binary.signBit / Binary.hiddenBit % 2048 = bits / Binary.hiddenBit % 2048 := by
    rw [hweight, Nat.mod_mul_right_div_self, Nat.mod_mod]
  have hfraction : bits % Binary.signBit % Binary.hiddenBit = bits % Binary.hiddenBit := by
    rw [hweight, Nat.mod_mul_right_mod]
  unfold Binary.ofBits at h ⊢
  rw [hfield, hfraction, decide_eq_false hpositive]
  dsimp only at h ⊢
  split_ifs at h ⊢ <;> cases h <;> rfl

theorem value_exact (m : ℕ) (e : ℤ) : (exact m e).value = m * 2 ^ e := by
  unfold exact
  split_ifs with h
  · obtain ⟨n, rfl⟩ := Int.eq_ofNat_of_zero_le h
    simp [Numeral.value]
  · have hten : (10 : ℚ) ^ e = 2 ^ e * 5 ^ e := by
      rw [← mul_zpow]
      norm_num
    have hfive : (5 : ℚ) ^ e.natAbs * 5 ^ e = 1 := by
      rw [← zpow_natCast, ← zpow_add₀ (by norm_num), Int.ofNat_natAbs_of_nonpos (not_le.mp h).le,
        neg_add_cancel, zpow_zero]
    rw [Numeral.value, hten]
    push_cast [Nat.pow_eq]
    rw [mul_assoc, mul_comm ((2 : ℚ) ^ e), ← mul_assoc ((5 : ℚ) ^ _), hfive, one_mul]

/-- The shortest numeral of a double becomes the double. -/
theorem ofFloat_shortest {negative : Bool} (hx : Binary.ofFloat x = .finite negative m e) :
    Binary.ofFloat (shortest (x.toBits.toNat % Binary.signBit) m e).toFloat = .finite false m e := by
  obtain ⟨hfits, he⟩ := fits_of_ofFloat hx
  rcases toFloat_shortest (x.toBits.toNat % Binary.signBit) m e with hbits | hexact
  · rw [Binary.ofFloat, hbits]
    exact ofBits_mod_signBit hx
  · rw [hexact]
    exact ofFloat_toFloat hfits he (value_exact m e)

/-- Numerals of one value become the same double. -/
theorem toFloat_eq_of_value {n k : Numeral} (hn : Binary.ofFloat n.toFloat = .finite false m e)
    (hm : m ≠ 0) (hvalue : k.value = n.value) : k.toFloat = n.toFloat := by
  have hfinite := isFinite_of_ofFloat hn
  have hround := isNearest_toFloat n
  have hround' := isNearest_toFloat k
  rw [hvalue] at hround'
  have hfinite' : isFinite k.toFloat = true := hround'.isFinite_iff.2 (hround.isFinite_iff.1 hfinite)
  have hrational := (hround'.rational_eq hfinite').trans (hround.rational_eq hfinite).symm
  refine eq_of_rational_eq hfinite' hfinite hrational ?_
  rw [hrational, rational, hn, Binary.value, factor, if_neg (by decide), one_mul]
  exact mul_ne_zero (by exact_mod_cast hm) (two_zpow_pos e).ne'

/-- A finite double is read back from what is written of it, and a zero with its sign. -/
theorem read?_write (h : isFinite x = true) : read? (write x) = some x := by
  obtain ⟨negative, m, e, hx⟩ := exists_ofFloat_of_isFinite h
  set numeral : Numeral :=
    if m = 0 then ⟨0, 0⟩ else shortest (x.toBits.toNat % Binary.signBit) m e with hnumeral
  have hwrite : write x = signed negative (numeral.write full) := by rw [write, writeWith, hx]
  obtain ⟨k, hvalue, hread⟩ := read?_signed_write negative numeral
  have hk : Binary.ofFloat k.toFloat = .finite false m e := by
    by_cases hm : m = 0
    · rw [hnumeral, if_pos hm] at hvalue
      refine ofFloat_toFloat (fits_of_ofFloat hx).1 (fits_of_ofFloat hx).2 ?_
      rw [hvalue, hm, value_eq_zero_iff.2 rfl, Nat.cast_zero, zero_mul]
    · rw [hnumeral, if_neg hm] at hvalue
      rw [toFloat_eq_of_value (ofFloat_shortest hx) hm hvalue]
      exact ofFloat_shortest hx
  rw [hwrite, hread]
  refine congrArg some (eq_of_ofFloat_eq ?_)
  cases negative
  · rw [if_neg (by decide), hk, hx]
  · rw [if_pos rfl, ofFloat_neg, hk, hx]
    rfl

theorem read?_infinity (negative : Bool) :
    (read? (signed negative ['i', 'n', 'f'])).map Binary.ofFloat = some (.infinite negative) := by
  cases negative <;> decide +kernel

/-- Infinities are read back as well, so only not-a-number is left out. -/
theorem read?_write_of_isNaN (h : x.isNaN = false) : read? (write x) = some x := by
  cases hx : Binary.ofFloat x with
  | finite negative m e => exact read?_write (by rw [isFinite, hx])
  | infinite negative =>
    have hwrite : write x = signed negative ['i', 'n', 'f'] := by rw [write, writeWith, hx]
    obtain ⟨y, hread, hy⟩ := Option.map_eq_some_iff.1 (read?_infinity negative)
    rw [hwrite, hread, eq_of_ofFloat_eq (hy.trans hx.symm)]
  | notANumber =>
    have hunpack : parts x.toModel.unpack = parts .notANumber := (ofFloat_eq x).symm.trans hx
    rw [isNaN_iff.mpr (parts_injective hunpack)] at h
    cases h

/-! ## Whole numbers -/

/-- A whole number that has not too many digits is read as the double nearest to it. -/
theorem read?_integer {n : ℤ} (hlength : (digitsOf n.natAbs).length ≤ 310) :
    read? (integer n) = some (Float.ofInt n) := by
  have hall := all_isPlainDigit_digitsOf n.natAbs
  have hne := digitsOf_ne_nil n.natAbs
  have hnumeral : numeral? (digitsOf n.natAbs) = some ⟨n.natAbs, 0⟩ := by
    have hwhole : numeral? (digitsOf n.natAbs ++ []) = _ := numeral?_whole hall hne nofun
    rw [List.append_nil, natOfDigits_digitsOf] at hwhole
    exact hwhole
  -- a numeral of this length is not taken for one that is too great
  have hfloat : (⟨n.natAbs, 0⟩ : Numeral).toFloat = Float.ofNat n.natAbs := by
    rw [Numeral.toFloat]
    dsimp only
    split_ifs with hzero
    · rw [hzero]
      decide +kernel
    · omega
    · omega
    · rfl
  have hnumber : IsNumber (digitsOf n.natAbs) :=
    ⟨.whole, Stage.follow?_digits (all_isDecimalDigit_of_plain hall) hne _, rfl⟩
  have hread : read? (digitsOf n.natAbs) = some (Float.ofNat n.natAbs) := by
    have hsign := hnumber.takeSign
    rw [map_plainDigit hall] at hsign
    rw [read?, freeForm?_of_isNumberChar hnumber.isNumberChar, map_plainDigit hall, Option.bind_some,
      readPlain?, hsign]
    dsimp only
    rw [hnumeral]
    obtain ⟨c, cs, hcons⟩ := List.exists_cons_of_ne_nil hne
    rw [hcons, List.all_cons, Bool.and_eq_true] at hall
    rw [hcons, word?_of_digit hall.1, Option.map_some, hfloat]
    rfl
  rw [integer]
  cases n with
  | ofNat n =>
    have hsign : ¬Int.ofNat n < 0 := not_lt.mpr (Int.natCast_nonneg n)
    rw [if_neg hsign]
    exact hread
  | negSucc n =>
    rw [if_pos (Int.negSucc_lt_zero n), hnumber.read?_minus, hread]
    rfl

end EventDeck.Decimal
