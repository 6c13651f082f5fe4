import EventDeck.Decimal.Notation
import EventDeck.Proofs.Expr.Numeral

/-!
# The form of written numbers

A finite double is written as an optional minus and a number that begins with a digit and has a
point or an exponent (`exists_write_eq`); a whole number as an optional minus and digits
(`exists_integer_eq`), and no other whole number is written so (`integer_injective`).
-/

namespace EventDeck.Decimal

open EventDeck.Expr Text

/-! ## Digits of whole numbers -/

/-- Numbers are written in digits, and zero has one too. -/
theorem all_isPlainDigit_digitsOf (n : Nat) : (digitsOf n).all isPlainDigit = true := by
  rw [List.all_eq_true]
  intro c hc
  have hdigit : c.isDigit = true := Nat.isDigit_of_mem_toDigits (by decide) (by decide) hc
  rw [Char.isDigit, Bool.and_eq_true, decide_eq_true_eq, decide_eq_true_eq] at hdigit
  have hrange : '0' ≤ c ∧ c ≤ '9' := hdigit
  simpa [isPlainDigit] using hrange

theorem digitsOf_ne_nil (n : Nat) : digitsOf n ≠ [] :=
  Nat.toDigits_ne_nil

/-- A positive number has a digit that is not zero. -/
theorem exists_mem_digitsOf {n : Nat} (h : n ≠ 0) : ∃ c ∈ digitsOf n, c ≠ '0' := by
  rw [digitsOf]
  by_cases hlt : n < 10
  · have key : ∀ m < 10, m ≠ 0 → m.digitChar ≠ '0' := by decide
    rw [Nat.toDigits_of_lt_base hlt]
    exact ⟨_, List.mem_singleton_self _, key n hlt h⟩
  · have hpos : n / 10 ≠ 0 := by omega
    obtain ⟨c, hc, hne⟩ := exists_mem_digitsOf hpos
    rw [Nat.toDigits_of_base_le (by decide) (by omega)]
    exact ⟨c, List.mem_append_left _ hc, hne⟩
termination_by n

/-! ## The parts of a written number -/

theorem all_isDecimalDigit_of_plain {digits : List Char} (h : digits.all isPlainDigit = true) :
    digits.all isDecimalDigit = true := by
  rw [List.all_eq_true] at h ⊢
  exact fun c hc => isDecimalDigit_of_isPlainDigit (h c hc)

/-- The significant digits of a numeral are digits, and there is one. -/
theorem significant_fst (n : Numeral) :
    (significant n).1.all isPlainDigit = true ∧ (significant n).1 ≠ [] := by
  rw [significant]
  split
  · exact ⟨by decide, by simp⟩
  · next hne =>
    refine ⟨?_, ?_⟩
    -- the digits of the number, less some at the end
    · have h := all_isPlainDigit_digitsOf n.digits
      rw [List.all_eq_true] at h ⊢
      intro c hc
      have hmem := (List.dropWhile_sublist (fun c => decide (c = '0'))).mem (List.mem_reverse.1 hc)
      exact h c (List.mem_reverse.1 hmem)
    -- A number that is not zero has a digit that is not, and this one stays.
    · obtain ⟨c, hc, hzero⟩ := exists_mem_digitsOf hne
      intro hnil
      have hnil : (digitsOf n.digits).reverse.dropWhile (fun c => decide (c = '0')) = [] := by
        simpa using hnil
      have hall : (digitsOf n.digits).reverse.takeWhile (fun c => decide (c = '0')) ++
          (digitsOf n.digits).reverse.dropWhile (fun c => decide (c = '0')) =
            (digitsOf n.digits).reverse := List.takeWhile_append_dropWhile
      rw [hnil, List.append_nil] at hall
      have hmem : c ∈ (digitsOf n.digits).reverse.takeWhile fun c => decide (c = '0') := by
        rw [hall]
        exact List.mem_reverse.2 hc
      have hzeros : ((digitsOf n.digits).reverse.takeWhile fun c => decide (c = '0')).all
          (fun c => decide (c = '0')) = true := List.all_takeWhile
      rw [List.all_eq_true] at hzeros
      exact hzero (by simpa using hzeros c hmem)

/-- The form of a number that is written in full: it begins with a digit, and it ends among the
places of its mantissa or among the digits of its exponent. -/
structure IsWritten (text : List Char) : Prop where
  begins : ∃ c cs, text = c :: cs ∧ isDecimalDigit c = true
  ends : Stage.start.follow? text = some .places ∨ Stage.start.follow? text = some .power

/-- What is written is a number for the reader of expressions. -/
theorem IsWritten.isNumber {text : List Char} (h : IsWritten text) : IsNumber text := by
  rcases h.ends with h | h
  · exact ⟨_, h, rfl⟩
  · exact ⟨_, h, rfl⟩

/-- Digits, a point and digits. -/
theorem isWritten_positional {whole places : List Char} (hwhole : whole.all isPlainDigit = true)
    (hne : whole ≠ []) (hplaces : places.all isPlainDigit = true) :
    IsWritten (whole ++ '.' :: places) := by
  have hwhole := all_isDecimalDigit_of_plain hwhole
  have hplaces := all_isDecimalDigit_of_plain hplaces
  refine ⟨?_, .inl ?_⟩
  · rcases whole with _ | ⟨c, cs⟩
    · exact absurd rfl hne
    · rw [List.all_cons, Bool.and_eq_true] at hwhole
      exact ⟨c, _, rfl, hwhole.1⟩
  · rw [Stage.follow?_append, Stage.follow?_digits hwhole hne]
    change Stage.places.follow? places = _
    by_cases hnil : places = []
    · rw [hnil]
      rfl
    · rw [Stage.follow?_digits hplaces hnil]
      rfl

/-- Digits with a point among them, before them or behind them. -/
theorem isWritten_of_positional {digits : List Char} (h : digits.all isPlainDigit = true)
    (first : Int) : IsWritten (positional full digits first) := by
  have hzeros : ∀ n, (List.replicate n '0').all isPlainDigit = true := by
    intro n
    rw [List.all_replicate]
    simp [show isPlainDigit '0' = true from by decide]
  -- zeros between the point and the digits; zeros between the digits and the point; the point among the
  -- digits
  rw [positional]
  split
  · change IsWritten (['0'] ++ '.' :: (List.replicate _ '0' ++ digits))
    refine isWritten_positional (by decide) (by simp) ?_
    rw [List.all_append, hzeros, h]
    rfl
  · dsimp only
    split
    · next hle =>
      change IsWritten ((digits ++ List.replicate _ '0') ++ '.' :: ['0'])
      refine isWritten_positional ?_ ?_ (by decide)
      · rw [List.all_append, hzeros, h]
        rfl
      · intro hnil
        rw [List.append_eq_nil_iff, List.replicate_eq_nil_iff] at hnil
        rw [hnil.1] at hnil
        simp at hnil
    · next hlt =>
      rw [List.append_assoc]
      refine isWritten_positional ?_ ?_ ?_
      · rw [List.all_eq_true] at h ⊢
        exact fun c hc => h c (List.mem_of_mem_take hc)
      · intro hnil
        rw [List.take_eq_nil_iff] at hnil
        rcases hnil with hzero | rfl
        · omega
        · simp at hlt
      · rw [List.all_eq_true] at h ⊢
        exact fun c hc => h c (List.mem_of_mem_drop hc)

/-- Digits with an exponent. -/
theorem isWritten_of_scientific {digits : List Char} (h : digits.all isPlainDigit = true)
    (hne : digits ≠ []) (first : Int) : IsWritten (scientific digits first) := by
  rcases digits with _ | ⟨d, ds⟩
  · exact absurd rfl hne
  have h := all_isDecimalDigit_of_plain h
  rw [List.all_cons, Bool.and_eq_true] at h
  obtain ⟨hd, hds⟩ := h
  refine ⟨⟨d, _, rfl, hd⟩, .inr ?_⟩
  -- the mantissa ends in its whole part or in its places, and either may have an exponent
  have hhead : [d].all isDecimalDigit = true := by simp [hd]
  have hmantissa : ∃ stage : Stage, Stage.start.follow? ([d] ++
      if (d :: ds).length ≤ 1 then [] else '.' :: (d :: ds).drop 1) = some stage ∧
      (stage = .whole ∨ stage = .places) := by
    rw [Stage.follow?_append, Stage.follow?_digits hhead (by simp)]
    split
    · exact ⟨.whole, rfl, .inl rfl⟩
    · next hlt =>
      have hne : ds ≠ [] := by
        rintro rfl
        exact hlt (Nat.le_refl 1)
      refine ⟨.places, ?_, .inr rfl⟩
      change Stage.places.follow? ds = _
      rw [Stage.follow?_digits hds hne]
      rfl
  obtain ⟨stage, hfollow, hstage⟩ := hmantissa
  have hexponent : (List.replicate (2 - (digitsOf first.natAbs).length) '0' ++
      digitsOf first.natAbs).all isDecimalDigit = true := by
    refine all_isDecimalDigit_of_plain ?_
    rw [List.all_append, all_isPlainDigit_digitsOf, List.all_replicate]
    simp [show isPlainDigit '0' = true from by decide]
  have hmark : stage.follow? ['e', if first < 0 then '-' else '+'] = some .sign := by
    rcases hstage with rfl | rfl <;> split <;> decide
  rw [scientific, List.append_assoc, Stage.follow?_append, Stage.follow?_append]
  change ((Stage.start.follow? ([d] ++ _)).bind _).bind _ = _
  rw [hfollow, Option.bind_some, hmark, Option.bind_some, Stage.follow?_digits hexponent]
  · rfl
  · intro hnil
    exact digitsOf_ne_nil _ (List.append_eq_nil_iff.1 hnil).2

/-- A numeral in full. -/
theorem isWritten_write (n : Numeral) : IsWritten (Numeral.write full n) := by
  obtain ⟨hall, hne⟩ := significant_fst n
  rw [Numeral.write]
  dsimp only
  split
  · exact isWritten_of_positional hall _
  · exact isWritten_of_scientific hall hne _

/-! ## Numbers in full -/

/-- A double that is neither infinite nor not-a-number. -/
def isFinite (x : Float) : Bool :=
  match Binary.ofFloat x with
  | .finite .. => true
  | _ => false

/-- A finite double is written as an optional minus and a number. -/
theorem exists_write_eq {x : Float} (h : isFinite x = true) :
    ∃ negative body, write x = signed negative body ∧ IsWritten body := by
  unfold isFinite at h
  split at h
  · next negative significand exponent heq =>
    rw [write, writeWith, heq]
    exact ⟨negative, _, rfl, isWritten_write _⟩
  · cases h

/-- A whole number is written as an optional minus and digits. -/
theorem exists_integer_eq (n : Int) :
    ∃ negative digits, integer n = signed negative digits ∧
      digits.all isDecimalDigit = true ∧ digits ≠ [] := by
  have hall := all_isDecimalDigit_of_plain (all_isPlainDigit_digitsOf n.natAbs)
  rw [integer]
  split
  · exact ⟨true, _, rfl, hall, digitsOf_ne_nil _⟩
  · exact ⟨false, _, rfl, hall, digitsOf_ne_nil _⟩

/-! ## Numbers are told apart -/

/-- Different numbers are written differently, with a sign too. -/
theorem digitsOf_injective : Function.Injective digitsOf := by
  intro m n h
  have hread : ∀ n, Nat.ofDigitChars 10 (digitsOf n) 0 = n := fun n =>
    Nat.ofDigitChars_toDigits (by decide) (by decide)
  rw [← hread m, h, hread]

/-- Whole numbers are written with a sign and digits. -/
theorem mem_integer {n : Int} {c : Char} (h : c ∈ integer n) : c = '-' ∨ isPlainDigit c = true := by
  have hdigits : ∀ c ∈ digitsOf n.natAbs, isPlainDigit c = true :=
    List.all_eq_true.mp (all_isPlainDigit_digitsOf n.natAbs)
  rw [integer] at h
  split at h
  · exact (List.mem_cons.mp h).imp_right (hdigits c)
  · exact .inr (hdigits c h)

theorem integer_injective : Function.Injective integer := by
  have hminus : ∀ n : Nat, '-' ∉ digitsOf n := fun n h =>
    absurd (List.all_eq_true.mp (all_isPlainDigit_digitsOf n) '-' h) (by decide)
  intro m n h
  unfold integer at h
  split at h <;> split at h
  · have habs := digitsOf_injective (List.cons.inj h).2
    omega
  · exact absurd (h ▸ List.mem_cons_self) (hminus n.natAbs)
  · exact absurd (h ▸ List.mem_cons_self) (hminus m.natAbs)
  · have habs := digitsOf_injective h
    omega

theorem integerText_injective : Function.Injective integerText :=
  fun _ _ h => integer_injective (String.ofList_injective h)

end EventDeck.Decimal
