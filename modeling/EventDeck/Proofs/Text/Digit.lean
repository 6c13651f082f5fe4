import EventDeck.Decimal.Reader
import EventDeck.Expr.Token

/-!
# Digits of all scripts

A digit of any script is neither a blank nor white space, and stands for an ASCII digit.
-/

namespace EventDeck.Expr

open Text

/-- The digits of other scripts keep away from the white space of the character standard. -/
theorem zeros_apart : ∀ first ∈ zeros,
    (0xA1 ≤ first ∧ first + 10 ≤ 0x1680) ∨ (0x1681 ≤ first ∧ first + 10 ≤ 0x2000) ∨
      0x3001 ≤ first := by
  decide

theorem isDecimalDigit_cases {c : Char} (h : isDecimalDigit c = true) :
    Decimal.isPlainDigit c = true ∨
      128 ≤ c.toNat ∧ ∃ first ∈ zeros, first ≤ c.toNat ∧ c.toNat < first + 10 := by
  unfold isDecimalDigit digitValue? at h
  split at h
  · next hplain => exact .inl hplain
  · split at h
    · cases h
    · next hascii =>
      rw [Option.isSome_map, List.find?_isSome] at h
      obtain ⟨first, hmem, hrange⟩ := h
      exact .inr ⟨by omega, first, hmem, by simpa using hrange⟩

theorem toNat_of_isPlainDigit {c : Char} (h : Decimal.isPlainDigit c = true) :
    48 ≤ c.toNat ∧ c.toNat ≤ 57 := by
  have h : '0' ≤ c ∧ c ≤ '9' := by simpa [Decimal.isPlainDigit] using h
  exact ⟨h.1, h.2⟩

theorem isDecimalDigit_of_isPlainDigit {c : Char} (h : Decimal.isPlainDigit c = true) :
    isDecimalDigit c = true := by
  have h : ('0' ≤ c && c ≤ '9') = true := h
  unfold isDecimalDigit digitValue?
  rw [if_pos h]
  rfl

/-- Blanks and white space are elsewhere. -/
theorem isBlank_of_apart {c : Char} (h : (48 ≤ c.toNat ∧ c.toNat ≤ 57) ∨
    (0xA1 ≤ c.toNat ∧ c.toNat < 0x1680) ∨ (0x1681 ≤ c.toNat ∧ c.toNat < 0x2000) ∨
      (0x2060 ≤ c.toNat ∧ c.toNat < 0x3000) ∨ 0x3001 ≤ c.toNat) : isBlank c = false := by
  simp only [isBlank, isWhiteSpace, Bool.or_eq_false_iff, Bool.and_eq_false_iff, beq_eq_false_iff_ne,
    decide_eq_false_iff_not, ne_eq]
  omega

/-- A digit is not blank. -/
theorem isBlank_of_isDecimalDigit {c : Char} (h : isDecimalDigit c = true) : isBlank c = false := by
  rcases isDecimalDigit_cases h with hplain | ⟨-, first, hmem, hle, hlt⟩
  · exact isBlank_of_apart (.inl (toNat_of_isPlainDigit hplain))
  · have hapart := zeros_apart first hmem
    exact isBlank_of_apart (by omega)

/-- The digits that stand alone keep away from white space, too. -/
theorem loneDigits_apart : ∀ range ∈ loneDigits,
    (0xA1 ≤ range.1 ∧ range.2 < 0x1680) ∨ (0x1681 ≤ range.1 ∧ range.2 < 0x2000) ∨
      (0x2060 ≤ range.1 ∧ range.2 < 0x3000) ∨ 0x3001 ≤ range.1 := by
  decide

/-- No digit is blank, also none that is not part of a decimal numeral. -/
theorem isBlank_of_isAnyDigit {c : Char} (h : isAnyDigit c = true) : isBlank c = false := by
  rcases Bool.or_eq_true_iff.mp h with hdecimal | hlone
  · exact isBlank_of_isDecimalDigit hdecimal
  · obtain ⟨range, hrange, hle, hlt⟩ := inRanges_iff.mp (Bool.and_eq_true_iff.mp hlone).2
    have hapart := loneDigits_apart range hrange
    exact isBlank_of_apart (by omega)

theorem isWhiteSpace_of_isBlank {c : Char} (h : isBlank c = false) : isWhiteSpace c = false := by
  rw [isBlank, Bool.or_eq_false_iff] at h
  exact h.1

/-- Every digit becomes an ASCII digit. -/
theorem isPlainDigit_plainDigit {c : Char} (h : isDecimalDigit c = true) :
    Decimal.isPlainDigit (Decimal.plainDigit c) = true := by
  have small : ∀ n < 10, Decimal.isPlainDigit (Char.ofNat (48 + n)) = true := by decide
  have hvalue : ∃ n < 10, digitValue? c = some n := by
    unfold isDecimalDigit at h
    obtain ⟨n, hn⟩ := Option.isSome_iff_exists.1 h
    refine ⟨n, ?_, hn⟩
    unfold digitValue? at hn
    split at hn
    · next hplain =>
      have := toNat_of_isPlainDigit hplain
      cases hn
      omega
    · split at hn
      · cases hn
      · obtain ⟨first, hfirst, rfl⟩ := Option.map_eq_some_iff.1 hn
        have := List.find?_some hfirst
        simp only [Bool.and_eq_true, decide_eq_true_eq] at this
        omega
  obtain ⟨n, hlt, hn⟩ := hvalue
  rw [Decimal.plainDigit, hn]
  exact small n hlt

theorem plainDigit_eq_self {c : Char} (h : isDecimalDigit c = false) :
    Decimal.plainDigit c = c := by
  have : digitValue? c = none := by simpa [isDecimalDigit] using h
  rw [Decimal.plainDigit, this]

/-- Nothing but a decimal digit becomes an ASCII digit. -/
theorem isPlainDigit_plainDigit_eq (c : Char) :
    Decimal.isPlainDigit (Decimal.plainDigit c) = isDecimalDigit c := by
  cases hdecimal : isDecimalDigit c with
  | true => exact isPlainDigit_plainDigit hdecimal
  | false =>
    rw [plainDigit_eq_self hdecimal]
    refine Bool.eq_false_iff.mpr fun hplain => ?_
    rw [isDecimalDigit_of_isPlainDigit hplain] at hdecimal
    cases hdecimal

/-- What a digit becomes is no other ASCII character than a digit. -/
theorem plainDigit_ne {c d : Char} (h : isAnyDigit c = true) (hascii : d.toNat < 128)
    (hplain : Decimal.isPlainDigit d = false) : Decimal.plainDigit c ≠ d := by
  rintro rfl
  rw [isPlainDigit_plainDigit_eq] at hplain
  rw [isAnyDigit, hplain, Bool.false_or] at h
  rw [plainDigit_eq_self hplain] at hascii
  have hbeyond := of_decide_eq_true (Bool.and_eq_true_iff.mp h).1
  omega

end EventDeck.Expr
