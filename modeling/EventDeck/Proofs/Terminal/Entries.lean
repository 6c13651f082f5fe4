import EventDeck.Proofs.Expr.Numeral
import EventDeck.Terminal.Entry
import Mathlib.Data.List.TakeWhile

/-!
# What is understood of a line

A line of digits is taken for the number of an action.  It is one when all of its digits are decimal,
of whatever script, and there are not too many of them (`ofLine_eq_action_iff`).  But there are digits
that no decimal numeral has, such as superscripts: a line with one of them, and no other characters
than digits, is `Misread`.  Those lines, and no others, are a fault (`ofLine_eq_error_iff`).
-/

namespace EventDeck

open Text Decimal EventDeck.Expr

namespace Decimal

variable {text : List Char}

/-! ## Numbers that are typed in -/

theorem trimBy_of_isAnyDigit (h : ∀ c ∈ text, isAnyDigit c = true) :
    trimBy isWhiteSpace text = text :=
  trimBy_of_not_drop fun c hc => isWhiteSpace_of_isBlank (isBlank_of_isAnyDigit (h c hc))

theorem dropUnderscores?_of_isAnyDigit (h : ∀ c ∈ text, isAnyDigit c = true) :
    dropUnderscores? (text.map plainDigit) = some (text.map plainDigit) := by
  refine dropUnderscores?_eq_self fun hmem => ?_
  obtain ⟨c, hc, hunderscore⟩ := List.mem_map.mp hmem
  exact plainDigit_ne (h c hc) (by decide) (by decide) hunderscore

/-- There is no sign before digits. -/
theorem takeSign_of_isAnyDigit (h : ∀ c ∈ text, isAnyDigit c = true) :
    takeSign (text.map plainDigit) = (false, text.map plainDigit) := by
  cases text with
  | nil => rfl
  | cons c rest =>
    have hc : isAnyDigit c = true := h c List.mem_cons_self
    exact takeSign_of_head ⟨plainDigit_ne hc (by decide) (by decide),
      plainDigit_ne hc (by decide) (by decide)⟩

/-- The number that digits are: none when one of them is not decimal. -/
theorem readInteger?_of_isAnyDigit (hne : text ≠ []) (h : ∀ c ∈ text, isAnyDigit c = true) :
    readInteger? text = if text.all isDecimalDigit then some (natOfDigits (text.map plainDigit) : Int)
      else none := by
  have hmapped : (text.map plainDigit).isEmpty = false := by simpa using hne
  have hplain : freeForm? text = some (text.map plainDigit) := by
    rw [freeForm?, trimBy_of_isAnyDigit h, dropUnderscores?_of_isAnyDigit h]
  rw [readInteger?, hplain, Option.bind_some, takeSign_of_isAnyDigit h]
  dsimp only
  rw [hmapped, all_isPlainDigit_map_eq, Bool.false_or]
  cases text.all isDecimalDigit <;> rfl

/-- All digits are at the front when they are decimal. -/
theorem leadingDigits?_of_isDecimalDigit (h : text.all isDecimalDigit = true) :
    leadingDigits? text = some (text.map plainDigit) := by
  have hany : ∀ c ∈ text, isAnyDigit c = true := fun c hc => by
    rw [isAnyDigit, List.all_eq_true.mp h c hc, Bool.true_or]
  have hfront : (text.map plainDigit).takeWhile (fun c => isPlainDigit c || c = '_') =
      text.map plainDigit := by
    refine List.takeWhile_eq_self_iff.mpr fun c hc => ?_
    rw [← all_isPlainDigit_map_eq] at h
    rw [List.all_eq_true.mp h c hc, Bool.true_or]
  rw [leadingDigits?, trimBy_of_isAnyDigit hany, takeSign_of_isAnyDigit hany]
  dsimp only
  rw [hfront, dropUnderscores?_of_isAnyDigit hany]

/-- Digits are a whole number when they are decimal and not too many. -/
theorem typedInteger_eq_ok_iff {n : Int} (hne : text ≠ []) (h : ∀ c ∈ text, isAnyDigit c = true) :
    typedInteger (String.ofList text) = .ok n ↔ text.all isDecimalDigit = true ∧
      text.length ≤ digitLimit ∧ n = natOfDigits (text.map plainDigit) := by
  rw [typedInteger, String.toList_ofList, readInteger?_of_isAnyDigit hne h]
  cases hdecimal : text.all isDecimalDigit with
  | false =>
    -- whatever stands in front, the whole is no number
    rw [if_neg Bool.false_ne_true]
    split <;> simp
  | true =>
    rw [leadingDigits?_of_isDecimalDigit hdecimal, Option.getD_some, List.length_map, if_pos rfl]
    by_cases hlong : digitLimit < text.length
    · rw [if_pos hlong]
      exact iff_of_false (fun hok => nomatch hok) fun hshort => absurd hshort.2.1 (by omega)
    · rw [if_neg hlong]
      simp [Nat.not_lt.mp hlong, eq_comm]

end Decimal

namespace Terminal

variable {line : String}

/-! ## Lines of digits -/

/-- There are digits in a line and nothing else, apart from the blanks around them. -/
structure Digits (line : String) : Prop where
  filled : trim line.toList ≠ []
  digits : ∀ c ∈ trim line.toList, isAnyDigit c = true

/-- The digits of a line are a decimal numeral that is not too long. -/
structure Numeric (line : String) : Prop extends Digits line where
  decimal : (trim line.toList).all isDecimalDigit = true
  short : (trim line.toList).length ≤ digitLimit

/-- A line that is taken for a number and is none. -/
def Misread (line : String) : Prop :=
  Digits line ∧ ¬Numeric line

theorem ofLine_of_digits (h : Digits line) :
    Entry.ofLine line =
      (typedInteger (String.ofList (trim line.toList))).map fun index => .choose (.action index) := by
  obtain ⟨hne, hall⟩ := h
  have hnot : ∀ c, isAnyDigit c = false → c ∉ trim line.toList := by
    intro c hc hmem
    rw [hall c hmem] at hc
    cases hc
  have hword : ∀ word : String, 'q' ∈ word.toList → String.ofList (trim line.toList) ≠ word := by
    rintro word hq rfl
    rw [String.toList_ofList] at hq
    exact hnot 'q' (by decide) hq
  have hq : String.ofList (trim line.toList) ≠ "q" := hword "q" (by decide)
  have hquit : String.ofList (trim line.toList) ≠ "quit" := hword "quit" (by decide)
  rw [Entry.ofLine, if_neg (by simp [hq, hquit])]
  split
  next control heq => exact absurd (heq ▸ List.mem_cons_self) (hnot '!' (by decide))
  next heq => exact absurd heq hne
  next heq => exact absurd (heq ▸ List.mem_cons_self) (hnot 'c' (by decide))
  next => rw [if_pos (List.all_eq_true.mpr hall)]

/-- A line with other characters, or with none, is understood. -/
theorem exists_ofLine_of_not_digits (h : ¬Digits line) : ∃ entry, Entry.ofLine line = .ok entry := by
  rw [Entry.ofLine]
  split
  · exact ⟨_, rfl⟩
  · split
    · exact ⟨_, rfl⟩
    · exact ⟨_, rfl⟩
    · exact ⟨_, rfl⟩
    · next hne _ =>
      rw [if_neg fun hall => h ⟨hne, List.all_eq_true.mp hall⟩]
      exact ⟨_, rfl⟩

/-- A numeric line is the choice of the action with its number. -/
theorem ofLine_eq_action_iff {n : Int} (h : Digits line) :
    Entry.ofLine line = .ok (.choose (.action n)) ↔
      Numeric line ∧ n = natOfDigits ((trim line.toList).map plainDigit) := by
  have hinteger : Entry.ofLine line = .ok (.choose (.action n)) ↔
      typedInteger (String.ofList (trim line.toList)) = .ok n := by
    rw [ofLine_of_digits h]
    cases typedInteger (String.ofList (trim line.toList)) <;> simp [Except.map]
  rw [hinteger, typedInteger_eq_ok_iff h.filled h.digits]
  constructor
  · rintro ⟨hdecimal, hshort, hn⟩
    exact ⟨⟨h, hdecimal, hshort⟩, hn⟩
  · rintro ⟨hnumeric, hn⟩
    exact ⟨hnumeric.decimal, hnumeric.short, hn⟩

/-- The lines that are a fault. -/
theorem ofLine_eq_error_iff : (∃ fault, Entry.ofLine line = .error fault) ↔ Misread line := by
  by_cases hdigits : Digits line
  · rw [Misread, and_iff_right hdigits]
    constructor
    · rintro ⟨fault, hfault⟩ hnumeric
      have hentry := (ofLine_eq_action_iff hdigits).mpr ⟨hnumeric, rfl⟩
      rw [hfault] at hentry
      cases hentry
    · intro hnot
      rw [ofLine_of_digits hdigits]
      cases hinteger : typedInteger (String.ofList (trim line.toList)) with
      | error fault => exact ⟨fault, rfl⟩
      | ok n =>
        obtain ⟨hdecimal, hshort, -⟩ :=
          (typedInteger_eq_ok_iff hdigits.filled hdigits.digits).mp hinteger
        exact absurd ⟨hdigits, hdecimal, hshort⟩ hnot
  · obtain ⟨entry, hentry⟩ := exists_ofLine_of_not_digits hdigits
    rw [hentry]
    exact iff_of_false (fun ⟨_, hfault⟩ => nomatch hfault) fun hmisread => hdigits hmisread.1

example : Misread " ²" ∧ Numeric "1٣" := by
  have hlone : Digits " ²" := ⟨by decide, List.all_eq_true.mp (by decide)⟩
  have hnumeric : Digits "1٣" := ⟨by decide, List.all_eq_true.mp (by decide)⟩
  exact ⟨⟨hlone, fun h => absurd h.decimal (by decide)⟩, hnumeric, by decide, by decide⟩

end Terminal

end EventDeck
