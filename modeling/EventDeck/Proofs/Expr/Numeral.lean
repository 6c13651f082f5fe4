import EventDeck.Proofs.Expr.Stage

/-!
# Scanning and reading numbers

The scanner of numbers takes the longest number off the front of a text.

The main statements are `scanNumber?_append_of_stops` and `IsNumber.of_scanNumber?`, which say that
the scanner takes exactly the numbers that do not go on, and `IsNumber.exists_read?`, which says that
every number can be read.
-/

namespace EventDeck.Expr

open Text

/-! ## Scanning -/

variable {text rest : List Char}

/-- A run of characters of a class is taken whole when the text goes on with another character. -/
theorem span_append {p : Char → Bool} {run : List Char} (h : run.all p = true)
    (hrest : ∀ c cs, rest = c :: cs → p c = false) :
    (run ++ rest).takeWhile p = run ∧ (run ++ rest).dropWhile p = rest := by
  have hall : ∀ c ∈ run, p c = true := by simpa using h
  rw [List.takeWhile_append_of_pos hall, List.dropWhile_append_of_pos hall]
  rcases rest with _ | ⟨c, cs⟩
  · exact ⟨List.append_nil _, rfl⟩
  · have hc := hrest c cs rfl
    rw [List.takeWhile_cons_of_neg (by simp [hc]), List.dropWhile_cons_of_neg (by simp [hc])]
    exact ⟨List.append_nil _, rfl⟩

theorem not_digit_of_stops {stage : Stage} (h : stage.Stops rest) :
    ∀ c cs, rest = c :: cs → isDecimalDigit c = false := by
  intro c cs heq
  cases hc : isDecimalDigit c with
  | false => rfl
  | true =>
    have := h c cs heq
    rw [Stage.step?_digit hc] at this
    cases this

/-- An exponent is taken whole when no digit follows it. -/
theorem scanExponent_append_of_isExponent {exponent : List Char} (h : IsExponent exponent)
    (hrest : ∀ c cs, rest = c :: cs → isDecimalDigit c = false) :
    scanExponent (exponent ++ rest) = (exponent, rest) := by
  obtain ⟨mark, sign, digits, rfl, hmark, hsign, hne, hall⟩ := h
  obtain ⟨htake, hdrop⟩ := span_append hall hrest
  have hscan : scanSign (sign ++ (digits ++ rest)) = (sign, digits ++ rest) := by
    rcases hsign with rfl | rfl | rfl
    · rcases digits with _ | ⟨d, ds⟩
      · exact absurd rfl hne
      · have hd : isDecimalDigit d = true := by
          rw [List.all_cons, Bool.and_eq_true] at hall
          exact hall.1
        rw [List.nil_append, List.cons_append, scanSign, if_neg]
        rintro hsign
        rcases (by simpa using hsign : d = '+' ∨ d = '-') with rfl | rfl <;>
          exact absurd hd (by decide)
    · rfl
    · rfl
  rw [List.cons_append, List.append_assoc, scanExponent, hscan, htake, hdrop, if_pos]
  · rfl
  · rcases hmark with rfl | rfl <;> simpa using hne

/-- The whole part and the places of a number are taken whole when no digit follows them, and no
point where a point could follow. -/
theorem scanDigits?_append_of_isMantissa {whole fraction : List Char}
    (h : IsMantissa whole fraction)
    (hrest : ∀ c cs, rest = c :: cs → isDecimalDigit c = false ∧ (fraction = [] → c ≠ '.')) :
    scanDigits? (whole ++ (fraction ++ rest)) = some (whole ++ fraction, rest) := by
  -- A number without places stops before the rest, which must not begin with a point; one with places
  -- has its point in it.
  obtain ⟨hwhole, ⟨rfl, hne⟩ | ⟨places, rfl, hplaces, hne⟩⟩ := h
  · obtain ⟨htake, hdrop⟩ := span_append hwhole fun c cs heq => (hrest c cs heq).1
    rw [List.nil_append, scanDigits?, htake, hdrop]
    dsimp only
    split
    · next heq => exact absurd rfl ((hrest _ _ rfl).2 rfl)
    · rw [if_neg (by simpa using hne), List.append_nil]
  · have hpoint : ∀ c cs, '.' :: (places ++ rest) = c :: cs → isDecimalDigit c = false := by
      rintro _ _ ⟨⟩
      decide
    obtain ⟨htake, hdrop⟩ := span_append hwhole hpoint
    obtain ⟨htake', hdrop'⟩ := span_append hplaces fun c cs heq => (hrest c cs heq).1
    rw [List.cons_append, scanDigits?, htake, hdrop]
    change (if (whole.isEmpty && ((places ++ rest).takeWhile isDecimalDigit).isEmpty) = true
      then none
      else some (whole ++ '.' :: (places ++ rest).takeWhile isDecimalDigit,
        (places ++ rest).dropWhile isDecimalDigit)) = _
    rw [htake', hdrop', if_neg]
    intro hboth
    rw [Bool.and_eq_true, List.isEmpty_iff, List.isEmpty_iff] at hboth
    exact hne.elim (absurd hboth.1) (absurd hboth.2)

/-- A number is taken whole when it does not go on. -/
theorem scanNumber?_append_of_stops {last : Stage} (h : Stage.start.follow? text = some last)
    (hlast : last.complete = true) (hrest : last.Stops rest) :
    scanNumber? (text ++ rest) = some (text, rest) := by
  obtain ⟨whole, fraction, exponent, rfl, hmantissa, hend⟩ := Stage.exists_parts_of_follow? h hlast
  have hdigit := not_digit_of_stops hrest
  rw [List.append_assoc, List.append_assoc, scanNumber?, scanDigits?_append_of_isMantissa hmantissa]
  · change some (whole ++ fraction ++ (scanExponent (exponent ++ rest)).1,
      (scanExponent (exponent ++ rest)).2) = _
    -- without an exponent the rest must not look like one
    rcases hend with ⟨rfl, rfl⟩ | ⟨hexponent, -⟩
    · have hscan : scanExponent rest = ([], rest) := by
        rcases rest with _ | ⟨c, cs⟩
        · rfl
        · have hc : c ≠ 'e' ∧ c ≠ 'E' := by
            have := hrest c cs rfl
            constructor <;> rintro rfl <;> split at this <;> exact absurd this (by decide)
          rw [scanExponent, if_neg (by simp [hc])]
      rw [List.nil_append, hscan, List.append_nil, List.append_nil]
    · rw [scanExponent_append_of_isExponent hexponent hdigit, List.append_assoc]
  · intro c cs heq
    rcases hend with ⟨rfl, rfl⟩ | ⟨⟨mark, _, _, rfl, hmark, _⟩, -⟩
    · refine ⟨hdigit c cs heq, ?_⟩
      rintro rfl rfl
      exact absurd (hrest _ _ heq) (by decide)
    · cases heq
      rcases hmark with rfl | rfl <;> exact ⟨by decide, fun _ => by decide⟩

/-- An exponent that is taken off the front of a text leads to the end of a number. -/
theorem follow?_of_scanExponent (text : List Char) {stage : Stage}
    (hstage : stage = .whole ∨ stage = .places) :
    ∃ last, stage.follow? (scanExponent text).1 = some last ∧ last.complete = true := by
  have hcomplete : stage.complete = true := by rcases hstage with rfl | rfl <;> rfl
  rcases text with _ | ⟨e, more⟩
  · exact ⟨stage, rfl, hcomplete⟩
  -- The letter is taken only when digits follow it, with a sign between them or without one; otherwise
  -- the number has ended before it.
  · rw [scanExponent]
    split
    · next h =>
      rw [Bool.and_eq_true] at h
      obtain ⟨he, hne⟩ := h
      have hmark : stage.step? e = some .mark := by
        rcases hstage with rfl | rfl <;>
          rcases (by simpa using he : e = 'e' ∨ e = 'E') with rfl | rfl <;> decide
      refine ⟨.power, ?_, rfl⟩
      rw [List.cons_append, Stage.follow?, hmark, Option.bind_some, Stage.follow?_append]
      have hsign : ∃ next : Stage, Stage.mark.follow? (scanSign more).1 = some next ∧
          next.digit = .power := by
        rcases more with _ | ⟨s, rest⟩
        · exact ⟨.mark, rfl, rfl⟩
        · rw [scanSign]
          split
          · next hs =>
            rcases (by simpa using hs : s = '+' ∨ s = '-') with rfl | rfl
            · exact ⟨.sign, (by decide : Stage.mark.follow? ['+'] = some .sign), rfl⟩
            · exact ⟨.sign, (by decide : Stage.mark.follow? ['-'] = some .sign), rfl⟩
          · exact ⟨.mark, rfl, rfl⟩
      obtain ⟨next, hnext, hdigit⟩ := hsign
      rw [hnext, Option.bind_some, Stage.follow?_digits (by simp) (by simpa using hne), hdigit]
    · exact ⟨stage, rfl, hcomplete⟩

/-- The digits that are taken off the front of a text lead to the end of a whole part or of
places. -/
theorem follow?_of_scanDigits? {digits : List Char} (h : scanDigits? text = some (digits, rest)) :
    ∃ stage : Stage, Stage.start.follow? digits = some stage ∧
      (stage = .whole ∨ stage = .places) := by
  unfold scanDigits? at h
  dsimp only at h
  split at h
  · next after _ =>
    split at h
    · cases h
    · next hne =>
      cases h
      refine ⟨.places, ?_, .inr rfl⟩
      rw [Stage.follow?_append]
      -- a point needs digits on one of its sides
      by_cases hwhole : text.takeWhile isDecimalDigit = []
      · have hplaces : after.takeWhile isDecimalDigit ≠ [] := by
          intro hnil
          rw [hwhole, hnil] at hne
          exact hne rfl
        rw [hwhole]
        change Stage.point.follow? _ = _
        rw [Stage.follow?_digits (by simp) hplaces]
        rfl
      · rw [Stage.follow?_digits (by simp) hwhole]
        change Stage.places.follow? _ = _
        by_cases hplaces : after.takeWhile isDecimalDigit = []
        · rw [hplaces]
          rfl
        · rw [Stage.follow?_digits (by simp) hplaces]
          rfl
  · split at h
    · cases h
    · next hne =>
      cases h
      exact ⟨.whole, Stage.follow?_digits (by simp) (by simpa using hne) _, .inl rfl⟩

/-- What the scanner takes is a number. -/
theorem IsNumber.of_scanNumber? {number : List Char}
    (h : scanNumber? text = some (number, rest)) : IsNumber number := by
  obtain ⟨⟨digits, more⟩, hdigits, heq⟩ := Option.map_eq_some_iff.1 h
  cases heq
  obtain ⟨stage, hfollow, hstage⟩ := follow?_of_scanDigits? hdigits
  obtain ⟨last, hlast, hcomplete⟩ := follow?_of_scanExponent more hstage
  refine ⟨last, ?_, hcomplete⟩
  rw [Stage.follow?_append, hfollow]
  exact hlast

/-! ## The characters of numbers -/

/-- The characters that numbers are made of. -/
def IsNumberChar (c : Char) : Prop :=
  isDecimalDigit c = true ∨ c = '.' ∨ c = 'e' ∨ c = 'E' ∨ c = '+' ∨ c = '-'

instance decidableIsNumberChar (c : Char) : Decidable (IsNumberChar c) :=
  inferInstanceAs (Decidable (isDecimalDigit c = true ∨ c = '.' ∨ c = 'e' ∨ c = 'E' ∨ c = '+' ∨ c = '-'))

theorem Stage.isNumberChar_of_step? {stage next : Stage} {c : Char}
    (h : stage.step? c = some next) : IsNumberChar c := by
  cases hc : isDecimalDigit c with
  | true => exact .inl hc
  | false =>
    have hfollow : stage.follow? [c] = some next := by rw [follow?, h]; rfl
    rcases follow?_cons_cases hc hfollow with ⟨hpoint, -⟩ | ⟨hmark | hmark, -⟩ | ⟨hsign | hsign, -⟩
    · exact .inr (.inl hpoint)
    · exact .inr (.inr (.inl hmark))
    · exact .inr (.inr (.inr (.inl hmark)))
    · exact .inr (.inr (.inr (.inr (.inl hsign))))
    · exact .inr (.inr (.inr (.inr (.inr hsign))))

theorem Stage.isNumberChar_of_mem {stage last : Stage} (h : stage.follow? text = some last) :
    ∀ c ∈ text, IsNumberChar c := by
  induction text generalizing stage with
  | nil => simp
  | cons d ds ih =>
    obtain ⟨next, hstep, hnext⟩ := Option.bind_eq_some_iff.1 h
    rintro c (_ | ⟨_, hmem⟩)
    · exact isNumberChar_of_step? hstep
    · exact ih hnext c hmem

theorem IsNumber.isNumberChar {number : List Char} (h : IsNumber number) :
    ∀ c ∈ number, IsNumberChar c := by
  obtain ⟨last, hfollow, -⟩ := h
  exact Stage.isNumberChar_of_mem hfollow

theorem IsNumber.not_mem {number : List Char} {c : Char} (h : IsNumber number)
    (hc : ¬IsNumberChar c) : c ∉ number :=
  fun hmem => hc (h.isNumberChar c hmem)

theorem IsNumberChar.not_isBlank {c : Char} (h : IsNumberChar c) : isBlank c = false := by
  rcases h with h | rfl | rfl | rfl | rfl | rfl
  · exact isBlank_of_isDecimalDigit h
  all_goals decide

theorem IsNumber.ne_nil {number : List Char} (h : IsNumber number) : number ≠ [] := by
  rintro rfl
  obtain ⟨last, hfollow, hlast⟩ := h
  cases hfollow
  cases hlast

/-- A number begins with a digit or a point. -/
theorem IsNumber.head {c : Char} {cs : List Char} (h : IsNumber (c :: cs)) :
    isDecimalDigit c = true ∨ c = '.' := by
  obtain ⟨last, hfollow, -⟩ := h
  cases hc : isDecimalDigit c with
  | true => exact .inl rfl
  | false =>
    have hcases := Stage.follow?_cons_cases hc hfollow
    simp only [reduceCtorEq, false_and, or_false, and_false, or_self] at hcases
    exact .inr hcases.1

/-! ## Reading -/

section Reading

open Decimal

/-- Only the ends of a text matter when it is trimmed. -/
theorem trimBy_eq_self {drop : Char → Bool} (hhead : ∀ c, text.head? = some c → drop c = false)
    (hlast : ∀ c, text.getLast? = some c → drop c = false) : trimBy drop text = text := by
  have key : ∀ l : List Char, (∀ c, l.head? = some c → drop c = false) → l.dropWhile drop = l := by
    intro l h
    rcases l with _ | ⟨c, cs⟩
    · rfl
    · rw [List.dropWhile_cons_of_neg (by simp [h c rfl])]
  rw [trimBy, key text hhead, key, List.reverse_reverse]
  rw [List.head?_reverse]
  exact hlast

/-- Nothing is trimmed from a text that has nothing to be dropped. -/
theorem trimBy_of_not_drop {drop : Char → Bool} (h : ∀ c ∈ text, drop c = false) :
    trimBy drop text = text :=
  trimBy_eq_self (fun c hc => h c (List.mem_of_head? hc)) fun c hc => h c (List.mem_of_getLast? hc)

theorem dropUnderscores?_eq_self (h : '_' ∉ text) : dropUnderscores? text = some text := by
  induction text using dropUnderscores?.induct with
  | case1 => rfl
  | case2 => simp at h
  | case3 a b rest hdigits ih => simp at h
  | case4 a b rest hdigits => simp at h
  | case5 a rest h1 h2 ih =>
    rw [dropUnderscores?, ih (fun hmem => h (List.mem_cons_of_mem _ hmem))]
    · rfl
    · exact h1
    · exact h2

/-- A text of such characters only has its digits made plain. -/
theorem freeForm?_of_isNumberChar (h : ∀ c ∈ text, IsNumberChar c) :
    freeForm? text = some (text.map plainDigit) := by
  have hblank : ∀ c ∈ text, isWhiteSpace c = false := fun c hc =>
    isWhiteSpace_of_isBlank (h c hc).not_isBlank
  rw [freeForm?, trimBy_of_not_drop hblank, dropUnderscores?_eq_self]
  intro hmem
  obtain ⟨c, hc, heq⟩ := List.mem_map.1 hmem
  rcases h c hc with hdigit | hother
  · have := isPlainDigit_plainDigit hdigit
    rw [heq] at this
    exact absurd this (by decide)
  · have : plainDigit c = c := plainDigit_eq_self (by
      rcases hother with rfl | rfl | rfl | rfl | rfl <;> decide)
    rw [heq] at this
    subst this
    rcases hother with h | h | h | h | h <;> exact absurd h (by decide)

theorem all_isPlainDigit_map_eq (digits : List Char) :
    (digits.map plainDigit).all isPlainDigit = digits.all isDecimalDigit := by
  rw [List.all_map]
  exact congrArg digits.all (funext isPlainDigit_plainDigit_eq)

theorem all_isPlainDigit_map {digits : List Char} (h : digits.all isDecimalDigit = true) :
    (digits.map plainDigit).all isPlainDigit = true :=
  (all_isPlainDigit_map_eq digits).trans h

/-- A text that does not begin with a sign is taken for unsigned. -/
theorem takeSign_of_head {c : Char} {cs : List Char} (h : c ≠ '-' ∧ c ≠ '+') :
    takeSign (c :: cs) = (false, c :: cs) := by
  unfold takeSign
  split
  · next heq => cases heq; exact absurd rfl h.1
  · next heq => cases heq; exact absurd rfl h.2
  · rfl

theorem not_sign_of_isPlainDigit {c : Char} (h : isPlainDigit c = true) : c ≠ '-' ∧ c ≠ '+' := by
  constructor <;> rintro rfl <;> exact absurd h (by decide)

/-- The exponent of a number can be read. -/
theorem exists_exponent? {exponent : List Char} (h : exponent = [] ∨ IsExponent exponent) :
    ∃ n, exponent? (exponent.map plainDigit) = some n := by
  rcases h with rfl | ⟨mark, sign, digits, rfl, hmark, hsign, hne, hall⟩
  · exact ⟨0, rfl⟩
  · have hplain := all_isPlainDigit_map hall
    have hmap : plainDigit mark = mark := plainDigit_eq_self (by
      rcases hmark with rfl | rfl <;> decide)
    have htake : ∃ negative, takeSign ((sign ++ digits).map plainDigit) =
        (negative, digits.map plainDigit) := by
      rcases hsign with rfl | rfl | rfl
      · rcases digits with _ | ⟨d, ds⟩
        · exact absurd rfl hne
        · rw [List.map_cons, List.all_cons, Bool.and_eq_true] at hplain
          exact ⟨false, takeSign_of_head (not_sign_of_isPlainDigit hplain.1)⟩
      · exact ⟨false, rfl⟩
      · exact ⟨true, rfl⟩
    obtain ⟨negative, htake⟩ := htake
    rw [List.map_cons, hmap, exponent?, if_pos (by simpa using hmark), htake]
    dsimp only
    rw [hplain, if_neg (by simpa using hne)]
    exact ⟨_, rfl⟩

/-- Digits without a point, and an exponent. -/
theorem numeral?_whole {before rest : List Char} (hbefore : before.all isPlainDigit = true)
    (hne : before ≠ []) (hrest : ∀ c cs, rest = c :: cs → isPlainDigit c = false ∧ c ≠ '.') :
    numeral? (before ++ rest) =
      (exponent? rest).map fun exponent => ⟨natOfDigits before, exponent⟩ := by
  obtain ⟨htake, hdrop⟩ := span_append hbefore fun c cs heq => (hrest c cs heq).1
  rw [numeral?, htake, hdrop]
  split
  next after more heq =>
    split at heq
    · exact absurd rfl (hrest _ _ rfl).2
    · cases heq
      rw [if_neg (by simpa using hne), List.append_nil]
      simp

/-- Digits before and after a point, and an exponent. -/
theorem numeral?_point {before after rest : List Char} (hbefore : before.all isPlainDigit = true)
    (hafter : after.all isPlainDigit = true) (hne : before ≠ [] ∨ after ≠ [])
    (hrest : ∀ c cs, rest = c :: cs → isPlainDigit c = false) :
    numeral? (before ++ '.' :: (after ++ rest)) =
      (exponent? rest).map fun exponent => ⟨natOfDigits (before ++ after), exponent - after.length⟩ := by
  have hpoint : ∀ c cs, '.' :: (after ++ rest) = c :: cs → isPlainDigit c = false := by
    rintro _ _ ⟨⟩
    decide
  obtain ⟨htake, hdrop⟩ := span_append hbefore hpoint
  obtain ⟨htake', hdrop'⟩ := span_append hafter hrest
  rw [numeral?, htake, hdrop]
  split
  next places more heq =>
    change ((after ++ rest).takeWhile isPlainDigit, (after ++ rest).dropWhile isPlainDigit) = _ at heq
    rw [htake', hdrop'] at heq
    cases heq
    rw [if_neg]
    intro hboth
    rw [Bool.and_eq_true, List.isEmpty_iff, List.isEmpty_iff] at hboth
    exact hne.elim (absurd hboth.1) (absurd hboth.2)

/-- The numeral of a number can be read. -/
theorem exists_numeral? {number : List Char} (h : IsNumber number) :
    ∃ n, numeral? (number.map plainDigit) = some n := by
  obtain ⟨last, hfollow, hlast⟩ := h
  obtain ⟨whole, fraction, exponent, rfl, ⟨hwhole, hfraction⟩, hend⟩ :=
    Stage.exists_parts_of_follow? hfollow hlast
  have hexponent : exponent = [] ∨ IsExponent exponent := hend.imp And.left And.left
  obtain ⟨n, hn⟩ := exists_exponent? hexponent
  have hmark : ∀ c cs, exponent.map plainDigit = c :: cs → isPlainDigit c = false ∧ c ≠ '.' := by
    intro c cs heq
    rcases hexponent with rfl | ⟨mark, _, _, rfl, hmark, _⟩
    · cases heq
    · rw [List.map_cons] at heq
      cases heq
      rcases hmark with rfl | rfl <;> decide
  have hwhole := all_isPlainDigit_map hwhole
  rw [List.map_append, List.map_append]
  rcases hfraction with ⟨rfl, hne⟩ | ⟨places, rfl, hplaces, hne⟩
  · rw [List.map_nil, List.nil_append, numeral?_whole hwhole (by simpa using hne) hmark, hn]
    exact ⟨_, rfl⟩
  · rw [List.map_cons, List.cons_append, show plainDigit '.' = '.' from by decide,
      numeral?_point hwhole (all_isPlainDigit_map hplaces) (by simpa using hne)
        fun c cs heq => (hmark c cs heq).1, hn]
    exact ⟨_, rfl⟩

/-- A number has no sign of its own when it is read. -/
theorem IsNumber.takeSign {number : List Char} (h : IsNumber number) :
    takeSign (number.map plainDigit) = (false, number.map plainDigit) := by
  rcases number with _ | ⟨c, cs⟩
  · exact absurd rfl h.ne_nil
  · refine takeSign_of_head ?_
    rcases h.head with hdigit | rfl
    · exact not_sign_of_isPlainDigit (isPlainDigit_plainDigit hdigit)
    · decide

/-- Every number can be read. -/
theorem IsNumber.exists_read? {number : List Char} (h : IsNumber number) :
    ∃ x, read? number = some x := by
  obtain ⟨n, hn⟩ := exists_numeral? h
  rw [read?, freeForm?_of_isNumberChar h.isNumberChar, Option.bind_some, readPlain?, h.takeSign]
  dsimp only
  rw [hn]
  rcases word? (number.map plainDigit) with _ | x
  · exact ⟨_, rfl⟩
  · exact ⟨_, rfl⟩

/-- A minus before a number is read as the negation of the number. -/
theorem IsNumber.read?_minus {number : List Char} (h : IsNumber number) :
    read? ('-' :: number) = (read? number).map fun x => -x := by
  have hminus : ∀ c ∈ '-' :: number, IsNumberChar c := by
    intro c hc
    rcases List.mem_cons.1 hc with rfl | hmem
    · exact .inr (.inr (.inr (.inr (.inr rfl))))
    · exact h.isNumberChar c hmem
  rw [read?, read?, freeForm?_of_isNumberChar hminus, freeForm?_of_isNumberChar h.isNumberChar,
    List.map_cons, show plainDigit '-' = '-' from by decide, Option.bind_some, Option.bind_some,
    readPlain?, readPlain?, h.takeSign, Option.map_map]
  rfl

end Reading

end EventDeck.Expr
