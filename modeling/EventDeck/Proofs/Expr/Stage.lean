import EventDeck.Proofs.Text.Digit

/-!
# The form of numbers

The form of a number is a small automaton: a `Stage` says how far a number has been read, and a text
is a number when it leads from the start to a stage in which a number may end.

The main statement is `Stage.exists_parts_of_follow?`: such a text is a whole part or places, perhaps
with an exponent behind them.
-/

namespace EventDeck.Expr

open Text

/-- A text without what begins it of a class goes on with something outside of the class. -/
theorem not_of_dropWhile {p : Char → Bool} {text cs : List Char} {c : Char}
    (h : text.dropWhile p = c :: cs) : p c = false := by
  have hhead := List.head?_dropWhile_not p text
  rw [h] at hhead
  simpa using hhead

/-! ## Stages -/

/-- How far a number has been read: nothing yet, its whole part, a point without digits before it,
its places, the mark of its exponent, the sign of that, and the digits of that. -/
inductive Stage
  | start | whole | point | places | mark | sign | power
deriving DecidableEq, Repr

namespace Stage

/-- The stage after a digit. -/
def digit : Stage → Stage
  | start | whole => whole
  | point | places => places
  | mark | sign | power => power

/-- Whether a number may end here. -/
def complete : Stage → Bool
  | whole | places | power => true
  | start | point | mark | sign => false

/-- The stage after a character, when a number can go on with it. -/
def step? (stage : Stage) (c : Char) : Option Stage :=
  if isDecimalDigit c then some stage.digit
  else match stage with
    | start => if c = '.' then some point else none
    | whole => if c = '.' then some places else if c = 'e' ∨ c = 'E' then some mark else none
    | places => if c = 'e' ∨ c = 'E' then some mark else none
    | mark => if c = '+' ∨ c = '-' then some sign else none
    | point | sign | power => none

/-- The stage after a text, when a number can go on with it. -/
def follow? (stage : Stage) : List Char → Option Stage
  | [] => some stage
  | c :: cs => (stage.step? c).bind fun next => next.follow? cs

/-- A number that has been read to a stage does not go on. -/
def Stops (stage : Stage) (rest : List Char) : Prop :=
  ∀ c cs, rest = c :: cs → stage.step? c = none

@[simp] theorem digit_digit (stage : Stage) : stage.digit.digit = stage.digit := by
  cases stage <;> rfl

theorem step?_digit {c : Char} (h : isDecimalDigit c = true) (stage : Stage) :
    stage.step? c = some stage.digit := by
  unfold step?
  rw [if_pos h]

theorem follow?_append (stage : Stage) (text more : List Char) :
    stage.follow? (text ++ more) = (stage.follow? text).bind fun next => next.follow? more := by
  induction text generalizing stage with
  | nil => rfl
  | cons c cs ih =>
    rw [List.cons_append, follow?, follow?, Option.bind_assoc]
    simp only [ih]

/-- Digits lead to the stage after a digit. -/
theorem follow?_digits {digits : List Char} (h : digits.all isDecimalDigit = true)
    (hne : digits ≠ []) (stage : Stage) : stage.follow? digits = some stage.digit := by
  induction digits generalizing stage with
  | nil => exact absurd rfl hne
  | cons c cs ih =>
    rw [List.all_cons, Bool.and_eq_true] at h
    rw [follow?, step?_digit h.1, Option.bind_some]
    by_cases hcs : cs = []
    · rw [hcs, follow?]
    · rw [ih h.2 hcs, digit_digit]

/-- What is followed begins with digits, and goes on with something else or ends there. -/
theorem exists_digits_of_follow? {stage last : Stage} {text : List Char}
    (h : stage.follow? text = some last) :
    ∃ digits more, text = digits ++ more ∧ digits.all isDecimalDigit = true ∧
      (∀ c cs, more = c :: cs → isDecimalDigit c = false) ∧
      (if digits = [] then stage else stage.digit).follow? more = some last := by
  refine ⟨text.takeWhile isDecimalDigit, text.dropWhile isDecimalDigit, by simp, by simp,
    fun c cs heq => not_of_dropWhile heq, ?_⟩
  have hsplit : text.takeWhile isDecimalDigit ++ text.dropWhile isDecimalDigit = text :=
    List.takeWhile_append_dropWhile
  rw [← hsplit, follow?_append] at h
  split
  · next hnil =>
    rw [hnil] at h
    exact h
  · next hne =>
    rw [follow?_digits (by simp) hne] at h
    exact h

end Stage

/-! ## The parts of a number -/

/-- An exponent: its mark, an optional sign and digits. -/
def IsExponent (text : List Char) : Prop :=
  ∃ mark sign digits, text = mark :: (sign ++ digits) ∧ (mark = 'e' ∨ mark = 'E') ∧
    (sign = [] ∨ sign = ['+'] ∨ sign = ['-']) ∧ digits ≠ [] ∧ digits.all isDecimalDigit = true

/-- A whole part and places, at least one of which has digits; without a point there are no
places. -/
def IsMantissa (whole fraction : List Char) : Prop :=
  whole.all isDecimalDigit = true ∧
    (fraction = [] ∧ whole ≠ [] ∨
      ∃ places, fraction = '.' :: places ∧ places.all isDecimalDigit = true ∧
        (whole ≠ [] ∨ places ≠ []))

/-- A number is a text that leads to a stage in which a number may end. -/
def IsNumber (text : List Char) : Prop :=
  ∃ last, Stage.start.follow? text = some last ∧ last.complete = true

namespace Stage

variable {last : Stage} {text : List Char}

/-- A character other than a digit is a point, the mark of an exponent or the sign of one, each in
its place. -/
theorem follow?_cons_cases {stage : Stage} {c : Char} {cs : List Char}
    (hc : isDecimalDigit c = false) (h : stage.follow? (c :: cs) = some last) :
    (c = '.' ∧ (stage = .start ∧ Stage.point.follow? cs = some last ∨
      stage = .whole ∧ Stage.places.follow? cs = some last)) ∨
    ((c = 'e' ∨ c = 'E') ∧ (stage = .whole ∨ stage = .places) ∧
      Stage.mark.follow? cs = some last) ∨
    ((c = '+' ∨ c = '-') ∧ stage = .mark ∧ Stage.sign.follow? cs = some last) := by
  obtain ⟨next, hstep, hnext⟩ := Option.bind_eq_some_iff.1 h
  unfold step? at hstep
  rw [if_neg (by simp [hc])] at hstep
  -- of the stages only four go on with a character that is no digit
  cases stage <;> simp only [reduceCtorEq, Option.ite_none_right_eq_some, Option.some.injEq] at hstep
  · obtain ⟨hpoint, rfl⟩ := hstep
    exact .inl ⟨hpoint, .inl ⟨rfl, hnext⟩⟩
  · split at hstep
    · next hpoint =>
      cases hstep
      exact .inl ⟨hpoint, .inr ⟨rfl, hnext⟩⟩
    · obtain ⟨hmark, heq⟩ := Option.ite_none_right_eq_some.1 hstep
      cases heq
      exact .inr (.inl ⟨hmark, .inl rfl, hnext⟩)
  · obtain ⟨hmark, rfl⟩ := hstep
    exact .inr (.inl ⟨hmark, .inr rfl, hnext⟩)
  · obtain ⟨hsign, rfl⟩ := hstep
    exact .inr (.inr ⟨hsign, rfl, hnext⟩)

/-- After the sign of an exponent, or among its digits, there are only digits. -/
theorem digits_of_follow? {stage : Stage} (honly : stage = .sign ∨ stage = .power)
    (h : stage.follow? text = some last) :
    text.all isDecimalDigit = true ∧ last = if text = [] then stage else .power := by
  obtain ⟨digits, more, rfl, hdigits, hmore, hfollow⟩ := exists_digits_of_follow? h
  rcases more with _ | ⟨c, cs⟩
  · rw [List.append_nil]
    refine ⟨hdigits, ?_⟩
    cases hfollow
    rcases honly with rfl | rfl <;> rfl
  · have hcases := follow?_cons_cases (hmore c cs rfl) hfollow
    rcases honly with rfl | rfl <;> split at hcases <;> simp [digit] at hcases

theorem isExponent_of_follow? {mark : Char} (hmark : mark = 'e' ∨ mark = 'E')
    (h : Stage.mark.follow? text = some last) (hlast : last.complete = true) :
    IsExponent (mark :: text) ∧ last = .power := by
  rcases text with _ | ⟨c, cs⟩
  · cases h
    cases hlast
  -- the mark is followed by a digit or by a sign, and then by digits to the end
  · by_cases hc : isDecimalDigit c = true
    · rw [follow?, step?_digit hc] at h
      obtain ⟨hall, heq⟩ := digits_of_follow? (.inr rfl) h
      refine ⟨⟨mark, [], c :: cs, rfl, hmark, .inl rfl, by simp, ?_⟩, by rw [heq, ite_self]⟩
      rw [List.all_cons, hc, hall]
      rfl
    · have hcases := follow?_cons_cases (by simpa using hc) h
      simp only [reduceCtorEq, false_and, or_self, and_false, true_and, false_or] at hcases
      obtain ⟨hsign, hcs⟩ := hcases
      obtain ⟨hall, heq⟩ := digits_of_follow? (.inl rfl) hcs
      have hne : cs ≠ [] := by
        rintro rfl
        rw [heq] at hlast
        cases hlast
      refine ⟨⟨mark, [c], cs, rfl, hmark, .inr ?_, hne, hall⟩, by rw [heq, if_neg hne]⟩
      rcases hsign with rfl | rfl
      · exact .inl rfl
      · exact .inr rfl

/-- What leads from the places of a number to its end is digits and perhaps an exponent. -/
theorem exists_places_of_follow? (h : Stage.places.follow? text = some last)
    (hlast : last.complete = true) :
    ∃ places exponent, text = places ++ exponent ∧ places.all isDecimalDigit = true ∧
      (exponent = [] ∧ last = .places ∨ IsExponent exponent ∧ last = .power) := by
  obtain ⟨places, more, rfl, hplaces, hmore, hfollow⟩ := exists_digits_of_follow? h
  refine ⟨places, more, rfl, hplaces, ?_⟩
  rw [show (if places = [] then Stage.places else Stage.places.digit) = .places from ite_self _]
    at hfollow
  rcases more with _ | ⟨c, cs⟩
  · cases hfollow
    exact .inl ⟨rfl, rfl⟩
  · have hcases := follow?_cons_cases (hmore c cs rfl) hfollow
    simp only [reduceCtorEq, false_and, or_self, and_false, or_true, true_and, false_or,
      or_false] at hcases
    exact .inr (isExponent_of_follow? hcases.1 hcases.2 hlast)

/-- The parts of what leads from the start of a number to its end. -/
theorem exists_parts_of_follow? (h : Stage.start.follow? text = some last)
    (hlast : last.complete = true) :
    ∃ whole fraction exponent, text = whole ++ (fraction ++ exponent) ∧
      IsMantissa whole fraction ∧
      (exponent = [] ∧ last = (if fraction = [] then .whole else .places) ∨
        IsExponent exponent ∧ last = .power) := by
  obtain ⟨whole, more, rfl, hwhole, hmore, hfollow⟩ := exists_digits_of_follow? h
  have hstage : (if whole = [] then Stage.start else Stage.start.digit) =
      if whole = [] then Stage.start else Stage.whole := rfl
  rw [hstage] at hfollow
  by_cases hne : whole = []
  · subst hne
    rcases more with _ | ⟨c, cs⟩
    · cases hfollow
      cases hlast
    · have hcases := follow?_cons_cases (hmore c cs rfl) hfollow
      simp only [reduceCtorEq, if_true, false_and, or_self, and_false, true_and, or_false] at hcases
      obtain ⟨rfl, hpoint⟩ := hcases
      -- after a point without digits before it there is a digit
      rcases cs with _ | ⟨d, ds⟩
      · cases hpoint
        cases hlast
      · have hd : isDecimalDigit d = true := by
          cases hd : isDecimalDigit d with
          | true => rfl
          | false => simpa using follow?_cons_cases hd hpoint
        have hplaces : Stage.places.follow? (d :: ds) = some last := by
          rw [follow?, step?_digit hd] at hpoint ⊢
          exact hpoint
        obtain ⟨places, exponent, heq, hall, hend⟩ := exists_places_of_follow? hplaces hlast
        refine ⟨[], '.' :: places, exponent, by rw [heq]; rfl,
          ⟨rfl, .inr ⟨places, rfl, hall, .inr ?_⟩⟩, hend⟩
        rintro rfl
        rcases hend with ⟨rfl, -⟩ | ⟨⟨mark, _, _, hexponent, hmark, _⟩, -⟩
        · cases heq
        · rw [hexponent] at heq
          cases heq
          rcases hmark with rfl | rfl <;> exact absurd hd (by decide)
  · rw [if_neg hne] at hfollow
    rcases more with _ | ⟨c, cs⟩
    · cases hfollow
      exact ⟨whole, [], [], by simp, ⟨hwhole, .inl ⟨rfl, hne⟩⟩, .inl ⟨rfl, rfl⟩⟩
    · have hcases := follow?_cons_cases (hmore c cs rfl) hfollow
      simp only [reduceCtorEq, false_and, false_or, and_false, true_and, or_false] at hcases
      rcases hcases with ⟨rfl, hpoint⟩ | ⟨hmark, hcs⟩
      · obtain ⟨places, exponent, rfl, hall, hend⟩ := exists_places_of_follow? hpoint hlast
        exact ⟨whole, '.' :: places, exponent, rfl,
          ⟨hwhole, .inr ⟨places, rfl, hall, .inl hne⟩⟩, hend⟩
      · exact ⟨whole, [], c :: cs, by simp, ⟨hwhole, .inl ⟨rfl, hne⟩⟩,
          .inr (isExponent_of_follow? hmark hcs hlast)⟩

end Stage

end EventDeck.Expr
