import EventDeck.Proofs.Expr.Expanded

/-!
# A value that shows what does not fit

A run can also tell whether every piece of a text fits.  The *probe* is a number that is written with
a point and an exponent; when it takes the place of every name and the tokens of the run stand apart,
then every name fits, whatever its value (`exists_walk_of_tokenize`).  Of a drawn number a run shows
only one sign, so the signs have to make no difference to what is glued on behind (`Indifferent`).
-/

namespace EventDeck.Expr

open Text Decimal

/-! ## Scanning by characters -/

namespace Stage

/-- The stage after a character: the number goes on, or it has ended properly and something else
begins. -/
def go? (stage : Stage) (c : Char) : Option Stage :=
  match stage.step? c with
  | some next => some next
  | none =>
    if (stage = start ∨ stage.complete = true) ∧ whole.step? c = none then some start else none

/-- The stage after a text. -/
def scan? (stage : Stage) : List Char → Option Stage
  | [] => some stage
  | c :: cs => (stage.go? c).bind fun next => next.scan? cs

theorem go?_of_step? {stage next : Stage} {c : Char} (h : stage.step? c = some next) :
    stage.go? c = some next := by
  unfold go?
  rw [h]

theorem go?_of_stops {stage : Stage} {c : Char} (hstage : stage = .start ∨ stage.complete = true)
    (hc : whole.step? c = none) : stage.go? c = some .start := by
  unfold go?
  rw [step?_eq_none hstage hc]
  exact if_pos ⟨hstage, hc⟩

theorem scan?_append (stage : Stage) (text more : List Char) :
    stage.scan? (text ++ more) = (stage.scan? text).bind fun next => next.scan? more := by
  induction text generalizing stage with
  | nil => rfl
  | cons c cs ih =>
    rw [List.cons_append, scan?, scan?, Option.bind_assoc]
    simp only [ih]

/-- A number is scanned as it is followed. -/
theorem scan?_of_follow? {stage last : Stage} {text : List Char}
    (h : stage.follow? text = some last) : stage.scan? text = some last := by
  induction text generalizing stage with
  | nil => exact h
  | cons c cs ih =>
    obtain ⟨next, hstep, hnext⟩ := Option.bind_eq_some_iff.1 h
    rw [scan?, go?_of_step? hstep, Option.bind_some]
    exact ih hnext

/-- Characters that end numbers begin none. -/
theorem scan?_of_ends {chars : List Char} (h : ∀ c ∈ chars, whole.step? c = none) :
    start.scan? chars = some .start := by
  induction chars with
  | nil => rfl
  | cons c cs ih =>
    rw [scan?, go?_of_stops (.inl rfl) (h c List.mem_cons_self), Option.bind_some]
    exact ih fun d hd => h d (List.mem_cons_of_mem _ hd)

/-- Where a number ends, it makes no difference which one has ended, if any. -/
theorem scan?_of_stops {stage other last : Stage} {text : List Char}
    (hstage : stage = .start ∨ stage.complete = true)
    (hother : other = .start ∨ other.complete = true) (hstops : whole.Stops text)
    (h : other.scan? text = some last) : ∃ last, stage.scan? text = some last := by
  rcases text with _ | ⟨c, cs⟩
  · exact ⟨stage, rfl⟩
  · have hc := hstops c cs rfl
    rw [scan?, go?_of_stops hother hc] at h
    rw [scan?, go?_of_stops hstage hc]
    exact ⟨last, h⟩

end Stage

/-- A text whose tokens stand apart is scanned to its end. -/
theorem exists_scan_of_tokenize {text : List Char} {tokens : List Token}
    (h : tokenize text = .ok tokens) (hseparate : Separate tokens) :
    ∃ last, Stage.start.scan? text = some last := by
  by_cases hnil : text = []
  · subst hnil
    exact ⟨.start, rfl⟩
  obtain ⟨c, cs, rfl⟩ := List.exists_cons_of_ne_nil hnil
  rcases tokenize_cons_eq_ok_cases h with ⟨hblank, h⟩ | ⟨-, token, rest, more, hnext, hmore, rfl⟩
  · rw [Stage.scan?, Stage.go?_of_stops (.inl rfl) (step?_of_isBlank hblank .whole),
      Option.bind_some]
    exact exists_scan_of_tokenize h hseparate
  have hshorter := length_lt_of_nextToken? hnext
  obtain ⟨-, htext⟩ := nextToken?_append hnext
  rw [htext, Stage.scan?_append]
  cases token with
  | number number =>
    -- the token after a number is none, so the number has ended properly
    obtain ⟨stage, hstage, hcomplete⟩ := isNumber_of_nextToken? hnext
    obtain ⟨last, hlast⟩ := exists_scan_of_tokenize hmore hseparate.2
    rw [Token.text, Stage.scan?_of_follow? hstage, Option.bind_some]
    exact Stage.scan?_of_stops (.inr hcomplete) (.inl rfl) (stops_of_tokenize hmore hseparate.1)
      hlast
  | operator op =>
    rw [Token.text, Stage.scan?_of_ends fun c hc => step?_of_mem_symbol hc, Option.bind_some]
    exact exists_scan_of_tokenize hmore hseparate
termination_by text.length

/-! ## The probe -/

/-- A number that is written with a point and an exponent. -/
def probe : Float := 1.5e16

/-- The probe as it is written. -/
def probeText : List Char := ['1', '.', '5', 'e', '+', '1', '6']

theorem write_probe : write probe = probeText := by decide +kernel

/-- It makes no difference behind random calls whether a drawn number has a minus: either way the
same stage is reached, or the number ends behind it. -/
def Spot.Indifferent (spot : Spot) : List Atom → Prop
  | [] => True
  | atom :: atoms =>
    (∀ bounds, atom = .call bounds →
      (spot = .plain .start ∨ spot = .plain .whole ∨ spot = .plain .mark) ∨
        spot.stage.complete = true ∧ Stage.whole.Stops (atoms.map Atom.face)) ∧
      ∀ next, spot.next? atom = some next → next.Indifferent atoms

/-- How far a run with the probe has read a number. -/
def Spot.probed : Spot → Stage
  | plain stage => stage
  | named => .power

theorem Spot.probed_cases {spot : Spot}
    (h : spot = .plain .start ∨ spot = .plain .whole ∨ spot = .plain .mark) :
    spot.probed = .start ∨ spot.probed = .whole ∨ spot.probed = .mark := by
  rcases h with rfl | rfl | rfl
  · exact .inl rfl
  · exact .inr (.inl rfl)
  · exact .inr (.inr rfl)

theorem Spot.probed_digit (spot : Spot) : spot.probed.digit = spot.digit.probed := by
  cases spot <;> rfl

theorem Spot.complete_probed {spot : Spot} (h : spot.stage.complete = true) :
    spot.probed.complete = true := by
  cases spot with
  | plain stage => exact h
  | named => rfl

/-- Behind a digit every number is complete. -/
theorem Spot.complete_probed_digit (spot : Spot) : spot.digit.probed.complete = true := by
  rw [← probed_digit]
  cases spot with
  | plain stage => cases stage <;> rfl
  | named => rfl

/-- A random call fits where its minus makes no difference. -/
theorem Spot.next?_call_of {spot : Spot} {bounds : CellCall} {atoms : List Atom}
    (h : (spot = .plain .start ∨ spot = .plain .whole ∨ spot = .plain .mark) ∨
      spot.stage.complete = true ∧ Stage.whole.Stops (atoms.map Atom.face)) :
    spot.next? (.call bounds) = some spot.digit := by
  cases spot with
  | named => rfl
  | plain stage =>
    rcases h with (h | h | h) | ⟨hcomplete, -⟩
    · cases h
      rfl
    · cases h
      rfl
    · cases h
      rfl
    · cases stage <;> first | rfl | cases hcomplete

/-- The probe is scanned only where a written value fits. -/
theorem scan?_probeText {stage last : Stage} (h : stage.scan? probeText = some last) :
    (stage = .start ∨ stage = .whole) ∧ last = .power := by
  have hall : ∀ stage : Stage, stage.scan? probeText =
      if stage = .start ∨ stage = .whole then some .power else none := by
    intro stage
    cases stage <;> decide
  rw [hall] at h
  split at h
  · next hstage =>
    cases h
    exact ⟨hstage, rfl⟩
  · cases h

/-- A character of a run with the probe fits. -/
theorem Spot.exists_next?_of_go? {spot : Spot} {stage : Stage} {c : Char}
    (h : spot.probed.go? c = some stage) :
    ∃ next, spot.next? (.char c) = some next ∧ next.probed = stage := by
  by_cases hc : isDecimalDigit c = true
  · rw [Stage.go?_of_step? (Stage.step?_digit hc _)] at h
    cases h
    refine ⟨spot.digit, next?_digit hc spot, ?_⟩
    cases spot <;> rfl
  · unfold Stage.go? at h
    split at h
    · next hstep =>
      cases h
      cases spot with
      | plain s =>
        have hstep : s.step? c = some stage := hstep
        refine ⟨plain stage, ?_, rfl⟩
        rw [next?, hstep]
        rfl
      | named =>
        -- the probe ends with an exponent, and nothing but digits goes on with that
        have hstep : Stage.power.step? c = some stage := hstep
        unfold Stage.step? at hstep
        rw [if_neg hc] at hstep
        cases hstep
    · split at h
      · next hends =>
        cases h
        have hspot : spot.stage = .start ∨ spot.stage.complete = true := by
          cases spot with
          | plain s => exact hends.1
          | named => exact .inr rfl
        exact ⟨plain .start, next?_of_stops hspot hends.2, rfl⟩
      · cases h

theorem Spot.exists_walk_cons {spot next landing : Spot} {atom : Atom} {atoms : List Atom}
    (hnext : spot.next? atom = some next) (hwalk : next.walk atoms = some landing) :
    ∃ landing, spot.walk (atom :: atoms) = some landing := by
  refine ⟨landing, ?_⟩
  rw [walk, hnext]
  exact hwalk

section Drawn

variable {digits : List Char} (hall : digits.all isDecimalDigit = true) (hne : digits ≠ [])

include hall hne

/-- Where a minus leads back to the same stage, a drawn number is scanned like a digit. -/
theorem Stage.scan?_signed {stage : Stage}
    (hstage : stage = .start ∨ stage = .whole ∨ stage = .mark) (negative : Bool) :
    stage.scan? (signed negative digits) = some stage.digit := by
  have hdigits : ∀ stage : Stage, stage.scan? digits = some stage.digit := fun stage =>
    scan?_of_follow? (follow?_digits hall hne stage)
  cases negative with
  | false => exact hdigits stage
  | true =>
    have hminus : ∃ next, stage.go? '-' = some next ∧ next.digit = stage.digit := by
      rcases hstage with rfl | rfl | rfl
      · exact ⟨start, by decide, rfl⟩
      · exact ⟨start, by decide, rfl⟩
      · exact ⟨sign, by decide, rfl⟩
    obtain ⟨next, hnext, hdigit⟩ := hminus
    rw [signed, if_pos rfl, scan?, hnext, Option.bind_some, hdigits, hdigit]

/-- Where a number may end, it may end behind a drawn number as well. -/
theorem Stage.exists_scan?_signed {stage : Stage} (hcomplete : stage.complete = true)
    (negative : Bool) :
    ∃ next, stage.scan? (signed negative digits) = some next ∧ next.complete = true := by
  cases negative with
  | false =>
    refine ⟨stage.digit, scan?_of_follow? (follow?_digits hall hne stage), ?_⟩
    cases stage <;> rfl
  | true =>
    refine ⟨.whole, ?_, rfl⟩
    have hminus : stage.go? '-' = some start := go?_of_stops (.inr hcomplete) (by decide)
    rw [signed, if_pos rfl, scan?, hminus, Option.bind_some]
    exact scan?_of_follow? (follow?_digits hall hne start)

end Drawn

variable {names : List Char → List Char}

/-- When a run with the probe is scanned to its end, every piece fits. -/
theorem exists_walk_of_scan (hnames : WritesNumbers names) {atoms : List Atom} {text : List Char}
    (hpasted : Pasted names atoms text) (hprobe : ∀ word, .name word ∈ atoms → names word = probeText) :
    ∀ {spot : Spot} {last : Stage}, spot.Indifferent atoms → spot.probed.scan? text = some last →
      ∃ landing, spot.walk atoms = some landing := by
  -- Each piece of the run is scanned, and the walk of the check takes the same step, except behind a
  -- call whose number does not go on.
  induction hpasted with
  | nil => exact fun _ _ => ⟨_, rfl⟩
  | @char c atoms text _ ih =>
    intro spot last hsigns hscan
    obtain ⟨stage, hstage, hscan⟩ := Option.bind_eq_some_iff.1 hscan
    obtain ⟨next, hnext, rfl⟩ := Spot.exists_next?_of_go? hstage
    have hothers := fun word hword => hprobe word (List.mem_cons_of_mem _ hword)
    obtain ⟨landing, hwalk⟩ := ih hothers (hsigns.2 next hnext) hscan
    exact Spot.exists_walk_cons hnext hwalk
  | @name word atoms text _ ih =>
    intro spot last hsigns hscan
    rw [hprobe word List.mem_cons_self, Stage.scan?_append] at hscan
    obtain ⟨stage, hstage, hscan⟩ := Option.bind_eq_some_iff.1 hscan
    obtain ⟨hbegun, rfl⟩ := scan?_probeText hstage
    have hnext : spot.next? (.name word) = some .named := by
      cases spot with
      | plain s => exact if_pos hbegun
      | named => rcases hbegun with h | h <;> cases h
    have hothers := fun word hword => hprobe word (List.mem_cons_of_mem _ hword)
    obtain ⟨landing, hwalk⟩ := ih hothers (hsigns.2 _ hnext) hscan
    exact Spot.exists_walk_cons hnext hwalk
  | @call bounds negative digits atoms text hall hne htext ih =>
    intro spot last hsigns hscan
    have hothers := fun word hword => hprobe word (List.mem_cons_of_mem _ hword)
    have hspot := hsigns.1 bounds rfl
    have hnext : spot.next? (.call bounds) = some spot.digit := Spot.next?_call_of hspot
    rw [Stage.scan?_append] at hscan
    have hgoes : ∃ last, spot.digit.probed.scan? text = some last := by
      rcases hspot with hplain | ⟨hcomplete, hstops⟩
      · -- the number goes on as it would with a digit
        have hsame := Stage.scan?_signed hall hne (Spot.probed_cases hplain) negative
        rw [hsame, Option.bind_some] at hscan
        exact ⟨last, Spot.probed_digit spot ▸ hscan⟩
      · -- the number ends behind the drawn one, whichever has begun there
        obtain ⟨next, hsigned, hnextComplete⟩ :=
          Stage.exists_scan?_signed hall hne (Spot.complete_probed hcomplete) negative
        rw [hsigned, Option.bind_some] at hscan
        exact Stage.scan?_of_stops (.inr spot.complete_probed_digit) (.inr hnextComplete)
          (htext.stops hnames hstops) hscan
    obtain ⟨last, hscan⟩ := hgoes
    obtain ⟨landing, hwalk⟩ := ih hothers (hsigns.2 _ hnext) hscan
    exact Spot.exists_walk_cons hnext hwalk

/-- When the tokens of a run with the probe stand apart, every piece fits. -/
theorem exists_walk_of_tokenize (hnames : WritesNumbers names) {atoms : List Atom}
    {text : List Char} {tokens : List Token} (hpasted : Pasted names atoms text)
    (hprobe : ∀ word, .name word ∈ atoms → names word = probeText)
    (hsigns : (Spot.plain .start).Indifferent atoms) (h : tokenize text = .ok tokens)
    (hseparate : Separate tokens) : ∃ landing, (Spot.plain .start).walk atoms = some landing := by
  obtain ⟨last, hlast⟩ := exists_scan_of_tokenize h hseparate
  exact exists_walk_of_scan hnames hpasted hprobe hsigns hlast

end EventDeck.Expr
