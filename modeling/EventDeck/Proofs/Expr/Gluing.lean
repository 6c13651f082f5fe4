import EventDeck.Proofs.Decimal.Form
import EventDeck.Proofs.Expr.Cells
import EventDeck.Proofs.Expr.Chains
import EventDeck.Proofs.Expr.Tokens

/-!
# Pieces that are glued to numbers

A check reads a text with zeros in the place of its names and random calls; a run reads it with
values and drawn numbers there.  Both see the same tokens as long as every piece stays in one number
with what it is glued to.  A `Spot` says what may be glued on: a written value has a point or an
exponent of its own, so it fits where no number has begun or digits stand before it, and only digits
fit behind it.

The main statement is `exists_expands`: when every piece of a text fits, the run reads the tokens
that the check reads, with chains in the place of numbers.
-/

namespace EventDeck.Expr

open Text Decimal

/-! ## Pasted texts -/

/-- What a check reads for an atom. -/
def Atom.face : Atom → Char
  | char c => c
  | name _ | call _ => '0'

/-- What takes the place of names is an optional minus and a number that is written in full. -/
def WritesNumbers (names : List Char → List Char) : Prop :=
  ∀ word, ∃ negative body, names word = signed negative body ∧ IsWritten body

/-- What a run may read for atoms: a written whole number in the place of a random call. -/
inductive Pasted (names : List Char → List Char) : List Atom → List Char → Prop
  | nil : Pasted names [] []
  | char (c : Char) {atoms : List Atom} {text : List Char} (h : Pasted names atoms text) :
      Pasted names (.char c :: atoms) (c :: text)
  | name (word : List Char) {atoms : List Atom} {text : List Char} (h : Pasted names atoms text) :
      Pasted names (.name word :: atoms) (names word ++ text)
  | call (bounds : CellCall) (negative : Bool) {digits : List Char} {atoms : List Atom}
      {text : List Char} (hall : digits.all isDecimalDigit = true) (hne : digits ≠ [])
      (h : Pasted names atoms text) :
      Pasted names (.call bounds :: atoms) (signed negative digits ++ text)

variable {names : List Char → List Char}

theorem Pasted.split {first rest : List Atom} {text : List Char}
    (h : Pasted names (first ++ rest) text) :
    ∃ u v, text = u ++ v ∧ Pasted names first u ∧ Pasted names rest v := by
  induction first generalizing text with
  | nil => exact ⟨[], text, rfl, .nil, h⟩
  | cons atom first ih =>
    cases h with
    | char c h =>
      obtain ⟨u, v, rfl, hu, hv⟩ := ih h
      exact ⟨c :: u, v, rfl, .char c hu, hv⟩
    | name word h =>
      obtain ⟨u, v, rfl, hu, hv⟩ := ih h
      exact ⟨_ ++ u, v, by rw [List.append_assoc], .name word hu, hv⟩
    | call bounds negative hall hne h =>
      obtain ⟨u, v, rfl, hu, hv⟩ := ih h
      exact ⟨_ ++ u, v, by rw [List.append_assoc], .call bounds negative hall hne hu, hv⟩

/-! ## Spots -/

/-- How far the number has been read that an atom is glued to; behind a written value only digits
can follow, whichever form the value has. -/
inductive Spot
  | plain (stage : Stage)
  | named
deriving DecidableEq, Repr

namespace Spot

/-- How far the check has read the number. -/
def stage : Spot → Stage
  | plain stage => stage
  | named => .whole

/-- The spot after an atom, when the atom fits. -/
def next? (spot : Spot) (atom : Atom) : Option Spot :=
  match spot, atom with
  | plain stage, .char c => some (plain ((stage.step? c).getD .start))
  | plain stage, .name _ => if stage = .start ∨ stage = .whole then some named else none
  | plain stage, .call _ =>
    if stage = .point ∨ stage = .sign then none else some (plain stage.digit)
  | named, .char c =>
    if isDecimalDigit c then some named
    else if (Stage.whole.step? c).isSome then none
    else some (plain .start)
  | named, .name _ => none
  | named, .call _ => some named

/-- The spot after atoms, when all of them fit. -/
def walk (spot : Spot) : List Atom → Option Spot
  | [] => some spot
  | atom :: atoms => (spot.next? atom).bind fun next => next.walk atoms

theorem walk_append (spot : Spot) (first rest : List Atom) :
    spot.walk (first ++ rest) = (spot.walk first).bind fun next => next.walk rest := by
  induction first generalizing spot with
  | nil => rfl
  | cons atom first ih =>
    rw [List.cons_append, walk, walk, Option.bind_assoc]
    simp only [ih]

/-- The spot after a digit. -/
def digit : Spot → Spot
  | plain stage => plain stage.digit
  | named => named

@[simp] theorem stage_digit (spot : Spot) : spot.digit.stage = spot.stage.digit := by
  cases spot <;> rfl

theorem next?_digit {c : Char} (hc : isDecimalDigit c = true) (spot : Spot) :
    spot.next? (.char c) = some spot.digit := by
  cases spot with
  | plain s => rw [next?, Stage.step?_digit hc]; rfl
  | named => rw [next?, if_pos hc]; rfl

/-- A name fits where no number has begun, or behind a whole part. -/
theorem next?_name {spot next : Spot} {word : List Char} (h : spot.next? (.name word) = some next) :
    (∃ stage, spot = plain stage ∧ (stage = .start ∨ stage = .whole)) ∧ next = named := by
  cases spot with
  | plain stage =>
    rw [next?] at h
    split at h
    · next hstage =>
      cases h
      exact ⟨⟨stage, rfl, hstage⟩, rfl⟩
    · cases h
  | named => cases h

/-- A random call fits as a digit does, unless a minus could not stand there. -/
theorem next?_call {spot next : Spot} {bounds : CellCall}
    (h : spot.next? (.call bounds) = some next) :
    next = spot.digit ∧ spot.stage ≠ .point ∧ spot.stage ≠ .sign := by
  cases spot with
  | plain stage =>
    rw [next?] at h
    split at h
    · cases h
    · next hstage =>
      rw [not_or] at hstage
      cases h
      exact ⟨rfl, hstage⟩
  | named =>
    cases h
    exact ⟨rfl, by decide, by decide⟩

/-- How far a run may have read a number that the check has read to a spot. -/
def Allows : Spot → Stage → Prop
  | plain .places, stage => stage = .places ∨ stage = .whole
  | plain .power, stage => stage = .power ∨ stage = .whole
  | plain other, stage => stage = other
  | named, stage => stage = .places ∨ stage = .power ∨ stage = .whole

theorem allows_self (stage : Stage) : (plain stage).Allows stage := by
  cases stage <;> simp [Allows]

/-- Only a minus, after which the number begins anew, lets a run fall behind the check. -/
theorem allows_plain {s stage : Stage} (h : (plain s).Allows stage) :
    stage = s ∨ (s = .places ∨ s = .power) ∧ stage = .whole := by
  cases s <;> simp only [Allows] at h
  case places => exact h.imp id fun h => ⟨.inl rfl, h⟩
  case power => exact h.imp id fun h => ⟨.inr rfl, h⟩
  all_goals exact .inl h

theorem Allows.complete {spot : Spot} {stage : Stage} (h : spot.Allows stage)
    (hcomplete : spot.stage.complete = true) : stage.complete = true := by
  cases spot with
  | plain s =>
    rcases allows_plain h with rfl | ⟨-, rfl⟩
    · exact hcomplete
    · rfl
  | named => rcases h with rfl | rfl | rfl <;> rfl

/-- Where a number may end, another may have begun behind a minus. -/
theorem allows_digit_whole {spot : Spot} (h : spot.stage.complete = true) :
    spot.digit.Allows .whole := by
  cases spot with
  | plain s =>
    cases s with
    | whole => rfl
    | places | power => exact .inr rfl
    | start | point | mark | sign => cases h
  | named => exact .inr (.inr rfl)

theorem Allows.eq_mark {spot : Spot} {stage : Stage} (h : spot.Allows stage)
    (hspot : spot.stage = .mark) : stage = .mark := by
  cases spot with
  | plain s =>
    cases hspot
    exact h
  | named => cases hspot

/-- A digit keeps a run with the check. -/
theorem Allows.digit {spot : Spot} {stage : Stage} (h : spot.Allows stage) :
    spot.digit.Allows stage.digit := by
  cases spot with
  | plain s =>
    rcases allows_plain h with rfl | ⟨rfl | rfl, rfl⟩
    · exact allows_self _
    · exact .inr rfl
    · exact .inr rfl
  | named => rcases h with rfl | rfl | rfl <;> simp [Spot.digit, Stage.digit, Allows]

/-- A spot keeps up with the check while a number goes on. -/
theorem stage_of_next? {spot next : Spot} {atom : Atom} {after : Stage}
    (hnext : spot.next? atom = some next) (hstep : spot.stage.step? atom.face = some after) :
    next.stage = after := by
  have hzero : spot.stage.step? '0' = some spot.stage.digit := Stage.step?_digit (by decide) _
  -- A name or a call has the face of a zero, so the check goes on as with a digit.
  cases atom with
  | char c =>
    have hstep : spot.stage.step? c = some after := hstep
    by_cases hc : isDecimalDigit c = true
    · rw [Stage.step?_digit hc] at hstep
      rw [next?_digit hc] at hnext
      cases hstep
      cases hnext
      exact stage_digit spot
    · cases spot with
      | plain s =>
        have hstep : s.step? c = some after := hstep
        rw [next?, hstep] at hnext
        cases hnext
        rfl
      | named =>
        have hstep : Stage.whole.step? c = some after := hstep
        rw [next?, if_neg hc, hstep] at hnext
        cases hnext
  | name word =>
    obtain ⟨⟨s, rfl, hs⟩, rfl⟩ := next?_name hnext
    cases hzero.symm.trans hstep
    rcases hs with rfl | rfl <;> rfl
  | call bounds =>
    obtain ⟨rfl, -⟩ := next?_call hnext
    cases hzero.symm.trans hstep
    exact stage_digit spot

/-- A character with which the number goes on keeps a run with the check. -/
theorem Allows.step {spot next : Spot} {stage after : Stage} {c : Char} (h : spot.Allows stage)
    (hnext : spot.next? (.char c) = some next) (hstep : spot.stage.step? c = some after) :
    ∃ stage', stage.step? c = some stage' ∧ next.Allows stage' := by
  by_cases hc : isDecimalDigit c = true
  · rw [Stage.step?_digit hc] at hstep ⊢
    rw [next?_digit hc] at hnext
    cases hstep
    cases hnext
    exact ⟨_, rfl, h.digit⟩
  · cases spot with
    | plain s =>
      have hstep : s.step? c = some after := hstep
      rw [next?, hstep] at hnext
      cases hnext
      -- a mark after places may be one after the whole part, when a minus has come between
      have hmark : s = .places → after = .mark ∧ Stage.whole.step? c = some .mark := by
        rintro rfl
        unfold Stage.step? at hstep ⊢
        rw [if_neg hc] at hstep ⊢
        dsimp only at hstep
        split at hstep
        · next hmark =>
          have hpoint : c ≠ '.' := by rintro rfl; simp at hmark
          cases hstep
          refine ⟨rfl, ?_⟩
          change (if c = '.' then some Stage.places else if c = 'e' ∨ c = 'E' then _ else _) = _
          rw [if_neg hpoint, if_pos hmark]
        · cases hstep
      have hpower : s ≠ .power := by
        rintro rfl
        unfold Stage.step? at hstep
        rw [if_neg hc] at hstep
        cases hstep
      rcases allows_plain h with rfl | ⟨rfl | rfl, rfl⟩
      · exact ⟨after, hstep, allows_self after⟩
      · obtain ⟨rfl, hwhole⟩ := hmark rfl
        exact ⟨.mark, hwhole, rfl⟩
      · exact absurd rfl hpower
    | named =>
      rw [next?, if_neg hc, if_pos (by rw [show Stage.whole.step? c = some after from hstep]; rfl)]
        at hnext
      cases hnext

end Spot

/-! ## Inside a number -/

namespace Stage

theorem follow?_trans {stage between last : Stage} {text more : List Char}
    (h : stage.follow? text = some between) (hmore : between.follow? more = some last) :
    stage.follow? (text ++ more) = some last := by
  rw [follow?_append, h, Option.bind_some, hmore]

theorem follow?_zero (stage : Stage) (text : List Char) :
    stage.follow? ('0' :: text) = stage.digit.follow? text := by
  rw [follow?, step?_digit (by decide), Option.bind_some]

/-- A number that has begun may end, unless it has a part without digits. -/
theorem complete_of_ne {stage : Stage} (hstart : stage ≠ .start) (hpoint : stage ≠ .point)
    (hmark : stage ≠ .mark) (hsign : stage ≠ .sign) : stage.complete = true := by
  cases stage with
  | whole | places | power => rfl
  | start => exact absurd rfl hstart
  | point => exact absurd rfl hpoint
  | mark => exact absurd rfl hmark
  | sign => exact absurd rfl hsign

theorem digit_ne_start (stage : Stage) : stage.digit ≠ .start := by
  cases stage <;> decide

/-- What ends a whole part ends every number. -/
theorem stops_of_whole {stage : Stage} {rest : List Char} (hcomplete : stage.complete = true)
    (h : whole.Stops rest) : stage.Stops rest := by
  intro c cs heq
  have hwhole := h c cs heq
  unfold step? at hwhole ⊢
  split at hwhole
  · cases hwhole
  · next hc =>
    rw [if_neg hc]
    dsimp only at hwhole
    split at hwhole
    · cases hwhole
    · next hpoint =>
      split at hwhole
      · cases hwhole
      · next hmark =>
        cases stage with
        | whole => exact (if_neg hpoint).trans (if_neg hmark)
        | places => exact if_neg hmark
        | power => rfl
        | start | point | mark | sign => cases hcomplete

theorem stops_minus {stage : Stage} (hcomplete : stage.complete = true) (rest : List Char) :
    stage.Stops ('-' :: rest) := by
  refine stops_of_whole hcomplete ?_
  rintro _ _ ⟨⟩
  decide

theorem step?_ne_start {stage next : Stage} {c : Char} (h : stage.step? c = some next) :
    next ≠ .start := by
  rintro rfl
  unfold step? at h
  split at h
  · cases stage <;> cases h
  · cases stage <;> dsimp only at h <;> repeat' split at h
    all_goals cases h

end Stage

/-- A written number goes on from a whole part as it begins. -/
theorem follow?_written {body : List Char} (h : IsWritten body) {stage : Stage}
    (hstage : stage = .start ∨ stage = .whole) :
    ∃ last, stage.follow? body = some last ∧ Spot.named.Allows last := by
  obtain ⟨c, cs, rfl, hc⟩ := h.begins
  have hfollow : stage.follow? (c :: cs) = Stage.start.follow? (c :: cs) := by
    rw [Stage.follow?, Stage.follow?, Stage.step?_digit hc, Stage.step?_digit hc]
    rcases hstage with rfl | rfl <;> rfl
  rw [hfollow]
  rcases h.ends with hplaces | hpower
  · exact ⟨.places, hplaces, .inl rfl⟩
  · exact ⟨.power, hpower, .inr (.inl rfl)⟩

theorem map_map {α β γ : Type} (f : β → γ) (g : α → β) (x : Except ExprError α) :
    (x.map g).map f = x.map fun a => f (g a) := by
  cases x <;> rfl

/-- A text is read as tokens when something follows that ends every number. -/
def ReadsAs (text : List Char) (tokens : List Token) : Prop :=
  ∀ rest, Stage.whole.Stops rest → tokenize (text ++ rest) = (tokenize rest).map (tokens ++ ·)

theorem readsAs_number {number : List Char} {stage : Stage}
    (hnumber : Stage.start.follow? number = some stage) (hcomplete : stage.complete = true) :
    ReadsAs number [.number number] := fun _ hrest =>
  tokenize_number_append hnumber hcomplete (Stage.stops_of_whole hcomplete hrest)

theorem ReadsAs.minus {text : List Char} {tokens : List Token} (h : ReadsAs text tokens) :
    ReadsAs ('-' :: text) (.operator .minus :: tokens) := by
  intro rest hrest
  have hplain : Operator.minus.opensEquals = true → (text ++ rest).head? ≠ some '=' :=
    fun h => absurd h (by decide)
  have hminus : tokenize ('-' :: (text ++ rest)) =
      (tokenize (text ++ rest)).map (.operator .minus :: ·) := tokenize_symbol_append hplain
  rw [List.cons_append, hminus, h rest hrest, map_map]
  rfl

/-- A minus cuts a number off from what follows. -/
theorem ReadsAs.cut {number text : List Char} {tokens : List Token} {stage : Stage}
    (hnumber : Stage.start.follow? number = some stage) (hcomplete : stage.complete = true)
    (h : ReadsAs text tokens) :
    ReadsAs (number ++ '-' :: text) (.number number :: .operator .minus :: tokens) := by
  intro rest hrest
  have hminus := h.minus rest hrest
  rw [List.append_assoc, List.cons_append,
    tokenize_number_append hnumber hcomplete (Stage.stops_minus hcomplete _), ← List.cons_append,
    hminus, map_map]
  rfl

/-- Where a number has begun, what fits goes on with it, or ends it with a minus and begins
another. -/
theorem readsAs_inside (hnames : WritesNumbers names) {atoms : List Atom} {text : List Char}
    (hpasted : Pasted names atoms text) :
    ∀ {spot landing : Spot} {current : List Char} {stage last : Stage},
      spot.stage ≠ .start → Stage.start.follow? current = some stage → spot.Allows stage →
      spot.stage.follow? (atoms.map Atom.face) = some last → last.complete = true →
      spot.walk atoms = some landing →
      ∃ chain, Difference chain ∧ ReadsAs (current ++ text) chain := by
  induction hpasted with
  | nil =>
    intro spot landing current stage last _ hcurrent hallows hface hlast _
    cases hface
    rw [List.append_nil]
    exact ⟨_, .number current, readsAs_number hcurrent (hallows.complete hlast)⟩
  | @char c atoms text _ ih =>
    intro spot landing current stage last _ hcurrent hallows hface hlast hwalk
    obtain ⟨after, hstep, hface⟩ := Option.bind_eq_some_iff.1 hface
    obtain ⟨next, hnext, hwalk⟩ := Option.bind_eq_some_iff.1 hwalk
    obtain rfl := Spot.stage_of_next? hnext hstep
    obtain ⟨stage', hstage', hallows'⟩ := hallows.step hnext hstep
    have hpiece : stage.follow? [c] = some stage' := by
      rw [Stage.follow?, hstage']
      rfl
    have hreads := ih (Stage.step?_ne_start hstep) (Stage.follow?_trans hcurrent hpiece) hallows'
      hface hlast hwalk
    rwa [List.append_assoc] at hreads
  | @name word atoms text _ ih =>
    intro spot landing current stage last hstart hcurrent hallows hface hlast hwalk
    obtain ⟨next, hnext, hwalk⟩ := Option.bind_eq_some_iff.1 hwalk
    obtain ⟨⟨s, rfl, hs⟩, rfl⟩ := Spot.next?_name hnext
    obtain rfl : s = .whole := hs.resolve_left hstart
    cases hallows
    rw [List.map_cons, Atom.face, Stage.follow?_zero] at hface
    have hnamed : Spot.named.stage ≠ .start := by decide
    obtain ⟨negative, body, hword, hbody⟩ := hnames word
    rw [hword]
    cases negative with
    | false =>
      -- the value goes on with the whole part before it
      obtain ⟨stage', hstage', hallows'⟩ := follow?_written hbody (.inr rfl)
      have hreads := ih hnamed (Stage.follow?_trans hcurrent hstage') hallows' hface hlast hwalk
      rwa [List.append_assoc] at hreads
    | true =>
      -- its minus ends the number, and the value begins another
      obtain ⟨stage', hstage', hallows'⟩ := follow?_written hbody (.inl rfl)
      obtain ⟨chain, hchain, hreads⟩ := ih hnamed hstage' hallows' hface hlast hwalk
      exact ⟨_, .minus current hchain, hreads.cut hcurrent rfl⟩
  | @call bounds negative digits atoms text hall hne _ ih =>
    intro spot landing current stage last hstart hcurrent hallows hface hlast hwalk
    obtain ⟨next, hnext, hwalk⟩ := Option.bind_eq_some_iff.1 hwalk
    obtain ⟨rfl, hpoint, hsign⟩ := Spot.next?_call hnext
    rw [List.map_cons, Atom.face, Stage.follow?_zero, ← Spot.stage_digit] at hface
    have hdigit : spot.digit.stage ≠ .start := by
      rw [Spot.stage_digit]
      exact Stage.digit_ne_start _
    have hdigits := Stage.follow?_digits hall hne
    -- a piece with which the number goes on
    have hgoes : ∀ piece : List Char, stage.follow? piece = some stage.digit →
        ∃ chain, Difference chain ∧ ReadsAs (current ++ (piece ++ text)) chain := by
      intro piece hpiece
      have hreads := ih hdigit (Stage.follow?_trans hcurrent hpiece) hallows.digit hface hlast hwalk
      rwa [List.append_assoc] at hreads
    cases negative with
    | false => exact hgoes digits (hdigits stage)
    | true =>
      by_cases hmark : spot.stage = .mark
      · -- behind a mark a minus is the sign of the exponent
        obtain rfl := hallows.eq_mark hmark
        refine hgoes ('-' :: digits) ?_
        rw [Stage.follow?, show Stage.mark.step? '-' = some .sign by decide, Option.bind_some, hdigits]
        rfl
      · -- anywhere else it ends the number, and the digits begin another
        have hcomplete := Stage.complete_of_ne hstart hpoint hmark hsign
        obtain ⟨chain, hchain, hreads⟩ :=
          ih hdigit (hdigits .start) (Spot.allows_digit_whole hcomplete) hface hlast hwalk
        exact ⟨_, .minus current hchain, hreads.cut hcurrent (hallows.complete hcomplete)⟩

/-- Where no number has begun, what fits is read as a chain. -/
theorem readsAs_number_pasted {atoms : List Atom} {text : List Char} {landing : Spot} {last : Stage}
    (hnames : WritesNumbers names) (hpasted : Pasted names atoms text)
    (hface : Stage.start.follow? (atoms.map Atom.face) = some last) (hlast : last.complete = true)
    (hwalk : (Spot.plain .start).walk atoms = some landing) : ∃ chain, Chain chain ∧ ReadsAs text chain := by
  -- A number begins with a character, with the value of a name or with what a call has drawn; the
  -- latter two may have a sign in front, which is read apart.
  cases hpasted with
  | nil =>
    cases hface
    cases hlast
  | @char c atoms text h =>
    have hface : (Stage.start.step? c).bind _ = some last := hface
    obtain ⟨after, hstep, hface⟩ := Option.bind_eq_some_iff.1 hface
    have hcurrent : Stage.start.follow? [c] = some after := by
      rw [Stage.follow?, hstep]
      rfl
    have hwalk : (Spot.plain ((Stage.start.step? c).getD .start)).walk atoms = some landing := hwalk
    rw [hstep] at hwalk
    have hstart : (Spot.plain after).stage ≠ .start := Stage.step?_ne_start hstep
    obtain ⟨chain, hchain, hreads⟩ :=
      readsAs_inside hnames h hstart hcurrent (Spot.allows_self after) hface hlast hwalk
    exact ⟨chain, .plain hchain, hreads⟩
  | @name word atoms text h =>
    have hwalk : Spot.named.walk atoms = some landing := hwalk
    rw [List.map_cons, Atom.face, Stage.follow?_zero] at hface
    obtain ⟨negative, body, hword, hbody⟩ := hnames word
    rw [hword]
    obtain ⟨stage, hstage, hallows⟩ := follow?_written hbody (.inl rfl)
    have hstart : Spot.named.stage ≠ .start := by decide
    obtain ⟨chain, hchain, hreads⟩ := readsAs_inside hnames h hstart hstage hallows hface hlast hwalk
    cases negative with
    | false => exact ⟨chain, .plain hchain, hreads⟩
    | true => exact ⟨_, .negative hchain, hreads.minus⟩
  | @call bounds negative digits atoms text hall hne h =>
    have hwalk : (Spot.plain .whole).walk atoms = some landing := hwalk
    rw [List.map_cons, Atom.face, Stage.follow?_zero] at hface
    have hstart : (Spot.plain .whole).stage ≠ .start := by decide
    obtain ⟨chain, hchain, hreads⟩ :=
      readsAs_inside hnames h hstart (Stage.follow?_digits hall hne .start) rfl hface hlast hwalk
    cases negative with
    | false => exact ⟨chain, .plain hchain, hreads⟩
    | true => exact ⟨_, .negative hchain, hreads.minus⟩

end EventDeck.Expr
