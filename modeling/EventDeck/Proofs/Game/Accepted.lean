import EventDeck.Proofs.Expr.Splitting
import EventDeck.Proofs.Game.Checked
import Mathlib

/-!
# Effects and conditions that the check accepts

An effect evaluates an expression and may write its value to a variable.  The check does not ask
whether a written value is a number, whether every piece of the expression fits where it is glued and
whether every dividend is a number.  An effect for which all of this is true is `Robust`.

The main statement is `accepted_text`: a robust text that the check accepts always succeeds, apart
from divisions by zero and bounds without a floor, and a text that is not robust fails with the
probe in the place of its names.
-/

namespace EventDeck.Game

open EventDeck.Expr Text Decimal

variable {α : Type}

/-! ## Robust statements -/

/-- What a statement evaluates, and of which kinds the value may be. -/
def evaluated? : Statement → Option (List Char × (Kind → Prop))
  | .expression body => some (body, fun _ => True)
  | .update _ _ body | .assignment _ body => some (body, (· = .number))
  | .step _ _ => none

/-- The target of a statement. -/
def target? : Statement → Option (List Char)
  | .expression _ => none
  | .update _ target _ | .assignment target _ | .step _ target => some target

/-- It makes no difference for what is glued in a statement whether drawn numbers have a minus. -/
def Indifferent (s : Statement) : Prop :=
  ∀ body wanted, evaluated? s = some (body, wanted) →
    (Spot.plain .start).Indifferent (pieces body)

/-- There is a random call in what a statement evaluates. -/
def HasCall (s : Statement) : Prop :=
  ∃ body wanted call, evaluated? s = some (body, wanted) ∧ .call call ∈ pieces body

section Statements

variable {wrong : ExprError → Prop} {broken : Fault → Prop} {game : Game}

end Statements

/-- The attempt that a condition is. -/
def conditionAttempt (text : List Char) : Attempt Bool :=
  return (← evaluateValue text).isTrue

/-- How the evaluation of a text may end: with its value; with a report of a division by zero; with
one of some faults. -/
inductive Outcome (text : List Char) (otherwise : α) (broken : Fault → Prop) (attempt : Attempt α)
    (game : Game) : Except Fault α × Game → Prop
  | value {a : α} {after : Game} (h : attempt.run.run.run game = (.ok (.ok a), after)) :
      Outcome text otherwise broken attempt game (.ok a, after)
  | divides {after : Game}
      (h : attempt.run.run.run game = (.ok (.error .divisionByZero), after)) :
      Outcome text otherwise broken attempt game (.ok otherwise,
        { after with
          diagnostics := after.diagnostics.report (malformedReport text .divisionByZero) })
  | breaks {fault : Fault} {after : Game} (h : broken fault) :
      Outcome text otherwise broken attempt game (.error fault, after)

theorem EndsWith.outcome {good : α → Prop} {broken : Fault → Prop} {attempt : Attempt α} {game : Game}
    {text : List Char} {otherwise : α} (h : EndsWith good (· = .divisionByZero) broken attempt game) :
    Outcome text otherwise broken attempt game
      ((orReport text otherwise attempt).run.run game) := by
  unfold EndsWith at h
  rw [run_orReport]
  rcases hrun : attempt.run.run.run game with ⟨fault | e | a, after⟩
  all_goals rw [hrun] at h
  · exact .breaks h
  · cases h
    exact .divides hrun
  · exact .value hrun

section Follows

variable {tell : Tell} {s : Statement} {attempt : Attempt α} {game : Game}

end Follows

theorem problem?_eq_none_iff {text : String} {statement : Bool} :
    problem? text statement = none ↔
      (if statement then checkStatement (trim text.toList)
        else checkExpression (trim text.toList)) = .ok () := by
  rw [problem?]
  split
  · next h => exact ⟨fun _ => h, fun _ => rfl⟩
  · next e h =>
    constructor
    · intro hnone
      cases hnone
    · intro hok
      cases h.symm.trans hok

/-- A number as a sum. -/
def numberTree (text : List Char) : Tree (List Char) (.joined .sum) :=
  .single <| .single <| .unsigned <| .operand text

/-- A number that stands alone. -/
theorem evaluateText_literal {mode : Mode} {text : List Char}
    (h : tokenize text = .ok [.number text]) :
    evaluateText mode text = .ok (.number (numberOf text)) := by
  have htree : (.single (.single (.plain (.sum (numberTree text)))) :
      Tree (List Char) .loosest).tokens = [.number text] := rfl
  rw [evaluateText_of_tokenize (htree ▸ h)]
  rfl

theorem evaluateNumber_literal {mode : Mode} {text : List Char}
    (h : tokenize text = .ok [.number text]) : evaluateNumber mode text = .ok (numberOf text) := by
  rw [evaluateNumber, evaluateText_literal h]
  rfl

/-- What the check sees of it. -/
def zeroDifference : Tree (List Char) .loosest :=
  .single <| .single <| .plain <| .sum <|
    .join Joint.minus_known (numberTree ['0'])
      (.single (.unsigned (.operand ['0'])))

/-- The bounds of the random call, as trees. -/
def boundTree (digit : Char) : Tree (List Char) .loosest :=
  .single <| .single <| .plain <| .sum <| numberTree [digit]

theorem finite_debtGame : EventDeck.Game.Finite debtGame.store := by
  unfold EventDeck.Game.Finite
  decide +kernel

end EventDeck.Game
