import EventDeck.Game.Evaluation
import EventDeck.Proofs.Expr.Splitting

/-!
# Checks and evaluations of statements

A check divides a statement into the name that it writes and the expression that it evaluates, and
an evaluation carries the statement out.  Each looks for the operators of the statement on its own.

The main statement is `classified_alike`: they take every text for the same, with the same name and
the same expression, and refuse the same targets with the same error.
-/

namespace EventDeck.Game

open EventDeck.Expr Text

/-- What an evaluation does with a statement. -/
inductive Treatment
  | refused (target : String)
  | valued (body : List Char)
  | stepped (up : Bool) (name : String)
  | written (operation : Option BinaryOp) (name : String) (body : List Char)

namespace Treatment

/-- Doing it: the value of an expression; a name one up or down; the value of an expression, alone or
combined with the value of a name, written to the name. -/
def carryOut (tell : Tell) : Treatment → Attempt Float
  | refused target => throw (.invalidTarget target)
  | valued body => return (← evaluateValue body).toFloat
  | stepped up name => do
    let x ← startingValue name
    setVariable tell name (if up then x + 1.0 else x - 1.0)
  | written none name body => do
    let x ← (← evaluateValue body).toNumber
    setVariable tell name x
  | written (some operation) name body => do
    let x ← startingValue name
    let y ← (← evaluateValue body).toNumber
    setVariable tell name (← combine operation x y)

/-- What is done to a target, when it is a name. -/
def ofTarget (target : List Char) (f : String → Treatment) : Treatment :=
  match targetName target with
  | .ok name => f name
  | .error _ => refused (String.ofList (trim target))

/-- What is done with a statement of a form. -/
def ofForm : Statement → Treatment
  | .expression body => valued body
  | .step up target => ofTarget target (stepped up)
  | .update operation target body => ofTarget target (written (some operation) · body)
  | .assignment target body => ofTarget target (written none · body)

/-- What a check finds in a statement with which this is done. -/
def verdict : Treatment → Except ExprError (Option String × Option (List Char))
  | refused target => .error (.invalidTarget target)
  | valued body => .ok (none, some body)
  | stepped _ name => .ok (some name, none)
  | written _ name body => .ok (some name, some body)

/-- A target is a name, or it is refused with its text. -/
theorem targetName_cases (target : List Char) :
    (∃ name, targetName target = .ok name) ∨
      targetName target = .error (.invalidTarget (String.ofList (trim target))) := by
  rw [targetName]
  split
  · exact .inl ⟨_, rfl⟩
  · exact .inr rfl

/-- A computation with a target is what is done to it, when it is what is done to every name. -/
theorem bind_targetName {tell : Tell} {target : List Char} {f : String → Treatment}
    {k : String → Attempt Float} (h : ∀ name, k name = (f name).carryOut tell) :
    (liftM (targetName target) >>= k : Attempt Float) = (ofTarget target f).carryOut tell := by
  rw [ofTarget]
  rcases targetName_cases target with ⟨name, hname⟩ | herror
  · rw [hname]
    exact h name
  · rw [herror]
    rfl

theorem map_targetName {target : List Char} {f : String → Treatment} {body : Option (List Char)}
    (h : ∀ name, (f name).verdict = .ok (some name, body)) :
    ((targetName target).map fun name => (some name, body)) = (ofTarget target f).verdict := by
  rw [ofTarget]
  rcases targetName_cases target with ⟨name, hname⟩ | herror
  · rw [hname]
    exact (h name).symm
  · rw [herror]
    rfl

/-- An evaluation carries out what is done with the form of the text. -/
theorem evaluateStatement_eq (tell : Tell) (text : List Char) :
    evaluateStatement tell text = (ofForm (Statement.ofText text)).carryOut tell := by
  rw [evaluateStatement]
  cases Statement.ofText text with
  | expression body => rfl
  | step up target => exact bind_targetName fun _ => rfl
  | update operation target body => exact bind_targetName fun _ => rfl
  | assignment target body => exact bind_targetName fun _ => rfl

/-- A check finds what is done with the form of the text. -/
theorem parts_eq (form : Statement) : form.parts = (ofForm form).verdict := by
  cases form with
  | expression body => rfl
  | step up target => exact map_targetName fun _ => rfl
  | update operation target body => exact map_targetName fun _ => rfl
  | assignment target body => exact map_targetName fun _ => rfl

/-- An expression is valued as it stands. -/
theorem eq_of_valued {text body : List Char} (h : ofForm (Statement.ofText text) = valued body) :
    body = text := by
  have htarget : ∀ {target : List Char} {f : String → Treatment}, (∀ name, f name ≠ valued body) →
      ofTarget target f ≠ valued body := by
    intro target f hf
    rw [ofTarget]
    split
    · exact hf _
    · exact nofun
  cases hform : Statement.ofText text with
  | expression body' =>
    have hreads := Statement.reads_iff.2 hform
    rw [hform] at h
    cases h
    cases hreads
    rfl
  | step up target | update operation target body' | assignment target body' =>
    rw [hform] at h
    exact absurd h (htarget fun _ => nofun)

variable {treatment : Treatment}

theorem verdict_eq_error_iff {e : ExprError} :
    treatment.verdict = .error e ↔ ∃ target, e = .invalidTarget target ∧ treatment = refused target := by
  cases treatment <;> simp [verdict, eq_comm]

theorem verdict_eq_expression_iff {body : List Char} :
    treatment.verdict = .ok (none, some body) ↔ treatment = valued body := by
  cases treatment <;> simp [verdict]

theorem verdict_eq_step_iff {name : String} :
    treatment.verdict = .ok (some name, none) ↔ ∃ up, treatment = stepped up name := by
  cases treatment <;> simp [verdict]

theorem verdict_eq_write_iff {name : String} {body : List Char} :
    treatment.verdict = .ok (some name, some body) ↔
      ∃ operation, treatment = written operation name body := by
  cases treatment <;> simp [verdict]

end Treatment

open Treatment

/-- Every text without blanks around it has one form as a statement, an evaluation does with it what
is done with that form, and the check finds just that: it refuses a target exactly when the evaluation
does, and it finds an expression, a step of a name or a write of an expression to a name exactly when
the evaluation treats the text so. -/
theorem classified_alike (text : List Char) :
    ∃ form, (∀ other, Statement.Reads (trim text) other ↔ other = form) ∧
      (∀ tell, evaluateStatement tell (trim text) = (ofForm form).carryOut tell) ∧
      (∀ e, splitStatement (trim text) = .error e ↔
        ∃ target, e = .invalidTarget target ∧ ofForm form = .refused target) ∧
      (∀ body, splitStatement (trim text) = .ok (none, some body) ↔
        body = trim text ∧ ofForm form = .valued body) ∧
      (∀ name, splitStatement (trim text) = .ok (some name, none) ↔
        ∃ up, ofForm form = .stepped up name) ∧
      ∀ name body, splitStatement (trim text) = .ok (some name, some body) ↔
        ∃ operation, ofForm form = .written operation name body := by
  have hsplit : splitStatement (trim text) = (ofForm (Statement.ofText (trim text))).verdict := by
    rw [splitStatement_eq, parts_eq]
  refine ⟨Statement.ofText (trim text), fun other => ?_, fun tell => evaluateStatement_eq tell _,
    fun e => ?_, fun body => ?_, fun name => ?_, fun name body => ?_⟩
  · rw [Statement.reads_iff, eq_comm]
  · rw [hsplit, verdict_eq_error_iff]
  · rw [hsplit, verdict_eq_expression_iff]
    exact ⟨fun h => ⟨eq_of_valued h, h⟩, And.right⟩
  · rw [hsplit, verdict_eq_step_iff]
  · rw [hsplit, verdict_eq_write_iff]

end EventDeck.Game
