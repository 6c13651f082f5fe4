import EventDeck.Decimal.Reader
import EventDeck.Expr.Token
import EventDeck.Expr.Value

/-!
# Evaluation of token sequences

A token sequence is evaluated as it is read.  The levels of the grammar, loosest first:

* a disjunction is conjunctions joined by `||`, a conjunction is negations joined by `&&`;
* a negation is a comparison with any number of `!` before it;
* a comparison is one sum, or two with a comparison between them;
* a sum is products joined by `+` and `-`, a product is signed atoms joined by `*` and `/`;
* a signed atom has any number of `+` and `-` before it;
* an atom is a number, or a disjunction in parentheses.

Operators that join are taken from left to right.  Whatever is wrong is reported at the first
place where it shows, reading from left to right, whether it is the form or a value.  Each function
returns the rest of the tokens with a proof that it is shorter, which is why reading ends.
-/

namespace EventDeck.Expr

/-! ## Levels -/

/-- The levels on which operands are joined by operators, from left to right. -/
inductive Joint
  | disjunction | conjunction | sum | product
deriving DecidableEq, Repr

/-- The levels of the grammar. -/
inductive Level
  | joined (joint : Joint)
  | negation | comparison | signed | atom
deriving DecidableEq, Repr

namespace Joint

/-- The level of the operands that are joined. -/
def operand : Joint → Level
  | disjunction => .joined .conjunction
  | conjunction => .negation
  | sum => .joined .product
  | product => .signed

/-- The operation that an operator stands for when it joins operands. -/
def operation? : Joint → Operator → Option BinaryOp
  | disjunction, .or => some .or
  | conjunction, .and => some .and
  | sum, .plus => some .plus
  | sum, .minus => some .minus
  | product, .times => some .times
  | product, .divide => some .divide
  | _, _ => none

end Joint

namespace Level

/-- The loosest level. -/
abbrev loosest : Level := joined .disjunction

/-- How many levels are tighter. -/
def rank : Level → Nat
  | joined .disjunction => 7
  | joined .conjunction => 6
  | negation => 5
  | comparison => 4
  | joined .sum => 3
  | joined .product => 2
  | signed => 1
  | atom => 0

theorem rank_operand_lt (joint : Joint) : joint.operand.rank < (joined joint).rank := by
  cases joint <;> decide

end Level

/-- The comparison that an operator stands for. -/
def Operator.comparison? : Operator → Option Comparison
  | equal => some .equal
  | unequal => some .unequal
  | lessEqual => some .lessEqual
  | greaterEqual => some .greaterEqual
  | less => some .less
  | greater => some .greater
  | _ => none

/-- The number that a number token stands for. -/
def numberOf (text : List Char) : Float :=
  (Decimal.read? text).getD 0.0

/-! ## Reading -/

/-- What has been read: a value, and the tokens after it, fewer than a bound. -/
structure Reading (bound : Nat) where
  value : Value
  rest : List Token
  short : rest.length < bound

/-- A reading stays one under a larger bound. -/
def Reading.weaken {m n : Nat} (r : Reading m) (h : m ≤ n) : Reading n :=
  ⟨r.value, r.rest, Nat.lt_of_lt_of_le r.short h⟩

mutual

/-- Reads one operand of a level off the front of the tokens. -/
def read (mode : Mode) (level : Level) (tokens : List Token) :
    Except ExprError (Reading tokens.length) :=
  match level, tokens with
  | .negation, .operator .not :: rest =>
    match read mode .negation rest with
    | .error e => .error e
    | .ok r => .ok ⟨.truth (!r.value.isTrue), r.rest, Nat.lt_succ_of_lt r.short⟩
  | .negation, tokens => read mode .comparison tokens
  | .comparison, tokens =>
    match read mode (.joined .sum) tokens with
    | .error e => .error e
    | .ok left => readComparison mode left
  | .signed, .operator .minus :: rest =>
    match read mode .signed rest with
    | .error e => .error e
    | .ok r => r.value.toNumber.map fun x => ⟨.number (-x), r.rest, Nat.lt_succ_of_lt r.short⟩
  | .signed, .operator .plus :: rest =>
    match read mode .signed rest with
    | .error e => .error e
    | .ok r => r.value.toNumber.map fun x => ⟨.number x, r.rest, Nat.lt_succ_of_lt r.short⟩
  | .signed, tokens => read mode .atom tokens
  | .atom, [] => .error .unexpectedEnd
  | .atom, .number text :: rest => .ok ⟨.number (numberOf text), rest, Nat.lt_succ_self _⟩
  | .atom, .operator .opening :: rest =>
    match read mode .loosest rest with
    | .error e => .error e
    | .ok ⟨value, .operator .closing :: after, short⟩ =>
      .ok ⟨value, after, by simp only [List.length_cons] at *; omega⟩
    | .ok _ => .error .unclosedParenthesis
  | .atom, .operator op :: _ => .error (.unexpectedToken (String.ofList op.symbol))
  | .joined joint, tokens =>
    match read mode joint.operand tokens with
    | .error e => .error e
    | .ok left =>
      match readJoined mode joint left.value left.rest with
      | .error e => .error e
      | .ok r => .ok (r.weaken left.short)
termination_by (tokens.length, level.rank)
decreasing_by
  -- either a token has been taken or the level is a tighter one
  all_goals first
    | exact Prod.Lex.left _ _ (Nat.lt_succ_self _)
    | exact Prod.Lex.left _ _ left.short
    | exact Prod.Lex.right _ (Level.rank_operand_lt joint)
    | exact Prod.Lex.right _ (by decide)

/-- Reads the second operand of a comparison when a comparison follows the first. -/
def readComparison (mode : Mode) {bound : Nat} (left : Reading bound) :
    Except ExprError (Reading bound) :=
  match left with
  | ⟨value, .operator op :: rest, short⟩ =>
    match op.comparison? with
    | none => .ok ⟨value, .operator op :: rest, short⟩
    | some comparison =>
      match read mode (.joined .sum) rest with
      | .error e => .error e
      | .ok right =>
        (comparison.apply value right.value).map fun v =>
          ⟨v, right.rest, by have := right.short; simp only [List.length_cons] at short; omega⟩
  | left => .ok left
termination_by (left.rest.length, 0)
decreasing_by exact Prod.Lex.left _ _ (Nat.lt_succ_self _)

/-- Reads the operators and operands that follow a first operand on a joining level. -/
def readJoined (mode : Mode) (joint : Joint) (left : Value) (tokens : List Token) :
    Except ExprError (Reading (tokens.length + 1)) :=
  match tokens with
  | .operator op :: rest =>
    match joint.operation? op with
    | none => .ok ⟨left, .operator op :: rest, Nat.lt_succ_self _⟩
    | some operation =>
      match read mode joint.operand rest with
      | .error e => .error e
      | .ok right =>
        match operation.apply mode left right.value with
        | .error e => .error e
        | .ok value =>
          match readJoined mode joint value right.rest with
          | .error e => .error e
          | .ok r => .ok (r.weaken (by have := right.short; simp only [List.length_cons]; omega))
  | tokens => .ok ⟨left, tokens, Nat.lt_succ_self _⟩
termination_by (tokens.length, 0)
decreasing_by
  · exact Prod.Lex.left _ _ (Nat.lt_succ_self _)
  · exact Prod.Lex.left _ _ (Nat.lt_succ_of_lt right.short)

end

/-- The value of a token sequence, all of which has to be read. -/
def evaluateTokens (mode : Mode) (tokens : List Token) : Except ExprError Value :=
  if tokens.isEmpty then .error .empty
  else
    match read mode .loosest tokens with
    | .error e => .error e
    | .ok ⟨value, [], _⟩ => .ok value
    | .ok ⟨_, token :: _, _⟩ => .error (.unexpectedToken (String.ofList token.text))

/-- The value of a text without names. -/
def evaluateText (mode : Mode) (text : List Char) : Except ExprError Value := do
  evaluateTokens mode (← tokenize text)

/-- The number that a text without names evaluates to. -/
def evaluateNumber (mode : Mode) (text : List Char) : Except ExprError Float := do
  (← evaluateText mode text).toNumber

end EventDeck.Expr
