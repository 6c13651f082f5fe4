import EventDeck.Expr.Name
import EventDeck.Expr.Value

/-!
# Statements

An effect is a statement: a compound assignment such as `hp += 2`, a step `hp++` or `hp--`, an
assignment `hp = 2`, or a plain expression.  The forms are tried in this order, and the compound
operators in the order in which they are listed; the first occurrence of an operator divides the
text.  The sign of an assignment stands alone: no operator before it and no `=` after it.
-/

namespace EventDeck.Expr

open Text

/-- The form of a statement, with its parts as they are written. -/
inductive Statement
  | expression (body : List Char)
  | update (operation : BinaryOp) (target body : List Char)
  | step (up : Bool) (target : List Char)
  | assignment (target body : List Char)

namespace Statement

/-- The compound operators, in the order in which they are looked for. -/
def compounds : List (List Char × BinaryOp) :=
  [(['+', '='], .plus), (['-', '='], .minus), (['*', '='], .times), (['/', '='], .divide)]

/-- A compound assignment. -/
def update? (text : List Char) : Option Statement :=
  compounds.findSome? fun (symbol, operation) =>
    (cut symbol text).map fun (target, body) => update operation target (trim body)

/-- A step up or down. -/
def step? (text : List Char) : Option Statement :=
  ((before? ['+', '+'] text).map (step true)).or ((before? ['-', '-'] text).map (step false))

/-- A character that makes a following `=` part of another operator. -/
def joinsEquals (c : Char) : Bool :=
  ['=', '!', '<', '>', '+', '-', '*', '/'].contains c

/-- The parts around the first `=` that stands alone, given the character before the text. -/
def cutEquals (previous : Option Char) : List Char → Option (List Char × List Char)
  | [] => none
  | c :: rest =>
    -- a sign of equality that is part of an operator is passed over
    if c = '=' && !previous.any joinsEquals && rest.head? != some '=' then some ([], rest)
    else (cutEquals (some c) rest).map fun (target, body) => (c :: target, body)

/-- An assignment. -/
def assignment? (text : List Char) : Option Statement :=
  (cutEquals none text).map fun (target, body) => assignment target (trim body)

/-- The statement that a text is. -/
def ofText (text : List Char) : Statement :=
  ((update? text).or ((step? text).or (assignment? text))).getD (expression text)

end Statement

/-- The variable that a statement writes. -/
def targetName (target : List Char) : Except ExprError String :=
  let name := trim target
  if isIdentifier name && name != randomWord then .ok (String.ofList name)
  else .error (.invalidTarget (String.ofList name))

end EventDeck.Expr
