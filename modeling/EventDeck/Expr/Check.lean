import EventDeck.Expr.Parser
import EventDeck.Expr.RandomCall
import EventDeck.Expr.Statement

/-!
# Checking authored texts

A text is checked for its form without reading or writing any variable: names stand for zero, a
random call whose bounds are well formed stands for zero, and a zero divisor is let pass.
-/

namespace EventDeck.Expr

open Text

/-- A random call in a text that is only checked. -/
def checkedCall (call : RandomCall) : Except ExprError (List Char) := do
  let _ ← evaluateNumber .checking call.low
  let _ ← evaluateNumber .checking call.high
  return ['0']

/-- Checks an expression. -/
def checkExpression (text : List Char) : Except ExprError Unit := do
  let plain ← replaceNames (fun _ => pure ['0']) text
  let _ ← evaluateText .checking (← replaceRandoms checkedCall plain)

/-- Divides a statement into the name that it writes and the expression that it evaluates: an
expression has no name to write, and a step no expression. -/
def splitStatement (text : List Char) : Except ExprError (Option String × Option (List Char)) :=
  match Statement.compounds.findSome? fun (symbol, _) => cut symbol text with
  | some (target, body) => do return (some (← targetName target), some (trim body))
  | none =>
    if ['+', '+'].isSuffixOf text || ['-', '-'].isSuffixOf text then do
      return (some (← targetName (text.take (text.length - 2))), none)
    else match Statement.cutEquals none text with
      | some (target, body) => do return (some (← targetName target), some (trim body))
      | none => return (none, some text)

/-- Checks a statement: its target, and the expression on its right. -/
def checkStatement (text : List Char) : Except ExprError Unit := do
  match (← splitStatement text).2 with
  | none => return ()
  | some body => checkExpression body

/-- What is wrong with a text, if anything. -/
def problem? (text : String) (statement : Bool) : Option ExprError :=
  let body := trim text.toList
  match if statement then checkStatement body else checkExpression body with
  | .ok () => none
  | .error e => some e

end EventDeck.Expr
