/-!
# What can be wrong with an expression
-/

namespace EventDeck.Expr

/-- The ways in which an expression or a statement fails. -/
inductive ExprError
  | unexpectedInput (rest : String)
  | empty
  | unexpectedToken (text : String)
  | unexpectedEnd
  | unclosedParenthesis
  | booleanArithmetic
  | divisionByZero
  | invalidTarget (name : String)
deriving DecidableEq, Repr

/-- The wording of a failure. -/
def ExprError.message : ExprError → String
  | unexpectedInput rest => s!"unexpected input at '{rest}'"
  | empty => "empty expression"
  | unexpectedToken text => s!"unexpected token '{text}'"
  | unexpectedEnd => "unexpected end of expression"
  | unclosedParenthesis => "missing closing parenthesis"
  | booleanArithmetic => "arithmetic on a boolean value"
  | divisionByZero => "division by zero"
  | invalidTarget name => s!"invalid assignment target '{name}'"

end EventDeck.Expr
