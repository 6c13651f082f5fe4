import EventDeck.Choice
import EventDeck.Decimal.Integer

/-!
# Entries

What a player types, without the blanks around it: a number for an action, a name behind an
exclamation mark for a control, `c` or nothing for going on, `q` or `quit` to leave.
-/

namespace EventDeck.Terminal

/-- What a player wants. -/
inductive Entry
  | leave
  | press (control : String)
  | choose (choice : Choice)
  | unknown (text : String)

namespace Entry

/-- Understands what a player types.  Digits that are no decimal number are a fault. -/
def ofLine (line : String) : Except Fault Entry :=
  let text := Text.trim line.toList
  let answer := String.ofList text
  if answer = "q" || answer = "quit" then .ok .leave
  else match text with
    | '!' :: control => .ok (.press (String.ofList control))
    | [] | ['c'] => .ok (.choose .goOn)
    | _ =>
      if text.all Text.isAnyDigit then
        (Decimal.typedInteger answer).map fun index => .choose (.action index)
      else .ok (.unknown answer)

end Entry

end EventDeck.Terminal
