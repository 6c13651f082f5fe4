import EventDeck.Decimal.Reader
import EventDeck.Fault
import EventDeck.Text.Quoted

/-!
# Whole numbers that are typed in

A text that should be a whole number is read in free form.  One that is no number is a fault, and so
is one with too many digits; that is noticed before anything that follows the digits.
-/

namespace EventDeck.Decimal

/-- The digits at the front of a text, behind blanks and a sign; none when underscores among them
are out of place. -/
def leadingDigits? (text : List Char) : Option (List Char) :=
  let unsigned := (takeSign ((Text.trimBy Text.isWhiteSpace text).map plainDigit)).2
  dropUnderscores? (unsigned.takeWhile fun c => isPlainDigit c || c = '_')

/-- How much of a text is quoted when it is no whole number. -/
def quotedLength : Nat := 200

/-- The whole number that a text is. -/
def typedInteger (text : String) : Except Fault Int :=
  let count := ((leadingDigits? text.toList).getD []).length
  if digitLimit < count then .error (.tooManyDigits count)
  else match readInteger? text.toList with
    | some n => .ok n
    | none => .error (.notAnInteger (String.ofList ((Text.quoted text).toList.take quotedLength)))

end EventDeck.Decimal
