/-!
# Faults

Authored content that is broken is reported and play goes on.  A fault is something else: a request
that has no meaningful result, such as the floor of an infinite number.  It ends the request it
arises in and leaves everything as it is at that moment.
-/

namespace EventDeck

/-- The sort of a fault. -/
inductive FaultKind
  /-- A value outside the domain of an operation. -/
  | value
  /-- A value too large for the result. -/
  | overflow
  /-- A table changed while it was gone through. -/
  | changed
  /-- Reactions set each other off without end. -/
  | endless
deriving DecidableEq, Repr

/-- The reasons for which a request ends without a result. -/
inductive Fault
  | nanToInteger
  | infinityToInteger
  | integerTooLarge
  | negativeTolerance
  | negativeLimit
  | changedWhileTelling
  | endlessReaction
  | unknownCode (quoted : String)
  | notANumber (quoted : String)
  | notAnInteger (quoted : String)
  | tooManyDigits (count : Nat)
deriving DecidableEq, Repr

namespace Fault

/-- The sort of a fault. -/
def kind : Fault → FaultKind
  | infinityToInteger | integerTooLarge => .overflow
  | changedWhileTelling => .changed
  | endlessReaction => .endless
  | nanToInteger | negativeTolerance | negativeLimit | unknownCode _ | notANumber _
  | notAnInteger _ | tooManyDigits _ => .value

/-- The wording of a fault. -/
def message : Fault → String
  | nanToInteger => "cannot convert float NaN to integer"
  | infinityToInteger => "cannot convert float infinity to integer"
  | integerTooLarge => "int too large to convert to float"
  | negativeTolerance => "tolerances must be non-negative"
  | negativeLimit => "maxlen must be non-negative"
  | changedWhileTelling => "dictionary changed size during iteration"
  | endlessReaction => "maximum recursion depth exceeded"
  | unknownCode quoted => s!"{quoted} is not a valid DiagnosticCode"
  | notANumber quoted => s!"could not convert string to float: {quoted}"
  | notAnInteger quoted => s!"invalid literal for int() with base 10: {quoted}"
  | tooManyDigits count =>
    s!"Exceeds the limit (4300 digits) for integer string conversion: value has {count} digits; " ++
      "use sys.set_int_max_str_digits() to increase the limit"

end Fault

end EventDeck
