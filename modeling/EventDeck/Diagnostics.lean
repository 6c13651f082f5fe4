import EventDeck.Fault
import EventDeck.Text.Quoted

/-!
# Diagnostics

Problems in authored content are reported to a sink that keeps the most recent ones.  A mark is the
number of reports made so far; what was reported after a mark can be asked for later.  While the
sink is muted, reports are neither kept nor counted.
-/

namespace EventDeck

/-- The sorts of problems that are reported. -/
inductive DiagnosticCode
  | unboundVariable | malformedExpression | missingEventLookup | unknownCommand
  | emptyDeckAfterReshuffle | inputBlocked | invalidAction | unknownControl
deriving DecidableEq, Repr

namespace DiagnosticCode

/-- The word for a sort of problem. -/
def word : DiagnosticCode → String
  | unboundVariable => "unbound_variable"
  | malformedExpression => "malformed_expression"
  | missingEventLookup => "missing_event_lookup"
  | unknownCommand => "unknown_command"
  | emptyDeckAfterReshuffle => "empty_deck_after_reshuffle"
  | inputBlocked => "input_blocked"
  | invalidAction => "invalid_action"
  | unknownControl => "unknown_control"

/-- All sorts of problems. -/
def all : List DiagnosticCode :=
  [unboundVariable, malformedExpression, missingEventLookup, unknownCommand,
    emptyDeckAfterReshuffle, inputBlocked, invalidAction, unknownControl]

/-- The sort of problem that a word stands for. -/
def ofWord (word : String) : Except Fault DiagnosticCode :=
  match all.find? (·.word = word) with
  | some code => .ok code
  | none => .error (.unknownCode (Text.quoted word))

end DiagnosticCode

/-- One reported problem. -/
structure Diagnostic where
  code : DiagnosticCode
  message : String
deriving DecidableEq, Repr

/-- A problem as it is shown. -/
def Diagnostic.text (d : Diagnostic) : String :=
  s!"[{d.code.word}] {d.message}"

/-- The sink.  `limit` bounds how many entries are kept; without it all are. -/
structure Diagnostics where
  limit : Option Nat
  entries : List Diagnostic := []
  reported : Nat := 0
  muted : Nat := 0

namespace Diagnostics

/-- An empty sink; a limit cannot be negative. -/
def withLimit : Option Int → Except Fault Diagnostics
  | none => .ok ⟨none, [], 0, 0⟩
  | some limit => if limit < 0 then .error .negativeLimit else .ok ⟨some limit.toNat, [], 0, 0⟩

/-- The last `n` elements of a list. -/
def lastOf (n : Nat) (entries : List Diagnostic) : List Diagnostic :=
  entries.drop (entries.length - n)

/-- The most recent entries, as many as the limit allows. -/
def trimTo (limit : Option Nat) (entries : List Diagnostic) : List Diagnostic :=
  match limit with
  | none => entries
  | some n => lastOf n entries

/-- Reports a problem. -/
def report (sink : Diagnostics) (d : Diagnostic) : Diagnostics :=
  if sink.muted = 0 then
    { sink with entries := trimTo sink.limit (sink.entries ++ [d]), reported := sink.reported + 1 }
  else sink

/-- The position of the next report. -/
def mark (sink : Diagnostics) : Nat :=
  sink.reported

/-- The kept entries that were reported after a mark. -/
def since (sink : Diagnostics) (mark : Int) : List Diagnostic :=
  lastOf (sink.reported - mark).toNat sink.entries

/-- Enters a muted stretch. -/
def mute (sink : Diagnostics) : Diagnostics :=
  { sink with muted := sink.muted + 1 }

/-- Leaves the innermost muted stretch. -/
def unmute (sink : Diagnostics) : Diagnostics :=
  { sink with muted := sink.muted - 1 }

/-- Forgets all entries, and that there were any. -/
def clear (sink : Diagnostics) : Diagnostics :=
  { sink with entries := [], reported := 0 }

end Diagnostics

end EventDeck
