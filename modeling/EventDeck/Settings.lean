import EventDeck.Decimal.Reader
import EventDeck.Fault
import EventDeck.Text.Quoted
import EventDeck.Text.Uppercase

/-!
# Settings

What can be tuned about play.  Settings have defaults, and a few of them can be given by the
environment the program runs in.
-/

namespace EventDeck

/-- The tunables of a game. -/
structure Settings where
  /-- The event that comes first after a reshuffle when a card of it is inactive. -/
  sentinelName : String := "last_card"
  /-- The label of the choice that is offered when no action is available. -/
  continueLabel : String := "Continue"
  /-- A write that moves a variable by no more than this is not a change. -/
  epsilon : Float := 1e-6
  /-- How many seconds a timed reveal takes. -/
  revealDelay : Float := 0.5
  /-- Whether events are revealed as soon as they are presented. -/
  autoReveal : Bool := false
  /-- How many diagnostics are kept; all when there is no limit. -/
  diagnosticsLimit : Option Int := some 200
  /-- The level from which on events are logged. -/
  logLevel : String := "WARNING"

namespace Settings

/-- The words that switch a setting on. -/
def truthy : List String := ["1", "true", "yes", "on"]

/-- Whether a text switches a setting on. -/
def isTruthy (text : String) : Bool :=
  truthy.contains (Text.lowerAscii (Text.trimmed text))

/-- The settings in an environment, which gives values to some names. -/
def ofEnvironment (lookup : String → Option String) : Except Fault Settings := do
  let defaults : Settings := {}
  let revealDelay ← match lookup "OMEN_REVEAL_DELAY" with
    | none => pure defaults.revealDelay
    | some text =>
      match Decimal.read? text.toList with
      | some delay => pure delay
      | none => throw (.notANumber (Text.quoted text))
  return { defaults with
    sentinelName := (lookup "OMEN_SENTINEL_NAME").getD defaults.sentinelName
    continueLabel := (lookup "OMEN_CONTINUE_LABEL").getD defaults.continueLabel
    revealDelay := revealDelay
    autoReveal := isTruthy ((lookup "OMEN_AUTO_REVEAL").getD "")
    logLevel := Text.upper ((lookup "OMEN_LOG_LEVEL").getD defaults.logLevel) }

end Settings

end EventDeck
