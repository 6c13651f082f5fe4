import EventDeck.Game.Commands
import EventDeck.Game.Evaluation

/-!
# Effects and controls

Actions and controls have effects and special effects.  All effects come first and then all special
effects, each list in its order, without the blank ones.  A control can be pressed when its
condition holds; that has no influence on the turn.
-/

namespace EventDeck

/-- What came of the effects of an action or a control. -/
structure Outcome where
  effectsApplied : List String := []
  commandResults : List CommandResult := []

/-- What the commands changed, in words. -/
def Outcome.changes (outcome : Outcome) : List String :=
  outcome.commandResults.flatMap (·.changes)

/-- What came of pressing a control. -/
structure ControlResult where
  control : String
  error : Option (DiagnosticCode × String) := none
  outcome : Outcome := {}

/-- Whether a control was pressed. -/
def ControlResult.success (result : ControlResult) : Bool :=
  result.error.isNone

namespace Game

/-- The texts of a list that are not blank. -/
def authored (texts : List String) : List String :=
  texts.filter (!Text.isBlankText ·)

/-- Runs effects and then special effects. -/
def runEffects (tell : Tell) (effects specials : List String) : Play Outcome := do
  for effect in authored effects do
    let _ ← evaluate tell effect
  let commandResults ← (authored specials).mapM runSpecial
  return { effectsApplied := authored effects, commandResults }

/-- Whether a control can be pressed. -/
def controlAvailable (name : String) : Play Bool := do
  match (← get).panel.get? name with
  | none => return false
  | some control => holds control.condition

/-- The names of the controls that can be pressed. -/
def availableControls : Play (List String) := do
  return (← (← get).panel.filterM fun control => holds control.condition).map (·.name)

/-- A control that was not pressed, with a report. -/
def notPressed (name message : String) : Play ControlResult := do
  report .unknownControl message
  return { control := name, error := some (.unknownControl, message) }

/-- Presses a control. -/
def press (tell : Tell) (name : String) : Play ControlResult := do
  match (← get).panel.get? name with
  | none => notPressed name s!"Unknown control '{name}'"
  | some control =>
    if ← holds control.condition then
      return { control := name, outcome := ← runEffects tell control.effects control.specials }
    else notPressed name s!"Control '{name}' is not available"

end Game

end EventDeck
