/-!
# Controls

A control is a button outside the flow of the deck: it has a condition, and effects like those of an
action.  A panel holds controls by name; a name that comes again keeps its place and takes the new
content.
-/

namespace EventDeck

/-- A button as its author writes it. -/
structure Control where
  name : String
  label : String := ""
  condition : String := ""
  effects : List String := []
  specials : List String := []

/-- The controls of a game, each name once. -/
abbrev Panel := List Control

namespace Panel

/-- A panel with one more control. -/
def put (control : Control) : Panel → Panel
  | [] => [control]
  | other :: others =>
    if other.name = control.name then control :: others else other :: put control others

/-- The panel of a list of controls. -/
def ofList (controls : List Control) : Panel :=
  controls.foldl (fun panel control => put control panel) []

/-- The control of a name. -/
def get? (panel : Panel) (name : String) : Option Control :=
  panel.find? (·.name = name)

end Panel

end EventDeck
