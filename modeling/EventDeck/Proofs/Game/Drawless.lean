import EventDeck.Proofs.Game.Faultless

/-!
# Games that draw nothing

A game is `Drawless` when no condition and no effect of its cards, actions and controls has a random
call, and writes are not compared with a negative tolerance.  No act changes that.  Then no request of
a player ends in a fault: the offers and the controls can be asked for, a control can be pressed
(`exists_run_press`), and a choice is refused, or the card is resolved, which takes one turn
(`select_cases`).
-/

namespace EventDeck.Game

open EventDeck.Expr Text

/-- Neither a condition nor what effects evaluate has a random call. -/
structure DrawsNothing (condition : String) (effects : List String) : Prop where
  condition : CallFree (trim condition.toList)
  effects : ∀ effect ∈ effects, Undrawn effect

/-- No authored text draws, and the tolerance for writing is not negative. -/
structure Drawless (game : Game) : Prop where
  conditions : game.catalog.ChanceFree
  actions : ∀ key, ∀ action ∈ (game.catalog.card key).actions,
    DrawsNothing action.condition action.effects
  controls : ∀ control ∈ game.panel, DrawsNothing control.condition control.effects
  tolerance : ¬game.store.epsilon < 0

variable {game before after : Game} {key : Nat}

theorem Drawless.of_frame (h : before.Drawless) (frame : Frame before after) : after.Drawless where
  conditions := frame.faces.chanceFree h.conditions
  actions key action haction := h.actions key action (frame.faces.actions key ▸ haction)
  controls control hcontrol := h.controls control (frame.panel ▸ hcontrol)
  tolerance := frame.epsilon ▸ h.tolerance

theorem steady_diagnostics (game : Game) (diagnostics : Diagnostics) :
    Steady game { game with diagnostics } :=
  ⟨⟨rfl, .refl _, rfl, rfl⟩, rfl⟩

/-- Reports are none of its texts. -/
theorem Drawless.of_diagnostics (h : game.Drawless) (diagnostics : Diagnostics) :
    Drawless { game with diagnostics } :=
  h.of_frame (steady_diagnostics game diagnostics).toFrame

theorem Drawless.current (h : game.Drawless) :
    ∀ action ∈ game.actions, DrawsNothing action.condition action.effects := by
  rw [Game.actions]
  cases game.scheduler.current with
  | none => exact fun _ haction => absurd haction List.not_mem_nil
  | some key => exact h.actions key

/-! ## What is shown -/

theorem exists_run_availableControls (h : game.Drawless) :
    ∃ names diagnostics, availableControls.run.run game = (.ok names, { game with diagnostics }) := by
  have htest : ∀ control ∈ game.panel, ∀ earlier, ∃ diagnostics,
      (holds control.condition).run.run { game with diagnostics := earlier } =
        (.ok (isBlankText control.condition || conditionValue game.store control.condition),
          { game with diagnostics }) := fun control hcontrol earlier =>
    run_holds_of_callFree (h.controls control hcontrol).condition { game with diagnostics := earlier }
  obtain ⟨diagnostics, hrun⟩ := run_filterM htest
  exact ⟨_, diagnostics, (run_bind_ok hrun _).trans rfl⟩

/-! ## Controls -/

theorem tolerant_notPressed (name message : String) (game : Game) :
    Runs Tolerant (notPressed name message) game :=
  no_fault

theorem tolerant_press (h : game.Drawless) (name : String) : Runs Tolerant (press silent name) game := by
  refine runs_get_bind ?_
  split
  next => exact tolerant_notPressed _ _ game
  next control hcontrol =>
    have hdraws := h.controls control (List.mem_of_find?_eq_some hcontrol)
    obtain ⟨diagnostics, hholds⟩ := run_holds_of_callFree hdraws.condition game
    unfold Runs
    rw [run_bind_ok hholds]
    refine runs_ite (fun _ => ?_) fun _ => tolerant_notPressed _ _ _
    exact (tolerant_runEffects control.specials hdraws.effects _).then fun _ _ => runs_pure _ _

/-- Whatever is pressed, there is no fault, and the scheduler does not move. -/
theorem exists_run_press (h : game.Drawless) (name : String) :
    ∃ result after, (press silent name).run.run game = (.ok result, after) ∧ Steady game after := by
  have haffects := affects_press name game
  rcases hrun : (press silent name).run.run game with ⟨fault | result, after⟩
  · obtain rfl : fault = .negativeTolerance := (tolerant_press h name).of_error hrun _ rfl
    have hbehaves : Affects game (some .negativeTolerance) after := haffects.of_error hrun
    exact absurd (hbehaves.faults _ rfl).negative h.tolerance
  · have hsteady : Affects game none after := haffects.of_ok hrun
    exact ⟨result, after, rfl, hsteady.toSteady⟩

/-! ## Choices -/

/-- A card has been resolved: that takes one turn, and moving on comes to an end. -/
structure TakesTurn (before after : Game) : Prop where
  frame : Frame before after
  turn : after.scheduler.turn = before.scheduler.turn + 1
  rest : ComesToRest before.settings.autoReveal after

/-- The current card can be resolved with each of its actions, and without one. -/
theorem exists_run_resolve {action : Option Action} (h : game.Drawless)
    (hready : (Act.accept key).Ready game.scheduler)
    (haction : ∀ a, action = some a → a ∈ game.actions) (mark : Nat) :
    ∃ result after, (resolve silent key action mark).run.run game = (.ok result, after) ∧
      result.success = true ∧ TakesTurn game after := by
  have hcard : ∀ a, action = some a → a ∈ (game.catalog.card key).actions :=
    fun a ha => actions_of_current hready.2.2 ▸ haction a ha
  rcases hrun : (resolve silent key action mark).run.run game with ⟨fault | result, after⟩
  · have heffects : ∀ a, action = some a → ∀ effect ∈ a.effects, Undrawn effect :=
      fun a ha => (h.current a (haction a ha)).effects
    exact absurd (fault_of_resolve hready hcard h.conditions heffects hrun).2 h.tolerance
  · have hturns : TurnsTo game none after := (turnsTo_resolve hready hcard mark).of_ok hrun
    obtain ⟨stages, hcourse⟩ := hturns.leads
    obtain ⟨hturn, hrest⟩ := comesToRest_of_resolve hcard h.conditions hrun
    exact ⟨result, after, rfl, success_of_resolve hrun, hcourse.frame, hturn, hrest⟩

/-- While input is open, a choice is refused with a message and changes nothing but reports, or the card
is resolved. -/
theorem select_cases (h : game.Drawless) (hready : (Act.accept key).Ready game.scheduler)
    (choice : Choice) :
    (∃ result message diagnostics,
      (select silent choice).run.run game = (.ok result, { game with diagnostics }) ∧
        result.error = some (.invalidAction, message)) ∨
    ∃ result after, (select silent choice).run.run game = (.ok result, after) ∧
      result.success = true ∧ TakesTurn game after := by
  obtain ⟨diagnostics, havailable⟩ :=
    run_availableActions_of_callFree fun action haction => (h.current action haction).condition
  cases hchosen : chosen choice game.actions game.openActions with
  | error message =>
    exact .inl ⟨_, message, diagnostics.report ⟨.invalidAction, message⟩,
      (run_select_of_error hready havailable hchosen).trans rfl, rfl⟩
  | ok action =>
    have haction : ∀ a, action = some a → a ∈ game.actions := by
      rintro a rfl
      exact mem_of_chosen hchosen
    obtain ⟨result, after, hresolve, hsuccess, htakes⟩ :=
      exists_run_resolve (h.of_diagnostics diagnostics) hready haction game.diagnostics.mark
    have hreports := (steady_diagnostics game diagnostics).toFrame
    exact .inr ⟨result, after, (run_select_of_ok hready havailable hchosen).trans hresolve,
      hsuccess, hreports.trans htakes.frame, htakes.turn, htakes.rest⟩

end EventDeck.Game
