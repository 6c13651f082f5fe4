import EventDeck.Proofs.Game.Turns

/-!
# Selections

A selection is evaluated first, and accepted when input is open and the choice is one of those that
are offered (`accepted?`).  When it is, the current card is resolved, which comes to rest or is broken
off (`turnsTo_resolve`); otherwise the scheduler does not move (`selects_select`).
-/

namespace EventDeck.Game

variable {α : Type} {game between after : Game} {key : Nat} {choice : Choice}

/-! ## What is offered -/

theorem quiet_availableActions {available : List Nat}
    (hrun : availableActions.run.run game = (.ok available, after)) : Quiet game after := by
  have hevaluates : Evaluates game none after := (runs_availableActions game).of_ok hrun
  exact hevaluates.toQuiet

/-- What a filter finds are elements of the list. -/
theorem subset_of_filterM {test : α → Play Bool} {items found : List α}
    (hrun : (items.filterM test).run.run game = (.ok found, after)) : found ⊆ items := by
  -- What was found before the rest is carried along, and comes from what was gone through before.
  have haux : ∀ (items earlier : List α) {game after : Game} {found : List α},
      (items.filterAuxM test earlier).run.run game = (.ok found, after) →
      ∀ a ∈ found, a ∈ earlier ∨ a ∈ items := by
    intro items
    induction items with
    | nil =>
      intro earlier _ _ _ hrun a ha
      cases hrun
      exact .inl ha
    | cons item items ih =>
      intro earlier _ _ _ hrun a ha
      obtain ⟨kept, between, -, hrest⟩ := exists_run_of_bind hrun
      rcases ih _ hrest a ha with hearlier | hitems
      · cases kept with
        | true =>
          rcases List.mem_cons.mp hearlier with rfl | hearlier
          · exact .inr List.mem_cons_self
          · exact .inl hearlier
        | false => exact .inl hearlier
      · exact .inr (List.mem_cons_of_mem _ hitems)
  obtain ⟨reversed, between, hreversed, hfound⟩ := exists_run_of_bind hrun
  cases hfound
  intro a ha
  simpa using haux items [] hreversed a (List.mem_reverse.mp ha)

/-- What is available are indices of actions. -/
theorem lt_of_availableActions {available : List Nat}
    (hrun : availableActions.run.run game = (.ok available, after)) :
    ∀ n ∈ available, n < game.actions.length := by
  rw [availableActions, run_bind_ok (run_currentActions game)] at hrun
  obtain ⟨pairs, between, hpairs, hindices⟩ := exists_run_of_bind hrun
  cases hindices
  intro n hn
  obtain ⟨⟨action, index⟩, hpair, rfl⟩ := List.mem_map.mp hn
  have hindex := List.mem_zipIdx (subset_of_filterM hpairs hpair)
  omega

/-! ## What is accepted -/

/-- The card and the action that a choice is accepted for. -/
def accepted? (choice : Choice) : Play (Option (Nat × Option Action)) := do
  let scheduler := (← get).scheduler
  match scheduler.current with
  | some key =>
    if scheduler.inputOpen && scheduler.phase = .awaitingAction then
      let available ← availableActions
      match chosen choice (← currentActions) available with
      | .ok action => return some (key, action)
      | .error _ => return none
    else return none
  | none => return none

/-- A choice is accepted for a card. -/
def Accepts (game : Game) (choice : Choice) (key : Nat) : Prop :=
  ∃ action between, (accepted? choice).run.run game = (.ok (some (key, action)), between)

/-- What a selection does, and what it is accepted for, while input is open. -/
theorem run_select_open (tell : Tell) (h : (Act.accept key).Ready game.scheduler) :
    (select tell choice).run.run game = (do
      let available ← availableActions
      match chosen choice (← currentActions) available with
      | .ok action => resolve tell key action game.diagnostics.mark
      | .error message => invalid message : Play TurnResult).run.run game ∧
    (accepted? choice).run.run game = (do
      let available ← availableActions
      match chosen choice (← currentActions) available with
      | .ok action => return some (key, action)
      | .error _ => return none : Play (Option (Nat × Option Action))).run.run game := by
  obtain ⟨hphase, hopen, hcurrent⟩ := h
  rw [select, accepted?, run_get_bind, run_get_bind]
  simp only [hcurrent, hopen, hphase, decide_true, Bool.and_self, if_true]
  exact ⟨run_get_bind _ game, trivial⟩

/-- While input is blocked nothing happens. -/
theorem run_select_blocked (tell : Tell) (h : ∀ key, ¬(Act.accept key).Ready game.scheduler) :
    (select tell choice).run.run game = (.ok (blocked game.scheduler), game) ∧
      (accepted? choice).run.run game = (.ok none, game) := by
  rw [select, accepted?, run_get_bind, run_get_bind]
  dsimp only
  cases hcurrent : game.scheduler.current with
  | none => exact ⟨rfl, rfl⟩
  | some key =>
    have hclosed : ¬(game.scheduler.inputOpen && game.scheduler.phase = .awaitingAction) := by
      intro hopen
      obtain ⟨hopen, hphase⟩ := (Bool.and_eq_true _ _).mp hopen
      exact h key ⟨of_decide_eq_true hphase, hopen, hcurrent⟩
    simp only [if_neg hclosed]
    exact ⟨rfl, rfl⟩

/-- A choice is accepted while input is open, for the current card. -/
theorem Accepts.ready (h : game.Accepts choice key) : (Act.accept key).Ready game.scheduler := by
  obtain ⟨action, between, hrun⟩ := h
  by_cases hready : ∃ current, (Act.accept current).Ready game.scheduler
  · obtain ⟨current, hready⟩ := hready
    rw [(run_select_open silent hready).2] at hrun
    obtain ⟨available, offered, -, hrun⟩ := exists_run_of_bind hrun
    rw [run_bind_ok (run_currentActions offered)] at hrun
    split at hrun <;> cases hrun
    exact hready
  · rw [(run_select_blocked silent (not_exists.mp hready)).2] at hrun
    cases hrun

theorem mem_of_chosen {actions : List Action} {available : List Nat} {action : Action}
    (h : chosen choice actions available = .ok (some action)) : action ∈ actions := by
  unfold chosen at h
  split at h
  · split at h <;> cases h
  · dsimp only at h
    split at h
    next found hfound =>
      cases h
      obtain ⟨index, -, hindex⟩ := Option.bind_eq_some_iff.mp hfound
      split at hindex
      · exact List.mem_of_getElem? hindex
      · cases hindex
    next => cases h

/-- What selecting comes to. -/
inductive Selects (choice : Choice) (game : Game) : Except Fault TurnResult → Game → Prop
  | broken {fault : Fault} {between : Game}
    (h : (accepted? choice).run.run game = (.error fault, between)) :
    Selects choice game (.error fault) between
  | refused {between after : Game} {result : TurnResult}
    (h : (accepted? choice).run.run game = (.ok none, between)) (hquiet : Quiet between after)
    (herror : result.success = false) : Selects choice game (.ok result) after
  | accepted {key : Nat} {action : Option Action} {between after : Game}
    {result : Except Fault TurnResult}
    (h : (accepted? choice).run.run game = (.ok (some (key, action)), between))
    (hready : (Act.accept key).Ready between.scheduler)
    (haction : ∀ a, action = some a → a ∈ (between.catalog.card key).actions)
    (hrun : (resolve silent key action game.diagnostics.mark).run.run between = (result, after)) :
    Selects choice game result after

/-- Before a selection is accepted, conditions are evaluated and nothing else happens. -/
theorem evaluates_accepted? (choice : Choice) (game : Game) :
    Runs Evaluates (accepted? choice) game := by
  by_cases hready : ∃ key, (Act.accept key).Ready game.scheduler
  · obtain ⟨key, hready⟩ := hready
    unfold Runs
    rw [(run_select_open silent hready).2]
    refine (runs_availableActions game).then fun _ between => ?_
    refine (runs_currentActions between).then fun _ between => ?_
    split <;> exact runs_pure _ between
  · unfold Runs
    rw [(run_select_blocked silent (not_exists.mp hready)).2]
    exact allows_evaluates.refl game

theorem selects_select {result : Except Fault TurnResult}
    (hrun : (select silent choice).run.run game = (result, after)) :
    Selects choice game result after := by
  -- Unless a choice is awaited, the selection is refused at once; otherwise the open actions decide.
  by_cases hready : ∃ key, (Act.accept key).Ready game.scheduler
  · obtain ⟨key, hready⟩ := hready
    obtain ⟨hselect, haccepted⟩ := run_select_open silent hready
    rw [hrun] at hselect
    rcases hoffers : availableActions.run.run game with ⟨fault | available, between⟩
    · rw [run_bind_error hoffers] at hselect haccepted
      cases hselect
      exact .broken haccepted
    · have hquiet : Quiet game between := quiet_availableActions hoffers
      rw [run_bind_ok hoffers, run_bind_ok (run_currentActions between)] at hselect haccepted
      cases hchosen : chosen choice between.actions available with
      | error message =>
        rw [hchosen] at hselect haccepted
        cases hselect
        exact .refused haccepted ⟨rfl, rfl, rfl, rfl, rfl⟩ rfl
      | ok action =>
        rw [hchosen] at hselect haccepted
        refine .accepted haccepted (hquiet.scheduler ▸ hready) (fun a ha => ?_) hselect.symm
        have hmem : a ∈ between.actions := mem_of_chosen (ha ▸ hchosen)
        rwa [actions, hquiet.scheduler, hready.2.2] at hmem
  · obtain ⟨hselect, haccepted⟩ := run_select_blocked silent (not_exists.mp hready)
    rw [hrun] at hselect
    cases hselect
    exact .refused haccepted (.refl game) rfl

/-- While input is open there is something to choose, an action or going on without one, if the
conditions of the actions can be evaluated. -/
theorem exists_accepts {available : List Nat} (hready : (Act.accept key).Ready game.scheduler)
    (hrun : availableActions.run.run game = (.ok available, between)) :
    ∃ index : Option Int, game.Accepts ((index.map .action).getD .goOn) key := by
  have hquiet : Quiet game between := quiet_availableActions hrun
  have haccepted : ∀ {choice action}, chosen choice between.actions available = .ok action →
      game.Accepts choice key := by
    intro choice action hchosen
    refine ⟨action, between, ?_⟩
    rw [(run_select_open silent hready).2, run_bind_ok hrun, run_bind_ok (run_currentActions between),
      hchosen]
    rfl
  have hactions : between.actions = game.actions := by
    rw [actions, actions, hquiet.scheduler, hquiet.catalog]
  cases available with
  | nil =>
    have hchosen : chosen .goOn between.actions [] = .ok none := rfl
    exact ⟨none, haccepted hchosen⟩
  | cons n rest =>
    have hn : n < between.actions.length :=
      hactions ▸ lt_of_availableActions hrun n List.mem_cons_self
    have hchosen : chosen (.action n) between.actions (n :: rest) = .ok between.actions[n] := by
      simp [chosen, Choice.index?, hn]
    exact ⟨some n, haccepted hchosen⟩

/-! ## Resolving -/

theorem TurnsTo.of_affects {fault : Fault} (h : Affects game (some fault) after)
    (hphase : game.scheduler.phase = .resolving) : TurnsTo game (some fault) after := by
  refine ⟨h.leads, nofun, ?_⟩
  rintro _ ⟨⟩
  exact ⟨h.faults _ rfl, .inr (h.scheduler ▸ hphase)⟩

/-- The effects of an action, or none when play goes on without one. -/
def outcomeOf (action : Option Action) : Play EventDeck.Outcome :=
  match action with
  | some action => runEffects silent action.effects action.specials
  | none => pure {}

/-- The game when a selection has been accepted for a card. -/
def accepting (key : Nat) (game : Game) : Game :=
  { game with scheduler := (Act.accept key).next game.scheduler }

theorem step_accept (hready : (Act.accept key).Ready game.scheduler) :
    Step game (.accept key) (game.accepting key) :=
  step_scheduler (.accept key) hready rfl

theorem affects_outcomeOf {action : Option Action}
    (haction : ∀ a, action = some a → a ∈ (game.catalog.card key).actions) :
    Runs Affects (outcomeOf action) (game.accepting key) := by
  cases action with
  | none => exact runs_pure _ _
  | some a => exact affects_runEffects _ _ fun text htext => .inr ⟨rfl, key, a, haction a rfl, htext⟩

/-- What is said about a card that has been resolved. -/
def turnResult (key : Nat) (action : Option Action) (mark : Nat) (before : Game)
    (outcome : EventDeck.Outcome) (phase : Phase) (after : Game) : TurnResult where
  phase := phase
  card := some key
  title := some (before.catalog.card key).title
  description := some ((action.map (·.description)).getD before.settings.continueLabel)
  outcome := outcome
  warnings := (after.diagnostics.since mark).map (·.text)

theorem run_resolve (key : Nat) (action : Option Action) (mark : Nat) (game : Game) :
    (resolve silent key action mark).run.run game = (do
      let outcome ← outcomeOf action
      discard key
      let phase ← advance
      return turnResult key action mark (game.accepting key) outcome phase (← get) :
        Play TurnResult).run.run (game.accepting key) := by
  cases action <;> rfl

theorem step_discard (hready : (Act.discard key).Ready game.scheduler) :
    ∃ discarded, (discard key).run.run game = (.ok (), discarded) ∧
      Step game (.discard key) discarded := by
  have hfaces : game.catalog.SameFaces (game.catalog.setDiscarded key true) := .setDiscarded ..
  exact ⟨_, rfl, ⟨rfl, hfaces.trans (.of_cards rfl), rfl, rfl⟩, hready, rfl, rfl⟩

/-- The end of a turn: the card is discarded, and the next one is drawn. -/
theorem turnsTo_closing {result : Phase → Game → α}
    (hready : (Act.discard key).Ready game.scheduler) :
    Runs TurnsTo (do discard key; let phase ← advance; return result phase (← get)) game := by
  obtain ⟨discarded, hdiscard, hstep⟩ := step_discard hready
  have hbegin : Act.begin.Ready discarded.scheduler := by
    rw [hstep.scheduler]
    exact .inr (.inr (.inr ⟨hready.1, rfl⟩))
  have hadvance := turnsTo_advance hbegin
  unfold Runs
  rw [run_bind_ok hdiscard]
  refine .behind (.of_step hstep) ?_
  refine turnsTo_bind (fun _ _ hrun => hadvance.of_error hrun) fun phase next hrun => ?_
  have hnext : TurnsTo discarded none next := hadvance.of_ok hrun
  exact ⟨hnext.leads, turnsTo_pure (result phase next) (hnext.rest rfl)⟩

/-- Resolving a card comes to rest or is broken off. -/
theorem turnsTo_resolve {action : Option Action} (hready : (Act.accept key).Ready game.scheduler)
    (haction : ∀ a, action = some a → a ∈ (game.catalog.card key).actions) (mark : Nat) :
    Runs TurnsTo (resolve silent key action mark) game := by
  have heffects : Runs Affects (outcomeOf action) (game.accepting key) := affects_outcomeOf haction
  unfold Runs
  rw [run_resolve]
  refine .behind (.of_step (step_accept hready)) ?_
  refine turnsTo_bind (fun fault after hrun => ?_) fun outcome resolved hrun => ?_
  · exact .of_affects (heffects.of_error hrun) rfl
  · have hresolved : Affects (game.accepting key) none resolved := heffects.of_ok hrun
    refine ⟨hresolved.leads, turnsTo_closing ?_⟩
    rw [hresolved.scheduler]
    exact ⟨rfl, hready.2.2⟩

/-- What is said about a card that has been resolved is said about the one that was accepted. -/
theorem turnResult_of_resolve {action : Option Action} {mark : Nat} {result : TurnResult}
    (hrun : (resolve silent key action mark).run.run game = (.ok result, after)) :
    ∃ before outcome phase, result = turnResult key action mark before outcome phase after := by
  rw [run_resolve] at hrun
  obtain ⟨outcome, resolved, -, hrun⟩ := exists_run_of_bind hrun
  obtain ⟨_, discarded, -, hrun⟩ := exists_run_of_bind hrun
  obtain ⟨phase, next, -, hrun⟩ := exists_run_of_bind hrun
  cases hrun
  exact ⟨_, outcome, phase, rfl⟩

/-- A card that was resolved is the one that was accepted. -/
theorem card_of_resolve {action : Option Action} {mark : Nat} {result : TurnResult}
    (hrun : (resolve silent key action mark).run.run game = (.ok result, after)) :
    result.card = some key := by
  obtain ⟨before, outcome, phase, rfl⟩ := turnResult_of_resolve hrun
  rfl

/-- A selection that succeeds has been accepted. -/
theorem accepts_of_select {result : TurnResult}
    (hrun : (select silent choice).run.run game = (.ok result, after))
    (hsuccess : result.success = true) : ∃ key, game.Accepts choice key := by
  cases selects_select hrun with
  | refused _ _ herror =>
    rw [hsuccess] at herror
    cases herror
  | accepted h _ _ _ => exact ⟨_, _, _, h⟩

/-- A selection that is accepted for a card has that card for its result, if it has one. -/
theorem Accepts.card {result : TurnResult} (h : game.Accepts choice key)
    (hrun : (select silent choice).run.run game = (.ok result, after)) :
    result.card = some key := by
  obtain ⟨action, between, haccepted⟩ := h
  cases selects_select hrun with
  | refused hrefused _ _ =>
    rw [haccepted] at hrefused
    cases hrefused
  | accepted h _ _ hresolve =>
    rw [haccepted] at h
    cases h
    exact card_of_resolve hresolve

/-! ## Controls -/

theorem affects_press (control : String) (game : Game) :
    Runs Affects (press silent control) game := by
  have hrefused : ∀ message game, Runs Affects (notPressed control message) game :=
    fun message game => (runs_report _ _ game).then fun _ _ => runs_pure _ _
  refine runs_get_bind ?_
  split
  next => exact hrefused _ game
  next button hbutton =>
    refine (runs_holds _ game).sequel fun pressed between hheld => ?_
    refine runs_ite (fun _ => ?_) fun _ => hrefused _ between
    have hmem : button ∈ between.panel := hheld.panel ▸ List.mem_of_find?_eq_some hbutton
    exact (affects_runEffects _ _ fun text htext => .inl ⟨button, hmem, htext⟩).then
      fun _ _ => runs_pure _ _

/-! ## Starting -/

/-- Nothing comes of telling nobody about a change. -/
theorem run_tellObservers_silent (v : Variable) (old : Float) (game : Game) :
    (tellObservers silent v old).run.run game = (.ok (), game) := by
  rw [tellObservers, run_get_bind]
  exact run_bind_ok (run_loop fun _ _ => rfl) _

/-- Nothing comes of telling nobody everything. -/
theorem run_broadcast_silent (game : Game) : (broadcast silent).run.run game = (.ok (), game) := by
  have hcheck : (do
      unless (← get).store.size = game.store.names.length do throw .changedWhileTelling
      return ForInStep.yield PUnit.unit : Play _).run.run game = (.ok (.yield ⟨⟩), game) := by
    have hsize : game.store.size = game.store.names.length := (List.length_map ..).symm
    rw [run_get_bind, if_pos hsize]
    rfl
  rw [broadcast, run_get_bind]
  refine run_bind_ok (run_loop fun place _ => ?_) _
  rw [run_get_bind]
  dsimp only
  split
  · rw [run_bind_ok (run_tellObservers_silent _ _ game)]
    exact hcheck
  · exact hcheck

/-- A start on which the first card is drawn. -/
theorem run_start (hdraw : draw.run.run game = (.ok true, after)) :
    (Session.start silent).run.run game = (.ok after.scheduler.phase, after) := by
  rw [Session.start, run_bind_ok (run_broadcast_silent game), Game.advance, run_bind_ok hdraw]
  rfl

/-- A start comes to rest or is broken off. -/
theorem turnsTo_start (hphase : game.scheduler.phase = .idle) :
    Runs TurnsTo (Session.start silent) game := by
  have hadvance : Runs TurnsTo advance game := turnsTo_advance (.inl hphase)
  unfold Runs Session.start
  rw [run_bind_ok (run_broadcast_silent game)]
  exact hadvance

end EventDeck.Game
