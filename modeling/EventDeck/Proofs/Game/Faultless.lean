import EventDeck.Proofs.Game.Drawing
import EventDeck.Proofs.Game.Offers

/-!
# Turns without faults

Bounds without a floor come from random calls only.  Where neither the conditions of the cards nor
what the effects of an action evaluate have any, resolving a card with that action ends in no fault,
provided that writes are not compared with a negative tolerance (`fault_of_resolve`).  The same is then
so of every selection (`fault_of_select`).
-/

namespace EventDeck

open Game EventDeck.Expr Text

namespace Game

/-- There is no random call in what an effect evaluates. -/
def Undrawn (effect : String) : Prop :=
  ¬HasCall (Statement.ofText (trim effect.toList))

variable {game after : Game} {text : List Char} {fault : Fault} {key : Nat}

/-! ## Statements -/

theorem floor_ne_negativeTolerance (x : Float) :
    Decimal.floor x ≠ .error .negativeTolerance := by
  rw [Decimal.floor]
  split <;> simp

/-- When evaluation complains of a negative tolerance, there is one. -/
theorem EvaluationFault.negative (h : EvaluationFault game .negativeTolerance) :
    game.store.epsilon < 0 := by
  rcases h with ⟨x, hfloor⟩ | ⟨-, hnegative⟩
  · exact absurd hfloor (floor_ne_negativeTolerance x)
  · exact hnegative

/-- A write that nobody is told of can only fail for its tolerance. -/
theorem fault_of_setVariable {name : String} {x : Float}
    (hrun : (setVariable silent name x).run.run game = (.error fault, after)) :
    fault = .negativeTolerance := by
  change (liftM (game.store.write name x) >>= _ : Play Float).run.run game = _ at hrun
  cases hwrite : game.store.write name x with
  | error other =>
    rw [hwrite] at hrun
    cases hrun
    exact (Store.write_eq_error hwrite).1
  | ok written =>
    obtain ⟨store, write⟩ := written
    rw [hwrite] at hrun
    cases write with
    | created | kept => cases hrun
    | changed v old =>
      change (tellObservers silent v old >>= fun _ => pure v.value : Play Float).run.run _ = _
        at hrun
      rw [run_bind_ok (run_tellObservers_silent v old _)] at hrun
      cases hrun

/-- Any value, any failure, and no fault but that of a negative tolerance. -/
abbrev Tolerates {α : Type} (attempt : Attempt α) (game : Game) : Prop :=
  EndsWith (fun _ => True) (fun _ => True) (· = .negativeTolerance) attempt game

theorem tolerates_evaluateValue (h : CallFree text) (game : Game) :
    Tolerates (evaluateValue text) game := by
  unfold Tolerates EndsWith
  rw [run_evaluateValue h game]
  split <;> trivial

theorem tolerates_evaluateStatement (h : ¬HasCall (Statement.ofText text)) (game : Game) :
    Tolerates (evaluateStatement silent text) game := by
  have hexcept : ∀ {α : Type} (x : Except ExprError α) game, Tolerates (liftM x) game :=
    fun _ _ => ends_except (fun _ _ => trivial) fun _ _ => trivial
  have hstart : ∀ name game, Tolerates (liftM (startingValue name)) game :=
    fun _ _ => ends_lift (fun _ _ _ => trivial) fun _ _ hrun => nomatch hrun
  have hwrite : ∀ name x game, Tolerates (liftM (setVariable silent name x)) game :=
    fun _ _ _ => ends_lift (fun _ _ _ => trivial) fun _ _ => fault_of_setVariable
  have hvalue : ∀ body wanted, evaluated? (Statement.ofText text) = some (body, wanted) →
      ∀ game, Tolerates (evaluateValue body) game := fun body wanted hbody =>
    tolerates_evaluateValue fun call hcall => h ⟨body, wanted, call, hbody, hcall⟩
  rw [evaluateStatement]
  -- nothing but the value could draw, and there is no call in it
  cases hs : Statement.ofText text with
  | expression body =>
    rw [hs] at hvalue
    exact (hvalue body _ rfl game).bind fun _ _ _ => ends_pure trivial
  | step up target =>
    exact (hexcept _ game).bind fun _ _ game => (hstart _ game).bind fun _ _ => hwrite _ _
  | update operation target body =>
    rw [hs] at hvalue
    exact (hexcept _ game).bind fun _ _ game => (hstart _ game).bind fun _ _ game =>
      (hvalue body _ rfl game).bind fun _ _ game => (hexcept _ game).bind fun _ _ game =>
        (hexcept _ game).bind fun _ _ => hwrite _ _
  | assignment target body =>
    rw [hs] at hvalue
    exact (hexcept _ game).bind fun _ _ game => (hvalue body _ rfl game).bind fun _ _ game =>
      (hexcept _ game).bind fun _ _ => hwrite _ _

/-! ## Effects -/

/-- If there is a fault, it is that of a negative tolerance. -/
def Tolerant : Conduct :=
  fun _ fault _ => ∀ f, fault = some f → f = .negativeTolerance

instance composes_tolerant : Conduct.Composes Tolerant where
  refl _ := no_fault
  next _ second := second

theorem tolerant_evaluate {effect : String} (h : Undrawn effect) (game : Game) :
    Runs Tolerant (evaluate silent effect) game := by
  have hends := tolerates_evaluateStatement h game
  unfold Tolerates EndsWith at hends
  unfold Runs
  rw [evaluate, run_orReport]
  rcases hrun : (evaluateStatement silent (trim effect.toList)).run.run.run game with
    ⟨f | e | x, after⟩
  · rw [hrun] at hends
    rintro _ ⟨⟩
    exact hends
  · exact no_fault
  · exact no_fault

theorem tolerant_runSpecial (text : String) (game : Game) : Runs Tolerant (runSpecial text) game := by
  unfold Runs runSpecial
  split
  next command _ =>
    obtain ⟨_, -, _, -, _, _, _, hrun⟩ := commands_execute command game
    rw [hrun]
    exact no_fault
  next => exact no_fault

theorem tolerant_runEffects {effects : List String} (specials : List String)
    (h : ∀ effect ∈ effects, Undrawn effect) (game : Game) :
    Runs Tolerant (runEffects silent effects specials) game := by
  refine (runs_forIn (fun effect _ => Undrawn effect) (fun _ _ _ _ h => h)
    (fun effect game hundrawn => ?_) game fun effect heffect => ?_).then fun _ between => ?_
  · exact (tolerant_evaluate hundrawn game).then fun _ _ => runs_pure _ _
  · exact h effect (List.mem_filter.mp heffect).1
  · exact (runs_visits tolerant_runSpecial _ between).then fun _ _ => runs_pure _ _

theorem tolerant_outcomeOf {action : Option Action}
    (h : ∀ a, action = some a → ∀ effect ∈ a.effects, Undrawn effect) (game : Game) :
    Runs Tolerant (outcomeOf action) game := by
  cases action with
  | none => exact runs_pure _ _
  | some a => exact tolerant_runEffects _ (h a rfl) game

/-! ## Moving on -/

theorem turn_showing (key : Nat) (game : Game) :
    (game.showing key).scheduler.turn = game.scheduler.turn := by
  rw [showing]
  split <;> rfl

/-- Play has halted, or the first card of the queue is presented. -/
def ComesToRest (autoReveal : Bool) (game : Game) : Prop :=
  Halted game.scheduler ∨ ∃ key, PresentsHead autoReveal game key

theorem comesToRest_stopped (autoReveal : Bool) (game : Game) : ComesToRest autoReveal game.stopped :=
  .inl ⟨rfl, rfl, rfl⟩

/-- Without random calls moving on comes to an end, and it does not count as a turn. -/
theorem exists_run_advance (h : game.catalog.ChanceFree) :
    ∃ after, advance.run.run game = (.ok after.scheduler.phase, after) ∧
      after.scheduler.turn = game.scheduler.turn ∧ ComesToRest game.settings.autoReveal after := by
  obtain ⟨checked, hsorts, -, hdraw⟩ := exists_sorts fun key _ => h key
  have hturn : checked.scheduler.turn = game.scheduler.turn := by
    rw [hsorts.scheduler]
    rfl
  rw [← hturn, ← hsorts.settings]
  -- First draw, reshuffle, second draw; none of them ends in a fault, since no condition draws.
  cases hhead : checked.catalog.head? with
  | some key =>
    rw [hhead] at hdraw
    exact ⟨_, run_advance_of_draw hdraw, turn_showing key checked, .inr ⟨key, presents_showing hhead⟩⟩
  | none =>
    rw [hhead] at hdraw
    have hreshuffle := run_reshuffle_eq checked
    by_cases hempty : checked.reshuffled.catalog.queue.isEmpty = true
    · rw [if_pos hempty] at hreshuffle
      exact ⟨stopped _, run_advance_of_empty hdraw hreshuffle, rfl, comesToRest_stopped _ _⟩
    · rw [if_neg hempty] at hreshuffle
      have hfaces : game.catalog.SameFaces checked.reshuffled.catalog := by
        have hchecked : game.catalog.SameFaces checked.catalog :=
          .of_cards (hsorts.catalog ▸ Catalog.cards_checked ..)
        exact hchecked.trans (checked.catalog.sameFaces_rebuilt ..)
      obtain ⟨later, hlater, -, hagain⟩ := exists_sorts fun key _ => hfaces.chanceFree h key
      have hcount : later.scheduler.turn = checked.scheduler.turn := by
        rw [hlater.scheduler]
        rfl
      have hsettings : later.settings = checked.settings := hlater.settings
      rw [← hcount, ← hsettings]
      cases hlast : later.catalog.head? with
      | some key =>
        rw [hlast] at hagain
        exact ⟨_, run_advance_of_filled hdraw hreshuffle hagain, turn_showing key later,
          .inr ⟨key, presents_showing hlast⟩⟩
      | none =>
        rw [hlast] at hagain
        exact ⟨later.stopped, run_advance_of_filled hdraw hreshuffle hagain, rfl,
          comesToRest_stopped _ _⟩

/-! ## Resolving -/

/-- The end of a turn: the card is discarded, and moving on comes to an end. -/
theorem exists_run_closing {α : Type} {result : Phase → Game → α} (h : game.catalog.ChanceFree) :
    ∃ after, (do discard key; let phase ← advance; return result phase (← get) :
        Play α).run.run game = (.ok (result after.scheduler.phase after), after) ∧
      after.scheduler.turn = game.scheduler.turn + 1 ∧ ComesToRest game.settings.autoReveal after := by
  obtain ⟨discarded, hdiscard, hfaces, hturn, hsettings⟩ : ∃ discarded,
      (discard key).run.run game = (.ok (), discarded) ∧
        game.catalog.SameFaces discarded.catalog ∧
        discarded.scheduler.turn = game.scheduler.turn + 1 ∧ discarded.settings = game.settings :=
    ⟨_, rfl, (Catalog.SameFaces.setDiscarded ..).trans (.of_cards rfl), rfl, rfl⟩
  obtain ⟨after, hadvance, hcount, hrest⟩ := exists_run_advance (hfaces.chanceFree h)
  rw [run_bind_ok hdiscard, run_bind_ok hadvance, ← hturn, ← hsettings]
  exact ⟨after, rfl, hcount, hrest⟩

/-- Resolving a card without random calls ends in a fault only when the tolerance is negative. -/
theorem fault_of_resolve {action : Option Action} {mark : Nat}
    (hready : (Act.accept key).Ready game.scheduler)
    (haction : ∀ a, action = some a → a ∈ (game.catalog.card key).actions)
    (hconditions : game.catalog.ChanceFree)
    (heffects : ∀ a, action = some a → ∀ effect ∈ a.effects, Undrawn effect)
    (hrun : (resolve silent key action mark).run.run game = (.error fault, after)) :
    fault = .negativeTolerance ∧ game.store.epsilon < 0 := by
  have htolerant : fault = .negativeTolerance := by
    rw [run_resolve] at hrun
    rcases houtcome : (outcomeOf action).run.run (game.accepting key) with ⟨f | outcome, resolved⟩
    · rw [run_bind_error houtcome] at hrun
      cases hrun
      exact (tolerant_outcomeOf heffects _).of_error houtcome _ rfl
    · have hsteady : Affects (game.accepting key) none resolved :=
        (affects_outcomeOf haction).of_ok houtcome
      obtain ⟨next, hclosing, -⟩ := exists_run_closing (hsteady.faces.chanceFree hconditions)
      rw [run_bind_ok houtcome, hclosing] at hrun
      cases hrun
  subst htolerant
  have hturns : TurnsTo game (some .negativeTolerance) after :=
    (turnsTo_resolve hready haction mark).of_error hrun
  exact ⟨rfl, (hturns.breaks _ rfl).1.negative⟩

/-- A card that is resolved takes one turn, and then moving on comes to an end. -/
theorem comesToRest_of_resolve {action : Option Action} {mark : Nat} {result : TurnResult}
    (haction : ∀ a, action = some a → a ∈ (game.catalog.card key).actions)
    (hconditions : game.catalog.ChanceFree)
    (hrun : (resolve silent key action mark).run.run game = (.ok result, after)) :
    after.scheduler.turn = game.scheduler.turn + 1 ∧ ComesToRest game.settings.autoReveal after := by
  rw [run_resolve] at hrun
  obtain ⟨outcome, resolved, houtcome, hrun⟩ := exists_run_of_bind hrun
  have hsteady : Affects (game.accepting key) none resolved :=
    (affects_outcomeOf haction).of_ok houtcome
  obtain ⟨next, hclosing, hturn, hrest⟩ :=
    exists_run_closing (hsteady.faces.chanceFree hconditions)
  rw [hclosing] at hrun
  cases hrun
  rw [hsteady.scheduler] at hturn
  rw [hsteady.settings] at hrest
  exact ⟨hturn, hrest⟩

/-- A selection for a card without random calls ends in a fault only when the tolerance is negative. -/
theorem fault_of_select {choice : Choice} (hready : (Act.accept key).Ready game.scheduler)
    (hconditions : game.catalog.ChanceFree)
    (hactions : ∀ action ∈ game.actions, CallFree (trim action.condition.toList))
    (heffects : ∀ action ∈ game.actions, ∀ effect ∈ action.effects, Undrawn effect)
    (hrun : (select silent choice).run.run game = (.error fault, after)) :
    fault = .negativeTolerance ∧ game.store.epsilon < 0 := by
  obtain ⟨diagnostics, havailable⟩ := run_availableActions_of_callFree hactions
  have hcard : game.actions = (game.catalog.card key).actions := actions_of_current hready.2.2
  cases hchosen : chosen choice game.actions game.openActions with
  | ok action =>
    rw [run_select_of_ok hready havailable hchosen] at hrun
    have haction : ∀ a, action = some a → a ∈ game.actions := by
      rintro a rfl
      exact mem_of_chosen hchosen
    -- the reports of the conditions make no difference
    let between : Game := { game with diagnostics }
    have hfault : fault = .negativeTolerance ∧ between.store.epsilon < 0 :=
      fault_of_resolve hready (fun a ha => hcard ▸ haction a ha) hconditions
        (fun a ha => heffects a (haction a ha)) hrun
    exact hfault
  | error message =>
    rw [run_select_of_error hready havailable hchosen] at hrun
    cases hrun

end Game

end EventDeck
