import EventDeck.Proofs.Bounds
import EventDeck.Proofs.Build
import EventDeck.Proofs.Game.Commands
import EventDeck.Proofs.Game.Turns
import EventDeck.Proofs.Game.Written
import EventDeck.Proofs.Moments

/-!
# Values of variables

Whatever is requested of a session, the variables are changed by writes only (`Rewrites`).  So bounded
variables stay within their bounds over a whole session, as far as numbers are declared and written
(`bounds_kept_iff`); what is not a number gets past the bounds, and effects can compute it
(`overflow_not_bounded`).
-/

namespace EventDeck

open Game EventDeck.Expr

namespace Game

variable {α : Type} {game before between after : Game} {fault : Option Fault} {tell : Tell}

/-! ## Requests write -/

/-- All that happens to the variables is that numbers are written. -/
def Rewrites (before : Game) (_ : Option Fault) (after : Game) : Prop :=
  ∃ writes, before.store.writeAll writes = .ok after.store

/-- Nothing is written. -/
theorem rewrites_same (h : after.store = before.store) : Rewrites before fault after :=
  ⟨[], congrArg Except.ok h.symm⟩

/-- Writes one after the other are a longer list of writes. -/
instance writes_rewrites : Conduct.Writes Rewrites where
  refl _ := rewrites_same rfl
  next := by
    rintro before between after fault ⟨early, hearly⟩ ⟨late, hlate⟩
    exact ⟨early ++ late, Store.writeAll_append hearly hlate⟩
  report _ _ := rewrites_same rfl
  chance _ := rewrites_same rfl
  floor _ _ := rewrites_same rfl
  write {game store name x written} hwrite := by
    refine ⟨[(name, x)], ?_⟩
    rw [Store.writeAll, List.foldlM_cons, hwrite]
    rfl
  tolerance _ := rewrites_same rfl

/-- Commands move cards and write nothing. -/
theorem rewrites_runSpecial (text : String) (game : Game) : Runs Rewrites (runSpecial text) game := by
  unfold runSpecial
  split
  next command _ =>
    obtain ⟨_, -, catalog, -, result, diagnostics, generator, hrun⟩ := commands_execute command game
    unfold Runs
    rw [hrun]
    exact rewrites_same rfl
  next => exact runs_refused _ _ _ _

/-! ### Drawing -/

/-- Conditions are only read; the way to the next card writes nothing. -/
theorem rewrites_checkConditions (game : Game) : Runs Rewrites checkConditions game := by
  refine runs_get_bind ((runs_loop (fun key game => ?_) game).then fun _ _ => runs_pure _ _)
  refine Runs.then (runs_get_bind (runs_ite (fun _ => runs_pure _ _) fun _ => ?_))
    fun _ _ => runs_pure _ _
  refine (runs_evaluateCondition _ game).then fun wanted after => runs_get_bind ?_
  exact runs_ite (fun _ => rewrites_same rfl) fun _ =>
    runs_ite (fun _ => rewrites_same rfl) fun _ => runs_pure _ _

theorem rewrites_draw (game : Game) : Runs Rewrites draw game := by
  have hbegun : Runs Rewrites (enter .checkingConditions) game := rewrites_same rfl
  refine hbegun.then fun _ begun => (rewrites_checkConditions begun).then fun _ checked => ?_
  refine runs_get_bind ?_
  split
  next key _ =>
    have hpresent : Runs Rewrites (present key) checked := by
      unfold Runs
      rw [run_present]
      exact rewrites_same rfl
    exact hpresent.then fun _ _ => runs_pure _ _
  next => exact runs_pure _ _

theorem rewrites_reshuffle (game : Game) : Runs Rewrites reshuffle game := by
  have hchange : ∀ (f : Catalog → Catalog) game, Runs Rewrites (changeCatalog f) game :=
    fun _ _ => rewrites_same rfl
  have hshuffle : ∀ game, Runs Rewrites (changeByChance Catalog.shufflePool) game :=
    fun _ => rewrites_same rfl
  have hbegun : Runs Rewrites (enter .reshuffling) game := rewrites_same rfl
  refine hbegun.then fun _ after => Runs.then (rewrites_same rfl) fun _ after => runs_get_bind ?_
  refine (hchange _ after).then fun _ after => (hshuffle after).then fun _ after => ?_
  refine (hchange _ after).then fun _ after => runs_get_bind (runs_ite (fun _ => ?_) fun _ => ?_)
  · exact (runs_report _ _ after).then fun _ _ => runs_pure _ _
  · exact runs_pure _ _

theorem rewrites_advance (game : Game) : Runs Rewrites advance game := by
  have hend : ∀ after, Runs Rewrites (do return (← get).scheduler.phase) after :=
    fun _ => rewrites_same rfl
  have hhalt : ∀ after, Runs Rewrites (do halt; return (← get).scheduler.phase) after :=
    fun _ => rewrites_same rfl
  refine (rewrites_draw game).then fun drawn after => runs_ite (fun _ => hend after) fun _ => ?_
  refine (rewrites_reshuffle after).then fun filled after => runs_ite (fun _ => ?_) fun _ => hhalt after
  refine (rewrites_draw after).then fun drawn after => ?_
  exact runs_ite (fun _ => hend after) fun _ => hhalt after

theorem rewrites_reveal (game : Game) : Runs Rewrites reveal game := by
  refine runs_get_bind (runs_ite (fun _ => ?_) fun _ => runs_pure _ _)
  exact rewrites_same rfl

/-! ### Effects -/

section Effects

variable (htell : ∀ observer change game, Runs Rewrites (tell observer change) game)

include htell

theorem rewrites_runEffects (effects specials : List String) (game : Game) :
    Runs Rewrites (runEffects tell effects specials) game := by
  refine (runs_loop (fun effect game => ?_) game).then fun _ between => ?_
  · exact (runs_evaluate htell effect game).then fun _ _ => runs_pure _ _
  · exact (runs_visits rewrites_runSpecial _ between).then fun _ _ => runs_pure _ _

/-- A control has effects; it is looked for and its condition checked before. -/
theorem rewrites_press (control : String) (game : Game) :
    Runs Rewrites (press tell control) game := by
  have hrefused : ∀ message game, Runs Rewrites (notPressed control message) game :=
    fun message game => (runs_report _ _ game).then fun _ _ => runs_pure _ _
  refine runs_get_bind ?_
  split
  next => exact hrefused _ game
  next =>
    refine (runs_holds _ game).then fun pressed between => ?_
    refine runs_ite (fun _ => ?_) fun _ => hrefused _ between
    exact (rewrites_runEffects htell _ _ between).then fun _ _ => runs_pure _ _

/-- The writes of a selection are those of the effects of its action. -/
theorem rewrites_resolve (key : Nat) (action : Option Action) (mark : Nat) (game : Game) :
    Runs Rewrites (resolve tell key action mark) game := by
  have haccepted : Runs Rewrites (changeScheduler fun scheduler =>
      { scheduler with inputOpen := false, phase := .resolving }) game := rewrites_same rfl
  have hdiscard : ∀ game, Runs Rewrites (discard key) game := fun _ => rewrites_same rfl
  have hclosing : ∀ (result : Phase → Game → TurnResult) game, Runs Rewrites (do
      discard key
      let phase ← advance
      return result phase (← get)) game := fun _ game =>
    (hdiscard game).then fun _ after => (rewrites_advance after).then fun _ after =>
      runs_get_bind (runs_pure _ after)
  refine haccepted.then fun _ after => runs_get_bind ?_
  cases action with
  | none => exact (runs_pure _ after).then fun _ resolved => hclosing _ resolved
  | some action =>
    exact (rewrites_runEffects htell _ _ after).then fun _ resolved => hclosing _ resolved

theorem rewrites_select (choice : Choice) (game : Game) :
    Runs Rewrites (select tell choice) game := by
  have hinvalid : ∀ message game, Runs Rewrites (invalid message) game := fun message game =>
    (runs_report _ _ game).then fun _ after => runs_get_bind (runs_pure _ after)
  refine runs_get_bind ?_
  dsimp only
  split
  next key _ =>
    refine runs_ite (fun _ => runs_get_bind ?_) fun _ => runs_pure _ _
    refine (runs_availableActions game).then fun available after => ?_
    refine (runs_currentActions after).then fun actions after => ?_
    split
    next => exact rewrites_resolve htell _ _ _ after
    next => exact hinvalid _ after
  next => exact runs_pure _ _

theorem rewrites_start (game : Game) : Runs Rewrites (Session.start tell) game :=
  (runs_broadcast htell (fun _ => rewrites_same rfl) game).then fun _ after => rewrites_advance after

end Effects

end Game

/-! ## Whole sessions -/

namespace Session

/-- What can be done to the variables of a session: an operation, an effect, or a direct write. -/
inductive Input
  | operation (operation : Operation)
  | effect (text : String)
  | set (name : String) (x : Float)

/-- The game after an input, however it ends. -/
def Input.after (tell : Tell) : Input → Game → Game
  | .operation request, game => request.after tell game
  | .effect text, game => ((evaluate tell text).run.run game).2
  | .set name x, game => ((setVariable tell name x).run.run game).2

/-- The game after some inputs. -/
def afterInputs (tell : Tell) (inputs : List Input) (game : Game) : Game :=
  inputs.foldl (fun game input => input.after tell game) game

variable {tell : Tell} {deck : Deck} {settings : Settings} {generator : Generator} {start : Game}

section Observed

variable (htell : ∀ observer change game, Runs Rewrites (tell observer change) game)

include htell

/-- Whatever a session is asked, variables are changed by writes only. -/
theorem rewrites_operation (operation : Operation) (game : Game) :
    Rewrites game none (operation.after tell game) := by
  cases operation with
  | start => exact rewrites_start htell game
  | reveal => exact rewrites_reveal game
  | select choice => exact rewrites_select htell choice game
  | advance => exact rewrites_advance game
  | press control => exact rewrites_press htell control game

theorem rewrites_input (input : Input) (game : Game) :
    Rewrites game none (input.after tell game) := by
  cases input with
  | operation operation => exact rewrites_operation htell operation game
  | effect text => exact runs_evaluate htell text game
  | set name x => exact runs_setVariable htell name x game

/-- The writes of all inputs, in their order. -/
theorem rewrites_afterInputs (inputs : List Input) (game : Game) :
    Rewrites game none (afterInputs tell inputs game) := by
  induction inputs generalizing game with
  | nil => exact rewrites_same rfl
  | cons input inputs ih =>
    exact writes_rewrites.next (rewrites_input htell input game) (ih (input.after tell game))

end Observed

/-- The variables of a new game are those that the deck declares. -/
theorem vars_of_builds (built : Builds deck settings generator start)
    (h : deck.findings.errors = []) : start.store.vars = deck.declarations.map (·.variable) := by
  have hnames := (Deck.declarations_of_errors h).1
  rw [built.store]
  exact Store.vars_declared hnames

/-- In every session of a deck that can be played, the variables are changed by writes only.  After any
inputs, a bounded variable has been declared with its name and its maximum, and it is within its bounds
exactly when neither its maximum nor the latest number for it is not-a-number: the latest that was
written to it, or the one that was declared. -/
theorem bounds_kept_iff (built : buildGame deck settings generator = .ok start)
    (htell : ∀ observer change game, Runs Rewrites (tell observer change) game)
    (inputs : List Input) :
    ∃ writes, start.store.writeAll writes = .ok (afterInputs tell inputs start).store ∧
      ∀ v ∈ (afterInputs tell inputs start).store.vars, v.bounded →
        ∃ d ∈ deck.declarations, d.name = v.name ∧ d.max = v.max ∧
          (0.0 ≤ v.value ∧ v.value ≤ v.max ↔
            d.max.isNaN = false ∧ (Store.latest d.name d.value writes).isNaN = false) := by
  have hvars := vars_of_builds (builds_of_buildGame built) (errors_of_buildGame built)
  obtain ⟨writes, hwrites⟩ := rewrites_afterInputs htell inputs start
  refine ⟨writes, hwrites, fun v hv hbounded => ?_⟩
  exact Store.inBounds_declared_iff (errors_of_buildGame built) hvars hwrites hv hbounded

/-- A deck with one bounded variable. -/
def capped : Deck where
  events := [{ name := "e" }]
  declarations := [{ name := "hp", value := 5, max := 10 }]

theorem errors_capped : capped.findings.errors = [] := by decide +kernel

/-- Effects and writes that would take a variable out of its bounds on both sides. -/
theorem capped_bounds_kept :
    ∃ start, buildGame capped {} (.ofScript []) = .ok start ∧
      let after := afterInputs silent [.operation .start, .effect "hp -= 8", .set "hp" 1e300] start
      ∃ writes, start.store.writeAll writes = .ok after.store ∧
        ∀ v ∈ after.store.vars, v.bounded → ∃ d ∈ capped.declarations,
          d.name = v.name ∧ d.max = v.max ∧ (0.0 ≤ v.value ∧ v.value ≤ v.max ↔
            d.max.isNaN = false ∧ (Store.latest d.name d.value writes).isNaN = false) := by
  obtain ⟨start, hbuilt⟩ := exists_buildGame (.ofScript []) errors_capped
  exact ⟨start, hbuilt, bounds_kept_iff hbuilt runs_silent _⟩

/-! ### Past the bounds -/

/-- The store after a written statement. -/
def storeAfter (s : WrittenStatement) (store : Store) : Store :=
  match effect store s with
  | .ok (.write name x) => ((store.write name x).toOption.map Prod.fst).getD store
  | _ => store

/-- Without observers an effect writes what it means and nothing else. -/
theorem store_evaluate {s : WrittenStatement} {game : Game} (h : Game.Finite game.store)
    (hobservers : ∀ name, game.store.observersOf name = []) :
    ((evaluate silent (String.ofList s.text)).run.run game).2.store = storeAfter s game.store := by
  rw [evaluate, String.toList_ofList, trim_text, run_orReport,
    run_evaluateStatement_text silent s h hobservers, attempted, storeAfter]
  rcases effect game.store s with e | ⟨x⟩ | ⟨name, x⟩
  · rfl
  · rfl
  · dsimp only
    rcases game.store.write name x with fault | ⟨store, write⟩ <;> rfl

/-- The difference of two infinities. -/
def overflowText : String := "hp = 1e999 - 1e999"

/-- The variables of the deck. -/
def cappedStore : Store :=
  capped.declarations.foldl (fun store d => store.define d.name d.value d.max)
    { epsilon := ({} : Settings).epsilon }

/-- The text is that of a statement, and it takes the variable out of its bounds. -/
theorem exists_overflowStatement :
    ∃ s : WrittenStatement, String.ofList s.text = overflowText ∧
      ∃ v ∈ (storeAfter s cappedStore).vars, v.bounded ∧ ¬(0.0 ≤ v.value ∧ v.value ≤ v.max) := by
  let huge : Literal :=
    ⟨.whole ⟨['1'], by decide, by decide⟩,
      some ⟨false, none, ⟨['9', '9', '9'], by decide, by decide⟩⟩⟩
  let difference : Tree Operand .loosest :=
    .single <| .single <| .plain <| .sum <|
      .join (rfl : Joint.operation? .sum .minus = some .minus)
        (.single (.single (.unsigned (.operand (.literal huge)))))
        (.single (.unsigned (.operand (.literal huge))))
  refine ⟨.assignment ⟨['h', 'p'], by decide, by decide⟩ difference, ?_, ?_⟩ <;> decide +kernel

/-- Not-a-number is written to a bounded variable, and stays. -/
theorem overflow_not_bounded :
    ∃ start, buildGame capped {} (.ofScript []) = .ok start ∧
      ∃ v ∈ (afterInputs silent [.effect "hp = 1e999 - 1e999"] start).store.vars,
        v.bounded ∧ ¬(0.0 ≤ v.value ∧ v.value ≤ v.max) := by
  obtain ⟨start, hbuilt⟩ := exists_buildGame (.ofScript []) errors_capped
  refine ⟨start, hbuilt, ?_⟩
  have hstore : start.store = cappedStore := (builds_of_buildGame hbuilt).store
  have hfinite : Game.Finite start.store := by
    unfold Game.Finite
    rw [hstore]
    decide +kernel
  have hobservers : ∀ name, start.store.observersOf name = [] := fun _ => by rw [hstore]; rfl
  obtain ⟨s, htext, hout⟩ := exists_overflowStatement
  have hafter : (afterInputs silent [.effect overflowText] start).store = storeAfter s cappedStore := by
    rw [← hstore, ← htext]
    exact store_evaluate hfinite hobservers
  change ∃ v ∈ (afterInputs silent [.effect overflowText] start).store.vars, _
  rw [hafter]
  exact hout

end Session

end EventDeck
