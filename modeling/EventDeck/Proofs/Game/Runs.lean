import EventDeck.Game.Turn
import EventDeck.Proofs.Catalog
import EventDeck.Proofs.Game.Run
import EventDeck.Proofs.Store

/-!
# How requests run

A request leads from one state of a game to another, with a result or with a fault.  A `Conduct` is
a statement about the two states and the fault, and `Runs R request game` says that it is true of a
request.  The rules for composed requests are the same for all conducts.

Evaluation is treated here once for every conduct that allows for it: it changes values, reports and
chance and nothing else, and its only faults are numbers without a floor and negative tolerances
(`Evaluates`).  A conduct need not allow for all of this: the value of an expression is only read, with
reports and chance (`Conduct.Reads`), and only statements write (`Conduct.Writes`).
-/

namespace EventDeck.Game

open EventDeck.Expr Text

/-! ## Conducts -/

/-- What may be said about the states before and after a request, and the fault in which it ended. -/
abbrev Conduct := Game → Option Fault → Game → Prop

/-- Only values, reports and chance have changed. -/
structure Quiet (before after : Game) : Prop where
  settings : after.settings = before.settings
  catalog : after.catalog = before.catalog
  panel : after.panel = before.panel
  scheduler : after.scheduler = before.scheduler
  epsilon : after.store.epsilon = before.store.epsilon

/-- What authors wrote and how the game is set up are as they were. -/
structure Frame (before after : Game) : Prop where
  settings : after.settings = before.settings
  faces : before.catalog.SameFaces after.catalog
  panel : after.panel = before.panel
  epsilon : after.store.epsilon = before.store.epsilon

/-- The scheduler, too, is as it was; flags of cards and the order of the queue may have changed. -/
structure Steady (before after : Game) : Prop extends Frame before after where
  scheduler : after.scheduler = before.scheduler

/-- The faults of evaluation: a number has no floor, or the tolerance for writing is negative. -/
def EvaluationFault (game : Game) (fault : Fault) : Prop :=
  (∃ x, Decimal.floor x = .error fault) ∨
    fault = .negativeTolerance ∧ game.store.epsilon < 0

/-- A conduct that can be followed step by step and allows for evaluation. -/
class Conduct.Allows (R : Conduct) : Prop where
  quiet {before after : Game} : Quiet before after → R before none after
  next {before between after : Game} {fault : Option Fault} :
    R before none between → R between fault after → R before fault after
  fault {game : Game} {fault : Fault} : EvaluationFault game fault → R game (some fault) game

/-- A conduct that can be followed step by step. -/
class Conduct.Composes (R : Conduct) : Prop where
  refl (game : Game) : R game none game
  next {before between after : Game} {fault : Option Fault} :
    R before none between → R between fault after → R before fault after

/-- A conduct that allows for reading: for reports, for chance, and for bounds that have no floor. -/
class Conduct.Reads (R : Conduct) : Prop extends R.Composes where
  report (d : Diagnostic) (game : Game) :
    R game none { game with diagnostics := game.diagnostics.report d }
  chance (game : Game) : R game none { game with generator := game.generator.uniform.2 }
  floor {x : Float} {fault : Fault} (game : Game) :
    Decimal.floor x = .error fault → R game (some fault) game

/-- A conduct that allows for writing, too. -/
class Conduct.Writes (R : Conduct) : Prop extends R.Reads where
  write {game : Game} {store : Store} {name : String} {x : Float} {written : Store.Write} :
    game.store.write name x = .ok (store, written) → R game none { game with store }
  tolerance {game : Game} :
    game.store.epsilon < 0 → R game (some .negativeTolerance) game

/-- Only values, reports and chance have changed, and the fault is one of evaluation. -/
structure Evaluates (before : Game) (fault : Option Fault) (after : Game) : Prop
    extends Quiet before after where
  faults : ∀ f, fault = some f → EvaluationFault before f

/-- The scheduler has not moved, and the fault is one of evaluation. -/
structure Behaves (before : Game) (fault : Option Fault) (after : Game) : Prop
    extends Steady before after where
  faults : ∀ f, fault = some f → EvaluationFault before f

/-- A request that ends without a fault has none. -/
theorem no_fault {P : Fault → Prop} (f : Fault) (h : none = some f) : P f :=
  absurd h.symm (Option.some_ne_none f)

/-- The fault of a result. -/
def fault? {α : Type} : Except Fault α → Option Fault
  | .ok _ => none
  | .error fault => some fault

/-- Whether a request, run on a state, follows a conduct, however it ends. -/
def Runs {α : Type} (R : Conduct) (request : Play α) (game : Game) : Prop :=
  R game (fault? (request.run.run game).1) (request.run.run game).2

/-- The actions of the current card. -/
def actions (game : Game) : List Action :=
  match game.scheduler.current with
  | none => []
  | some key => (game.catalog.card key).actions

variable {α β : Type} {R : Conduct} {game before between after : Game}

theorem run_currentActions (game : Game) :
    currentActions.run.run game = (.ok game.actions, game) := by
  rw [currentActions, run_get_bind, actions]
  cases game.scheduler.current <;> rfl

theorem Quiet.refl (game : Game) : Quiet game game :=
  ⟨rfl, rfl, rfl, rfl, rfl⟩

/-- What is left alone twice is left alone. -/
theorem Quiet.trans (first : Quiet before between) (second : Quiet between after) :
    Quiet before after where
  settings := second.settings.trans first.settings
  catalog := second.catalog.trans first.catalog
  panel := second.panel.trans first.panel
  scheduler := second.scheduler.trans first.scheduler
  epsilon := second.epsilon.trans first.epsilon

theorem Frame.refl (game : Game) : Frame game game :=
  ⟨rfl, .refl _, rfl, rfl⟩

theorem Frame.trans (first : Frame before between) (second : Frame between after) :
    Frame before after where
  settings := second.settings.trans first.settings
  faces := first.faces.trans second.faces
  panel := second.panel.trans first.panel
  epsilon := second.epsilon.trans first.epsilon

/-- A quiet request stays within every frame. -/
theorem Quiet.frame (h : Quiet before after) : Frame before after :=
  ⟨h.settings, .of_cards (congrArg Catalog.cards h.catalog), h.panel, h.epsilon⟩

theorem Quiet.steady (h : Quiet before after) : Steady before after :=
  ⟨h.frame, h.scheduler⟩

theorem Steady.trans (first : Steady before between) (second : Steady between after) :
    Steady before after :=
  ⟨first.toFrame.trans second.toFrame, second.scheduler.trans first.scheduler⟩

/-- A fault of evaluation does not depend on more than the tolerance for writing. -/
theorem EvaluationFault.of_epsilon {fault : Fault} (h : EvaluationFault after fault)
    (hepsilon : after.store.epsilon = before.store.epsilon) : EvaluationFault before fault :=
  h.imp_right fun ⟨hkind, hnegative⟩ => ⟨hkind, hepsilon ▸ hnegative⟩

theorem Conduct.Allows.refl (hR : R.Allows) (game : Game) : R game none game :=
  hR.quiet (.refl game)

/-- Evaluations one after the other are one evaluation. -/
instance allows_evaluates : Conduct.Allows Evaluates where
  quiet h := ⟨h, no_fault⟩
  next first second :=
    ⟨first.toQuiet.trans second.toQuiet,
      fun f hf => (second.faults f hf).of_epsilon first.epsilon⟩
  fault h := ⟨.refl _, by rintro _ ⟨⟩; exact h⟩

instance allows_behaves : Conduct.Allows Behaves where
  quiet h := ⟨h.steady, no_fault⟩
  next first second :=
    ⟨first.toSteady.trans second.toSteady,
      fun f hf => (second.faults f hf).of_epsilon first.epsilon⟩
  fault h := ⟨(Quiet.refl _).steady, by rintro _ ⟨⟩; exact h⟩

/-- A conduct that allows for evaluation allows for everything that evaluation does. -/
theorem Conduct.Allows.evaluates (hR : R.Allows) {fault : Option Fault}
    (h : Evaluates before fault after) : R before fault after := by
  have hquiet := hR.quiet h.toQuiet
  cases fault with
  | none => exact hquiet
  | some f =>
    exact hR.next hquiet (hR.fault ((h.faults f rfl).of_epsilon h.epsilon.symm))

instance (priority := low) Conduct.Allows.writes [hR : R.Allows] : R.Writes where
  refl := hR.refl
  next := hR.next
  report _ _ := hR.quiet ⟨rfl, rfl, rfl, rfl, rfl⟩
  chance _ := hR.quiet ⟨rfl, rfl, rfl, rfl, rfl⟩
  floor {x} _ _ h := hR.fault (.inl ⟨x, h⟩)
  write h := hR.quiet ⟨rfl, rfl, rfl, rfl, Store.epsilon_of_write h⟩
  tolerance h := hR.fault (.inr ⟨rfl, h⟩)

/-- What only evaluates follows every conduct that allows for evaluation. -/
theorem Runs.of_evaluates {x : Play α} [hR : R.Allows] (h : Runs Evaluates x game) : Runs R x game :=
  hR.evaluates h

/-! ## Composed requests -/

/-- The conduct of a request that ends without a fault. -/
theorem Runs.of_ok {x : Play α} {a : α} (h : Runs R x game)
    (hrun : x.run.run game = (.ok a, after)) : R game none after := by
  unfold Runs at h
  rwa [hrun] at h

/-- The conduct of a request that ends in a fault. -/
theorem Runs.of_error {x : Play α} {fault : Fault} (h : Runs R x game)
    (hrun : x.run.run game = (.error fault, after)) : R game (some fault) after := by
  unfold Runs at h
  rwa [hrun] at h

/-- A request that depends on the state it is run on. -/
theorem runs_get_bind {f : Game → Play α} (h : Runs R (f game) game) : Runs R (get >>= f) game :=
  h

/-- A request that depends on a truth value. -/
theorem runs_ite {c : Prop} [Decidable c] {x y : Play α} (hx : c → Runs R x game)
    (hy : ¬c → Runs R y game) : Runs R (if c then x else y) game := by
  split
  next h => exact hx h
  next h => exact hy h

section Composed

variable [hR : R.Composes]

/-- A request that does nothing conducts itself in any way. -/
theorem runs_pure (a : α) (game : Game) : Runs R (pure a : Play α) game :=
  hR.refl game

/-- The second request is run where the first one has ended, and not at all after a fault. -/
theorem Runs.bind {x : Play α} {f : α → Play β} (hx : Runs R x game)
    (hf : ∀ a after, x.run.run game = (.ok a, after) → Runs R (f a) after) :
    Runs R (x >>= f) game := by
  unfold Runs at hx ⊢
  rw [run_bind]
  rcases hrun : x.run.run game with ⟨fault | a, after⟩
  · -- a fault ends the request where it is
    rwa [hrun] at hx
  · rw [hrun] at hx
    exact hR.next hx (hf a after hrun)

/-- A sequel that relies on what the conduct says of the first request. -/
theorem Runs.sequel {x : Play α} {f : α → Play β} (hx : Runs R x game)
    (hf : ∀ a after, R game none after → Runs R (f a) after) : Runs R (x >>= f) game :=
  hx.bind fun a after hrun => hf a after (hx.of_ok hrun)

/-- A sequel that follows the conduct whatever it is run on. -/
theorem Runs.then {x : Play α} {f : α → Play β} (hx : Runs R x game)
    (hf : ∀ a after, Runs R (f a) after) : Runs R (x >>= f) game :=
  hx.bind fun a after _ => hf a after

/-- A loop over a list, each round of which may rely on what was so at the beginning and stays so. -/
theorem runs_forIn {items : List α} {round : α → PUnit → Play (ForInStep PUnit)}
    (stays : α → Game → Prop)
    (hstays : ∀ a {before after}, R before none after → stays a before → stays a after)
    (hround : ∀ a game, stays a game → Runs R (round a ⟨⟩) game) (game : Game)
    (h : ∀ a ∈ items, stays a game) : Runs R (forIn items ⟨⟩ round) game := by
  induction items generalizing game with
  | nil => exact runs_pure _ _
  | cons a items ih =>
    rw [List.forIn_cons]
    have hfirst : Runs R (round a ⟨⟩) game := hround a game (h a List.mem_cons_self)
    refine hfirst.sequel fun step after hafter => ?_
    cases step with
    | done => exact runs_pure _ _
    | yield =>
      -- what the other rounds rely on is still so after the first
      exact ih after fun b hb => hstays b hafter (h b (List.mem_cons_of_mem _ hb))

/-- A loop whose rounds rely on nothing. -/
theorem runs_loop {items : List α} {round : α → PUnit → Play (ForInStep PUnit)}
    (hround : ∀ a game, Runs R (round a ⟨⟩) game) (game : Game) :
    Runs R (forIn items ⟨⟩ round) game :=
  runs_forIn (fun _ _ => True) (fun _ _ _ _ _ => trivial) (fun a game _ => hround a game) game
    fun _ _ => trivial

/-- Visits to the elements of a list, each of which may rely on what was so at the beginning and
stays so. -/
theorem runs_mapM {visit : α → Play β} (stays : α → Game → Prop)
    (hstays : ∀ a {before after}, R before none after → stays a before → stays a after)
    (hvisit : ∀ a game, stays a game → Runs R (visit a) game) {items : List α} (game : Game)
    (h : ∀ a ∈ items, stays a game) : Runs R (items.mapM visit) game := by
  induction items generalizing game with
  | nil => exact runs_pure _ _
  | cons a items ih =>
    rw [List.mapM_cons]
    have hfirst : Runs R (visit a) game := hvisit a game (h a List.mem_cons_self)
    refine hfirst.sequel fun _ after hafter => ?_
    have hrest := ih after fun b hb => hstays b hafter (h b (List.mem_cons_of_mem _ hb))
    exact hrest.then fun _ _ => runs_pure _ _

/-- Visits that rely on nothing. -/
theorem runs_visits {visit : α → Play β} (hvisit : ∀ a game, Runs R (visit a) game)
    (items : List α) (game : Game) : Runs R (items.mapM visit) game :=
  runs_mapM (fun _ _ => True) (fun _ _ _ _ _ => trivial) (fun a game _ => hvisit a game) game
    fun _ _ => trivial

/-- A test of each member of a list. -/
theorem runs_filterM {test : α → Play Bool} {items : List α}
    (htest : ∀ a ∈ items, ∀ game, Runs R (test a) game) (game : Game) :
    Runs R (items.filterM test) game := by
  have haux : ∀ found game, Runs R (items.filterAuxM test found) game := by
    induction items with
    | nil => exact fun _ _ => runs_pure _ _
    | cons a items ih =>
      obtain ⟨hfirst, hrest⟩ := List.forall_mem_cons.mp htest
      exact fun _ game => (hfirst game).then fun _ after => ih hrest _ after
  exact (haux [] game).then fun _ _ => runs_pure _ _

/-! ### Attempts -/

/-- Whether an attempt, run on a state, follows a conduct. -/
def RunsAttempt (R : Conduct) (attempt : Attempt α) (game : Game) : Prop :=
  Runs R attempt.run game

theorem runsAttempt_pure (a : α) (game : Game) : RunsAttempt R (pure a : Attempt α) game :=
  hR.refl game

/-- A failed attempt is not gone on with; it is no fault. -/
theorem RunsAttempt.then {x : Attempt α} {f : α → Attempt β} (hx : RunsAttempt R x game)
    (hf : ∀ a after, RunsAttempt R (f a) after) : RunsAttempt R (x >>= f) game := by
  change Runs R (x.run >>= ExceptT.bindCont f : Play _) game
  refine Runs.then hx fun result after => ?_
  cases result with
  | ok a => exact hf a after
  | error e => exact runs_pure _ _

theorem runsAttempt_lift {x : Play α} (h : Runs R x game) : RunsAttempt R (liftM x) game :=
  Runs.then h fun _ _ => runs_pure _ _

theorem runsAttempt_except (x : Except ExprError α) (game : Game) :
    RunsAttempt R (liftM x : Attempt α) game := by
  cases x <;> exact hR.refl game

/-- The calls of a text, from left to right. -/
theorem runsAttempt_replaceRandoms {replace : RandomCall → Attempt (List Char)}
    (hreplace : ∀ call game, RunsAttempt R (replace call) game) (text : List Char) (game : Game) :
    RunsAttempt R (replaceRandoms replace text) game := by
  induction text using replaceRandoms.induct generalizing game with
  | case1 =>
    rw [replaceRandoms]
    exact runsAttempt_pure _ _
  | case2 c cs call rest h ih =>
    rw [replaceRandoms]
    split
    next call' rest' h' =>
      obtain ⟨rfl, rfl⟩ : call = call' ∧ rest = rest' := by
        rw [h] at h'
        cases h'
        exact ⟨rfl, rfl⟩
      exact (hreplace call game).then fun _ after =>
        (ih after).then fun _ _ => runsAttempt_pure _ _
    next h' => rw [h] at h'; cases h'
  | case3 c cs h ih =>
    rw [replaceRandoms]
    split
    next h' => rw [h] at h'; cases h'
    next => exact (ih game).then fun _ _ => runsAttempt_pure _ _

theorem runs_startingValue (name : String) (game : Game) : Runs R (startingValue name) game :=
  hR.refl game

/-! ### What is offered -/

theorem runs_currentActions (game : Game) : Runs R currentActions game := by
  refine runs_get_bind ?_
  split <;> exact runs_pure _ _

/-- What is available is decided by conditions of the current actions. -/
theorem runs_availableActions_of
    (h : ∀ action ∈ game.actions, ∀ after, Runs R (holds action.condition) after) :
    Runs R availableActions game := by
  refine (runs_currentActions game).bind fun actions after hrun => ?_
  rw [run_currentActions] at hrun
  cases hrun
  refine Runs.then (runs_filterM (fun pair hpair => ?_) game) fun _ _ => runs_pure _ _
  exact h pair.1 (List.fst_mem_of_mem_zipIdx hpair)

/-- What is offered is found by the conditions of the actions alone. -/
theorem runs_choices_of
    (h : ∀ action ∈ game.actions, ∀ after, Runs R (holds action.condition) after) :
    Runs R choices game := by
  refine runs_get_bind (runs_ite (fun _ => runs_pure _ _) fun _ => ?_)
  refine (runs_availableActions_of h).then fun available after => ?_
  refine (runs_currentActions after).then fun actions after => ?_
  exact runs_ite (fun _ => runs_get_bind (runs_pure _ _)) fun _ => runs_pure _ _

theorem runs_availableControls_of
    (h : ∀ control ∈ game.panel, ∀ after, Runs R (holds control.condition) after) :
    Runs R availableControls game :=
  runs_get_bind <| (runs_filterM h game).then fun _ _ => runs_pure _ _

end Composed

/-! ## Reading -/

section Reads

variable [hR : R.Reads]

/-- Reports, chance and floors are what evaluation consists of besides looking. -/
theorem runs_report (code : DiagnosticCode) (message : String) (game : Game) :
    Runs R (report code message) game :=
  hR.report ⟨code, message⟩ game

theorem runs_refused (command : Option Command) (code : DiagnosticCode) (message : String)
    (game : Game) : Runs R (refused command code message) game :=
  (runs_report _ _ game).then fun _ _ => runs_pure _ _

/-- The value of a name is looked up; a missing name is reported. -/
theorem runs_valueOf (name : String) (game : Game) : Runs R (valueOf name) game := by
  unfold Runs
  rw [run_valueOf, afterReading]
  split
  · exact hR.refl game
  · exact hR.report (unboundReport name) game

theorem runs_substitute (text : List Char) (game : Game) : Runs R (substitute text) game := by
  refine (runs_visits (fun run game => ?_) _ game).then fun _ _ => runs_pure _ _
  exact runs_ite (fun _ => (runs_valueOf _ game).then fun _ _ => runs_pure _ _)
    fun _ => runs_pure _ _

/-- A failed attempt is reported. -/
theorem runs_orReport {text : List Char} {otherwise : α} {attempt : Attempt α}
    (h : RunsAttempt R attempt game) : Runs R (orReport text otherwise attempt) game := by
  refine Runs.then h fun result after => ?_
  cases result with
  | ok a => exact runs_pure _ _
  | error e => exact (runs_report _ _ after).then fun _ _ => runs_pure _ _

theorem runs_drawUniform (game : Game) : Runs R drawUniform game :=
  hR.chance game

theorem runs_floor (x : Float) (game : Game) :
    Runs R (liftM (Decimal.floor x) : Play Int) game := by
  rcases hfloor : Decimal.floor x with fault | n
  · exact hR.floor game hfloor
  · exact hR.refl game

/-- A draw takes one number from the generator and its floor, which may not exist. -/
theorem runs_randomBetween (low high : Float) (game : Game) :
    Runs R (randomBetween low high) game :=
  runs_ite (fun _ => runs_floor _ _) fun _ =>
    (runs_drawUniform game).then fun _ _ => runs_floor _ _

theorem runsAttempt_drawCall (call : RandomCall) (game : Game) :
    RunsAttempt R (drawCall call) game :=
  (runsAttempt_except _ game).then fun _ after =>
    (runsAttempt_except _ after).then fun _ after =>
      (runsAttempt_lift (runs_randomBetween _ _ after)).then fun _ _ =>
        runsAttempt_pure _ _

/-- An evaluation has the conduct of its parts. -/
theorem runsAttempt_evaluateValue (text : List Char) (game : Game) :
    RunsAttempt R (evaluateValue text) game :=
  (runsAttempt_lift (runs_substitute text game)).then fun _ after =>
    (runsAttempt_replaceRandoms runsAttempt_drawCall _ after).then fun _ _ =>
      runsAttempt_except _ _

theorem runs_evaluateCondition (text : String) (game : Game) :
    Runs R (evaluateCondition text) game :=
  runs_orReport <|
    (runsAttempt_evaluateValue _ game).then fun _ _ => runsAttempt_pure _ _

/-- A condition that is blank is not evaluated. -/
theorem runs_holds (condition : String) (game : Game) : Runs R (holds condition) game :=
  runs_ite (fun _ => runs_pure _ _) fun _ => runs_evaluateCondition condition game

theorem runs_availableActions (game : Game) : Runs R availableActions game :=
  runs_availableActions_of fun _ _ => runs_holds _

theorem runs_choices (game : Game) : Runs R choices game :=
  runs_choices_of fun _ _ => runs_holds _

theorem runs_availableControls (game : Game) : Runs R availableControls game :=
  runs_availableControls_of fun _ _ => runs_holds _

end Reads

/-! ## Writing

Observers are code of their own; they are taken to follow the conduct too. -/

section Writes

variable [hR : R.Writes] {tell : Tell} (htell : ∀ observer change game, Runs R (tell observer change) game)

include htell

/-- The observers of a variable are told one after the other. -/
theorem runs_tellObservers (v : Variable) (old : Float) (game : Game) :
    Runs R (tellObservers tell v old) game := by
  refine runs_get_bind ((runs_loop (fun observer game => ?_) game).then fun _ _ => runs_pure _ _)
  exact runs_get_bind ((htell _ _ game).then fun _ _ => runs_pure _ _)

/-- Telling the observers everything may end in a fault of its own. -/
theorem runs_broadcast (htold : ∀ game, R game (some .changedWhileTelling) game) (game : Game) :
    Runs R (broadcast tell) game := by
  have hcheck : ∀ size game, Runs R
      (do
        unless (← get).store.size = size do throw .changedWhileTelling
        return ForInStep.yield PUnit.unit : Play (ForInStep PUnit)) game := fun size game =>
    runs_get_bind (runs_ite (fun _ => runs_pure _ _) fun _ =>
      Runs.then (htold game) fun _ _ => runs_pure _ _)
  refine runs_get_bind ((runs_loop (fun place game => ?_) game).then fun _ _ => runs_pure _ _)
  refine runs_get_bind ?_
  dsimp only
  split
  next v _ =>
    exact (runs_tellObservers htell v 0.0 game).then fun _ after => hcheck _ after
  next => exact hcheck _ game

/-- A write, and then its observers. -/
theorem runs_setVariable (name : String) (x : Float) (game : Game) :
    Runs R (setVariable tell name x) game := by
  refine runs_get_bind ?_
  cases hwrite : game.store.write name x with
  | error fault =>
    obtain ⟨rfl, hepsilon⟩ := Store.write_eq_error hwrite
    exact hR.tolerance hepsilon
  | ok written =>
    obtain ⟨store, write⟩ := written
    have hwritten : Runs R (liftM (.ok (store, write) : Except Fault _) : Play _) game := hR.refl game
    refine hwritten.bind fun _ _ hrun => ?_
    cases hrun
    have hchange : Runs R (changeStore fun _ => store) game := hR.write hwrite
    refine hchange.then fun _ after => ?_
    cases write with
    | created => exact runs_pure _ _
    | kept value => exact runs_pure _ _
    | changed v old =>
      exact (runs_tellObservers htell v old after).then fun _ _ => runs_pure _ _

/-- A statement of any kind. -/
theorem runsAttempt_evaluateStatement (text : List Char) (game : Game) :
    RunsAttempt R (evaluateStatement tell text) game := by
  have hwrite : ∀ name x game, RunsAttempt R (liftM (setVariable tell name x)) game :=
    fun name x game => runsAttempt_lift (runs_setVariable htell name x game)
  have hstart : ∀ name game, RunsAttempt R (liftM (startingValue name)) game :=
    fun name game => runsAttempt_lift (runs_startingValue name game)
  unfold evaluateStatement
  split
  · exact (runsAttempt_evaluateValue _ game).then fun _ _ => runsAttempt_pure _ _
  · exact (runsAttempt_except _ game).then fun _ after =>
      (hstart _ after).then fun _ after => hwrite _ _ after
  · exact (runsAttempt_except _ game).then fun _ after =>
      (hstart _ after).then fun _ after =>
        (runsAttempt_evaluateValue _ after).then fun _ after =>
          (runsAttempt_except _ after).then fun _ after =>
            (runsAttempt_except _ after).then fun _ after => hwrite _ _ after
  · exact (runsAttempt_except _ game).then fun _ after =>
      (runsAttempt_evaluateValue _ after).then fun _ after =>
        (runsAttempt_except _ after).then fun _ after => hwrite _ _ after

theorem runs_evaluate (text : String) (game : Game) : Runs R (evaluate tell text) game :=
  runs_orReport (runsAttempt_evaluateStatement htell _ game)

end Writes

end EventDeck.Game
