import EventDeck.Proofs.Diagnostics
import EventDeck.Proofs.Game.Selections

/-!
# What requests report

All parts of a game share one sink, and requests make reports to it.  `Logs` says that this is all that a
request does with the sink: whatever the sink has kept, whatever its limit is and whether it is muted,
the request makes the same reports in the same order, has the same result and leads to the same game
apart from the sink.  So what a request reports is defined, by a run on a sink that keeps everything
(`reportsOf`).

The rules for composed requests are like those for conducts; a request that looks at the game must not
look at the sink (`logs_get_bind`).  A selection does, for the warnings that it returns, and is treated
without these (`logs_select`).
-/

namespace EventDeck

open EventDeck.Expr Text

namespace Game

/-- A game with another sink. -/
def withSink (game : Game) (sink : Diagnostics) : Game :=
  { game with diagnostics := sink }

/-- On a game with any sink, a request makes the same reports and is otherwise the same. -/
def LogsAt {α : Type} (request : Play α) (game : Game) : Prop :=
  ∃ (result : Except Fault α) (after : Game) (reports : List Diagnostic), ∀ sink,
    request.run.run (game.withSink sink) = (result, after.withSink (sink.reportAll reports))

/-- A request makes reports, and does nothing else with the sink. -/
def Logs {α : Type} (request : Play α) : Prop :=
  ∀ game, LogsAt request game

/-- What a request reports. -/
def reportsOf {α : Type} (request : Play α) (game : Game) : List Diagnostic :=
  (request.run.run (game.withSink ⟨none, [], 0, 0⟩)).2.diagnostics.entries

/-- Whether an attempt makes reports and does nothing else with the sink. -/
def LogsAttempt {α : Type} (attempt : Attempt α) : Prop :=
  Logs attempt.run

variable {α β : Type}

/-! ## Composed requests -/

/-- A request that does nothing reports nothing. -/
theorem logs_pure (a : α) : Logs (pure a) :=
  fun game => ⟨.ok a, game, [], fun _ => rfl⟩

/-- A fault goes out of the program; it is not reported. -/
theorem logs_throw (fault : Fault) : Logs (throw fault : Play α) :=
  fun game => ⟨.error fault, game, [], fun _ => rfl⟩

theorem logs_except (x : Except Fault α) : Logs (liftM x) := by
  cases x with
  | error fault => exact logs_throw fault
  | ok a => exact logs_pure a

/-- The one request that reaches the sink: it makes one report. -/
theorem logs_report (code : DiagnosticCode) (message : String) : Logs (report code message) :=
  fun game => ⟨.ok ⟨⟩, game, [⟨code, message⟩], fun _ => rfl⟩

/-- A request that changes the game without its sink. -/
theorem logs_modify {f : Game → Game}
    (hf : ∀ game sink, f (game.withSink sink) = (f game).withSink sink) :
    Logs (modify f : Play PUnit) := by
  refine fun game => ⟨.ok ⟨⟩, f game, [], fun sink => ?_⟩
  exact congrArg (Prod.mk _) (hf game sink)

/-- A request for something that is in the game, without its sink. -/
theorem logs_modifyGet {f : Game → α × Game}
    (hf : ∀ game sink, f (game.withSink sink) = ((f game).1, (f game).2.withSink sink)) :
    Logs (modifyGet f : Play α) := by
  refine fun game => ⟨.ok (f game).1, (f game).2, [], fun sink => ?_⟩
  exact congrArg (fun found : α × Game => (Except.ok found.1, found.2)) (hf game sink)

/-- Composed requests report one after the other.  After a fault of the first there are no further
reports, and what was reported before it stays. -/
theorem Logs.bind {x : Play α} {f : α → Play β} (hx : Logs x) (hf : ∀ a, Logs (f a)) :
    Logs (x >>= f) := by
  intro game
  obtain ⟨result, between, first, hfirst⟩ := hx game
  cases result with
  | error fault => exact ⟨.error fault, between, first, fun sink => run_bind_error (hfirst sink) f⟩
  | ok a =>
    -- The second request starts at the game between, whose sink is not the one the first began with;
    -- that is why `LogsAt` is about every sink.
    obtain ⟨result, after, rest, hrest⟩ := hf a between
    refine ⟨result, after, first ++ rest, fun sink => ?_⟩
    rw [run_bind_ok (hfirst sink), hrest, Diagnostics.reportAll_append]

theorem Logs.map {x : Play α} (hx : Logs x) (f : α → β) : Logs (f <$> x) := by
  rw [map_eq_pure_bind]
  exact hx.bind fun a => logs_pure (f a)

/-- A request that looks at the game, but not at the sink. -/
theorem logs_get_bind {f : Game → Play α} (hf : ∀ game sink, f (game.withSink sink) = f game)
    (h : ∀ game, Logs (f game)) : Logs (get >>= f) := by
  intro game
  obtain ⟨result, after, reports, hrun⟩ := h game game
  refine ⟨result, after, reports, fun sink => ?_⟩
  rw [run_get_bind, hf, hrun]

/-- A choice that does not depend on the sink. -/
theorem logs_ite {c : Prop} [Decidable c] {x y : Play α} (hx : Logs x) (hy : Logs y) :
    Logs (if c then x else y) := by
  split
  · exact hx
  · exact hy

/-- A loop over a list, whether it ends early or not. -/
theorem logs_loop {items : List α} {round : α → PUnit → Play (ForInStep PUnit)}
    (hround : ∀ a, Logs (round a ⟨⟩)) : Logs (forIn items ⟨⟩ round) := by
  induction items with
  | nil => exact logs_pure _
  | cons a items ih =>
    rw [List.forIn_cons]
    refine (hround a).bind fun step => ?_
    cases step with
    | done => exact logs_pure _
    | yield => exact ih

/-- A request for each member of a list. -/
theorem logs_visits {visit : α → Play β} (hvisit : ∀ a, Logs (visit a)) (items : List α) :
    Logs (items.mapM visit) := by
  induction items with
  | nil => exact logs_pure _
  | cons a items ih =>
    rw [List.mapM_cons]
    exact (hvisit a).bind fun _ => ih.bind fun _ => logs_pure _

/-- A test of each member of a list. -/
theorem logs_filterM {test : α → Play Bool} (htest : ∀ a, Logs (test a)) (items : List α) :
    Logs (items.filterM test) := by
  -- The members found so far are carried along, so the induction is for all of them.
  have haux : ∀ found, Logs (items.filterAuxM test found) := by
    induction items with
    | nil => exact fun _ => logs_pure _
    | cons a items ih => exact fun _ => (htest a).bind fun _ => ih _
  exact (haux []).bind fun _ => logs_pure _

/-! ### Attempts -/

theorem logsAttempt_pure (a : α) : LogsAttempt (pure a) := by
  change Logs (pure (.ok a) : Play (Except ExprError α))
  exact logs_pure _

theorem logsAttempt_except (x : Except ExprError α) : LogsAttempt (liftM x) := by
  cases x <;> exact logs_pure _

theorem logsAttempt_lift {x : Play α} (h : Logs x) : LogsAttempt (liftM x) :=
  h.bind fun _ => logsAttempt_pure _

/-- An attempt that fails skips what follows it; the error itself reaches no sink before it is reported.
-/
theorem LogsAttempt.bind {x : Attempt α} {f : α → Attempt β} (hx : LogsAttempt x)
    (hf : ∀ a, LogsAttempt (f a)) : LogsAttempt (x >>= f) := by
  change Logs (x.run >>= ExceptT.bindCont f : Play _)
  refine Logs.bind hx fun result => ?_
  cases result with
  | ok a => exact hf a
  | error e => exact logs_pure _

/-- The calls of a text are drawn from left to right, so the reports of their bounds are in that order.
-/
theorem logsAttempt_replaceRandoms {replace : RandomCall → Attempt (List Char)}
    (hreplace : ∀ call, LogsAttempt (replace call)) (text : List Char) :
    LogsAttempt (replaceRandoms replace text) := by
  -- The cases are those of the search: the text is read up, a call begins here, or none does.  The
  -- search stands in the types of the cases that follow it, so each is split once more and compared.
  induction text using replaceRandoms.induct with
  | case1 =>
    rw [replaceRandoms]
    exact logsAttempt_pure _
  | case2 c cs call rest h ih =>
    rw [replaceRandoms]
    split
    next call' rest' h' =>
      obtain ⟨rfl, rfl⟩ : call = call' ∧ rest = rest' := by
        rw [h] at h'
        cases h'
        exact ⟨rfl, rfl⟩
      exact (hreplace call).bind fun _ => ih.bind fun _ => logsAttempt_pure _
    next h' => rw [h] at h'; cases h'
  | case3 c cs h ih =>
    rw [replaceRandoms]
    split
    next h' => rw [h] at h'; cases h'
    next => exact ih.bind fun _ => logsAttempt_pure _

/-! ## Evaluation -/

/-- The value of a name; a name without a variable is reported. -/
theorem logs_valueOf (name : String) : Logs (valueOf name) := by
  refine logs_get_bind (fun _ _ => rfl) fun game => ?_
  cases game.store.find? name with
  | some v => exact logs_pure _
  | none => exact (logs_report _ _).bind fun _ => logs_pure _

/-- Each run of name characters is looked up by itself, so a name that occurs twice is reported twice.
-/
theorem logs_substitute (text : List Char) : Logs (substitute text) := by
  refine (logs_visits (fun run => ?_) _).bind fun _ => logs_pure _
  exact logs_ite ((logs_valueOf _).bind fun _ => logs_pure _) (logs_pure _)

theorem logs_drawUniform : Logs drawUniform :=
  logs_modifyGet fun _ _ => rfl

theorem logs_drawBelow (bound : Nat) : Logs (drawBelow bound) :=
  logs_modifyGet fun _ _ => rfl

/-- A draw reports nothing: a floor that does not exist is a fault. -/
theorem logs_randomBetween (low high : Float) : Logs (randomBetween low high) :=
  logs_ite (logs_except _) (logs_drawUniform.bind fun _ => logs_except _)

theorem logsAttempt_drawCall (call : RandomCall) : LogsAttempt (drawCall call) :=
  (logsAttempt_except _).bind fun _ => (logsAttempt_except _).bind fun _ =>
    (logsAttempt_lift (logs_randomBetween _ _)).bind fun _ => logsAttempt_pure _

/-- The three stages of an evaluation: names, calls of `Random`, arithmetic. -/
theorem logsAttempt_evaluateValue (text : List Char) : LogsAttempt (evaluateValue text) :=
  (logsAttempt_lift (logs_substitute text)).bind fun _ =>
    (logsAttempt_replaceRandoms logsAttempt_drawCall _).bind fun _ => logsAttempt_except _

/-- What becomes of a failed attempt: one more report, and the answer that stands for the failure. -/
theorem logs_orReport {text : List Char} {otherwise : α} {attempt : Attempt α}
    (h : LogsAttempt attempt) : Logs (orReport text otherwise attempt) := by
  refine Logs.bind h fun result => ?_
  cases result with
  | ok a => exact logs_pure _
  | error e => exact (logs_report _ _).bind fun _ => logs_pure _

/-- A condition is a value that is not zero. -/
theorem logs_evaluateCondition (text : String) : Logs (evaluateCondition text) :=
  logs_orReport ((logsAttempt_evaluateValue _).bind fun _ => logsAttempt_pure _)

/-- A blank condition holds without an evaluation. -/
theorem logs_holds (condition : String) : Logs (holds condition) :=
  logs_ite (logs_pure _) (logs_evaluateCondition condition)

/-! ## Commands -/

/-- Events and their order are not in the sink, and neither is the scheduler. -/
theorem logs_changeCatalog (f : Catalog → Catalog) : Logs (changeCatalog f) :=
  logs_modify fun _ _ => rfl

theorem logs_changeScheduler (f : Scheduler → Scheduler) : Logs (changeScheduler f) :=
  logs_modify fun _ _ => rfl

theorem logs_changeByChance (f : Catalog → Generator → Catalog × Generator) :
    Logs (changeByChance f) :=
  logs_modify fun _ _ => rfl

/-- A command that cannot be carried out: the report is the reason. -/
theorem logs_refused (command : Option Command) (code : DiagnosticCode) (message : String) :
    Logs (refused command code message) :=
  (logs_report _ _).bind fun _ => logs_pure _

theorem logs_idOf (key : Nat) : Logs (idOf key) :=
  logs_get_bind (fun _ _ => rfl) fun _ => logs_pure _

/-- The end of a command that is carried out. -/
theorem logs_applied (command : Command) (f : Catalog → Catalog) (key : Nat) (text : String → String) :
    Logs (do changeCatalog f; applied command (text (← idOf key))) :=
  (logs_changeCatalog f).bind fun _ => (logs_idOf key).bind fun _ => logs_pure _

/-- An event added by a command: where it comes to stand may be drawn, which nothing reports. -/
theorem logs_runAdd (command : Command) (name : String) : Logs (runAdd command name) := by
  refine logs_get_bind (fun _ _ => rfl) fun game => ?_
  cases game.catalog.findInactive? name with
  | none => exact logs_refused _ _ _
  | some key =>
    refine (logs_changeCatalog _).bind fun _ => logs_get_bind (fun _ _ => rfl) fun game => ?_
    refine logs_ite ((logs_idOf key).bind fun _ => logs_pure _) ?_
    refine (logs_changeCatalog _).bind fun _ => logs_get_bind (fun _ _ => rfl) fun game => ?_
    have hadded : ∀ place : Nat, Logs (do
        changeCatalog (·.insertAt key place)
        applied command s!"Added {← idOf key} at position {Decimal.integerText place}") :=
      fun place => logs_applied command _ key fun id =>
        s!"Added {id} at position {Decimal.integerText place}"
    exact logs_ite ((logs_pure 0).bind hadded) (((logs_drawBelow _).map _).bind hadded)

/-- A chained event, which may leave another place of the queue before. -/
theorem logs_runChain (command : Command) (name : String) : Logs (runChain command name) := by
  refine logs_get_bind (fun _ _ => rfl) fun game => ?_
  cases game.catalog.findFirst? name with
  | none => exact logs_refused _ _ _
  | some key =>
    refine logs_get_bind (fun _ _ => rfl) fun game => logs_ite (logs_refused _ _ _) ?_
    -- Moved or not, the end is the same.
    have hchained := logs_applied command (·.insertAt key 1) key fun id => s!"Chained {id}"
    exact logs_ite hchained ((logs_changeCatalog _).bind fun _ => hchained)

/-- Each command either is refused or changes the catalog. -/
theorem logs_execute (command : Command) : Logs (execute command) := by
  -- One case for each command; those that look for one event have the same shape, but each looks in
  -- another part of the catalog.
  cases command with
  | destroy =>
    refine logs_get_bind (fun _ _ => rfl) fun game => ?_
    cases game.catalog.head? with
    | none => exact logs_refused _ _ _
    | some key => exact logs_applied _ _ key _
  | add name => exact logs_runAdd _ name
  | remove name =>
    refine logs_get_bind (fun _ _ => rfl) fun game => ?_
    cases game.catalog.findQueued? name with
    | none => exact logs_refused _ _ _
    | some key => exact logs_applied _ _ key _
  | activate name =>
    refine logs_get_bind (fun _ _ => rfl) fun game => ?_
    cases game.catalog.findInactive? name with
    | none => exact logs_refused _ _ _
    | some key => exact logs_applied _ _ key _
  | deactivate name =>
    refine logs_get_bind (fun _ _ => rfl) fun game => ?_
    cases game.catalog.findActive? name with
    | none => exact logs_refused _ _ _
    | some key => exact logs_applied _ _ key _
  | chain name => exact logs_runChain _ name
  | randomChain first second percent =>
    exact (logs_drawBelow 100).bind fun _ => logs_runChain _ _

/-- A text that is not a command is refused, with the report of it. -/
theorem logs_runSpecial (text : String) : Logs (runSpecial text) := by
  unfold runSpecial
  split
  · exact logs_execute _
  · exact logs_refused _ _ _

/-! ## The scheduler -/

/-- The condition of an event is evaluated only when it has one; afterwards the event may change places,
which nothing reports. -/
theorem logs_checkCondition (key : Nat) : Logs (checkCondition key) := by
  refine logs_get_bind (fun _ _ => rfl) fun game => logs_ite (logs_pure _) ?_
  refine (logs_evaluateCondition _).bind fun wanted => logs_get_bind (fun _ _ => rfl) fun game => ?_
  exact logs_ite (logs_changeCatalog _) (logs_ite (logs_changeCatalog _) (logs_pure _))

/-- The conditions of all events in the order of the catalog, so their reports are in that order. -/
theorem logs_checkConditions : Logs checkConditions :=
  logs_get_bind (fun _ _ => rfl) fun _ =>
    (logs_loop fun key => (logs_checkCondition key).bind fun _ => logs_pure _).bind fun _ => logs_pure _

/-- The phase is read and set. -/
theorem logs_reveal : Logs reveal :=
  logs_get_bind (fun _ _ => rfl) fun _ =>
    logs_ite ((logs_changeScheduler _).bind fun _ => logs_pure _) (logs_pure _)

theorem logs_present (key : Nat) : Logs (present key) :=
  (logs_changeScheduler _).bind fun _ => logs_get_bind (fun _ _ => rfl) fun _ =>
    logs_ite (logs_reveal.bind fun _ => logs_pure _) (logs_pure _)

/-- The reports of a draw are those of the conditions that it checks. -/
theorem logs_draw : Logs draw := by
  refine (logs_changeScheduler _).bind fun _ => logs_checkConditions.bind fun _ =>
    logs_get_bind (fun _ _ => rfl) fun game => ?_
  cases game.catalog.head? with
  | none => exact logs_pure _
  | some key => exact (logs_present key).bind fun _ => logs_pure _

/-- A reshuffle that leaves the queue empty reports it. -/
theorem logs_reshuffle : Logs reshuffle := by
  refine (logs_changeScheduler _).bind fun _ => (logs_changeScheduler _).bind fun _ => ?_
  refine logs_get_bind (fun _ _ => rfl) fun game => (logs_changeCatalog _).bind fun _ => ?_
  refine (logs_changeByChance _).bind fun _ => (logs_changeCatalog _).bind fun _ => ?_
  refine logs_get_bind (fun _ _ => rfl) fun game => ?_
  -- the one report: no active event was left to shuffle
  exact logs_ite ((logs_report _ _).bind fun _ => logs_pure _) (logs_pure _)

/-- From one card to the next: at most two draws with a reshuffle between them. -/
theorem logs_advance : Logs advance := by
  have hend : Logs (do return (← get).scheduler.phase) :=
    logs_get_bind (fun _ _ => rfl) fun _ => logs_pure _
  have hhalt : Logs halt := logs_changeScheduler _
  -- the first draw, the reshuffle, then the draw from the shuffled queue
  refine logs_draw.bind fun drawn => logs_ite hend ?_
  refine logs_reshuffle.bind fun filled => logs_ite ?_ (hhalt.bind fun _ => hend)
  exact logs_draw.bind fun drawn => logs_ite hend (hhalt.bind fun _ => hend)

theorem logs_currentActions : Logs currentActions := by
  refine logs_get_bind (fun _ _ => rfl) fun game => ?_
  cases game.scheduler.current <;> exact logs_pure _

/-- Which actions are offered is asked of their conditions, which may report. -/
theorem logs_availableActions : Logs availableActions :=
  logs_currentActions.bind fun _ => (logs_filterM (fun _ => logs_holds _) _).bind fun _ => logs_pure _

/-- A choice that names no action that is offered. -/
theorem logs_invalid (message : String) : Logs (invalid message) :=
  (logs_report _ _).bind fun _ => logs_get_bind (fun _ _ => rfl) fun _ => logs_pure _

theorem logs_discard (key : Nat) : Logs (discard key) :=
  (logs_changeCatalog _).bind fun _ => logs_changeScheduler _

/-! ## Writing and choosing

Observers are code of their own; they are taken to make reports and to do nothing else with the sink. -/

section Told

variable {tell : Tell} (htell : ∀ observer change, Logs (tell observer change))

include htell

theorem logs_tellObservers (v : Variable) (old : Float) : Logs (tellObservers tell v old) := by
  refine logs_get_bind (fun _ _ => rfl) fun game => Logs.bind (logs_loop fun observer => ?_)
    fun _ => logs_pure _
  exact logs_get_bind (fun _ _ => rfl) fun game => (htell observer _).bind fun _ => logs_pure _

/-- A write reports nothing itself; the observers it tells may. -/
theorem logs_setVariable (name : String) (x : Float) : Logs (setVariable tell name x) := by
  refine logs_get_bind (fun _ _ => rfl) fun game => (logs_except _).bind fun (store, write) => ?_
  refine (logs_modify fun _ _ => rfl).bind fun _ => ?_
  -- only a changed value is told
  cases write with
  | created | kept => exact logs_pure _
  | changed v old => exact (logs_tellObservers htell v old).bind fun _ => logs_pure _

/-- The four kinds of statements: a value, a step by one, a compound assignment, an assignment. -/
theorem logsAttempt_evaluateStatement (text : List Char) :
    LogsAttempt (evaluateStatement tell text) := by
  have hwrite : ∀ name x, LogsAttempt (liftM (setVariable tell name x)) :=
    fun name x => logsAttempt_lift (logs_setVariable htell name x)
  have hstart : ∀ name, LogsAttempt (liftM (startingValue name)) :=
    fun name => logsAttempt_lift (logs_get_bind (fun _ _ => rfl) fun _ => logs_pure _)
  -- The name is checked before anything is evaluated, and the value before it is written; each part
  -- makes its own reports.
  unfold evaluateStatement
  split
  · exact (logsAttempt_evaluateValue _).bind fun _ => logsAttempt_pure _
  · exact (logsAttempt_except _).bind fun _ => (hstart _).bind fun _ => hwrite _ _
  · exact (logsAttempt_except _).bind fun _ => (hstart _).bind fun _ =>
      (logsAttempt_evaluateValue _).bind fun _ => (logsAttempt_except _).bind fun _ =>
        (logsAttempt_except _).bind fun _ => hwrite _ _
  · exact (logsAttempt_except _).bind fun _ => (logsAttempt_evaluateValue _).bind fun _ =>
      (logsAttempt_except _).bind fun _ => hwrite _ _

/-- A statement of a deck, with the report of its failure. -/
theorem logs_evaluate (text : String) : Logs (evaluate tell text) :=
  logs_orReport (logsAttempt_evaluateStatement htell _)

/-- All effects of an action in their order, then all its commands. -/
theorem logs_runEffects (effects specials : List String) :
    Logs (runEffects tell effects specials) := by
  refine Logs.bind (logs_loop fun effect => ?_) fun _ => ?_
  · exact (logs_evaluate htell effect).bind fun _ => logs_pure _
  · exact (logs_visits logs_runSpecial _).bind fun _ => logs_pure _

end Told

/-- A result of a selection without the warnings. -/
def unwarned (result : TurnResult) : TurnResult :=
  { result with warnings := [] }

/-- The mark has an influence on nothing but the warnings. -/
theorem unwarned_resolve (tell : Tell) (key : Nat) (action : Option Action) (mark mark' : Nat) :
    unwarned <$> resolve tell key action mark = unwarned <$> resolve tell key action mark' := by
  cases action <;> simp only [resolve, map_bind, map_pure, unwarned]

section Told

variable {tell : Tell} (htell : ∀ observer change, Logs (tell observer change))

include htell

/-- A resolved card: the effects of the action, the discard, the way to the next card. -/
theorem logs_resolve (key : Nat) (action : Option Action) (mark : Nat) :
    Logs (unwarned <$> resolve tell key action mark) := by
  -- The card is discarded and left with an action or without one, so the end is treated apart.
  have hclosing : ∀ (game : Game) outcome, Logs (unwarned <$> do
      discard key
      let phase ← advance
      return turnResult key action mark game outcome phase (← get)) := by
    intro game outcome
    rw [map_bind]
    refine (logs_discard key).bind fun _ => ?_
    rw [map_bind]
    refine logs_advance.bind fun phase => ?_
    rw [map_bind]
    exact logs_get_bind (fun _ _ => rfl) fun _ => logs_pure _
  rw [resolve, map_bind]
  refine (logs_changeScheduler _).bind fun _ => ?_
  rw [map_bind]
  refine logs_get_bind (fun _ _ => rfl) fun game => ?_
  cases action with
  | none =>
    exact hclosing game {}
  | some action =>
    rw [map_bind]
    exact (logs_runEffects htell _ _).bind fun outcome => hclosing game outcome

/-- A selection with any outcome, apart from its warnings. -/
theorem logs_select (choice : Choice) : Logs (unwarned <$> select tell choice) := by
  have hpure : ∀ result, Logs (unwarned <$> (pure result : Play TurnResult)) :=
    fun result => (logs_pure result).map _
  rw [select, map_bind]
  refine logs_get_bind (fun _ _ => rfl) fun game => ?_
  dsimp only
  cases game.scheduler.current with
  | none => exact hpure _
  | some key =>
    dsimp only
    split
    · rw [map_bind]
      -- The selection notes how much the sink has kept, so the second look depends on the sink; what
      -- follows it does not, apart from the warnings.
      refine logs_get_bind (fun game sink => ?_) fun game => ?_
      · simp only [map_bind]
        refine bind_congr fun available => bind_congr fun actions => ?_
        cases chosen choice actions available with
        | ok action => exact unwarned_resolve tell key action _ _
        | error message => rfl
      · rw [map_bind]
        refine logs_availableActions.bind fun available => ?_
        rw [map_bind]
        refine logs_currentActions.bind fun actions => ?_
        cases chosen choice actions available with
        | ok action => exact logs_resolve htell key action _
        | error message => exact (logs_invalid message).map _
    · exact hpure _

end Told

/-! ## What was reported -/

/-- A function of the result changes neither what is done nor what is reported. -/
theorem run_map (f : α → β) (x : Play α) (game : Game) :
    (f <$> x).run.run game = ((x.run.run game).1.map f, (x.run.run game).2) := by
  rw [map_eq_pure_bind, run_bind]
  rcases x.run.run game with ⟨fault | a, after⟩ <;> rfl

/-- Whatever the sink is, what is reported to it is the same. -/
theorem withSink_reportsOf {f : α → β} {x : Play α} (h : Logs (f <$> x)) (game : Game)
    (sink : Diagnostics) :
    (x.run.run (game.withSink sink)).2 =
      (x.run.run game).2.withSink (sink.reportAll (reportsOf x game)) := by
  obtain ⟨result, after, reports, hrun⟩ := h game
  have hafter : ∀ sink : Diagnostics, (x.run.run (game.withSink sink)).2 =
      after.withSink (sink.reportAll reports) := by
    intro sink
    have hsink := congrArg Prod.snd (hrun sink)
    rwa [run_map] at hsink
  -- `reportsOf` runs on a sink without a limit, where all reports are kept and nothing precedes them.
  have hreports : reportsOf x game = reports := by
    rw [reportsOf, hafter]
    exact Diagnostics.entries_of_nil rfl rfl reports
  have hself : (x.run.run game).2 = after.withSink (game.diagnostics.reportAll reports) :=
    hafter game.diagnostics
  rw [hreports, hafter, hself]
  rfl

section Warnings

variable {tell : Tell} {choice : Choice} {game after : Game} {result : TurnResult} {key mark : Nat}
  {action : Option Action}

/-- A resolution returns what its sink has kept since the mark. -/
theorem warnings_of_resolve
    (hrun : (resolve tell key action mark).run.run game = (.ok result, after)) :
    result.warnings = (after.diagnostics.since mark).map (·.text) := by
  -- The warnings are read off at the end only, after the draw of the next card: what this draw reports
  -- is among them.
  have hclosing : ∀ {game before : Game} {outcome}, (do
      discard key
      let phase ← advance
      return turnResult key action mark before outcome phase (← get) : Play TurnResult).run.run game =
        (.ok result, after) → result.warnings = (after.diagnostics.since mark).map (·.text) := by
    intro game before outcome hrun
    obtain ⟨⟨⟩, discarded, -, hrun⟩ := exists_run_of_bind hrun
    obtain ⟨phase, advanced, -, hrun⟩ := exists_run_of_bind hrun
    cases hrun
    rfl
  rw [resolve] at hrun
  obtain ⟨⟨⟩, resolving, -, hrun⟩ := exists_run_of_bind hrun
  rw [run_get_bind] at hrun
  cases action with
  | none => exact hclosing hrun
  | some action =>
    obtain ⟨outcome, resolved, -, hrun⟩ := exists_run_of_bind hrun
    exact hclosing hrun

/-- The warnings of a selection that succeeds are what has been reported since it began. -/
theorem warnings_of_select
    (hrun : (select tell choice).run.run game = (.ok result, after)) (hsuccess : result.success = true) :
    result.warnings = (after.diagnostics.since game.diagnostics.mark).map (·.text) := by
  have hrefused : ∀ {scheduler : Scheduler}, ¬(blocked scheduler).success = true :=
    Bool.false_ne_true
  -- A selection that succeeds has resolved a card; all other outcomes are refusals, which do not
  -- succeed.
  rw [select, run_get_bind] at hrun
  dsimp only at hrun
  split at hrun
  · split at hrun
    · rw [run_get_bind] at hrun
      obtain ⟨available, between, -, hrun⟩ := exists_run_of_bind hrun
      obtain ⟨actions, between, -, hrun⟩ := exists_run_of_bind hrun
      split at hrun
      · exact warnings_of_resolve hrun
      · cases hrun
        cases hsuccess
    · cases hrun
      exact absurd hsuccess hrefused
  · cases hrun
    exact absurd hsuccess hrefused

end Warnings

end Game

end EventDeck
