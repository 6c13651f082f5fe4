import EventDeck.Proofs.Game.Reports
import EventDeck.Service.Basic

/-!
# Warnings

A turn ends with warnings: the last diagnostics that were reported in it, as many as the sink keeps
(`marks_collect`).  This is so whatever observers do, provided that they only report to the sink.  The
observers of a console do, whatever their reactions are (`Console.logs_react`), and so do observers that
look at a session without leaving reports behind (`Service.logs_muted`).
-/

namespace EventDeck

open Game

/-! ## The observers of a console -/

namespace Console

variable {tell : Tell} (htell : ∀ observer change, Logs (tell observer change))

/-- Questions and changes of cards report nothing. -/
theorem logs_ask (question : Catalog → Reply) : Logs (ask question) :=
  logs_get_bind (fun _ _ => rfl) fun _ => logs_pure _

theorem logs_askCard (id : String) (question : Catalog → Nat → Reply) : Logs (askCard id question) :=
  logs_get_bind (fun _ _ => rfl) fun _ => logs_pure _

theorem logs_changeCard (id : String) (change : Catalog → Nat → Catalog)
    (reply : Catalog → Nat → Reply) : Logs (changeCard id change reply) := by
  refine logs_get_bind (fun _ _ => rfl) fun game => ?_
  dsimp only
  split
  · exact logs_pure _
  · exact (logs_changeCatalog _).bind fun _ => logs_pure _

theorem logs_introduce (id : String) (reaction : List Request) : Logs (introduce id reaction) := by
  refine logs_modify fun game sink => ?_
  dsimp only [withSink]
  split <;> rfl

/-- What is asked of conditions may be reported, as in the game itself. -/
theorem logs_choices : Logs choices := by
  refine logs_get_bind (fun _ _ => rfl) fun game => logs_ite (logs_pure _) ?_
  refine logs_availableActions.bind fun available => logs_currentActions.bind fun actions => ?_
  exact logs_ite (logs_get_bind (fun _ _ => rfl) fun _ => logs_pure _) (logs_pure _)

theorem logs_controlAvailable (name : String) : Logs (controlAvailable name) := by
  refine logs_get_bind (fun _ _ => rfl) fun game => ?_
  cases game.panel.get? name with
  | none => exact logs_pure _
  | some control => exact logs_holds _

theorem logs_availableControls : Logs availableControls :=
  logs_get_bind (fun _ _ => rfl) fun _ =>
    (logs_filterM (fun _ => logs_holds _) _).bind fun _ => logs_pure _

include htell

/-- A pressed control has effects, which report. -/
theorem logs_press (name : String) : Logs (press tell name) := by
  have hrefused : ∀ message, Logs (notPressed name message) :=
    fun message => (logs_report _ _).bind fun _ => logs_pure _
  refine logs_get_bind (fun _ _ => rfl) fun game => ?_
  cases game.panel.get? name with
  | none => exact hrefused _
  | some control =>
    refine (logs_holds _).bind fun pressed => logs_ite ?_ (hrefused _)
    exact (logs_runEffects htell _ _).bind fun _ => logs_pure _

/-- A broadcast reports what the observers report. -/
theorem logs_broadcast : Logs (broadcast tell) := by
  have hcheck : ∀ size, Logs (do
      unless (← get).store.size = size do throw .changedWhileTelling
      return ForInStep.yield PUnit.unit : Play (ForInStep PUnit)) := fun size =>
    logs_get_bind (fun _ _ => rfl) fun game =>
      logs_ite (logs_pure _) ((logs_throw _).bind fun _ => logs_pure _)
  refine logs_get_bind (fun _ _ => rfl) fun game =>
    Logs.bind (logs_loop fun place => ?_) fun _ => logs_pure _
  refine logs_get_bind (fun _ _ => rfl) fun game => ?_
  dsimp only
  split
  · exact (logs_tellObservers htell _ _).bind fun _ => hcheck _
  · exact hcheck _

/-- Requests make reports, and they do nothing else with the sink, apart from the warnings in their
answers. -/
theorem logs_respond (request : Request) :
    Logs ((fun _ => PUnit.unit) <$> respond tell request) := by
  have hmap : ∀ {x : Play Reply}, Logs x → Logs ((fun _ => PUnit.unit) <$> x) := fun h => h.map _
  have hreply : ∀ reply : Game → Reply, (∀ game sink, reply (game.withSink sink) = reply game) →
      Logs (do return reply (← get)) := fun reply hreply =>
    logs_get_bind (fun game sink => congrArg pure (hreply game sink)) fun _ => logs_pure _
  have hset : ∀ f : Store → Store, Logs (changeStore f) := fun f => logs_modify fun _ _ => rfl
  -- One case for each kind of request.  What a request reports comes from the parts of the game that it
  -- asks; what it answers is put on the result, which the sink does not see.
  cases request <;> rw [respond]
  case select choice =>
    have hselect := (logs_select htell choice).map fun _ => PUnit.unit
    rw [Functor.map_map] at hselect ⊢
    exact hselect
  case define => exact hmap ((hset _).bind fun _ => hreply _ fun _ _ => rfl)
  case set => exact hmap ((logs_setVariable htell _ _).map _)
  case get => exact hmap ((logs_valueOf _).map _)
  case has | lookup | names | snapshot | controls => exact hmap (hreply _ fun _ _ => rfl)
  case place | constant => exact hmap (logs_pure _)
  case subscribe | unsubscribe =>
    exact hmap ((logs_introduce _ _).bind fun _ => (hset _).bind fun _ => logs_pure _)
  case broadcast => exact hmap ((logs_broadcast htell).bind fun _ => logs_pure _)
  case evaluate => exact hmap ((logs_evaluate htell _).map _)
  case evaluateCondition => exact hmap ((logs_evaluateCondition _).map _)
  case holds => exact hmap ((logs_holds _).map _)
  case substitute => exact hmap ((logs_substitute _).bind fun _ => logs_pure _)
  case randomBetween => exact hmap ((logs_randomBetween _ _).map _)
  case overview | hasEvent | find => exact hmap (logs_ask _)
  case isQueued | isPooled => exact hmap (logs_askCard _ _)
  case enqueue | dequeue | destroy | insertAt | setFlags => exact hmap (logs_changeCard _ _ _)
  case clearQueue => exact hmap ((logs_changeCatalog _).bind fun _ => logs_pure _)
  case shufflePool | shuffleQueue => exact hmap ((logs_changeByChance _).bind fun _ => logs_pure _)
  case runSpecial => exact hmap ((logs_runSpecial _).map _)
  case control =>
    exact hmap (logs_get_bind (fun _ _ => rfl) fun _ =>
      (logs_controlAvailable _).bind fun _ => logs_pure _)
  case availableControls => exact hmap (logs_availableControls.map _)
  case press => exact hmap ((logs_press htell _).map _)
  case start => exact hmap ((logs_broadcast htell).bind fun _ => logs_advance.map _)
  case advance => exact hmap (logs_advance.map _)
  case checkConditions => exact hmap (logs_checkConditions.bind fun _ => logs_pure _)
  case reshuffle => exact hmap (logs_reshuffle.map _)
  case reveal => exact hmap (logs_reveal.map _)
  case availableActions => exact hmap (logs_availableActions.map _)
  case choices => exact hmap (logs_choices.map _)

omit htell

/-- An observer of a console makes reports, whatever its reaction is. -/
theorem logs_react (depth : Nat) (id : String) (change : Change) :
    Logs (react (answer depth) id change) := by
  have hreact : ∀ {run : Request → Play Reply},
      (∀ request, Logs ((fun _ => PUnit.unit) <$> run request)) →
        ∀ id change, Logs (react run id change) := by
    intro run hrun id change
    refine (logs_modify fun _ _ => rfl).bind fun _ => ?_
    refine (logs_get_bind (fun _ _ => rfl) fun _ => logs_pure _).bind fun requests => ?_
    refine Logs.bind (logs_loop fun request => ?_) fun _ => logs_pure _
    have hround := (hrun request).map fun _ => ForInStep.yield PUnit.unit
    rw [Functor.map_map] at hround
    rw [bind_pure_comp]
    exact hround
  induction depth generalizing id change with
  | zero => exact hreact (logs_respond fun _ _ => logs_throw _) id change
  | succ depth ih => exact hreact (logs_respond ih) id change

end Console

/-- A muted request reports nothing. -/
theorem Service.logs_muted {α : Type} {request : Play α} (h : Logs request) :
    Logs (Service.muted request) := by
  intro game
  obtain ⟨result, after, reports, hrun⟩ := h game
  refine ⟨result, after, [], fun sink => ?_⟩
  have hmuted : sink.mute.reportAll reports = sink.mute :=
    Diagnostics.reportAll_of_muted (Nat.succ_ne_zero sink.muted) reports
  have hmute := hrun sink.mute
  rw [hmuted] at hmute
  change ((request.run.run (game.withSink sink.mute)).1,
    (request.run.run (game.withSink sink.mute)).2.withSink
      (request.run.run (game.withSink sink.mute)).2.diagnostics.unmute) = _
  rw [hmute]
  rfl

/-! ## Marks and warnings -/

namespace Game

/-- An observer that does nothing. -/
theorem logs_silent (observer : String) (change : Change) : Logs (silent observer change) :=
  logs_pure _

/-- For every limit and whatever is done with a sink: a mark finds the reports that were made after it
outside of muted stretches, the last ones if there are more than the limit allows, unless the sink is
cleared after the mark; and what the sink keeps are such reports since it was made or cleared.  So the
warnings of a selection that succeeds on a sink that is not muted are the last reports of the selection,
as many as the limit allows, whatever observers do that only report; a selection reports the same to
every sink. -/
theorem marks_collect (limit : Option Nat) :
    (∃ fresh, Diagnostics.withLimit (limit.map Int.ofNat) = .ok fresh ∧
      ∀ early late, (∀ act ∈ late, act ≠ .clear) →
        let marked := fresh.performAll early
        let heard := Diagnostics.audible (Diagnostics.depthAfter 0 early) late
        (marked.performAll late).since marked.mark = Diagnostics.trimTo limit heard ∧
        (early = [] ∨ early.getLast? = some .clear →
          (marked.performAll late).entries = Diagnostics.trimTo limit heard)) ∧
    ∀ (tell : Tell) (choice : Choice) (game after : Game) (result : TurnResult),
      (∀ observer change, Logs (tell observer change)) →
      game.diagnostics.limit = limit → game.diagnostics.muted = 0 →
      (select tell choice).run.run game = (.ok result, after) → result.success = true →
      result.warnings =
        (Diagnostics.trimTo limit (reportsOf (select tell choice) game)).map (·.text) ∧
      ∀ sink, ((select tell choice).run.run (game.withSink sink)).2 =
        after.withSink (sink.reportAll (reportsOf (select tell choice) game)) := by
  constructor
  · refine ⟨_, Diagnostics.withLimit_ofNat limit, fun early late hlate => ?_⟩
    intro marked heard
    have hlimit : marked.limit = limit := Diagnostics.limit_performAll _ early
    have hmuted : Diagnostics.depthAfter 0 early = marked.muted :=
      (Diagnostics.muted_performAll ⟨limit, [], 0, 0⟩ early).symm
    have hheard : heard = Diagnostics.audible marked.muted late :=
      congrArg (Diagnostics.audible · late) hmuted
    rw [← hlimit, hheard]
    exact ⟨marked.since_performAll hlate, fun hcleared =>
      Diagnostics.entries_performAll (Diagnostics.entries_eq_nil rfl hcleared) hlate⟩
  · intro tell choice game after result htell hlimit hmuted hrun hsuccess
    -- a selection reports to every sink what it reports to one that keeps everything
    have hsame := withSink_reportsOf (logs_select htell choice) game
    rw [hrun] at hsame
    refine ⟨?_, hsame⟩
    have hafter : after.diagnostics =
        game.diagnostics.reportAll (reportsOf (select tell choice) game) := by
      have hself := congrArg diagnostics (hsame game.diagnostics)
      have hgame : game.withSink game.diagnostics = game := rfl
      rwa [hgame, hrun] at hself
    rw [warnings_of_select hrun hsuccess, hafter, Diagnostics.since_reportAll hmuted, hlimit]

/-- An action that chains two events that there are not. -/
def guessing : Action :=
  { description := "go", specials := ["chain(x)", "chain(y)"] }

/-- A game that awaits a selection for a card with that action, with a sink that keeps one report. -/
def forgetful : Game :=
  { Game.empty {} ⟨some 1, [], 0, 0⟩ (.ofScript []) with
    catalog := ⟨#[{ name := "e", copy := 1, actions := [guessing] }], [0], [0]⟩
    scheduler := { phase := .awaitingAction, inputOpen := true, current := some 0 } }

/-- Two missing events are reported, and the sink keeps the second report. -/
theorem forgetful_warned :
    ∃ result after, (∀ observer change, Logs (silent observer change)) ∧
      forgetful.diagnostics.limit = some 1 ∧ forgetful.diagnostics.muted = 0 ∧
      (select silent (.action 0)).run.run forgetful = (.ok result, after) ∧ result.success = true ∧
      (reportsOf (select silent (.action 0)) forgetful).length = 2 ∧
      result.warnings = ["[missing_event_lookup] Cannot find an event named 'y' (any)"] := by
  have hsuccess : ((select silent (.action 0)).run.run forgetful).1.toOption.map (·.success) =
      some true := by
    decide +kernel
  have hreports : reportsOf (select silent (.action 0)) forgetful =
      [⟨.missingEventLookup, "Cannot find an event named 'x' (any)"⟩,
        ⟨.missingEventLookup, "Cannot find an event named 'y' (any)"⟩] := by
    decide +kernel
  rcases hrun : (select silent (.action 0)).run.run forgetful with ⟨fault | result, after⟩
  · rw [hrun] at hsuccess
    cases hsuccess
  · rw [hrun] at hsuccess
    have hdone : result.success = true := Option.some.inj hsuccess
    obtain ⟨hwarnings, -⟩ :=
      (marks_collect (some 1)).2 silent (.action 0) forgetful after result logs_silent rfl rfl hrun hdone
    refine ⟨result, after, logs_silent, rfl, rfl, rfl, hdone, by rw [hreports]; rfl, ?_⟩
    rw [hwarnings, hreports]
    rfl

end Game

end EventDeck
