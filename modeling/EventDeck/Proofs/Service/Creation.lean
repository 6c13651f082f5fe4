import EventDeck.Proofs.Service.Presence
import EventDeck.Proofs.Service.Rest

/-!
# Creating sessions

Whoever asks for a session is given one, which then stands behind the others under an identifier of its
own, or is given none.  In the second case the table of sessions should be as it was (`AllOrNothing`).
That is so when the deck has errors, and whenever nothing can be built: it is found out before the
table changes.

A session is started when it is in the table already, and the conditions of its cards are evaluated for
the first time then.  A fault that ends the start leaves a session in the table that nobody was given
(`allOrNothing_launch_iff`).  Conditions that draw nothing have no faults.
-/

namespace EventDeck

open Game EventDeck.Expr Text

/-! ## Faults of conditions -/

namespace Game

variable {game before after : Game} {fault : Fault}

/-- A fault is a number without a floor. -/
def Floorless : Conduct :=
  fun _ fault _ => ∀ f, fault = some f → ∃ x, Decimal.floor x = .error f

instance reads_floorless : Conduct.Reads Floorless where
  refl _ := no_fault
  next _ second := second
  report _ _ := no_fault
  chance _ := no_fault
  floor {x} _ _ h := by
    rintro _ ⟨⟩
    exact ⟨x, h⟩

/-- What authors wrote on the cards stays, and a fault is one of evaluating the condition of a card. -/
structure Consults (before : Game) (fault : Option Fault) (after : Game) : Prop where
  faces : before.catalog.SameFaces after.catalog
  faults : ∀ f, fault = some f → ∃ key asked,
    ((evaluateCondition (before.catalog.card key).condition).run.run asked).1 = .error f

theorem consults_of_faces (h : before.catalog.SameFaces after.catalog) :
    Consults before none after :=
  ⟨h, no_fault⟩

instance composes_consults : Conduct.Composes Consults where
  refl game := consults_of_faces (.refl game.catalog)
  next first second := by
    refine ⟨first.faces.trans second.faces, fun f hf => ?_⟩
    obtain ⟨key, asked, hasked⟩ := second.faults f hf
    rw [first.faces.condition] at hasked
    exact ⟨key, asked, hasked⟩

theorem consults_checkCondition (key : Nat) (game : Game) :
    Runs Consults (checkCondition key) game := by
  have hevaluates : Runs Evaluates (evaluateCondition (game.catalog.card key).condition) game :=
    runs_evaluateCondition _ game
  have hconsults : Runs Consults (evaluateCondition (game.catalog.card key).condition) game := by
    refine ⟨hevaluates.frame.faces, fun f hf => ⟨key, game, ?_⟩⟩
    rcases hresult : ((evaluateCondition (game.catalog.card key).condition).run.run game).1
      with fault | wanted
    · rw [hresult] at hf
      cases hf
      rfl
    · rw [hresult] at hf
      cases hf
  refine runs_get_bind (runs_ite (fun _ => runs_pure _ _) fun _ => hconsults.then fun wanted after => ?_)
  refine runs_get_bind (runs_ite (fun _ => ?_) fun _ => runs_ite (fun _ => ?_) fun _ => runs_pure _ _)
  · exact consults_of_faces (.enqueue after.catalog key)
  · exact consults_of_faces (.of_cards rfl)

theorem consults_draw (game : Game) : Runs Consults draw game := by
  have hbegin : Runs Consults (enter .checkingConditions) game :=
    consults_of_faces (.refl game.catalog)
  refine hbegin.then fun _ begun => Runs.then ?_ fun _ checked => runs_get_bind ?_
  · exact runs_get_bind
      ((runs_loop (fun key game => (consults_checkCondition key game).then fun _ _ => runs_pure _ _)
        begun).then fun _ _ => runs_pure _ _)
  · cases checked.catalog.head? with
    | none => exact runs_pure _ _
    | some key =>
      have hpresent : Runs Consults (present key) checked := by
        unfold Runs
        rw [run_present]
        exact consults_of_faces (.refl checked.catalog)
      exact hpresent.then fun _ _ => runs_pure _ _

theorem consults_reshuffle (game : Game) : Runs Consults reshuffle game := by
  unfold Runs
  rw [run_reshuffle_eq]
  split <;> exact consults_of_faces (game.catalog.sameFaces_rebuilt ..)

theorem consults_advance (game : Game) : Runs Consults advance game := by
  have hhalt : ∀ game, Runs Consults halt game := fun game =>
    consults_of_faces (.refl game.catalog)
  have hend : ∀ game, Runs Consults (do return (← get).scheduler.phase) game := fun game =>
    runs_pure _ game
  refine (consults_draw game).then fun drawn between => runs_ite (fun _ => hend between) fun _ => ?_
  refine (consults_reshuffle between).then fun filled between => runs_ite (fun _ => ?_) fun _ => ?_
  · refine (consults_draw between).then fun drawn between => runs_ite (fun _ => hend between) fun _ => ?_
    exact (hhalt between).then fun _ => hend
  · exact (hhalt between).then fun _ => hend

/-- A fault that ends the start of a session is one of evaluating the condition of a card. -/
theorem consults_start (game : Game) : Runs Consults (Session.start silent) game := by
  unfold Runs
  rw [Session.start, run_bind_ok (run_broadcast_silent game)]
  exact consults_advance game

end Game

namespace Service

variable {before after service : Service} {request : CreateRequest} {start : Game} {fault : Fault}
  {starts : Bool}

/-! ## All or nothing -/

/-- A session is given and stands behind the others, none of which has its identifier, or none is
given and the sessions are as they were. -/
inductive AllOrNothing (before : Service) : Except Fault (Except (List String) Session) → Service → Prop
  | all {session : Session} {after : Service} (new : ∀ other ∈ before.sessions, other.id ≠ session.id)
    (added : after.sessions = before.sessions ++ [session]) : AllOrNothing before (.ok (.ok session)) after
  | refused {errors : List String} {after : Service} (same : after.sessions = before.sessions) :
    AllOrNothing before (.ok (.error errors)) after
  | broken {fault : Fault} {after : Service} (same : after.sessions = before.sessions) :
    AllOrNothing before (.error fault) after

/-- A game is built for a session, and a fault ends its start. -/
def StartFails (service : Service) (request : CreateRequest) (fault : Fault) : Prop :=
  ∃ start, Session.buildGame request.deck service.settings (service.chance request.seed) = .ok start ∧
    ((Session.start silent).run.run start).1 = .error fault

/-! ## What is left of the table -/

/-- A fault that ends a start comes from the condition of an event that draws: a number has no floor. -/
theorem StartFails.exists_event (h : service.StartFails request fault) :
    (∃ x, Decimal.floor x = .error fault) ∧
      ∃ event ∈ request.deck.events, ¬CallFree (trim event.condition.toList) ∧
        ∃ asked, ((evaluateCondition event.condition).run.run asked).1 = .error fault := by
  obtain ⟨start, hbuilt, hstart⟩ := h
  -- The start asks conditions and nothing else, so the fault is that of a condition; without calls of
  -- `Random` there would be none.
  obtain ⟨key, asked, hasked⟩ := ((consults_start start).of_error (Prod.ext hstart rfl)).faults fault rfl
  have hfloor : ∃ x, Decimal.floor x = .error fault :=
    (runs_evaluateCondition (R := Floorless) _ asked).of_error (Prod.ext hasked rfl) fault rfl
  have hdraws : ∀ {condition : String} {asked : Game},
      ((evaluateCondition condition).run.run asked).1 = .error fault →
        ¬CallFree (trim condition.toList) := by
    intro condition asked hasked hfree
    obtain ⟨diagnostics, hrun⟩ := run_evaluateCondition_of_callFree hfree asked
    rw [hrun] at hasked
    cases hasked
  have hblank : CallFree (trim "".toList) := callFree_of_wordless (by decide)
  have hevent : ∃ event ∈ request.deck.events,
      event.condition = (start.catalog.card key).condition := by
    refine Session.condition_of_builds
      (P := fun condition => ((evaluateCondition condition).run.run asked).1 = .error fault →
        ∃ event ∈ request.deck.events, event.condition = condition)
      (Session.builds_of_buildGame hbuilt) ?_ ?_ key hasked
    · exact fun hnone => absurd hblank (hdraws hnone)
    · exact fun event hevent _ => ⟨event, hevent, rfl⟩
  obtain ⟨event, hmem, hcondition⟩ := hevent
  rw [← hcondition] at hasked
  exact ⟨hfloor, event, hmem, hdraws hasked, asked, hasked⟩

theorem active_taking (service : Service) (request : CreateRequest) (game : Game) :
    (service.taking request game).active = service.active ++ [service.nextId] := by
  have hactive : (service.opened request game).isActive = true := by
    unfold Session.isActive Session.state opened
    cases game.scheduler.phase <;> rfl
  simp [active, taking, hactive]
  rfl

theorem allOrNothing_taking (fresh : service.find? service.nextId = none) (game : Game) :
    AllOrNothing service (.ok (.ok (service.opened request game))) (service.taking request game) :=
  .all (id_ne_of_fresh fresh) rfl

/-- Nothing was given, but there is a session more. -/
theorem not_allOrNothing_taking (game : Game) :
    ¬AllOrNothing service (.error fault) (service.taking request game) := by
  rintro (_ | _ | hsame)
  simp [taking] at hsame

theorem launch_startFails (fresh : service.find? service.nextId = none)
    (h : service.StartFails request fault) :
    ∃ game, (launch request true).run.run service = (.error fault, service.taking request game) ∧
      Stuck game.scheduler := by
  obtain ⟨start, hbuilt, hstart⟩ := h
  have hphase : start.scheduler.phase = .idle :=
    congrArg Scheduler.phase (Session.builds_of_buildGame hbuilt).scheduler
  have hturns := (turnsTo_start hphase).of_error (Prod.ext hstart rfl)
  refine ⟨((Session.start silent).run.run start).2, ?_, (hturns.breaks fault rfl).2⟩
  rw [run_launch_built fresh hbuilt, hstart]
  rfl

/-- When no fault ends the start of a session, it is all or nothing. -/
theorem allOrNothing_of_starts (fresh : service.find? service.nextId = none)
    (h : ¬(starts = true ∧ ∃ fault, service.StartFails request fault)) :
    AllOrNothing service ((launch request starts).run.run service).1
      ((launch request starts).run.run service).2 := by
  rcases built : Session.buildGame request.deck service.settings (service.chance request.seed)
    with error | start
  · rw [run_launch_refused built]
    cases error with
    | invalidDeck errors => exact .refused rfl
    | fault fault => exact .broken rfl
  · cases starts with
    | false =>
      rw [run_launch_unstarted built]
      exact allOrNothing_taking fresh start
    | true =>
      rw [run_launch_built fresh built]
      rcases hstart : ((Session.start silent).run.run start).1 with fault | phase
      · exact absurd ⟨rfl, fault, start, built, hstart⟩ h
      · exact allOrNothing_taking fresh _

/-- A request for a session leaves all or nothing in the table of sessions, unless the session is to be
started and a fault ends its start.  What cannot be built leaves the service as it was.  When a start
fails, the fault is reported and no session is given, but there is one more among those that can go on,
in the midst of its first turn; the condition of an event was asked for a number that has no floor.  So
it is all or nothing whenever no condition of the deck draws. -/
theorem allOrNothing_launch_iff (fresh : service.find? service.nextId = none)
    (request : CreateRequest) (starts : Bool) :
    let run := (launch request starts).run.run service
    (AllOrNothing service run.1 run.2 ↔
      ¬(starts = true ∧ ∃ fault, service.StartFails request fault)) ∧
    (∀ error,
      Session.buildGame request.deck service.settings (service.chance request.seed) = .error error →
        run = (unbuilt error, service)) ∧
    (∀ fault, starts = true → service.StartFails request fault →
      (∃ game, run = (.error fault, service.taking request game) ∧ Stuck game.scheduler) ∧
      run.2.active = service.active ++ [service.nextId] ∧
      (∃ x, Decimal.floor x = .error fault) ∧
      ∃ event ∈ request.deck.events, ¬CallFree (trim event.condition.toList) ∧
        ∃ asked, ((evaluateCondition event.condition).run.run asked).1 = .error fault) ∧
    (request.deck.ChanceFree → AllOrNothing service run.1 run.2) := by
  intro run
  have hfails : ∀ fault, starts = true → service.StartFails request fault →
      ∃ game, run = (.error fault, service.taking request game) ∧ Stuck game.scheduler := by
    rintro fault rfl hfails
    exact launch_startFails fresh hfails
  -- a failed start is the one case in between, since the session is in the table before it is started
  have hiff : AllOrNothing service run.1 run.2 ↔
      ¬(starts = true ∧ ∃ fault, service.StartFails request fault) := by
    constructor
    · rintro hwhole ⟨hstarts, fault, hbroken⟩
      obtain ⟨game, hrun, -⟩ := hfails fault hstarts hbroken
      rw [hrun] at hwhole
      exact not_allOrNothing_taking game hwhole
    · exact allOrNothing_of_starts fresh
  refine ⟨hiff, fun error built => run_launch_refused built, fun fault hstarts hbroken => ?_, fun hfree => ?_⟩
  · obtain ⟨game, hrun, hstuck⟩ := hfails fault hstarts hbroken
    refine ⟨⟨game, hrun, hstuck⟩, ?_, hbroken.exists_event⟩
    rw [hrun]
    exact active_taking service request game
  · refine hiff.mpr ?_
    rintro ⟨-, fault, hbroken⟩
    obtain ⟨-, event, hevent, hdraws, -⟩ := hbroken.exists_event
    exact hdraws (hfree event hevent)

/-- A client gets a session of a deck without conditions. -/
theorem stroll_launched :
    empty.find? empty.nextId = none ∧
      AllOrNothing empty ((launch stroll true).run.run empty).1 ((launch stroll true).run.run empty).2 := by
  obtain ⟨-, -, -, hwhole⟩ := allOrNothing_launch_iff fresh_empty stroll true
  refine ⟨fresh_empty, hwhole fun event hevent => ?_⟩
  obtain rfl := List.mem_singleton.mp hevent
  exact callFree_of_wordless (by decide)

/-- The session of a deck whose only condition has a bound without a floor stays in the table, although
nobody was given it. -/
theorem boundless_left_behind :
    empty.active = [] ∧ ((launch boundless true).run.run empty).2.active = ["session-1"] ∧
      (∃ fault, ((launch boundless true).run.run empty).1 = .error fault) ∧
      ¬AllOrNothing empty ((launch boundless true).run.run empty).1
        ((launch boundless true).run.run empty).2 := by
  obtain ⟨start, hbuilt⟩ := Session.exists_buildGame (empty.chance boundless.seed) errors_boundless
  obtain ⟨fault, hfault⟩ := run_start_boundless hbuilt
  obtain ⟨game, hrun, -⟩ := launch_startFails fresh_empty ⟨start, hbuilt, hfault⟩
  rw [hrun]
  refine ⟨rfl, ?_, ⟨fault, rfl⟩, not_allOrNothing_taking game⟩
  rw [active_taking]
  rfl

end Service

end EventDeck
