import EventDeck.Proofs.Build
import EventDeck.Proofs.Game.Selections
import EventDeck.Service.Basic

/-!
# Calls to a session

A client creates a session and then makes calls to it, in any order; the service answers each call
and keeps the game as it is afterwards, also after a fault.  `played?` is the game after some calls.

What a call comes to is said by `Serves`: the game is led along a course, and a session that is at
rest stays at rest, unless the call is broken off.
-/

namespace EventDeck

open Game

/-- A call of a client to a session. -/
inductive Call
  | look
  | reveal
  | advance
  | select (request : SelectRequest)
  | press (control : String)

namespace Call

/-- How the service answers a call. -/
def serve (id : String) : Call → Serve Response
  | look => Service.look id
  | reveal => Service.reveal id
  | advance => Service.advance id
  | select request => Service.select id request
  | press control => Service.press id control

/-- A fault ends a call in the midst of drawing the next card or of resolving the current one: an
advance that is allowed, or a selection that is accepted. -/
def BreaksOff (game : Game) (fault : Fault) : Call → Prop
  | advance =>
    (game.scheduler.phase = .idle ∨ game.scheduler.phase = .halted) ∧
      (Game.advance.run.run game).1 = .error fault
  | select request =>
    (∃ key, game.Accepts request.choice key) ∧
      ((Game.select silent request.choice).run.run game).1 = .error fault
  | look | reveal | press _ => False

end Call

namespace Service

/-- The identifier of the session that is created next. -/
def nextId (service : Service) : String :=
  s!"session-{Decimal.integerText (service.created + 1 : Nat)}"

/-- The service after some calls to a session. -/
def serveAll (id : String) (calls : List Call) (service : Service) : Service :=
  calls.foldl (fun service call => ((call.serve id).run.run service).2) service

/-- The game of a session that a client creates and then makes some calls to. -/
def played? (service : Service) (request : CreateRequest) (calls : List Call) : Option Game :=
  ((serveAll service.nextId calls ((create request).run.run service).2).find? service.nextId).map
    (·.game)

variable {service : Service} {session : Session} {id : String} {before between after : Game}

/-! ## Looking at a session -/

theorem runs_muted {α : Type} {request : Play α} (h : ∀ game, Runs Evaluates request game)
    (game : Game) : Runs Evaluates (muted request) game := by
  have hmute : Quiet game { game with diagnostics := game.diagnostics.mute } :=
    ⟨rfl, rfl, rfl, rfl, rfl⟩
  have hrequest := h { game with diagnostics := game.diagnostics.mute }
  unfold Runs at hrequest ⊢
  change Evaluates game (fault? (request.run.run _).1) { (request.run.run _).2 with diagnostics := _ }
  refine ⟨(hmute.trans hrequest.toQuiet).trans ⟨rfl, rfl, rfl, rfl, rfl⟩, fun f hf => ?_⟩
  exact (hrequest.faults f hf).of_epsilon rfl

/-- Looking at a session evaluates conditions and changes nothing else. -/
theorem evaluates_view (session : Session) (game : Game) :
    Runs Evaluates (view session) game := by
  refine (runs_muted (fun game => ?_) game).then fun _ between => ?_
  · exact (runs_choices game).then fun _ between =>
      (runs_availableControls between).then fun _ _ => runs_pure _ _
  · exact runs_pure _ between

/-! ## Keeping a session -/

theorem find?_replace (h : service.find? id = some session) (game : Game) :
    (service.replace { session with game }).find? id = some { session with game } := by
  have hid : session.id = id := by simpa using List.find?_some h
  have hmatch : ∀ other : Session,
      ((if other.id = session.id then { session with game } else other).id = id) ↔ other.id = id := by
    intro other
    split
    next heq => rw [heq]
    next => rfl
  simp only [find?, replace, List.find?_map, Function.comp_def, hmatch]
  have hfound : service.sessions.find? (·.id = id) = some session := h
  rw [hfound, Option.map_some, if_pos rfl]

/-- The game of a session after a request to it. -/
theorem find?_withSession (request : Session → Play Response)
    (h : service.find? id = some session) :
    ((withSession id request).run.run service).2.find? id =
      some { session with game := ((request session).run.run session.game).2 } := by
  have hrun : (withSession id request).run.run service =
      (play session (request session)).run.run service := by
    rw [withSession, run_get_bind, h]
  rw [hrun]
  exact find?_replace h _

/-! ## What calls come to -/

/-- What a call does to a game. -/
structure Serves (call : Call) (before after : Game) : Prop where
  leads : Leads before after
  ends : AtRest before.scheduler → (∀ fault, ¬call.BreaksOff before fault) → AtRest after.scheduler
  breaks : ∀ fault, call.BreaksOff before fault →
    EvaluationFault before fault ∧ Stuck after.scheduler
  stuck : Stuck before.scheduler → after.scheduler = before.scheduler

variable {call : Call} {fault : Option Fault}

/-- A request that ends with a look at the game. -/
theorem Serves.evaluates (h : Serves call before between) (hlook : Evaluates between fault after) :
    Serves call before after where
  leads := h.leads.trans (allows_leads.evaluates hlook)
  ends hbefore hwhole := hlook.scheduler ▸ h.ends hbefore hwhole
  breaks f hf := hlook.scheduler ▸ h.breaks f hf
  stuck hstuck := hlook.scheduler.trans (h.stuck hstuck)

/-- What is said about a call, as a conduct. -/
def Serving (call : Call) : Conduct :=
  fun before _ after => Serves call before after

/-- The part of a call that comes before the game is looked at. -/
theorem runs_serving {α β : Type} {x : Play α} {f : α → Play β} {game : Game}
    (hx : Runs (Serving call) x game) (hf : ∀ a after, Runs Evaluates (f a) after) :
    Runs (Serving call) (x >>= f) game := by
  unfold Runs
  rcases hrun : x.run.run game with ⟨fault | a, between⟩
  · rw [run_bind_error hrun]
    exact hx.of_error hrun
  · rw [run_bind_ok hrun]
    exact (hx.of_ok hrun).evaluates (hf a between)

/-- A call in which the scheduler does not move. -/
theorem Serves.of_affects (hwhole : ∀ fault, ¬call.BreaksOff before fault)
    (h : Affects before fault after) : Serves call before after where
  leads := h.leads
  ends hrest _ := h.scheduler ▸ hrest
  breaks f hf := absurd hf (hwhole f)
  stuck _ := h.scheduler

/-- A call that moves the scheduler on. -/
theorem Serves.of_turnsTo (hready : ¬Stuck before.scheduler)
    (hwhole : ∀ f, call.BreaksOff before f ↔ fault = some f) (h : TurnsTo before fault after) :
    Serves call before after where
  leads := h.leads
  ends _ hno := by
    refine h.rest ?_
    cases fault with
    | none => rfl
    | some f => exact absurd ((hwhole f).mpr rfl) (hno f)
  breaks f hf := h.breaks f ((hwhole f).mp hf)
  stuck hstuck := absurd hstuck hready

theorem fault?_eq_some {α : Type} {result : Except Fault α} {f : Fault} :
    fault? result = some f ↔ result = .error f := by
  cases result <;> simp [fault?]

theorem serves_reveal (game : Game) : Runs (Serving .reveal) Game.reveal game := by
  have hrun : Game.reveal.run.run game = (if game.scheduler.phase = .presenting then
      (.ok true, { game with scheduler := Act.reveal.next game.scheduler })
      else (.ok false, game)) := by
    rw [Game.reveal, run_get_bind]
    split <;> rfl
  unfold Runs
  rw [hrun]
  split
  next hphase =>
    have hstep : Step game .reveal _ := step_scheduler .reveal hphase rfl
    refine ⟨.of_step hstep, fun _ _ => .inl (.inr rfl), nofun, fun hstuck => ?_⟩
    rcases hstuck with h | h <;> rw [hphase] at h <;> cases h
  next => exact .of_affects (fun _ => id) (allows_affects.refl game)

theorem serves_advance {game : Game}
    (hallowed : game.scheduler.phase = .idle ∨ game.scheduler.phase = .halted) :
    Runs (Serving .advance) Game.advance game := by
  have hready : Act.begin.Ready game.scheduler := hallowed.imp_right .inl
  refine Serves.of_turnsTo ?_ (fun f => ?_) (turnsTo_advance hready)
  · rintro (h | h) <;> rcases hallowed with hphase | hphase <;> rw [hphase] at h <;> cases h
  · exact (and_iff_right hallowed).trans fault?_eq_some.symm

theorem serves_select (request : SelectRequest) (game : Game) :
    Runs (Serving (.select request)) (Game.select silent request.choice) game := by
  have hevaluates := evaluates_accepted? request.choice game
  -- a selection that is not accepted breaks nothing off
  have hwhole : ∀ {result between},
      (accepted? request.choice).run.run game = (result, between) →
      (∀ accepted, result ≠ .ok (some accepted)) →
      ∀ f, ¬(Call.select request).BreaksOff game f := by
    rintro result between hrun hnone f ⟨⟨key, action, after, haccepted⟩, -⟩
    rw [hrun] at haccepted
    cases haccepted
    exact hnone _ rfl
  rcases hrun : (Game.select silent request.choice).run.run game with ⟨result, after⟩
  unfold Runs
  rw [hrun]
  cases selects_select hrun with
  | broken h =>
    exact .of_affects (hwhole h nofun) (allows_affects.evaluates (hevaluates.of_error h))
  | refused h hquiet _ =>
    have hbetween := (hevaluates.of_ok h).toQuiet
    exact .of_affects (hwhole h nofun) (allows_affects.quiet (hbetween.trans hquiet))
  | accepted h hready haction hresolve =>
    have hbetween := hevaluates.of_ok h
    have hturns := turnsTo_resolve hready haction game.diagnostics.mark
    unfold Runs at hturns
    rw [hresolve] at hturns
    refine .of_turnsTo ?_ (fun f => ?_) (.behind (allows_leads.evaluates hbetween) hturns)
    · rintro (hphase | hphase) <;> rw [← hbetween.scheduler, hready.1] at hphase <;> cases hphase
    · refine (and_iff_right ⟨_, _, _, h⟩).trans ?_
      rw [hrun, fault?_eq_some]

theorem serves_serve (call : Call) (h : service.find? id = some session) :
    ∃ game, ((call.serve id).run.run service).2.find? id = some { session with game } ∧
      Serves call session.game game := by
  have hcall : ∀ {request : Session → Play Response},
      Runs (Serving call) (request session) session.game →
      ∃ game, ((withSession id request).run.run service).2.find? id = some { session with game } ∧
        Serves call session.game game :=
    fun hrequest => ⟨_, find?_withSession _ h, hrequest⟩
  have hview : ∀ (answer : SessionView → Response) game,
      Runs Evaluates (do return answer (← view session)) game := fun answer game =>
    (evaluates_view session game).then fun _ _ => runs_pure _ _
  have hpure : ∀ (response : Response) game, Runs Evaluates (pure response : Play Response) game :=
    fun response => runs_pure response
  -- What a call does to the game comes first; the look at the end, or the refusal, changes neither
  -- cards nor scheduler.
  cases call with
  | look =>
    have hlook := allows_affects.evaluates (hview .session session.game)
    exact hcall (.of_affects (fun _ h => h) hlook)
  | reveal => exact hcall (runs_serving (serves_reveal _) fun _ => hview .session)
  | advance =>
    refine hcall (runs_get_bind (runs_ite (fun hallowed => ?_) fun hrefused => ?_))
    · have hphase : session.game.scheduler.phase = .idle ∨ session.game.scheduler.phase = .halted := by
        simpa using hallowed
      exact runs_serving (serves_advance hphase) fun _ => hview .session
    · refine .of_affects (fun f hf => hrefused ?_) (allows_affects.refl _)
      simpa using hf.1
  | select request =>
    refine hcall (runs_serving (serves_select request _) fun result between => ?_)
    split
    · exact hpure _ between
    · exact runs_get_bind (hview _ between)
  | press control =>
    have hpress := affects_press control session.game
    refine hcall (runs_serving (.of_affects (fun _ h => h) hpress) fun result between => ?_)
    split
    · exact hpure _ between
    · exact hview _ between

/-- A conduct that allows for evaluation is followed by every call if the requests to the scheduler
and to the controls follow it. -/
theorem follows_serve {R : Conduct} [R.Allows] (call : Call)
    (h : service.find? id = some session) (hreveal : Runs R Game.reveal session.game)
    (hadvance : session.game.scheduler.phase = .idle ∨ session.game.scheduler.phase = .halted →
      Runs R Game.advance session.game)
    (hselect : ∀ choice, Runs R (Game.select silent choice) session.game)
    (hpress : ∀ control, Runs R (Game.press silent control) session.game) :
    ∃ game fault, ((call.serve id).run.run service).2.find? id = some { session with game } ∧
      R session.game fault game := by
  have hcall : ∀ {request : Session → Play Response}, Runs R (request session) session.game →
      ∃ game fault,
        ((withSession id request).run.run service).2.find? id = some { session with game } ∧
        R session.game fault game :=
    fun hrequest => ⟨_, _, find?_withSession _ h, hrequest⟩
  have hview : ∀ (answer : SessionView → Response) game,
      Runs R (do return answer (← view session)) game := fun answer game =>
    (evaluates_view session game).of_evaluates.then fun _ _ => runs_pure _ _
  have hpure : ∀ (response : Response) game, Runs R (pure response : Play Response) game :=
    fun response => runs_pure response
  -- the same division of a call, for any conduct
  cases call with
  | look => exact hcall (hview .session _)
  | reveal => exact hcall (hreveal.then fun _ => hview .session)
  | advance =>
    refine hcall (runs_get_bind (runs_ite (fun hallowed => ?_) fun _ => hpure _ _))
    exact (hadvance (by simpa using hallowed)).then fun _ => hview .session
  | select request =>
    refine hcall ((hselect request.choice).then fun result between => ?_)
    split
    · exact hpure _ between
    · exact runs_get_bind (hview _ between)
  | press control =>
    refine hcall ((hpress control).then fun result between => ?_)
    split
    · exact hpure _ between
    · exact hview _ between

/-! ## Sessions that are played -/

/-- What creating a session does to the game that was built. -/
structure Opens (start after : Game) : Prop where
  leads : Leads start after
  ends : (∀ fault, ((Session.start silent).run.run start).1 ≠ .error fault) →
    AtRest after.scheduler
  breaks : ∀ fault, ((Session.start silent).run.run start).1 = .error fault →
    EvaluationFault start fault ∧ Stuck after.scheduler

theorem opens_start {start : Game} (hphase : start.scheduler.phase = .idle)
    {f : Phase → Play Response} (hf : ∀ phase game, Runs Evaluates (f phase) game) :
    Opens start ((Session.start silent >>= f).run.run start).2 := by
  have hturns := turnsTo_start hphase
  rcases hrun : (Session.start silent).run.run start with ⟨fault | phase, between⟩
  · have hbroken := hturns.of_error hrun
    rw [run_bind_error hrun]
    refine ⟨hbroken.leads, fun hwhole => absurd rfl (hrun ▸ hwhole fault), fun f hf => ?_⟩
    rw [hrun] at hf
    cases hf
    exact hbroken.breaks fault rfl
  · have hstarted := hturns.of_ok hrun
    have hlook := hf phase between
    rw [run_bind_ok hrun]
    refine ⟨hstarted.leads.trans (allows_leads.evaluates hlook), fun _ => ?_, fun f hf => ?_⟩
    · exact hlook.scheduler ▸ hstarted.rest rfl
    · rw [hrun] at hf
      cases hf

variable {request : CreateRequest} {start : Game}

/-! ## Creating a session -/

/-- A session that is created, with a game. -/
def opened (service : Service) (request : CreateRequest) (game : Game) : Session where
  id := service.nextId
  deck := request.deck
  game := game
  createdAt := service.now

/-- The service when a session has been created. -/
def taking (service : Service) (request : CreateRequest) (game : Game) : Service :=
  { service with
    sessions := service.sessions ++ [service.opened request game]
    created := service.created + 1 }

/-- What is done with a session when it is created. -/
def welcome (session : Session) : Play Response := do
  let _ ← Session.start Game.silent
  return .session (← view session)

theorem id_ne_of_fresh (fresh : service.find? id = none) : ∀ session ∈ service.sessions, session.id ≠ id :=
  fun session hsession => by simpa using List.find?_eq_none.mp fresh session hsession

/-- The session that is created is the only one with its identifier, so the game of no other one is
replaced. -/
theorem replace_taking (fresh : service.find? service.nextId = none) (start game : Game) :
    (service.taking request start).replace { service.opened request start with game } =
      service.taking request game := by
  let session := service.opened request start
  have hothers : service.sessions.map (fun other => if other.id = session.id then
      { session with game } else other) = service.sessions := by
    refine (List.map_congr_left fun other hother => ?_).trans (List.map_id _)
    exact if_neg (id_ne_of_fresh fresh other hother)
  change (service.taking request start).replace { session with game } = _
  simp only [replace, taking, List.map_append, hothers]
  simp [session, opened]

theorem find?_taking (fresh : service.find? service.nextId = none) (request : CreateRequest)
    (game : Game) :
    (service.taking request game).find? service.nextId = some (service.opened request game) := by
  have hother : service.sessions.find? (·.id = service.nextId) = none := fresh
  simp [find?, taking, opened, hother]

theorem run_take_built
    (built : Session.buildGame request.deck service.settings (service.chance request.seed) =
      .ok start) : (take request.deck request.seed).run.run service =
        (.ok (.ok (service.opened request start)), service.taking request start) := by
  rw [take, run_get_bind, built]
  rfl

/-- How it is said that no game can be built. -/
def unbuilt : BuildError → Except Fault (Except (List String) Session)
  | .invalidDeck errors => .ok (.error errors)
  | .fault fault => .error fault

theorem run_launch_refused {starts : Bool} {error : BuildError}
    (built : Session.buildGame request.deck service.settings (service.chance request.seed) =
      .error error) : (launch request starts).run.run service = (unbuilt error, service) := by
  rw [launch, run_bind, take, run_get_bind, built]
  cases error <;> rfl

theorem run_launch_unstarted
    (built : Session.buildGame request.deck service.settings (service.chance request.seed) =
      .ok start) : (launch request false).run.run service =
        (.ok (.ok (service.opened request start)), service.taking request start) := by
  rw [launch, run_bind_ok (run_take_built built)]
  rfl

/-- A session is in the table before it is started. -/
theorem run_launch_built (fresh : service.find? service.nextId = none)
    (built : Session.buildGame request.deck service.settings (service.chance request.seed) =
      .ok start) : (launch request true).run.run service =
        (((Session.start silent).run.run start).1.map fun _ =>
            .ok (service.opened request ((Session.start silent).run.run start).2),
          service.taking request ((Session.start silent).run.run start).2) := by
  let session := service.opened request start
  let opening : Play (Except (List String) Session) := do
    let _ ← Session.start silent
    return .ok { session with game := ← get }
  have hopening : opening.run.run start =
      (((Session.start silent).run.run start).1.map fun _ =>
          .ok (service.opened request ((Session.start silent).run.run start).2),
        ((Session.start silent).run.run start).2) := by
    rw [run_bind]
    rcases (Session.start silent).run.run start with ⟨fault | phase, started⟩ <;> rfl
  rw [launch, run_bind_ok (run_take_built built)]
  change ((opening.run.run start).1, (service.taking request start).replace
    { session with game := (opening.run.run start).2 }) = _
  rw [hopening]
  exact congrArg (Prod.mk _) (replace_taking fresh start _)

/-- A client is shown the session that has been put behind the others. -/
theorem run_create_built (fresh : service.find? service.nextId = none)
    (built : Session.buildGame request.deck service.settings (service.chance request.seed) =
      .ok start) :
    (create request).run.run service =
      (((welcome (service.opened request start)).run.run start).1,
        service.taking request ((welcome (service.opened request start)).run.run start).2) := by
  rw [create, run_bind, run_launch_built fresh built, welcome, run_bind]
  rcases (Session.start silent).run.run start with ⟨fault | phase, started⟩
  · rfl
  · exact Prod.ext rfl (replace_taking fresh started _)

/-! ## The game of a session -/

/-- The game of a session that was created: the game that was built, started and looked at. -/
theorem played?_nil (fresh : service.find? service.nextId = none)
    (built : Session.buildGame request.deck service.settings (service.chance request.seed) =
      .ok start) :
    ∃ session, service.played? request [] = some ((do
      let _ ← Session.start silent
      return .session (← view session) : Play Response).run.run start).2 := by
  refine ⟨service.opened request start, ?_⟩
  rw [played?, run_create_built fresh built]
  exact congrArg (Option.map (·.game)) (find?_taking fresh request _)

theorem played?_create (fresh : service.find? service.nextId = none)
    (built : Session.buildGame request.deck service.settings (service.chance request.seed) =
      .ok start) :
    ∃ game, service.played? request [] = some game ∧ Opens start game := by
  obtain ⟨session, hcreated⟩ := played?_nil fresh built
  have hlook : ∀ (phase : Phase) game,
      Runs Evaluates (do return .session (← view session) : Play Response) game := fun _ game =>
    (evaluates_view session game).then fun _ _ => runs_pure _ _
  have hphase : start.scheduler.phase = .idle :=
    congrArg Scheduler.phase (Session.builds_of_buildGame built).scheduler
  exact ⟨_, hcreated, opens_start hphase hlook⟩

theorem played?_concat {calls : List Call} (h : service.played? request calls = some before)
    (call : Call) :
    ∃ after, service.played? request (calls ++ [call]) = some after ∧ Serves call before after := by
  obtain ⟨session, hsession, rfl⟩ := Option.map_eq_some_iff.mp h
  obtain ⟨game, hgame, hserves⟩ := serves_serve call hsession
  refine ⟨game, ?_, hserves⟩
  rw [played?, serveAll, List.foldl_append]
  exact congrArg (Option.map _) hgame

/-- The course of a session, which passes through the game after each of the calls. -/
structure Plays (service : Service) (request : CreateRequest) (start : Game) (calls : List Call)
    (stages : List Stage) (game : Game) : Prop where
  played : service.played? request calls = some game
  course : Course start stages game
  passes : ∀ earlier, earlier <+: calls → ∃ early between, early <+: stages ∧
    Course start early between ∧ service.played? request earlier = some between

/-- Whatever calls are made, a session that was created is there, and its game has been led along a
course. -/
theorem exists_plays (fresh : service.find? service.nextId = none)
    (built : Session.buildGame request.deck service.settings (service.chance request.seed) =
      .ok start) (calls : List Call) :
    ∃ stages game, Plays service request start calls stages game := by
  induction calls using List.reverseRecOn with
  | nil =>
    obtain ⟨game, hgame, hopens⟩ := played?_create fresh built
    obtain ⟨stages, hcourse⟩ := hopens.leads
    refine ⟨stages, game, hgame, hcourse, fun earlier hprefix => ?_⟩
    obtain rfl := List.prefix_nil.mp hprefix
    exact ⟨stages, game, List.prefix_refl _, hcourse, hgame⟩
  | append_singleton calls call ih =>
    obtain ⟨early, between, hplays⟩ := ih
    obtain ⟨after, hafter, hserves⟩ := played?_concat hplays.played call
    obtain ⟨late, hlate⟩ := hserves.leads
    refine ⟨early ++ late, after, hafter, hplays.course.append hlate, fun earlier hprefix => ?_⟩
    rcases List.prefix_concat_iff.mp hprefix with rfl | hprefix
    · exact ⟨_, after, List.prefix_refl _, hplays.course.append hlate, hafter⟩
    · obtain ⟨first, game, hfirst, hcourse, hgame⟩ := hplays.passes earlier hprefix
      exact ⟨first, game, hfirst.trans (List.prefix_append ..), hcourse, hgame⟩

/-- A service without sessions, in which chance always draws zero. -/
def empty : Service where
  settings := {}
  chance := fun _ => .ofScript []

theorem fresh_empty : empty.find? empty.nextId = none := rfl

/-- A request for a deck of one event that can be answered. -/
def stroll : CreateRequest where
  deck := { events := [{ name := "e", actions := [{ description := "go" }] }] }
  seed := none

theorem exists_built_stroll :
    ∃ start, Session.buildGame stroll.deck empty.settings (empty.chance stroll.seed) = .ok start :=
  Session.exists_buildGame _ (by decide +kernel)

end Service

end EventDeck
