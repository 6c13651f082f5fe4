import EventDeck.Proofs.Service.Requests

/-!
# Refused requests

A request that is answered with an error changes nothing in the table of sessions but reports and the
source of chance of the session that it names (`refused_unchanged`): some conditions may have been
evaluated before it was refused.  While input is blocked nothing is evaluated at all.
-/

namespace EventDeck

open Game

namespace Game

variable {game after : Game}

/-- Nothing but reports and the source of chance has changed. -/
def Unmoved (before : Game) (_ : Option Fault) (after : Game) : Prop :=
  after = { before with diagnostics := after.diagnostics, generator := after.generator }

instance reads_unmoved : Conduct.Reads Unmoved where
  refl _ := rfl
  next {before between after _} first second := by
    unfold Unmoved at first second ⊢
    rw [first] at second
    exact second
  report _ _ := rfl
  chance _ := rfl
  floor _ _ := rfl

/-! ## Selections and controls -/

/-- A selection that is refused. -/
theorem select_refused {choice : Choice} {result : TurnResult} {code : DiagnosticCode}
    {message : String} (hrun : (select silent choice).run.run game = (.ok result, after))
    (herror : result.error = some (code, message)) :
    Unmoved game none after ∧ (code = .inputBlocked → after = game) := by
  by_cases hready : ∃ key, (Act.accept key).Ready game.scheduler
  · obtain ⟨key, hready⟩ := hready
    rw [(run_select_open silent hready).1] at hrun
    obtain ⟨available, between, hoffers, hrun⟩ := exists_run_of_bind hrun
    have hbetween : Unmoved game none between := (runs_availableActions game).of_ok hoffers
    rw [run_bind_ok (run_currentActions between)] at hrun
    split at hrun
    · -- a selection that is accepted has no error
      obtain ⟨before, outcome, phase, rfl⟩ := turnResult_of_resolve hrun
      cases herror
    · cases hrun
      cases herror
      exact ⟨reads_unmoved.next hbetween rfl, nofun⟩
  · rw [(run_select_blocked silent (not_exists.mp hready)).1] at hrun
    cases hrun
    exact ⟨rfl, fun _ => rfl⟩

/-- A control that is not pressed. -/
theorem press_refused {control : String} {result : ControlResult} {error : DiagnosticCode × String}
    (hrun : (press silent control).run.run game = (.ok result, after))
    (herror : result.error = some error) : Unmoved game none after := by
  rw [press, run_get_bind] at hrun
  split at hrun
  next =>
    cases hrun
    exact rfl
  next button _ =>
    obtain ⟨held, between, hholds, hrun⟩ := exists_run_of_bind hrun
    have hbetween : Unmoved game none between := (runs_holds _ game).of_ok hholds
    split at hrun
    · obtain ⟨outcome, pressed, -, hrun⟩ := exists_run_of_bind hrun
      cases hrun
      cases herror
    · cases hrun
      exact reads_unmoved.next hbetween rfl

end Game

namespace Service

variable {service after : Service} {session : Session} {id : String} {view : ErrorView}

/-! ## Calls -/

/-- What a call does to the game of a session when it is answered with an error. -/
structure Refuses (view : ErrorView) (before after : Game) : Prop where
  unmoved : Unmoved before none after
  blocked : view.code = .inputBlocked → after = before

/-- A request that shows a session to the client is not refused. -/
theorem not_error_of_shown {answer : SessionView → Response} {game after : Game}
    (hrun : (do return answer (← Service.view session)).run.run game = (.ok (.error view), after))
    (hanswer : ∀ seen, answer seen ≠ .error view) : False := by
  obtain ⟨seen, looked, -, hrun⟩ := exists_run_of_bind hrun
  have hresult := congrArg Prod.fst hrun
  exact hanswer seen (Except.ok.inj hresult)

/-- A call that is answered with an error. -/
theorem call_refused (call : Call) (hfound : service.find? id = some session)
    (hrun : (call.serve id).run.run service = (.ok (.error view), after)) :
    ∃ game, after = service.replace { session with game } ∧ Refuses view session.game game := by
  have hplay : ∀ {request : Session → Play Response},
      (withSession id request).run.run service = (.ok (.error view), after) →
      (∀ game, (request session).run.run session.game = (.ok (.error view), game) →
        Refuses view session.game game) →
      ∃ game, after = service.replace { session with game } ∧ Refuses view session.game game := by
    intro request hrun hrefuses
    rw [run_withSession, hfound] at hrun
    dsimp only at hrun
    rcases hrequest : (request session).run.run session.game with ⟨result, game⟩
    rw [hrequest] at hrun
    cases hrun
    exact ⟨game, rfl, hrefuses game hrequest⟩
  -- A look and a reveal are never refused; the other calls are refused before anything is done, or by
  -- the game itself.
  cases call with
  | look => exact hplay hrun fun game hrequest => (not_error_of_shown hrequest fun _ => nofun).elim
  | reveal =>
    refine hplay hrun fun game hrequest => ?_
    obtain ⟨_, revealed, -, hrequest⟩ := exists_run_of_bind hrequest
    exact (not_error_of_shown hrequest fun _ => nofun).elim
  | advance =>
    refine hplay hrun fun game hrequest => ?_
    rw [run_get_bind] at hrequest
    dsimp only at hrequest
    split at hrequest
    · obtain ⟨_, advanced, -, hrequest⟩ := exists_run_of_bind hrequest
      exact (not_error_of_shown hrequest fun _ => nofun).elim
    · cases hrequest
      exact ⟨rfl, nofun⟩
  | select request =>
    refine hplay hrun fun game hrequest => ?_
    obtain ⟨result, selected, hselect, hrequest⟩ := exists_run_of_bind hrequest
    split at hrequest
    next code message herror =>
      cases hrequest
      obtain ⟨hunmoved, hblocked⟩ := select_refused hselect herror
      refine ⟨hunmoved, fun hcode => hblocked ?_⟩
      cases code <;> first | rfl | cases hcode
    next =>
      exact (not_error_of_shown hrequest fun _ => nofun).elim
  | press control =>
    refine hplay hrun fun game hrequest => ?_
    obtain ⟨result, pressed, hpress, hrequest⟩ := exists_run_of_bind hrequest
    split at hrequest
    next code message herror =>
      cases hrequest
      exact ⟨press_refused hpress herror, nofun⟩
    next => exact (not_error_of_shown hrequest fun _ => nofun).elim

/-! ## Requests -/

/-- A session is as it was, but for the reports and the source of chance of its game. -/
def Spared (old new : Session) : Prop :=
  new = { old with
    game := { old.game with
      diagnostics := new.game.diagnostics
      generator := new.game.generator } }

theorem spared_refl (sessions : List Session) : List.Forall₂ Spared sessions sessions :=
  List.forall₂_same.mpr fun _ _ => rfl

/-- Two sessions with one identifier are the same. -/
theorem Orderly.eq_of_id {other : Session} (h : Orderly service)
    (hfound : service.find? id = some session) (hother : other ∈ service.sessions)
    (hid : other.id = session.id) : other = session :=
  List.inj_on_of_nodup_map h.distinct hother (List.mem_of_find?_eq_some hfound) hid

/-- No other session is touched. -/
theorem spared_replace (h : Orderly service) (hfound : service.find? id = some session) {game : Game}
    (hgame : Unmoved session.game none game) :
    List.Forall₂ Spared service.sessions (service.replace { session with game }).sessions := by
  refine List.forall₂_map_right_iff.mpr (List.forall₂_same.mpr fun other hother => ?_)
  split
  next hid =>
    obtain rfl := h.eq_of_id hfound hother hid
    exact congrArg (fun game => { other with game }) hgame
  next => rfl

theorem replace_self (h : Orderly service) (hfound : service.find? id = some session) :
    service.replace session = service := by
  have hsessions : (service.replace session).sessions = service.sessions := by
    refine (List.map_congr_left fun other hother => ?_).trans (List.map_id _)
    split
    next hid => exact (h.eq_of_id hfound hother hid).symm
    next => rfl
  exact congrArg (fun sessions => { service with sessions }) hsessions

/-- No session is created: a session that is created is shown. -/
theorem create_refused {request : CreateRequest} (h : Orderly service)
    (hrefused : ((Request.create request).serve.run.run service).1 = .ok (.response (.error view))) :
    ((Request.create request).serve.run.run service).2 = service := by
  rcases hbuilt : Session.buildGame request.deck service.settings (service.chance request.seed)
    with error | start
  · rw [Request.serve, run_answer, run_create_refused hbuilt]
  · rw [Request.serve, run_answer, run_create_built h.fresh hbuilt] at hrefused
    rcases hrun : (welcome (service.opened request start)).run.run start with ⟨fault | response, game⟩
    · rw [hrun] at hrefused
      cases hrefused
    · obtain ⟨seen, rfl, -⟩ := shown_of_welcome hrun
      rw [hrun] at hrefused
      cases hrefused

/-- A call that is refused, as a request to the service. -/
theorem visit_refused {call : Call} (hfound : service.find? id = some session)
    (hrefused : ((Request.visit id (.call call)).serve.run.run service).1 =
      .ok (.response (.error view))) :
    ∃ game, ((Request.visit id (.call call)).serve.run.run service).2 =
        service.replace { session with game } ∧ Refuses view session.game game := by
  rw [run_call] at hrefused ⊢
  rcases hcall : (call.serve id).run.run service with ⟨fault | response, next⟩
  · rw [hcall] at hrefused
    cases hrefused
  · rw [hcall] at hrefused
    cases hrefused
    exact call_refused call hfound hcall

/-- A request that is answered with an error leaves everything as it was, in every session: which
sessions there are, the values and bounds of variables, the pool, the queue and the flags of cards, the
controls and the scheduler.  Only reports and the source of chance may have changed, and not even
these when input is blocked. -/
theorem refused_unchanged (h : service.sessions = []) (requests : List Request) (request : Request)
    (hrefused : (request.serve.run.run (served requests service)).1 = .ok (.response (.error view))) :
    let before := served requests service
    let after := (request.serve.run.run before).2
    after = { before with sessions := after.sessions } ∧
      List.Forall₂ Spared before.sessions after.sessions ∧
      (view.code = .inputBlocked → after = before) := by
  have horderly := (Orderly.of_nil h).served requests
  generalize served requests service = before at hrefused horderly
  intro before after
  have hsame : after = before →
      after = { before with sessions := after.sessions } ∧
        List.Forall₂ Spared before.sessions after.sessions ∧
        (view.code = .inputBlocked → after = before) := by
    intro hafter
    rw [hafter]
    exact ⟨rfl, spared_refl _, fun _ => rfl⟩
  -- a refused creation changes nothing, a visit changes one session at most
  cases request with
  | create request => exact hsame (create_refused horderly hrefused)
  | visit id visit =>
    cases hfound : before.find? id with
    | none => exact hsame (congrArg Prod.snd (run_visit_absent hfound visit))
    | some session =>
      cases visit with
      | call call =>
        obtain ⟨game, hafter, hrefuses⟩ := visit_refused hfound hrefused
        have hafter : after = before.replace { session with game } := hafter
        rw [hafter]
        refine ⟨rfl, spared_replace horderly hfound hrefuses.unmoved, fun hcode => ?_⟩
        rw [hrefuses.blocked hcode]
        exact replace_self horderly hfound
      | finish => cases hrefused
  | list => cases hrefused

/-- The code of an answer that is an error. -/
def errorCode? : Except Fault Answer → Option ErrorCode
  | .ok (.response (.error view)) => some view.code
  | _ => none

theorem exists_error {answer : Except Fault Answer} {code : ErrorCode}
    (h : errorCode? answer = some code) :
    ∃ view, answer = .ok (.response (.error view)) ∧ view.code = code := by
  unfold errorCode? at h
  split at h
  next view => exact ⟨view, rfl, Option.some.inj h⟩
  next => cases h

/-- A selection before the reveal is refused and changes nothing. -/
theorem stroll_refused :
    let before := served [.create stroll] empty
    let request : Request := .visit "session-1" (.call (.select ⟨some 0⟩))
    ∃ view, (request.serve.run.run before).1 = .ok (.response (.error view)) ∧
      view.code = .inputBlocked ∧ (request.serve.run.run before).2 = before := by
  intro before request
  have hcode : errorCode? (request.serve.run.run before).1 = some .inputBlocked := by decide +kernel
  obtain ⟨view, hview, hblocked⟩ := exists_error hcode
  have hnone : empty.sessions = [] := rfl
  obtain ⟨-, -, hunchanged⟩ := refused_unchanged hnone [.create stroll] request hview
  exact ⟨view, hview, hblocked, hunchanged hblocked⟩

end Service

end EventDeck
