import EventDeck.Proofs.Decimal.Form
import EventDeck.Proofs.Service.Looks

/-!
# Requests to the service

Clients create sessions, visit them and ask for a list of them, in any order; `exchanges` are their
requests with the answers, and `served` is the service afterwards.

What a request does to the table of sessions is one of four things (`Files`): nothing, a new game for
one session, the end of one, or a new session behind the others.  So the sessions are numbered as
they were created and none is there twice (`Orderly`), whatever is asked for, also after faults.
-/

namespace EventDeck.Service

open Game

/-! ## Requests -/

/-- A request of a client to the service. -/
inductive Request
  | create (request : CreateRequest)
  | visit (id : String) (visit : Visit)
  | list

/-- What a client is answered: a response, whether there was a session to end, or which sessions
there are. -/
inductive Answer
  | response (response : Response)
  | ended (found : Bool)
  | listed (ids : List String)

/-- The answer to a visit. -/
def Answer.ofVisit : Response ⊕ Bool → Answer
  | .inl answer => .response answer
  | .inr found => .ended found

namespace Request

/-- How the service answers a request. -/
def serve : Request → Serve Answer
  | create request => do return .response (← Service.create request)
  | visit id asked => do return .ofVisit (← asked.serve id)
  | list => do return .listed (← get).active

/-- Whether a request is to a session. -/
def names (id : String) : Request → Bool
  | visit other _ => other = id
  | create _ | list => false

end Request

/-- Some requests, one after the other, with the answers to them. -/
def exchanges : List Request → Service → List (Request × Except Fault Answer)
  | [], _ => []
  | request :: requests, service =>
    let (answer, service) := request.serve.run.run service
    (request, answer) :: exchanges requests service

/-- The service after some requests. -/
def served (requests : List Request) (service : Service) : Service :=
  requests.foldl (fun service request => (request.serve.run.run service).2) service

variable {service other before after : Service} {session : Session} {id : String}
  {request : CreateRequest} {start game : Game} {number : Nat}

theorem exchanges_cons (request : Request) (requests : List Request) (service : Service) :
    exchanges (request :: requests) service =
      (request, (request.serve.run.run service).1) ::
        exchanges requests (request.serve.run.run service).2 := rfl

theorem exchanges_append (early late : List Request) (service : Service) :
    exchanges (early ++ late) service =
      exchanges early service ++ exchanges late (served early service) := by
  induction early generalizing service with
  | nil => rfl
  | cons request early ih => exact congrArg (List.cons _) (ih _)

theorem served_append (early late : List Request) (service : Service) :
    served (early ++ late) service = served late (served early service) :=
  List.foldl_append

theorem length_exchanges (requests : List Request) (service : Service) :
    (exchanges requests service).length = requests.length := by
  induction requests generalizing service with
  | nil => rfl
  | cons request requests ih => exact congrArg (· + 1) (ih _)

/-! ## Identifiers -/

/-- The identifier of the session with a number. -/
def sessionId (number : Nat) : String :=
  s!"session-{Decimal.integerText number}"

theorem sessionId_injective : Function.Injective sessionId := by
  intro m n h
  have htext : Decimal.integerText m = Decimal.integerText n := by
    simpa [sessionId, toString] using h
  exact Int.ofNat_inj.mp (Decimal.integerText_injective htext)

theorem nextId_eq (service : Service) : service.nextId = sessionId (service.created + 1) := rfl

/-! ## Answers to a client that creates a session -/

/-- A client that has created a session is shown it. -/
theorem shown_of_welcome {session : Session} {game after : Game} {response : Response}
    (hrun : (welcome session).run.run game = (.ok response, after)) :
    ∃ seen, response = .session seen ∧ seen.id = session.id := by
  obtain ⟨_, started, -, hrun⟩ := exists_run_of_bind hrun
  obtain ⟨seen, looked, hview, hrun⟩ := exists_run_of_bind hrun
  obtain ⟨offered, evaluated, -, hview⟩ := exists_run_of_bind hview
  cases hrun
  cases hview
  exact ⟨_, rfl, rfl⟩

/-- How a client is told that no session can be built. -/
def refusal : BuildError → Except Fault Response
  | .invalidDeck errors =>
    .ok (.error
      { error := Deck.refusalMessage errors, code := .invalidDeck, deckErrors := some errors })
  | .fault fault => .error fault

/-- A deck that cannot be built leaves everything as it was. -/
theorem run_create_refused {error : BuildError}
    (built : Session.buildGame request.deck service.settings (service.chance request.seed) =
      .error error) : (create request).run.run service = (refusal error, service) := by
  rw [create, run_bind, run_launch_refused built]
  cases error <;> rfl

/-! ## The table of sessions -/

/-- What a request does to the table of sessions. -/
inductive Files (service : Service) : Request → Service → Prop
  | same {request : Request} : Files service request service
  | played {id : String} {session : Session} {call : Call} (found : service.find? id = some session)
    (game : Game) : Files service (.visit id (.call call)) (service.replace { session with game })
  | dropped {id : String} : Files service (.visit id .finish) (service.finish id).2
  | taken {request : CreateRequest} {start : Game}
    (built : Session.buildGame request.deck service.settings (service.chance request.seed) =
      .ok start) (game : Game) : Files service (.create request) (service.taking request game)

/-- A request whose answer is put in other words. -/
theorem run_answer {α : Type} (x : Serve α) (f : α → Answer) :
    (do return f (← x) : Serve Answer).run.run service =
      ((x.run.run service).1.map f, (x.run.run service).2) := by
  rw [run_bind]
  rcases x.run.run service with ⟨fault | answer, after⟩ <;> rfl

theorem run_call (call : Call) :
    (Request.visit id (.call call)).serve.run.run service =
      (((call.serve id).run.run service).1.map .response, ((call.serve id).run.run service).2) := by
  rw [Request.serve, run_answer, run_serve_call]
  rcases (call.serve id).run.run service with ⟨fault | response, after⟩ <;> rfl

/-- The answer to a visit when there is no such session. -/
def absent (id : String) : Visit → Answer
  | .call _ =>
    .response (.error { error := s!"Session not found: {id}", code := .sessionNotFound })
  | .finish => .ended false

/-- When there is no such session, a visit changes nothing. -/
theorem run_visit_absent (h : service.find? id = none) (visit : Visit) :
    (Request.visit id visit).serve.run.run service = (.ok (absent id visit), service) := by
  cases visit with
  | call call =>
    obtain ⟨asked, hasked⟩ := exists_request call
    rw [run_call, hasked, run_withSession, h]
    rfl
  | finish =>
    have hall : service.sessions.filter (·.id != id) = service.sessions :=
      List.filter_eq_self.mpr fun session hsession => by simpa using id_ne_of_fresh h session hsession
    have hfinish : service.finish id = (none, service) := by
      rw [finish, hall, h]
      rfl
    change (Except.ok (Answer.ended (service.finish id).1.isSome), (service.finish id).2) = _
    rw [hfinish]
    rfl

theorem files_serve (fresh : service.find? service.nextId = none) (request : Request) :
    Files service request (request.serve.run.run service).2 := by
  cases request with
  | create request =>
    rw [Request.serve, run_answer]
    rcases hbuilt : Session.buildGame request.deck service.settings (service.chance request.seed)
      with error | start
    · rw [run_create_refused hbuilt]
      exact .same
    · rw [run_create_built fresh hbuilt]
      exact .taken hbuilt _
  | visit id visit =>
    cases visit with
    | call call =>
      obtain ⟨asked, hasked⟩ := exists_request call
      rw [run_call, hasked, run_withSession]
      cases hfound : service.find? id with
      | none => exact .same
      | some session => exact .played hfound _
    | finish => exact .dropped
  | list => exact .same

/-- Nothing but the table of sessions and the number of them changes. -/
theorem Files.setup {request : Request} (h : Files before request after) :
    after = { before with sessions := after.sessions, created := after.created } := by
  cases h <;> rfl

theorem Files.created_le {request : Request} (h : Files before request after) :
    before.created ≤ after.created := by
  cases h with
  | taken => exact Nat.le_succ _
  | _ => exact Nat.le_refl _

/-- The sessions with other identifiers stay. -/
theorem find?_replace_of_ne (h : session.id ≠ id) :
    (service.replace session).find? id = service.find? id := by
  have hmatch : ∀ other : Session,
      ((if other.id = session.id then session else other).id = id) ↔ other.id = id := by
    intro other
    split
    next heq => rw [heq]
    next => rfl
  simp only [find?, replace, List.find?_map, Function.comp_def, hmatch]
  cases hfound : service.sessions.find? (·.id = id) with
  | none => rfl
  | some other =>
    have hother : other.id = id := by simpa using List.find?_some hfound
    rw [Option.map_some, if_neg (hother ▸ h.symm)]

theorem ids_replace (service : Service) (session : Session) :
    (service.replace session).sessions.map (·.id) = service.sessions.map (·.id) := by
  rw [replace, List.map_map]
  refine List.map_congr_left fun other _ => ?_
  dsimp only [Function.comp_apply]
  split
  next heq => exact heq.symm
  next => rfl

theorem find?_finish_of_ne {ended : String} (h : ended ≠ id) :
    (service.finish ended).2.find? id = service.find? id := by
  simp only [find?, finish, List.find?_filter]
  congr 1
  funext session
  rcases eq_or_ne session.id id with heq | hne
  · simp [heq, h.symm]
  · simp [hne]

/-- A request to another session, or one that creates another, leaves a session alone. -/
theorem Files.find?_eq {request : Request} (h : Files before request after)
    (hnames : request.names id = false) (hnew : before.created < after.created → before.nextId ≠ id) :
    after.find? id = before.find? id := by
  cases h with
  | same => rfl
  | @played other session _ found game =>
    have hid : session.id = other := by simpa using List.find?_some found
    exact find?_replace_of_ne (hid ▸ of_decide_eq_false hnames)
  | dropped => exact find?_finish_of_ne (of_decide_eq_false hnames)
  | @taken _ start built game =>
    have hid : before.nextId ≠ id := hnew (Nat.lt_succ_self _)
    simp [find?, taking, opened, List.find?_append, hid]

/-! ## Numbers -/

/-- The sessions are numbered in the order in which they were created, no two have the same number,
and none that has ended is still there. -/
structure Orderly (service : Service) : Prop where
  numbered : ∀ session ∈ service.sessions,
    ∃ number ≤ service.created, session.id = sessionId number
  distinct : (service.sessions.map (·.id)).Nodup
  going : ∀ session ∈ service.sessions, session.ended = false

theorem Orderly.of_nil (h : service.sessions = []) : Orderly service := by
  refine ⟨?_, ?_, ?_⟩ <;> simp [h]

/-- The next identifier is new. -/
theorem Orderly.fresh (h : Orderly service) : service.find? service.nextId = none := by
  refine List.find?_eq_none.mpr fun session hsession => ?_
  obtain ⟨number, hnumber, hid⟩ := h.numbered session hsession
  have hne : number ≠ service.created + 1 := by omega
  simpa [hid, nextId_eq] using fun heq => hne (sessionId_injective heq)

theorem Orderly.files (h : Orderly before) {request : Request} (hfiles : Files before request after) :
    Orderly after := by
  -- a session keeps its identifier when it is played, and a new one has a number that none has had
  cases hfiles with
  | same => exact h
  | @played _ session _ found game =>
    have hsession := List.mem_of_find?_eq_some found
    have hmem : ∀ other ∈ (before.replace { session with game }).sessions,
        ∃ one ∈ before.sessions, other.id = one.id ∧ other.ended = one.ended := by
      intro other hother
      obtain ⟨one, hone, rfl⟩ := List.mem_map.mp hother
      split
      · exact ⟨session, hsession, rfl, rfl⟩
      · exact ⟨one, hone, rfl, rfl⟩
    refine ⟨fun other hother => ?_, ?_, fun other hother => ?_⟩
    · obtain ⟨one, hone, hid, -⟩ := hmem other hother
      exact hid ▸ h.numbered one hone
    · rw [ids_replace]
      exact h.distinct
    · obtain ⟨one, hone, -, hended⟩ := hmem other hother
      exact hended.trans (h.going one hone)
  | @dropped id =>
    have hsublist : (before.finish id).2.sessions.Sublist before.sessions := List.filter_sublist
    exact ⟨fun session hsession => h.numbered session (hsublist.subset hsession),
      h.distinct.sublist (hsublist.map _), fun session hsession => h.going session (hsublist.subset hsession)⟩
  | @taken _ start built game =>
    refine ⟨fun session hsession => ?_, ?_, fun session hsession => ?_⟩
    · rcases List.mem_append.mp hsession with hold | hnew
      · obtain ⟨number, hnumber, hid⟩ := h.numbered session hold
        exact ⟨number, Nat.le_succ_of_le hnumber, hid⟩
      · rw [List.mem_singleton.mp hnew]
        exact ⟨_, Nat.le_refl _, rfl⟩
    · have hnew : before.nextId ∉ before.sessions.map (·.id) := by
        rintro hmem
        obtain ⟨session, hsession, hid⟩ := List.mem_map.mp hmem
        exact id_ne_of_fresh h.fresh session hsession hid
      have hids : (before.sessions.map (·.id) ++ [before.nextId]).Nodup := by
        rw [← List.concat_eq_append]
        exact h.distinct.concat hnew
      rw [taking, List.map_append]
      exact hids
    · rcases List.mem_append.mp hsession with hold | hnew
      · exact h.going session hold
      · rw [List.mem_singleton.mp hnew]
        rfl

theorem Orderly.serve (h : Orderly service) (request : Request) :
    Orderly (request.serve.run.run service).2 :=
  h.files (files_serve h.fresh request)

theorem Orderly.served (h : Orderly service) (requests : List Request) :
    Orderly (served requests service) := by
  induction requests generalizing service with
  | nil => exact h
  | cons request requests ih => exact ih (h.serve request)

end EventDeck.Service
