import EventDeck.Proofs.Service.Requests

/-!
# Sessions side by side

The requests of all clients run on one table of sessions.  The answers to the requests of one session,
and the session in the end, are those of a run with its own requests alone (`exchanges_pick`): a
request reads and writes the session that it names and no other.

Which sessions there are is told by the answers (`live`): those that were created and not ended.
-/

namespace EventDeck.Service

open Game

variable {service other : Service} {id : String} {number : Nat}

/-! ## One session alone -/

theorem served_created_le (h : Orderly service) (requests : List Request) :
    service.created ≤ (served requests service).created := by
  induction requests generalizing service with
  | nil => exact Nat.le_refl _
  | cons request requests ih =>
    exact (files_serve h.fresh request).created_le.trans (ih (h.serve request))

theorem served_setup (h : Orderly service) (requests : List Request) :
    served requests service = { service with
      sessions := (served requests service).sessions
      created := (served requests service).created } := by
  induction requests generalizing service with
  | nil => rfl
  | cons request requests ih =>
    exact (ih (h.serve request)).trans (congrArg
      (fun next : Service => { next with
        sessions := (served (request :: requests) service).sessions
        created := (served (request :: requests) service).created })
      (files_serve h.fresh request).setup)

/-- The answer to a request that names a session depends on that session alone, and so does the
session afterwards. -/
theorem serve_agree_of_names {request : Request} (hnames : request.names id = true)
    (h : service.find? id = other.find? id) :
    (request.serve.run.run service).1 = (request.serve.run.run other).1 ∧
      (request.serve.run.run service).2.find? id = (request.serve.run.run other).2.find? id := by
  cases request with
  | visit named asked =>
    obtain rfl : named = id := of_decide_eq_true hnames
    obtain ⟨hanswer, hsession⟩ := serve_agree h asked
    rw [Request.serve, run_answer, run_answer]
    exact ⟨congrArg (Except.map Answer.ofVisit) hanswer, hsession⟩
  | create | list => cases hnames

/-- Which requests name a session. -/
def namesOf (id : String) (requests : List Request) : List Bool :=
  requests.map (·.names id)

theorem pick_append {α : Type} {mask rest : List Bool} {early late : List α}
    (h : mask.length = early.length) :
    pick (mask ++ rest) (early ++ late) = pick mask early ++ pick rest late := by
  induction mask generalizing early with
  | nil =>
    obtain rfl := List.eq_nil_of_length_eq_zero h.symm
    rfl
  | cons kept mask ih =>
    obtain ⟨a, early, rfl⟩ := List.exists_cons_of_length_eq_add_one h.symm
    cases kept with
    | true => exact congrArg (List.cons a) (ih (Nat.succ.inj h))
    | false => exact ih (Nat.succ.inj h)

/-- As long as no session is created under the identifier of a session, the answers to the requests
that name it are those of these requests alone. -/
theorem exchanges_pick (horderly : Orderly service)
    (h : service.find? (sessionId number) = other.find? (sessionId number)) {requests : List Request}
    (hnumber : number ≤ service.created ∨ (served requests service).created < number) :
    let own := namesOf (sessionId number) requests
    exchanges (pick own requests) other = pick own (exchanges requests service) ∧
      (served (pick own requests) other).find? (sessionId number) =
        (served requests service).find? (sessionId number) := by
  -- The runs go through the requests together: one that names the session has the same answer in both,
  -- and any other one is left out of the second run and leaves the session as it is.
  induction requests generalizing service other with
  | nil => exact ⟨rfl, h.symm⟩
  | cons request requests ih =>
    have hfiles := files_serve horderly.fresh request
    have horderly := horderly.serve request
    have hlater := served_created_le horderly requests
    have hnext : number ≤ (request.serve.run.run service).2.created ∨
        (served requests (request.serve.run.run service).2).created < number :=
      hnumber.imp_left fun hle => hle.trans hfiles.created_le
    rw [namesOf, List.map_cons]
    cases hnames : request.names (sessionId number) with
    | true =>
      obtain ⟨hanswer, hsession⟩ := serve_agree_of_names hnames h
      obtain ⟨hexchanges, hserved⟩ := ih horderly hsession hnext
      exact ⟨congrArg₂ List.cons (Prod.ext rfl hanswer.symm) hexchanges, hserved⟩
    | false =>
      have hnew : service.created < (request.serve.run.run service).2.created →
          service.nextId ≠ sessionId number := by
        intro hlt hid
        have heq := sessionId_injective hid
        have hbound : number ≤ service.created ∨
            (request.serve.run.run service).2.created < number :=
          hnumber.imp_right fun hlt => hlater.trans_lt hlt
        omega
      exact ih horderly ((hfiles.find?_eq hnames hnew).trans h) hnext

/-! ## Identifiers of no session -/

theorem served_absent (h : service.find? id = none) (requests : List Request) :
    served (pick (namesOf id requests) requests) service = service := by
  induction requests with
  | nil => rfl
  | cons request requests ih =>
    rw [namesOf, List.map_cons]
    cases hnames : request.names id with
    | false => exact ih
    | true =>
      cases request with
      | visit named asked =>
        obtain rfl : named = id := of_decide_eq_true hnames
        change served _ ((Request.visit named asked).serve.run.run service).2 = service
        rw [run_visit_absent h]
        exact ih
      | create | list => cases hnames

/-! ## A session that is created -/

variable {request : CreateRequest} {start : Game}

/-- Creating a session does not depend on the sessions there are. -/
theorem create_agree (hother : other = { service with sessions := other.sessions })
    (fresh : service.find? service.nextId = none) (hfresh : other.find? service.nextId = none)
    (built : Session.buildGame request.deck service.settings (service.chance request.seed) =
      .ok start) :
    ((Request.create request).serve.run.run other).1 =
        ((Request.create request).serve.run.run service).1 ∧
      ((Request.create request).serve.run.run other).2.find? service.nextId =
        ((Request.create request).serve.run.run service).2.find? service.nextId := by
  obtain ⟨sessions, rfl⟩ : ∃ sessions, other = { service with sessions } := ⟨_, hother⟩
  rw [Request.serve, run_answer, run_answer, run_create_built fresh built,
    run_create_built hfresh built]
  exact ⟨rfl, (find?_taking hfresh request _).trans (find?_taking fresh request _).symm⟩

/-- The answers to the requests of a session, and the session in the end, are those of a run with
these requests alone, in which it has the same identifier. -/
theorem exchanges_alone (h : service.sessions = []) {early late : List Request}
    (built : Session.buildGame request.deck service.settings (service.chance request.seed) =
      .ok start) :
    let opening := served early service
    let requests := early ++ .create request :: late
    let own := namesOf opening.nextId early ++ true :: namesOf opening.nextId late
    let alone := { service with created := opening.created }
    exchanges (pick own requests) alone = pick own (exchanges requests service) ∧
      (served (pick own requests) alone).find? opening.nextId =
        (served requests service).find? opening.nextId := by
  intro opening requests own alone
  have horderly := Orderly.of_nil h
  have hopening : Orderly opening := horderly.served early
  have halone : ∀ id, alone.find? id = none := by
    intro id
    rw [find?, h]
    rfl
  have hsetup : opening = _ := served_setup horderly early
  have hother : alone = { opening with sessions := alone.sessions } :=
    (congrArg (fun service : Service =>
      { service with sessions := alone.sessions, created := opening.created }) hsetup).symm
  have hbuilt : Session.buildGame request.deck opening.settings (opening.chance request.seed) =
      .ok start := by
    rw [hsetup]
    exact built
  -- before the session is created, its identifier is not known in either run
  have hunknown : service.find? (sessionId (opening.created + 1)) =
      alone.find? (sessionId (opening.created + 1)) := by
    rw [halone, find?, h]
    rfl
  have hbefore : opening.created + 1 ≤ service.created ∨
      (served early service).created < opening.created + 1 := .inr (Nat.lt_succ_self _)
  obtain ⟨hearly, -⟩ := exchanges_pick horderly hunknown hbefore
  have hstays : served (pick (namesOf opening.nextId early) early) alone = alone :=
    served_absent (halone _) early
  obtain ⟨hanswer, hsession⟩ := create_agree hother hopening.fresh (halone _) hbuilt
  let created := ((Request.create request).serve.run.run opening).2
  have hafter : opening.created + 1 ≤ created.created ∨
      (served late created).created < opening.created + 1 := by
    refine .inl ?_
    change _ ≤ ((Request.create request).serve.run.run opening).2.created
    rw [Request.serve, run_answer, run_create_built hopening.fresh hbuilt]
    exact Nat.le_refl _
  obtain ⟨hlate, hserved⟩ :=
    exchanges_pick (hopening.serve (.create request)) hsession.symm hafter
  have hlength : (namesOf opening.nextId early).length = early.length := List.length_map _
  have hpick : pick own requests =
      pick (namesOf opening.nextId early) early ++
        .create request :: pick (namesOf opening.nextId late) late := pick_append hlength
  rw [hpick]
  constructor
  · rw [exchanges_append, exchanges_append, hstays,
      pick_append (hlength.trans (length_exchanges _ _).symm)]
    exact congrArg₂ (· ++ ·) hearly (congrArg₂ List.cons (Prod.ext rfl hanswer) hlate)
  · rw [served_append, served_append, hstays]
    exact hserved

/-! ## The sessions there are -/

/-- The identifiers of the sessions there are after an exchange: one is gained when a session is
created, and lost when it is ended. -/
def living (ids : List String) : Request × Except Fault Answer → List String
  | (.create _, .ok (.response (.session seen))) => ids ++ [seen.id]
  | (.visit id .finish, _) => ids.filter (· != id)
  | _ => ids

/-- The identifiers of the sessions that were created and not ended, in the order of creation. -/
def live (log : List (Request × Except Fault Answer)) : List String :=
  log.foldl living []

theorem Orderly.active_eq (h : Orderly service) :
    service.active = service.sessions.map (·.id) := by
  have hall : service.sessions.filter Session.isActive = service.sessions := by
    refine List.filter_eq_self.mpr fun session hsession => ?_
    rw [Session.isActive, Session.state, if_neg (by simp [h.going session hsession])]
    cases session.game.scheduler.phase <;> rfl
  rw [active, hall]

/-- The table of sessions is changed as the answer to a request tells. -/
theorem ids_serve (h : Orderly service) (request : Request)
    (hok : (request.serve.run.run service).1.isOk = true) :
    (request.serve.run.run service).2.sessions.map (·.id) =
      living (service.sessions.map (·.id)) (request, (request.serve.run.run service).1) := by
  cases request with
  | create request =>
    rw [Request.serve, run_answer] at hok ⊢
    rcases hbuilt : Session.buildGame request.deck service.settings (service.chance request.seed)
      with error | start
    · rw [run_create_refused hbuilt]
      cases error <;> rfl
    · rw [run_create_built h.fresh hbuilt] at hok ⊢
      rcases hrun : (welcome (service.opened request start)).run.run start with
        ⟨fault | response, after⟩
      · rw [hrun] at hok
        cases hok
      · obtain ⟨seen, rfl, hid⟩ := shown_of_welcome hrun
        rw [taking, List.map_append]
        exact congrArg (fun id => _ ++ [id]) hid.symm
  | visit id visit =>
    have hfiles := files_serve h.fresh (.visit id visit)
    -- a call changes a session in its place, an end takes it out of the list
    cases visit with
    | call call =>
      generalize ((Request.visit id (.call call)).serve.run.run service).2 = after at hfiles ⊢
      cases hfiles with
      | same => rfl
      | played found game => exact ids_replace ..
    | finish =>
      have hfilter : (service.sessions.map (·.id)).filter (· != id) =
          (service.sessions.filter (·.id != id)).map (·.id) := List.filter_map
      exact hfilter.symm
  | list => rfl

theorem ids_served (h : Orderly service) {requests : List Request}
    (hok : ∀ exchange ∈ exchanges requests service, exchange.2.isOk = true) :
    (served requests service).sessions.map (·.id) =
      (exchanges requests service).foldl living (service.sessions.map (·.id)) := by
  induction requests generalizing service with
  | nil => rfl
  | cons request requests ih =>
    obtain ⟨hfirst, hrest⟩ := List.forall_mem_cons.mp hok
    rw [exchanges_cons, List.foldl_cons, ← ids_serve h request hfirst]
    exact ih (h.serve request) hrest

theorem find?_eq_none_iff : service.find? id = none ↔ id ∉ service.sessions.map (·.id) := by
  simp [find?]

/-! ## Isolation -/

/-- The sessions of a service do not touch each other.

When a session is created in the midst of any requests, the answers to its own requests, and the
session in the end, are those of a run of these requests alone.  If no request ends in a fault, the
sessions that are listed are those that were created and not ended, in the order of their creation and
without repetition; a visit to any other is answered that there is none, and changes nothing. -/
theorem sessions_isolated (h : service.sessions = []) (requests : List Request) :
    (∀ early request late start, requests = early ++ .create request :: late →
      Session.buildGame request.deck service.settings (service.chance request.seed) = .ok start →
      let id := (served early service).nextId
      let own := namesOf id early ++ true :: namesOf id late
      let alone := { service with created := (served early service).created }
      exchanges (pick own requests) alone = pick own (exchanges requests service) ∧
        (served (pick own requests) alone).find? id = (served requests service).find? id) ∧
    ((∀ exchange ∈ exchanges requests service, exchange.2.isOk = true) →
      let after := served requests service
      let ids := live (exchanges requests service)
      Request.list.serve.run.run after = (.ok (.listed ids), after) ∧ ids.Nodup ∧
        ∀ id, id ∉ ids → ∀ visit,
          (Request.visit id visit).serve.run.run after = (.ok (absent id visit), after)) := by
  refine ⟨?_, fun hok => ?_⟩
  · rintro early request late start rfl built
    exact exchanges_alone h built
  · intro after ids
    have horderly : Orderly after := (Orderly.of_nil h).served requests
    -- without faults the table is what the answers have told
    have hids : after.sessions.map (·.id) = ids := by
      have hserved := ids_served (Orderly.of_nil h) hok
      rwa [h] at hserved
    refine ⟨?_, hids ▸ horderly.distinct, fun id hid visit => run_visit_absent ?_ visit⟩
    · rw [← hids, ← horderly.active_eq]
      rfl
    · exact find?_eq_none_iff.mpr (hids ▸ hid)

/-- Two sessions side by side: the second is created and played while the first waits, and is ended. -/
theorem strolls_isolated :
    ∃ start, Session.buildGame stroll.deck empty.settings (empty.chance stroll.seed) = .ok start ∧
      let first : List Request := [.create stroll, .visit "session-2" (.call .look)]
      let second : List Request :=
        [.visit "session-1" (.call .reveal), .visit "session-2" (.call .reveal),
          .visit "session-1" (.call (.select ⟨some 0⟩)), .visit "session-2" .finish]
      let requests := first ++ .create stroll :: second
      (let own := [false, true, true, false, true, false, true]
      let alone := { empty with created := 1 }
      exchanges (pick own requests) alone = pick own (exchanges requests empty) ∧
        (served (pick own requests) alone).find? "session-2" =
          (served requests empty).find? "session-2") ∧
      let after := served requests empty
      Request.list.serve.run.run after = (.ok (.listed ["session-1"]), after) ∧
        (Request.visit "session-2" .finish).serve.run.run after = (.ok (.ended false), after) := by
  obtain ⟨start, hbuilt⟩ := exists_built_stroll
  refine ⟨start, hbuilt, ?_⟩
  intro first second requests
  have hnone : empty.sessions = [] := rfl
  obtain ⟨halone, hlisted⟩ := sessions_isolated hnone requests
  have hok : ∀ exchange ∈ exchanges requests empty, exchange.2.isOk = true := by decide +kernel
  have hids : live (exchanges requests empty) = ["session-1"] := by decide +kernel
  obtain ⟨hlist, -, habsent⟩ := hlisted hok
  have hcreated : (served first empty).created = 1 := by decide +kernel
  have hown : namesOf "session-2" first ++ true :: namesOf "session-2" second =
      [false, true, true, false, true, false, true] := by decide
  -- both parts of the theorem, at requests whose answers are computed
  have hsecond := halone first stroll second start rfl hbuilt
  have hid : (served first empty).nextId = "session-2" := by
    rw [nextId_eq, hcreated]
    decide
  refine ⟨?_, ?_, habsent "session-2" (by rw [hids]; decide) .finish⟩
  · rw [hid, hcreated] at hsecond
    dsimp only at hsecond
    rwa [hown] at hsecond
  · rw [← hids]
    exact hlist

end EventDeck.Service
