import EventDeck.Proofs.Game.Conditions
import EventDeck.Proofs.Service.Calls

/-!
# Looks

A look at a session evaluates the conditions of the current actions and of the controls, without
reports.  It changes nothing but the source of chance (`after_view`), and not even that when no
condition has the word `Random`.

So when looks are left out of what a client asks for, the other answers stay as they are in the
sessions of a deck without such conditions, and always if the looks have drawn nothing
(`looks_unnoticed`).  A condition that draws lets a look be noticed later (`gamble_noticed`).
-/

namespace EventDeck

open Game EventDeck.Expr Text

/-! ## Reading without reports -/

namespace Game

variable {α : Type} {game before after : Game}

/-- While reports are muted, a request takes chance at most. -/
def Peeks (before : Game) (_ : Option Fault) (after : Game) : Prop :=
  before.diagnostics.muted ≠ 0 → after = { before with generator := after.generator }

instance reads_peeks : Conduct.Reads Peeks where
  refl _ _ := rfl
  next {before between after _} first second hmuted := by
    have hbetween := first hmuted
    have hafter := second (by rwa [hbetween])
    rw [hbetween] at hafter
    exact hafter
  report d game hmuted := by
    rw [Diagnostics.report, if_neg hmuted]
  chance _ _ := rfl
  floor _ _ _ := rfl

/-- A request takes no chance. -/
def Still (before : Game) (_ : Option Fault) (after : Game) : Prop :=
  after.generator = before.generator

instance composes_still : Conduct.Composes Still where
  refl _ := rfl
  next first second := second.trans first

/-! ### Conditions without chance -/

theorem still_holds {condition : String} (h : ¬randomWord <:+: condition.toList) (game : Game) :
    Runs Still (holds condition) game := by
  have hcalls : CallFree (trim condition.toList) :=
    callFree_of_wordless fun hword => h (hword.trans (infix_trim _))
  obtain ⟨diagnostics, hrun⟩ := run_holds_of_callFree hcalls game
  unfold Runs
  rw [hrun]
  rfl

/-- No condition of an action or a control has the word `Random`. -/
structure Certain (game : Game) : Prop where
  actions : ∀ key, ∀ action ∈ (game.catalog.card key).actions,
    ¬randomWord <:+: action.condition.toList
  controls : ∀ control ∈ game.panel, ¬randomWord <:+: control.condition.toList

theorem Certain.of_frame (h : before.Certain) (hframe : Frame before after) : after.Certain where
  actions key action haction := h.actions key action (hframe.faces.actions key ▸ haction)
  controls control hcontrol := h.controls control (hframe.panel ▸ hcontrol)

theorem Certain.showing (h : game.Certain) (key : Nat) : (game.begun.showing key).Certain := by
  rw [Game.showing]
  cases game.begun.settings.autoReveal <;> exact ⟨h.actions, h.controls⟩

theorem still_choices (h : game.Certain) : Runs Still choices game := by
  refine runs_choices_of fun action haction after => still_holds ?_ after
  rw [actions] at haction
  split at haction
  next => cases haction
  next key _ => exact h.actions key action haction

theorem still_availableControls (h : game.Certain) : Runs Still availableControls game :=
  runs_availableControls_of fun control hcontrol => still_holds (h.controls control hcontrol)

end Game

namespace Service

variable {service other : Service} {session : Session} {id : String} {game : Game}

/-! ## Looking -/

/-- What a look evaluates. -/
def offered : Play (List Offer × List String) := do
  return (← Game.choices, ← Game.availableControls)

/-- A request without reports leaves no trace of that. -/
theorem run_muted {α : Type} (request : Play α) (game : Game) :
    (muted request).run.run game =
      let (result, after) := request.run.run { game with diagnostics := game.diagnostics.mute }
      (result, { after with diagnostics := after.diagnostics.unmute }) := rfl

/-- The game after a look: what is offered was evaluated while reports were muted. -/
theorem after_view_eq (session : Session) (game : Game) :
    ((view session).run.run game).2 =
      let evaluated := (offered.run.run { game with diagnostics := game.diagnostics.mute }).2
      { evaluated with diagnostics := evaluated.diagnostics.unmute } := by
  have hmuted := run_muted offered game
  rcases hrun : offered.run.run { game with diagnostics := game.diagnostics.mute } with
    ⟨fault | found, after⟩
  · rw [hrun] at hmuted
    rw [view]
    exact congrArg Prod.snd (run_bind_error hmuted _)
  · rw [hrun] at hmuted
    rw [view]
    exact congrArg Prod.snd (run_bind_ok hmuted _)

/-- A look at a session changes nothing but the source of chance, also when it ends in a fault. -/
theorem after_view (session : Session) (game : Game) :
    ((view session).run.run game).2 =
      { game with generator := ((view session).run.run game).2.generator } := by
  let muted := { game with diagnostics := game.diagnostics.mute }
  have hpeeks : Runs Peeks offered muted :=
    (runs_choices muted).then fun _ between =>
      (runs_availableControls between).then fun _ _ => runs_pure _ _
  have hafter := hpeeks (Nat.succ_ne_zero _)
  rw [after_view_eq, hafter]
  rfl

/-- A look takes no chance when no condition has the word `Random`. -/
theorem after_view_of_certain (session : Session) (h : game.Certain) :
    ((view session).run.run game).2 = game := by
  let muted := { game with diagnostics := game.diagnostics.mute }
  have hmuted : muted.Certain := ⟨h.actions, h.controls⟩
  have hstill : Runs Still offered muted := by
    refine (still_choices hmuted).bind fun offers between hrun => ?_
    have hquiet : Evaluates muted none between := (runs_choices muted).of_ok hrun
    exact (still_availableControls (hmuted.of_frame hquiet.frame)).then fun _ _ => runs_pure _ _
  have hgenerator : ((view session).run.run game).2.generator = game.generator := by
    rw [after_view_eq]
    exact hstill
  rw [after_view, hgenerator]

/-! ## Requests to a session -/

/-- A request of a client to a session: a call, or to end it. -/
inductive Visit
  | call (call : Call)
  | finish

/-- How the service answers: with the response to the call, or whether there was a session to end. -/
def Visit.serve (id : String) : Visit → Serve (Response ⊕ Bool)
  | .call request => do return .inl (← request.serve id)
  | .finish => do
    let (ended, service) := (← get).finish id
    set service
    return .inr ended.isSome

/-- The answers to some requests, one after the other. -/
def answers (id : String) : List Visit → Service → List (Except Fault (Response ⊕ Bool))
  | [], _ => []
  | visit :: visits, service =>
    let (answer, service) := (visit.serve id).run.run service
    answer :: answers id visits service

/-- The service after some requests. -/
def visited (id : String) (visits : List Visit) (service : Service) : Service :=
  visits.foldl (fun service visit => ((visit.serve id).run.run service).2) service

/-- What is left of a list when some places are left out. -/
def pick {α : Type} : List Bool → List α → List α
  | true :: mask, a :: items => a :: pick mask items
  | false :: mask, _ :: items => pick mask items
  | _, _ => []

/-! ## What an answer depends on -/

theorem run_withSession (request : Session → Play Response) :
    (withSession id request).run.run service =
      match service.find? id with
      | none => (.ok (.error { error := s!"Session not found: {id}", code := .sessionNotFound }), service)
      | some session =>
        (((request session).run.run session.game).1,
          service.replace { session with game := ((request session).run.run session.game).2 }) := by
  rw [withSession, run_get_bind]
  cases service.find? id <;> rfl

/-- Every call is a request to the session of an identifier. -/
theorem exists_request (call : Call) :
    ∃ request, ∀ id, call.serve id = withSession id request := by
  cases call <;> exact ⟨_, fun _ => rfl⟩

theorem run_serve_call (call : Call) :
    ((Visit.call call).serve id).run.run service =
      (((call.serve id).run.run service).1.map .inl, ((call.serve id).run.run service).2) := by
  rw [Visit.serve, run_bind]
  rcases (call.serve id).run.run service with ⟨fault | response, after⟩ <;> rfl

/-- An answer depends on the session alone, and so does the session afterwards. -/
theorem serve_agree (h : service.find? id = other.find? id) (visit : Visit) :
    ((visit.serve id).run.run service).1 = ((visit.serve id).run.run other).1 ∧
      ((visit.serve id).run.run service).2.find? id =
        ((visit.serve id).run.run other).2.find? id := by
  cases visit with
  | call call =>
    obtain ⟨request, hrequest⟩ := exists_request call
    rw [run_serve_call, run_serve_call, hrequest, run_withSession, run_withSession, ← h]
    cases hsession : service.find? id with
    | none => exact ⟨rfl, hsession.trans (h ▸ hsession).symm⟩
    | some session =>
      have hother : other.find? id = some session := h ▸ hsession
      exact ⟨rfl, (find?_replace hsession _).trans (find?_replace hother _).symm⟩
  | finish =>
    have hgone : ∀ service : Service, (service.finish id).2.find? id = none := by
      intro service
      refine List.find?_eq_none.mpr fun session hsession => ?_
      simpa using (List.mem_filter.mp hsession).2
    refine ⟨?_, (hgone service).trans (hgone other).symm⟩
    change Except.ok (Sum.inr (Option.map _ (service.find? id)).isSome) =
      Except.ok (Sum.inr (Option.map _ (other.find? id)).isSome)
    rw [Option.isSome_map, Option.isSome_map, h]

theorem answers_agree (h : service.find? id = other.find? id) (visits : List Visit) :
    answers id visits service = answers id visits other := by
  induction visits generalizing service other with
  | nil => rfl
  | cons visit visits ih =>
    obtain ⟨hanswer, hsession⟩ := serve_agree h visit
    rw [answers, answers]
    exact congrArg₂ List.cons hanswer (ih hsession)

theorem length_answers (id : String) (visits : List Visit) (service : Service) :
    (answers id visits service).length = visits.length := by
  induction visits generalizing service with
  | nil => rfl
  | cons visit visits ih => exact congrArg (· + 1) (ih _)

theorem answers_append (id : String) (early late : List Visit) (service : Service) :
    answers id (early ++ late) service =
      answers id early service ++ answers id late (visited id early service) := by
  induction early generalizing service with
  | nil => rfl
  | cons visit early ih => exact congrArg (List.cons _) (ih _)

/-! ## Leaving looks out -/

/-- The session after a look is what the look has made of its game. -/
theorem find?_look (service : Service) (id : String) :
    (((Visit.call .look).serve id).run.run service).2.find? id =
      (service.find? id).map fun session =>
        { session with game := ((view session).run.run session.game).2 } := by
  have hlook : ((Visit.call .look).serve id).run.run service =
      (((look id).run.run service).1.map .inl, ((look id).run.run service).2) := run_serve_call .look
  have hrequest : ∀ session : Session,
      ((do return .session (← view session) : Play Response).run.run session.game).2 =
        ((view session).run.run session.game).2 := by
    intro session
    rw [run_bind]
    rcases (view session).run.run session.game with ⟨fault | seen, after⟩ <;> rfl
  rw [hlook, look, run_withSession]
  cases hsession : service.find? id with
  | none => exact hsession
  | some session =>
    refine (find?_replace hsession _).trans ?_
    rw [hrequest]
    rfl

/-- What is so of the session of an identifier, if there is one. -/
def Sure (id : String) (service : Service) : Prop :=
  ∀ session, service.find? id = some session → session.game.Certain

theorem find?_look_of_sure (h : Sure id service) :
    (((Visit.call .look).serve id).run.run service).2.find? id = service.find? id := by
  rw [find?_look]
  cases hsession : service.find? id with
  | none => rfl
  | some session => rw [Option.map_some, after_view_of_certain session (h session hsession)]

/-- Conditions stay what they are, whatever is asked for. -/
theorem Sure.serve (h : Sure id service) (visit : Visit) :
    Sure id ((visit.serve id).run.run service).2 := by
  intro session hafter
  cases visit with
  | call call =>
    rw [run_serve_call] at hafter
    cases hbefore : service.find? id with
    | none =>
      obtain ⟨request, hrequest⟩ := exists_request call
      rw [hrequest, run_withSession, hbefore] at hafter
      exact absurd (hbefore.symm.trans hafter) nofun
    | some before =>
      obtain ⟨game, hgame, hserves⟩ := serves_serve call hbefore
      obtain rfl := Option.some.inj (hafter.symm.trans hgame)
      obtain ⟨stages, hcourse⟩ := hserves.leads
      exact (h before hbefore).of_frame hcourse.frame
  | finish =>
    have hgone : (service.finish id).2.find? id = none := by
      refine List.find?_eq_none.mpr fun session hsession => ?_
      simpa using (List.mem_filter.mp hsession).2
    exact absurd (hgone.symm.trans hafter) nofun

/-- Where no condition draws, looks that are left out are not missed by the other answers. -/
theorem answers_pick (hsure : Sure id service) (h : service.find? id = other.find? id)
    {visits : List Visit} {mask : List Bool} (hlength : mask.length = visits.length)
    (hlooks : ∀ visit ∈ pick (mask.map (!·)) visits, visit = .call .look) :
    answers id (pick mask visits) other = pick mask (answers id visits service) := by
  induction visits generalizing service other mask with
  | nil =>
    obtain rfl := List.eq_nil_of_length_eq_zero hlength
    rfl
  | cons visit visits ih =>
    obtain ⟨kept, mask, rfl⟩ := List.exists_cons_of_length_eq_add_one hlength
    have hmask : mask.length = visits.length := Nat.succ.inj hlength
    cases kept with
    | true =>
      obtain ⟨hanswer, hsession⟩ := serve_agree h visit
      exact congrArg₂ List.cons hanswer.symm (ih (hsure.serve visit) hsession hmask hlooks)
    | false =>
      obtain ⟨rfl, hrest⟩ := List.forall_mem_cons.mp hlooks
      have hsession := (find?_look_of_sure hsure).trans h
      exact ih (hsure.serve _) hsession hmask hrest

/-- A look that leaves the session as it is can be left out. -/
theorem answers_eraseIdx {early : List Visit}
    (h : (visited id (early ++ [.call .look]) service).find? id =
      (visited id early service).find? id) (late : List Visit) :
    answers id (early ++ late) service =
      (answers id (early ++ .call .look :: late) service).eraseIdx early.length := by
  have hlength := length_answers id early service
  rw [answers_append, answers_append, List.eraseIdx_append_of_length_le (Nat.le_of_eq hlength),
    hlength, Nat.sub_self]
  rw [visited, List.foldl_append] at h
  exact congrArg _ (answers_agree h.symm late)

end Service

/-! ## Sessions -/

namespace Deck

/-- No condition of an action or a control of a deck has the word `Random`. -/
structure Certain (deck : Deck) : Prop where
  actions : ∀ event ∈ deck.events, ∀ action ∈ event.actions,
    ¬randomWord <:+: action.condition.toList
  controls : ∀ control ∈ deck.controls, ¬randomWord <:+: control.condition.toList

end Deck

namespace Service

variable {service : Service} {request : CreateRequest} {session : Session} {id : String}
  {game start : Game}

theorem certain_of_builds {deck : Deck} {settings : Settings} {generator : Generator}
    (built : Session.Builds deck settings generator start) (h : deck.Certain) : start.Certain where
  actions key action haction := by
    obtain ⟨event, hevent, hmem⟩ := Session.mem_actions_of_builds built haction
    exact h.actions event hevent action hmem
  controls control hcontrol := by
    rw [built.panel] at hcontrol
    obtain ⟨written, hwritten, rfl⟩ := List.mem_map.mp (Panel.mem_ofList hcontrol)
    exact h.controls written hwritten

/-- Looks at a session take chance at most: the session after a look is the same but for the source of
chance.  A look that draws nothing can be left out of what a client asks for, and only its answer goes
with it.  In a session of a deck without the word `Random` in the conditions of actions and controls,
any looks can be left out: the other answers are the same. -/
theorem looks_unnoticed (fresh : service.find? service.nextId = none)
    (built : Session.buildGame request.deck service.settings (service.chance request.seed) =
      .ok start) :
    let created := ((create request).run.run service).2
    (∀ visits session, (visited service.nextId visits created).find? service.nextId = some session →
      ∃ generator, (visited service.nextId (visits ++ [.call .look]) created).find? service.nextId =
        some { session with game := { session.game with generator } }) ∧
    (∀ early late,
      (visited service.nextId (early ++ [.call .look]) created).find? service.nextId =
        (visited service.nextId early created).find? service.nextId →
      answers service.nextId (early ++ late) created =
        (answers service.nextId (early ++ .call .look :: late) created).eraseIdx early.length) ∧
    (request.deck.Certain → ∀ visits mask, mask.length = visits.length →
      (∀ visit ∈ pick (mask.map (!·)) visits, visit = .call .look) →
      answers service.nextId (pick mask visits) created =
        pick mask (answers service.nextId visits created)) := by
  intro created
  -- The three parts: what a look changes, a look that draws nothing, and looks in decks where none of
  -- them draws.
  refine ⟨fun visits session hsession => ?_, fun early late h => answers_eraseIdx h late,
    fun hdeck visits mask hlength hlooks => answers_pick ?_ rfl hlength hlooks⟩
  · refine ⟨((view session).run.run session.game).2.generator, ?_⟩
    have hlook := find?_look (visited service.nextId visits created) service.nextId
    rw [hsession, Option.map_some, after_view] at hlook
    rw [visited, List.foldl_append]
    exact hlook
  · intro session hsession
    obtain ⟨game, hgame, hopens⟩ := played?_create fresh built
    obtain ⟨stages, hcourse⟩ := hopens.leads
    have hcertain := certain_of_builds (Session.builds_of_buildGame built) hdeck
    have hplayed : (created.find? service.nextId).map (·.game) = some game := hgame
    rw [hsession] at hplayed
    obtain rfl := Option.some.inj hplayed
    exact hcertain.of_frame hcourse.frame

/-- A look between the reveal and the selection of a card is not missed. -/
theorem stroll_unnoticed :
    ∃ start, Session.buildGame stroll.deck empty.settings (empty.chance stroll.seed) = .ok start ∧
      stroll.deck.Certain ∧
      let created := ((create stroll).run.run empty).2
      let visits : List Visit := [.call .reveal, .call .look, .call (.select ⟨some 0⟩)]
      answers empty.nextId (pick [true, false, true] visits) created =
        pick [true, false, true] (answers empty.nextId visits created) := by
  obtain ⟨start, hbuilt⟩ := exists_built_stroll
  have hcertain : stroll.deck.Certain := ⟨by decide, by decide⟩
  obtain ⟨-, -, hpick⟩ := looks_unnoticed fresh_empty hbuilt
  refine ⟨start, hbuilt, hcertain, hpick hcertain _ _ rfl ?_⟩
  rintro visit hvisit
  exact List.mem_singleton.mp hvisit

/-! ## A look that is noticed -/

/-- A condition that holds by chance. -/
def gambleText : String := "Random(0, 2)"

/-- What is drawn in it. -/
def gambleCall : RandomCall := ⟨"0".toList, "2".toList⟩

/-- A control with that condition. -/
def gambleButton : Control := { name := "c", label := "c", condition := gambleText }

/-- A request for a deck of one event and that control. -/
def gamble : CreateRequest where
  deck := { events := [{ name := "e" }], controls := [gambleButton] }
  seed := none

/-- The number that the condition comes to when chance draws `u`. -/
def gambled (u : Float) : Except Fault Int :=
  let low := numberOf gambleCall.low
  Decimal.floor (low + u * (numberOf gambleCall.high - low))

theorem gambled_zero : gambled 0 = .ok 0 := by decide +kernel

theorem gambled_half : gambled 0.5 = .ok 1 := by decide +kernel

/-- The condition holds for a one. -/
theorem evaluateText_integer {n : Int} (h : n = 0 ∨ n = 1) :
    ∃ value, evaluateText .evaluating (Decimal.integer n) = .ok value ∧
      value.isTrue = (n = 1 : Bool) := by
  rcases h with rfl | rfl
  · refine ⟨.number (numberOf (Decimal.integer 0)), evaluateText_literal (by cbv), ?_⟩
    decide +kernel
  · refine ⟨.number (numberOf (Decimal.integer 1)), evaluateText_literal (by cbv), ?_⟩
    decide +kernel

theorem run_holds_gamble {n : Int} (hfloor : gambled game.generator.uniform.1 = .ok n)
    (hn : n = 0 ∨ n = 1) :
    (holds gambleText).run.run game =
      (.ok (n = 1 : Bool), { game with generator := game.generator.uniform.2 }) := by
  obtain ⟨value, hvalue, htrue⟩ := evaluateText_integer hn
  have hcall : randomCall? gambleText.toList = some (gambleCall, []) := by cbv
  have htrim : trim gambleText.toList = gambleText.toList := by cbv
  have hlow : evaluateNumber .evaluating gambleCall.low = .ok (numberOf gambleCall.low) :=
    evaluateNumber_literal (by cbv)
  have hhigh : evaluateNumber .evaluating gambleCall.high = .ok (numberOf gambleCall.high) :=
    evaluateNumber_literal (by cbv)
  have hbounds : ¬numberOf gambleCall.high ≤ numberOf gambleCall.low := by decide +kernel
  let drawn := { game with generator := game.generator.uniform.2 }
  have hrandom : (randomBetween (numberOf gambleCall.low) (numberOf gambleCall.high)).run.run game =
      (.ok n, drawn) := by
    rw [randomBetween, if_neg hbounds]
    change (liftM (gambled game.generator.uniform.1) : Play Int).run.run drawn = _
    rw [hfloor]
    rfl
  -- bounds that are literals, one number drawn between them, its floor pasted and read
  have hdraw : (drawCall gambleCall).run.run.run game = (.ok (.ok (Decimal.integer n)), drawn) := by
    rw [drawCall, hlow, hhigh, attempt_bind_ok (attempt_except _ game),
      attempt_bind_ok (attempt_except _ game), attempt_bind_ok (attempt_lift_ok hrandom)]
    rfl
  have hsubstitute : (substitute gambleText.toList).run.run game =
      (.ok gambleText.toList, game) := by cbv
  have hreplace : (replaceRandoms drawCall gambleText.toList).run.run.run game =
      (.ok (.ok (Decimal.integer n)), drawn) := by
    rw [replaceRandoms_call hcall, hdraw]
  have hevaluate : (evaluateValue gambleText.toList).run.run.run game =
      (.ok (.ok value), drawn) := by
    rw [evaluateValue, attempt_bind_ok (attempt_lift_ok hsubstitute), attempt_bind_ok hreplace,
      hvalue]
    exact attempt_except _ _
  rw [holds, if_neg (by decide), evaluateCondition, htrim, run_orReport, attempt_bind, hevaluate,
    ← htrue]
  rfl

/-- The script that chance is drawn from: four zeros and then a half. -/
def gambleScript : List Float := [0, 0, 0, 0, 0.5]

/-- A service without sessions that draws from it. -/
def table : Service where
  settings := {}
  chance := fun _ => .ofScript gambleScript

/-- The only control has the condition, there are no actions, and some numbers will be drawn next. -/
structure Gambling (upcoming : List Float) (game : Game) : Prop where
  panel : game.panel = [gambleButton]
  actions : game.actions = []
  generator : game.generator = .scripted gambleScript upcoming

/-- What a client is shown of such a game: one number is drawn. -/
theorem Gambling.run_view {u : Float} {rest : List Float} (h : Gambling (u :: rest) game)
    (session : Session) {n : Int} (hfloor : gambled u = .ok n) (hn : n = 0 ∨ n = 1) :
    ∃ seen after, (view session).run.run game = (.ok seen, after) ∧
      seen.availableControls = (if n = 1 then ["c"] else []) ∧ Gambling rest after := by
  let muted := { game with diagnostics := game.diagnostics.mute }
  let drawn := { muted with generator := game.generator.uniform.2 }
  -- there are no actions, so the condition of the control is the only one that is evaluated
  have hchoices : ∃ offers, choices.run.run muted = (.ok offers, muted) := by
    have havailable : availableActions.run.run muted = (.ok [], muted) := by
      rw [availableActions, run_bind_ok (run_currentActions muted)]
      change (do return (← game.actions.zipIdx.filterM _).map (·.2) : Play _).run.run muted = _
      rw [h.actions]
      rfl
    rw [choices, run_get_bind]
    cases game.scheduler.current with
    | none => exact ⟨[], rfl⟩
    | some key =>
      change ∃ offers, (availableActions >>= _).run.run muted = (.ok offers, muted)
      rw [run_bind_ok havailable, run_bind_ok (run_currentActions muted)]
      exact ⟨_, rfl⟩
  have hholds : (holds gambleButton.condition).run.run muted = (.ok (n = 1 : Bool), drawn) := by
    refine run_holds_gamble ?_ hn
    change gambled game.generator.uniform.1 = .ok n
    rwa [h.generator]
  have hcontrols : availableControls.run.run muted =
      (.ok (if n = 1 then ["c"] else []), drawn) := by
    have hfilter : (game.panel.filterM fun control => holds control.condition).run.run muted =
        (.ok (if n = 1 then game.panel else []), drawn) := by
      rw [h.panel, List.filterM, List.filterAuxM, bind_assoc, run_bind_ok hholds]
      rcases hn with rfl | rfl <;> rfl
    rw [availableControls, run_get_bind, run_bind_ok hfilter, h.panel]
    rcases hn with rfl | rfl <;> rfl
  obtain ⟨offers, hoffers⟩ := hchoices
  have hoffered : (Service.muted offered).run.run game =
      (Except.ok (offers, if n = 1 then ["c"] else []),
        { game with generator := game.generator.uniform.2 }) := by
    rw [run_muted, offered, run_bind_ok hoffers, run_bind_ok hcontrols]
    rfl
  refine ⟨_, _, (run_bind_ok hoffered _).trans rfl, rfl, h.panel, h.actions, ?_⟩
  rw [h.generator]
  rfl

/-- The check of the condition reads the bounds, but draws nothing. -/
theorem problem?_gamble : problem? gambleText false = none := by
  have htrim : trim gambleText.toList = gambleText.toList := by cbv
  have hplain : replaceNames (fun _ => pure ['0']) gambleText.toList =
      (.ok gambleText.toList : Except ExprError _) := by cbv
  have hrandom : randomCall? gambleText.toList = some (gambleCall, []) := by cbv
  have hcall : checkedCall gambleCall = .ok ['0'] := by
    rw [checkedCall, evaluateNumber_literal (by cbv), evaluateNumber_literal (by cbv)]
    rfl
  have hzero : evaluateText .checking ['0'] = .ok (.number (numberOf ['0'])) :=
    evaluateText_literal (by cbv)
  rw [problem?_eq_none_iff, htrim, if_neg (by decide), checkExpression, hplain]
  change (replaceRandoms checkedCall gambleText.toList >>= fun plain =>
    evaluateText .checking plain >>= fun _ => .ok ()) = _
  rw [replaceRandoms_call hrandom, hcall]
  change (evaluateText .checking ['0'] >>= fun _ => .ok ()) = _
  rw [hzero]
  rfl

/-- The deck has no errors. -/
theorem errors_gamble : gamble.deck.findings.errors = [] := by
  have hcheck : ∀ place, Deck.checkText place "condition" false gambleText = {} := by
    intro place
    rw [Deck.checkText, if_neg (by decide), problem?_gamble]
  have hcontrol : Deck.checkControl ["e"] gambleButton = {} := by
    rw [Deck.checkControl, Deck.checkReaction]
    change Deck.checkText _ "condition" false gambleText ++ _ ++ _ = _
    rw [hcheck]
    rfl
  have hfindings : gamble.deck.findings = Deck.checkUnique "event" ["e"] ++
      Deck.checkUnique "variable" [] ++ Deck.checkUnique "control" ["c"] ++ {} ++
      ({} ++ Deck.checkEvent ["e"] { name := "e" }) ++
      ({} ++ Deck.checkControl ["e"] gambleButton) ++ Deck.checkEvents gamble.deck.events := rfl
  rw [hfindings, hcontrol]
  decide +kernel

/-- The session starts with the only card. -/
theorem run_start_gamble
    (built : Session.buildGame gamble.deck table.settings (table.chance gamble.seed) = .ok start) :
    ∃ phase, (Session.start silent).run.run start = (.ok phase, start.begun.showing 0) := by
  have hbuilds := Session.builds_of_buildGame built
  have hconditions : ∀ key, isBlankText (start.catalog.card key).condition = true :=
    Session.condition_of_builds (P := (isBlankText · = true)) hbuilds rfl (by decide)
  have hhead : start.catalog.head? = some 0 := by
    rw [hbuilds.catalog]
    decide +kernel
  have hdraw : draw.run.run start = (.ok true, start.begun.showing 0) := by
    rw [run_draw_unconditional hconditions, hhead]
  exact ⟨_, run_start hdraw⟩

/-- The controls that a client is shown. -/
def shownControls : Except Fault (Response ⊕ Bool) → List String
  | .ok (.inl (.session seen)) => seen.availableControls
  | _ => []

/-- A look, or a reveal, draws one number of the script and shows the control when it is a one. -/
theorem Gambling.run_serve {u : Float} {rest : List Float} (hfound : service.find? id = some session)
    (h : Gambling (u :: rest) session.game) {n : Int} (hfloor : gambled u = .ok n)
    (hn : n = 0 ∨ n = 1) {call : Call} (hcall : call = .look ∨ call = .reveal) :
    ∃ answer after, ((Visit.call call).serve id).run.run service = (answer, after) ∧
      shownControls answer = (if n = 1 then ["c"] else []) ∧
      ∃ session, after.find? id = some session ∧ Gambling rest session.game := by
  rw [run_serve_call]
  -- a reveal changes the phase and then looks
  rcases hcall with rfl | rfl
  · obtain ⟨seen, after, hrun, hshown, hafter⟩ := h.run_view session hfloor hn
    refine ⟨_, _, rfl, ?_⟩
    change shownControls (((look id).run.run service).1.map .inl) = _ ∧
      ∃ session, ((look id).run.run service).2.find? id = some session ∧ _
    rw [look, run_withSession, hfound]
    dsimp only
    rw [run_bind_ok hrun]
    exact ⟨hshown, _, find?_replace hfound _, hafter⟩
  · obtain ⟨flag, revealed, hreveal, hrevealed⟩ : ∃ flag after,
        Game.reveal.run.run session.game = (.ok flag, after) ∧ Gambling (u :: rest) after := by
      rw [Game.reveal, run_get_bind]
      split
      · exact ⟨_, _, rfl, h.panel, h.actions, h.generator⟩
      · exact ⟨_, _, rfl, h⟩
    obtain ⟨seen, after, hrun, hshown, hafter⟩ := hrevealed.run_view session hfloor hn
    refine ⟨_, _, rfl, ?_⟩
    change shownControls (((reveal id).run.run service).1.map .inl) = _ ∧
      ∃ session, ((reveal id).run.run service).2.find? id = some session ∧ _
    rw [reveal, run_withSession, hfound]
    dsimp only
    rw [run_bind_ok hreveal, run_bind_ok hrun]
    exact ⟨hshown, _, find?_replace hfound _, hafter⟩

/-- When the session is created a zero is drawn. -/
theorem gambling_created
    (built : Session.buildGame gamble.deck table.settings (table.chance gamble.seed) = .ok start) :
    ∃ session, ((create gamble).run.run table).2.find? table.nextId = some session ∧
      Gambling [0, 0.5] session.game := by
  have hbuilds := Session.builds_of_buildGame built
  have fresh : table.find? table.nextId = none := rfl
  obtain ⟨session, hplayed⟩ := played?_nil fresh built
  obtain ⟨phase, hstart⟩ := run_start_gamble built
  have hstarted : Gambling [0, 0, 0.5] (start.begun.showing 0) := by
    refine ⟨hbuilds.panel, ?_, ?_⟩
    · have hcurrent : (start.begun.showing 0).scheduler.current = some 0 := by
        rw [showing]
        cases start.begun.settings.autoReveal <;> rfl
      rw [Game.actions, hcurrent]
      change (start.catalog.card 0).actions = []
      rw [hbuilds.catalog]
      rfl
    · change start.generator = _
      rw [hbuilds.generator]
      rfl
  obtain ⟨seen, after, hrun, -, hafter⟩ := hstarted.run_view session gambled_zero (.inl rfl)
  rw [run_bind_ok hstart, run_bind_ok hrun] at hplayed
  obtain ⟨session, hsession, rfl⟩ := Option.map_eq_some_iff.mp hplayed
  exact ⟨session, hsession, hafter⟩

/-- Without a look the condition draws a zero after the reveal, and with one it draws a one. -/
theorem gamble_noticed :
    ∃ start, Session.buildGame gamble.deck table.settings (table.chance gamble.seed) = .ok start ∧
      let created := ((create gamble).run.run table).2
      answers table.nextId (pick [false, true] [.call .look, .call .reveal]) created ≠
        pick [false, true] (answers table.nextId [.call .look, .call .reveal] created) := by
  obtain ⟨start, hbuilt⟩ := Session.exists_buildGame (table.chance gamble.seed) errors_gamble
  refine ⟨start, hbuilt, ?_⟩
  intro created hsame
  obtain ⟨session, hsession, hgambling⟩ := gambling_created hbuilt
  obtain ⟨plain, _, hplain, hhidden, -⟩ := hgambling.run_serve hsession gambled_zero (.inl rfl) (.inr rfl)
  obtain ⟨seen, looked, hlook, -, session, hsession, hgambling⟩ :=
    hgambling.run_serve hsession gambled_zero (.inl rfl) (.inl rfl)
  obtain ⟨late, _, hlate, hshown, -⟩ := hgambling.run_serve hsession gambled_half (.inr rfl) (.inr rfl)
  have hnoticed : plain = late := by
    simp only [answers, pick, created, hplain, hlook, hlate] at hsame
    exact List.singleton_inj.mp hsame
  rw [hnoticed, hshown] at hhidden
  exact absurd hhidden (by decide)

end Service

end EventDeck
