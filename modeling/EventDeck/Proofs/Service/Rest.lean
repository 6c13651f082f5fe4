import EventDeck.Proofs.Game.Accepted
import EventDeck.Proofs.Service.Rounds

/-!
# Sessions at rest

A session rests between calls, waiting for a reveal, a selection or an advance.  It is left in the
midst of a turn when a fault breaks off its start, an advance, or a selection that has been accepted;
then it does not move any more, whatever is called (`rests_iff`).

Such a fault can be provoked: no number is drawn between bounds that have no floor, and the check of a
deck lets them pass (`boundless_stuck`).
-/

namespace EventDeck

open Game EventDeck.Expr Text

namespace Service

variable {service : Service} {request : CreateRequest} {start game before after : Game}
  {calls : List Call} {fault : Fault}

/-- A fault has broken off the start of a session or one of the calls. -/
def BrokenOff (service : Service) (request : CreateRequest) (start : Game) (calls : List Call)
    (fault : Fault) : Prop :=
  ((Session.start silent).run.run start).1 = .error fault ∨
    ∃ earlier call game, earlier ++ [call] <+: calls ∧
      service.played? request earlier = some game ∧ call.BreaksOff game fault

/-- Some request moves the scheduler on: a reveal, a selection, if the conditions of the actions can
be evaluated, or an advance. -/
def MovesOn (game : Game) : Prop :=
  (Game.reveal.run.run game).1 = .ok true ∨
    (∃ key, (Act.accept key).Ready game.scheduler ∧
      ∀ available after, availableActions.run.run game = (.ok available, after) →
        ∃ request : SelectRequest, game.Accepts request.choice key) ∨
    game.scheduler.phase = .halted

theorem not_atRest_of_stuck (h : Stuck game.scheduler) : ¬AtRest game.scheduler := by
  rcases h with hphase | hphase <;> simp [AtRest, Shown, hphase]

/-- At rest there is a request that moves the scheduler on. -/
theorem movesOn_of_atRest {history : List Act} (h : AtRest game.scheduler)
    (haccounted : Accounted history game.scheduler) : MovesOn game := by
  rcases h with (hpresenting | hawaiting) | hhalted
  · left
    rw [Game.reveal, run_get_bind, if_pos hpresenting]
    rfl
  · right; left
    obtain ⟨key, hcurrent⟩ := Option.isSome_iff_exists.mp (haccounted.shown (.inr hawaiting))
    have hready : (Act.accept key).Ready game.scheduler :=
      ⟨hawaiting, haccounted.gate.mpr hawaiting, hcurrent⟩
    refine ⟨key, hready, fun available after hrun => ?_⟩
    obtain ⟨index, haccepts⟩ := exists_accepts hready hrun
    exact ⟨⟨index⟩, haccepts⟩
  · exact .inr (.inr hhalted)

/-! ## Call after call -/

theorem brokenOff_concat_iff (hgame : service.played? request calls = some game) (call : Call) :
    BrokenOff service request start (calls ++ [call]) fault ↔
      BrokenOff service request start calls fault ∨ call.BreaksOff game fault := by
  unfold BrokenOff
  constructor
  · rintro (hstart | ⟨earlier, other, between, hprefix, hbetween, hbreaks⟩)
    · exact .inl (.inl hstart)
    · rcases List.prefix_concat_iff.mp hprefix with heq | hprefix
      · obtain ⟨rfl, rfl⟩ := List.append_singleton_inj.mp heq
        rw [hgame] at hbetween
        cases hbetween
        exact .inr hbreaks
      · exact .inl (.inr ⟨earlier, other, between, hprefix, hbetween, hbreaks⟩)
  · rintro ((hstart | ⟨earlier, other, between, hprefix, hbetween, hbreaks⟩) | hbreaks)
    · exact .inl hstart
    · exact .inr ⟨earlier, other, between, hprefix.trans (List.prefix_append ..), hbetween, hbreaks⟩
    · exact .inr ⟨calls, call, game, List.prefix_refl _, hgame, hbreaks⟩

/-- Where a session stands is decided by whether anything was broken off. -/
structure Stands (service : Service) (request : CreateRequest) (start : Game) (calls : List Call)
    (game : Game) : Prop where
  leads : Leads start game
  whole : (∀ fault, ¬BrokenOff service request start calls fault) → AtRest game.scheduler
  broken : ∀ fault, BrokenOff service request start calls fault →
    EvaluationFault start fault ∧ Stuck game.scheduler

theorem stands_create (hopens : Opens start game) : Stands service request start [] game := by
  have honly : ∀ fault, BrokenOff service request start [] fault →
      ((Session.start silent).run.run start).1 = .error fault := by
    rintro fault (hstart | ⟨earlier, call, between, hprefix, -⟩)
    · exact hstart
    · simp at hprefix
  exact ⟨hopens.leads, fun hwhole => hopens.ends fun fault hstart => hwhole fault (.inl hstart),
    fun fault hbroken => hopens.breaks fault (honly fault hbroken)⟩

/-- One more call: at rest it may be broken off, in the midst of a turn nothing happens. -/
theorem Stands.concat {call : Call} (h : Stands service request start calls before)
    (hbefore : service.played? request calls = some before) (hserves : Serves call before after) :
    Stands service request start (calls ++ [call]) after where
  leads := h.leads.trans hserves.leads
  whole hwhole := by
    have hcalls : ∀ fault, ¬BrokenOff service request start calls fault := fun fault hbroken =>
      hwhole fault ((brokenOff_concat_iff hbefore call).mpr (.inl hbroken))
    have hcall : ∀ fault, ¬call.BreaksOff before fault := fun fault hbreaks =>
      hwhole fault ((brokenOff_concat_iff hbefore call).mpr (.inr hbreaks))
    exact hserves.ends (h.whole hcalls) hcall
  broken fault hbroken := by
    rcases (brokenOff_concat_iff hbefore call).mp hbroken with hcalls | hcall
    · obtain ⟨hevaluation, hstuck⟩ := h.broken fault hcalls
      exact ⟨hevaluation, hserves.stuck hstuck ▸ hstuck⟩
    · obtain ⟨hevaluation, hstuck⟩ := hserves.breaks fault hcall
      obtain ⟨stages, hcourse⟩ := h.leads
      exact ⟨hevaluation.of_epsilon hcourse.frame.epsilon, hstuck⟩

theorem exists_stands (fresh : service.find? service.nextId = none)
    (built : Session.buildGame request.deck service.settings (service.chance request.seed) =
      .ok start) (calls : List Call) :
    ∃ game, service.played? request calls = some game ∧
      Stands service request start calls game := by
  induction calls using List.reverseRecOn with
  | nil =>
    obtain ⟨game, hgame, hopens⟩ := played?_create fresh built
    exact ⟨game, hgame, stands_create hopens⟩
  | append_singleton calls call ih =>
    obtain ⟨before, hbefore, hstands⟩ := ih
    obtain ⟨after, hafter, hserves⟩ := played?_concat hbefore call
    exact ⟨after, hafter, hstands.concat hbefore hserves⟩

/-- In the midst of a turn no call moves the scheduler. -/
theorem stuck_played? (hgame : service.played? request calls = some game)
    (hstuck : Stuck game.scheduler) (more : List Call) :
    ∃ later, service.played? request (calls ++ more) = some later ∧
      later.scheduler = game.scheduler := by
  induction more using List.reverseRecOn with
  | nil => exact ⟨game, by rwa [List.append_nil], rfl⟩
  | append_singleton more call ih =>
    obtain ⟨before, hbefore, hsame⟩ := ih
    obtain ⟨after, hafter, hserves⟩ := played?_concat hbefore call
    rw [List.append_assoc] at hafter
    exact ⟨after, hafter, (hserves.stuck (hsame ▸ hstuck)).trans hsame⟩

/-- After any calls, a session is at rest exactly when no fault has broken off its start, an advance
or an accepted selection; then some request moves it on.  Otherwise it is left checking conditions or
resolving a card, and no further call moves it.  The faults that break off are numbers without a floor
and, if writes are compared with a negative tolerance, that tolerance. -/
theorem rests_iff (fresh : service.find? service.nextId = none)
    (built : Session.buildGame request.deck service.settings (service.chance request.seed) =
      .ok start) (calls : List Call) :
    ∃ game, service.played? request calls = some game ∧
      (AtRest game.scheduler ↔ ∀ fault, ¬BrokenOff service request start calls fault) ∧
      (AtRest game.scheduler → MovesOn game) ∧
      (¬AtRest game.scheduler → Stuck game.scheduler ∧
        ∀ more, ∃ later, service.played? request (calls ++ more) = some later ∧
          later.scheduler = game.scheduler) ∧
      ∀ fault, BrokenOff service request start calls fault →
        (∃ x, Decimal.floor x = .error fault) ∨
          fault = .negativeTolerance ∧ service.settings.epsilon < 0 := by
  obtain ⟨game, hgame, hstands⟩ := exists_stands fresh built calls
  have hbuilds := Session.builds_of_buildGame built
  obtain ⟨stages, hcourse⟩ := hstands.leads
  have hiff : AtRest game.scheduler ↔ ∀ fault, ¬BrokenOff service request start calls fault :=
    ⟨fun hrest fault hbroken => not_atRest_of_stuck (hstands.broken fault hbroken).2 hrest,
      hstands.whole⟩
  refine ⟨game, hgame, hiff, fun hrest => ?_, fun hmidst => ?_, fun fault hbroken => ?_⟩
  · exact movesOn_of_atRest hrest (hcourse.accounted hbuilds.scheduler)
  -- a session in the midst of a turn was left there by a fault
  · obtain ⟨fault, hbroken⟩ : ∃ fault, BrokenOff service request start calls fault := by
      by_contra hnone
      exact hmidst (hiff.mpr (not_exists.mp hnone))
    have hstuck := (hstands.broken fault hbroken).2
    exact ⟨hstuck, stuck_played? hgame hstuck⟩
  · rw [← hbuilds.epsilon]
    exact (hstands.broken fault hbroken).1

/-- After a selection the session is at rest with the next card. -/
theorem stroll_rests :
    ∃ start game,
      Session.buildGame stroll.deck empty.settings (empty.chance stroll.seed) = .ok start ∧
      empty.played? stroll [.reveal, .select ⟨some 0⟩] = some game ∧ MovesOn game ∧
      ∀ fault, ¬BrokenOff empty stroll start [.reveal, .select ⟨some 0⟩] fault := by
  obtain ⟨start, hbuilt⟩ := exists_built_stroll
  obtain ⟨game, hgame, hiff, hmoves, -⟩ :=
    rests_iff fresh_empty hbuilt [.reveal, .select ⟨some 0⟩]
  have hchecked : (empty.played? stroll [.reveal, .select ⟨some 0⟩]).map (·.scheduler.phase) =
      some .presenting := by
    decide +kernel
  rw [hgame] at hchecked
  have hrest : AtRest game.scheduler := .inl (.inl (Option.some.inj hchecked))
  exact ⟨start, game, hbuilt, hgame, hmoves hrest, hiff.mp hrest⟩

/-! ## A bound without a floor -/

/-- A condition that cannot be evaluated, because nothing can be drawn between its bounds. -/
def boundlessText : String := "Random(1e999, 1)"

/-- What is drawn in it. -/
def boundlessCall : RandomCall := ⟨"1e999".toList, "1".toList⟩

/-- A request for a deck of one event with that condition. -/
def boundless : CreateRequest where
  deck := { events := [{ name := "e", condition := boundlessText }] }
  seed := none

theorem randomCall?_boundless :
    randomCall? boundlessText.toList = some (boundlessCall, []) := by cbv

theorem trim_boundless : trim boundlessText.toList = boundlessText.toList := by cbv

theorem evaluateNumber_boundless (mode : Mode) :
    evaluateNumber mode boundlessCall.low = .ok (numberOf boundlessCall.low) ∧
      evaluateNumber mode boundlessCall.high = .ok (numberOf boundlessCall.high) :=
  ⟨evaluateNumber_literal (by cbv), evaluateNumber_literal (by cbv)⟩

/-- The check of the text reads the bounds, but draws nothing. -/
theorem checkExpression_boundless : checkExpression boundlessText.toList = .ok () := by
  have hplain : replaceNames (fun _ => pure ['0']) boundlessText.toList =
      (.ok boundlessText.toList : Except ExprError _) := by cbv
  have hcall : checkedCall boundlessCall = .ok ['0'] := by
    rw [checkedCall, (evaluateNumber_boundless _).1, (evaluateNumber_boundless _).2]
    rfl
  have hzero : evaluateText .checking ['0'] = .ok (.number (numberOf ['0'])) :=
    evaluateText_literal (by cbv)
  rw [checkExpression, hplain]
  change (replaceRandoms checkedCall boundlessText.toList >>= fun plain =>
    evaluateText .checking plain >>= fun _ => .ok ()) = _
  rw [replaceRandoms_call randomCall?_boundless, hcall]
  change (evaluateText .checking ['0'] >>= fun _ => .ok ()) = _
  rw [hzero]
  rfl

theorem problem?_boundless : problem? boundlessText false = none := by
  rw [problem?_eq_none_iff, trim_boundless, if_neg (by decide)]
  exact checkExpression_boundless

/-- In play it is a fault. -/
theorem run_evaluateValue_boundless (game : Game) :
    ∃ fault, (evaluateValue boundlessText.toList).run.run.run game = (.error fault, game) := by
  have hfloor : numberOf boundlessCall.high ≤ numberOf boundlessCall.low ∧
      (Decimal.floor (numberOf boundlessCall.low)).toOption = none := by
    decide +kernel
  obtain ⟨hle, hnone⟩ := hfloor
  rcases hfault : Decimal.floor (numberOf boundlessCall.low) with fault | n
  · have hdraw : (drawCall boundlessCall).run.run.run game = (.error fault, game) := by
      rw [drawCall, (evaluateNumber_boundless _).1, (evaluateNumber_boundless _).2,
        attempt_bind_ok (attempt_except _ game), attempt_bind_ok (attempt_except _ game),
        attempt_bind, attempt_lift, randomBetween, if_pos hle, hfault]
      rfl
    have hsubstitute : (substitute boundlessText.toList).run.run game =
        (.ok boundlessText.toList, game) := by cbv
    refine ⟨fault, ?_⟩
    rw [evaluateValue, attempt_bind_ok (attempt_lift_ok hsubstitute),
      replaceRandoms_call randomCall?_boundless, attempt_bind, hdraw]
  · rw [hfault] at hnone
    cases hnone

theorem run_evaluateCondition_boundless (game : Game) :
    ∃ fault, (evaluateCondition boundlessText).run.run game = (.error fault, game) := by
  obtain ⟨fault, hvalue⟩ := run_evaluateValue_boundless game
  refine ⟨fault, ?_⟩
  rw [evaluateCondition, trim_boundless, run_orReport, attempt_bind, hvalue]

/-- The deck has no errors. -/
theorem errors_boundless : boundless.deck.findings.errors = [] := by
  have hcheck : ∀ place, Deck.checkText place "condition" false boundlessText = {} := by
    intro place
    rw [Deck.checkText, if_neg (by decide), problem?_boundless]
  have hevent : Deck.checkEvent ["e"] { name := "e", condition := boundlessText } = {} := by
    rw [Deck.checkEvent, hcheck]
    rfl
  have hfindings : boundless.deck.findings = Deck.checkUnique "event" ["e"] ++
      Deck.checkUnique "variable" [] ++ Deck.checkUnique "control" [] ++ {} ++
      ({} ++ Deck.checkEvent ["e"] { name := "e", condition := boundlessText }) ++ {} ++
      Deck.checkEvents boundless.deck.events := rfl
  rw [hfindings, hevent]
  decide +kernel

/-- The start of a session of the deck ends in a fault. -/
theorem run_start_boundless
    (built : Session.buildGame boundless.deck empty.settings (empty.chance boundless.seed) =
      .ok start) :
    ∃ fault, ((Session.start silent).run.run start).1 = .error fault := by
  have hcards :
      let catalog := (Catalog.ofTemplates boundless.deck.templates (empty.chance boundless.seed)).1
      catalog.pool = [0] ∧ (catalog.card 0).condition = boundlessText ∧
        (catalog.card 0).discarded = false := by
    decide +kernel
  rw [← (Session.builds_of_buildGame built).catalog] at hcards
  obtain ⟨hpool, hcondition, hdiscarded⟩ := hcards
  obtain ⟨fault, hfault⟩ := run_evaluateCondition_boundless start.begun
  have hcard : (checkCondition 0).run.run start.begun = (.error fault, start.begun) := by
    have hchecked : ¬((start.begun.catalog.card 0).discarded ||
        isBlankText (start.begun.catalog.card 0).condition) := by
      change ¬((start.catalog.card 0).discarded || isBlankText (start.catalog.card 0).condition)
      rw [hdiscarded, hcondition]
      decide
    rw [← hcondition] at hfault
    rw [checkCondition, run_get_bind]
    dsimp only
    rw [if_neg hchecked]
    exact run_bind_error hfault _
  -- the one card of the deck is asked for its condition, and the fault of that goes through to the
  -- start
  have hchecks : checkConditions.run.run start.begun = (.error fault, start.begun) := by
    have hbegun : start.begun.catalog.pool = [0] := hpool
    rw [checkConditions, run_get_bind, hbegun, List.forIn_cons]
    exact run_bind_error (run_bind_error (run_bind_error hcard _) _) _
  refine ⟨fault, ?_⟩
  rw [Session.start, run_bind_ok (run_broadcast_silent start), Game.advance, run_bind, run_draw,
    run_bind_error hchecks]

/-- A session of the deck is left in the midst of its start. -/
theorem boundless_stuck :
    ∃ start game,
      Session.buildGame boundless.deck empty.settings (empty.chance boundless.seed) = .ok start ∧
      empty.played? boundless [] = some game ∧ Stuck game.scheduler ∧
      ¬AtRest game.scheduler := by
  obtain ⟨start, hbuilt⟩ := Session.exists_buildGame (empty.chance boundless.seed) errors_boundless
  obtain ⟨fault, hfault⟩ := run_start_boundless hbuilt
  obtain ⟨game, hgame, hstands⟩ := exists_stands fresh_empty hbuilt []
  have hstuck : Stuck game.scheduler := (hstands.broken fault (.inl hfault)).2
  exact ⟨start, game, hbuilt, hgame, hstuck, not_atRest_of_stuck hstuck⟩

end Service

end EventDeck
