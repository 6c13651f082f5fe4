import EventDeck.Proofs.Game.Faultless
import EventDeck.Proofs.Service.Presence
import EventDeck.Proofs.Service.Rest

/-!
# Offers and selections of a session

Whenever a session awaits a selection for a card whose actions have no random calls in their conditions,
something is offered as available, what is not offered is refused, and what is offered succeeds unless a
fault ends the selection (`offered_iff_succeeds`).  No fault does in the session of a deck that draws
nothing in the conditions of its events and in the effects of their actions.

An effect that draws between bounds without a floor is such a fault, and the check of a deck lets it
pass: what is offered then does not succeed (`plunge_not_taken`).
-/

namespace EventDeck

open Game EventDeck.Expr Text

/-- No event has a random call in its condition or in what the effects of its actions evaluate. -/
structure Deck.Undrawn (deck : Deck) : Prop where
  conditions : deck.ChanceFree
  effects : ∀ event ∈ deck.events, ∀ action ∈ event.actions, ∀ effect ∈ action.effects,
    Game.Undrawn effect

namespace Service

variable {service : Service} {request : CreateRequest} {start game : Game}

/-- After any calls to a session, while a selection is awaited for a card and no condition of its actions
takes chance: the offers can be asked for, which changes no more than reports, and one of them is
available.  A choice that is not offered as available is refused, and nothing but reports changes.  A
selection succeeds if and only if its choice is offered as available and no fault ends it; there is no
fault when the deck draws nothing and the tolerance is not negative. -/
theorem offered_iff_succeeds (fresh : service.find? service.nextId = none)
    (built : Session.buildGame request.deck service.settings (service.chance request.seed) =
      .ok start) (calls : List Call) :
    ∃ game, service.played? request calls = some game ∧
      ∀ key, game.scheduler.phase = .awaitingAction → game.scheduler.current = some key →
        (∀ action ∈ (game.catalog.card key).actions, CallFree (trim action.condition.toList)) →
        ∃ offers diagnostics, choices.run.run game = (.ok offers, { game with diagnostics }) ∧
          (∃ offer ∈ offers, offer.available = true) ∧
          ∀ choice,
            (¬Offered offers choice → game.Refuses choice) ∧
            (game.Succeeds choice ↔ Offered offers choice ∧
              ∀ fault, ((Game.select silent choice).run.run game).1 ≠ .error fault) ∧
            (request.deck.Undrawn → ¬service.settings.epsilon < 0 →
              (game.Succeeds choice ↔ Offered offers choice)) := by
  have hbuilds := Session.builds_of_buildGame built
  obtain ⟨stages, game, hplays⟩ := exists_plays fresh built calls
  have hframe := hplays.course.frame
  have haccounted := hplays.course.accounted hbuilds.scheduler
  refine ⟨game, hplays.played, fun key hphase hcurrent hfree => ?_⟩
  have hready : (Act.accept key).Ready game.scheduler :=
    ⟨hphase, haccounted.gate.mpr hphase, hcurrent⟩
  have hcard : game.actions = (game.catalog.card key).actions := actions_of_current hcurrent
  rw [← hcard] at hfree
  obtain ⟨offers, diagnostics, hchoices, havailable, hdecided⟩ := exists_offers hready hfree
  refine ⟨offers, diagnostics, hchoices, havailable, fun choice => ?_⟩
  obtain ⟨hrefused, hiff⟩ := hdecided choice
  refine ⟨hrefused, hiff, fun hundrawn hepsilon => ?_⟩
  rw [hiff, and_iff_left]
  intro fault hfault
  have heffects : ∀ action ∈ game.actions, ∀ effect ∈ action.effects, Game.Undrawn effect := by
    intro action haction
    rw [hcard, hframe.faces.actions] at haction
    obtain ⟨event, hevent, hmem⟩ := Session.mem_actions_of_builds hbuilds haction
    exact hundrawn.effects event hevent action hmem
  have hconditions := hframe.faces.chanceFree (Session.chanceFree_of_builds hbuilds hundrawn.conditions)
  -- Where nothing is drawn, the one fault that remains is that of a negative tolerance.
  obtain ⟨-, hnegative⟩ :=
    fault_of_select hready hconditions hfree heffects (Prod.ext hfault rfl)
  rw [hframe.epsilon, hbuilds.epsilon] at hnegative
  exact hepsilon hnegative

/-- The indices of the actions that are offered, and which of them are available. -/
def shownOffers (game : Game) : Option (List (Option Nat × Bool)) :=
  (choices.run.run game).1.toOption.map (·.map fun offer => (offer.action, offer.available))

theorem undrawn_stroll : stroll.deck.Undrawn := by
  have hwords : ∀ event ∈ stroll.deck.events, ¬randomWord <:+: trim event.condition.toList := by
    decide +kernel
  have heffects : ∀ event ∈ stroll.deck.events, ∀ action ∈ event.actions, action.effects = [] := by
    decide
  refine ⟨fun event hevent => callFree_of_wordless (hwords event hevent), ?_⟩
  intro event hevent action haction effect heffect
  rw [heffects event hevent action haction] at heffect
  cases heffect

/-- The action of the card is offered, and it can be selected; going on without it is refused. -/
theorem stroll_offered :
    ∃ start game offers diagnostics,
      Session.buildGame stroll.deck empty.settings (empty.chance stroll.seed) = .ok start ∧
      empty.played? stroll [.reveal] = some game ∧
      choices.run.run game = (.ok offers, { game with diagnostics }) ∧
      Offered offers (.action 0) ∧ game.Succeeds (.action 0) ∧
      ¬Offered offers .goOn ∧ game.Refuses .goOn := by
  obtain ⟨start, hbuilt⟩ := exists_built_stroll
  obtain ⟨game, hgame, hdecided⟩ := offered_iff_succeeds fresh_empty hbuilt [.reveal]
  have hstands : (empty.played? stroll [.reveal]).map (fun game =>
      (game.scheduler.phase, game.scheduler.current)) = some (.awaitingAction, some 0) := by
    decide +kernel
  have hblank : (empty.played? stroll [.reveal]).map (fun game =>
      (game.catalog.card 0).actions.map (·.condition)) = some [""] := by
    decide +kernel
  have hshown : (empty.played? stroll [.reveal]).bind shownOffers = some [(some 0, true)] := by
    decide +kernel
  rw [hgame] at hstands hblank hshown
  obtain ⟨hphase, hcurrent⟩ := Prod.mk.inj (Option.some.inj hstands)
  have hfree : ∀ action ∈ (game.catalog.card 0).actions, CallFree (trim action.condition.toList) := by
    intro action haction
    have hcondition : action.condition ∈ [""] :=
      Option.some.inj hblank ▸ List.mem_map_of_mem haction
    rw [List.mem_singleton.mp hcondition]
    exact callFree_of_wordless (by decide)
  obtain ⟨offers, diagnostics, hchoices, -, hchoice⟩ := hdecided 0 hphase hcurrent hfree
  -- what is offered is computed, and the rest is read off the single offer
  have hpairs : offers.map (fun offer => (offer.action, offer.available)) = [(some 0, true)] := by
    change shownOffers game = _ at hshown
    rw [shownOffers, hchoices] at hshown
    exact Option.some.inj hshown
  obtain ⟨offer, rfl, hpair⟩ := List.map_eq_singleton_iff.mp hpairs
  obtain ⟨haction, havailable⟩ := Prod.mk.inj hpair
  have hoffered : Offered [offer] (.action 0) :=
    ⟨offer, List.mem_singleton_self _, havailable, by rw [Offer.IsFor, haction]; rfl⟩
  have hnot : ¬Offered [offer] .goOn := by
    rintro ⟨other, hother, -, hfor⟩
    rw [List.mem_singleton.mp hother, Offer.IsFor, haction] at hfor
    cases hfor
  have hepsilon : ¬empty.settings.epsilon < 0 := by decide +kernel
  exact ⟨start, game, [offer], diagnostics, hbuilt, hgame, hchoices, hoffered,
    ((hchoice _).2.2 undrawn_stroll hepsilon).mpr hoffered, hnot, (hchoice _).1 hnot⟩

/-! ## An effect that cannot be carried out -/

/-- A request for a deck of one event, whose action draws between bounds without a floor. -/
def plunge : CreateRequest where
  deck := {
    events := [{ name := "e", actions := [{ description := "go", effects := [boundlessText] }] }] }
  seed := none

theorem ofText_boundless :
    Statement.ofText boundlessText.toList = .expression boundlessText.toList := by cbv

/-- The deck has no errors. -/
theorem errors_plunge : plunge.deck.findings.errors = [] := by
  have hcheck : ∀ place, Deck.checkText place "effect" true boundlessText = {} := by
    intro place
    have hproblem : problem? boundlessText true = none := by
      rw [problem?_eq_none_iff, trim_boundless, if_pos rfl, checkStatement_eq, ofText_boundless]
      exact checkExpression_boundless
    rw [Deck.checkText, if_neg (by decide), hproblem]
  have hevent : Deck.checkEvent ["e"] plunge.deck.events[0] = {} := by
    have hreaction : ∀ place, Deck.checkReaction place ["e"] "" [boundlessText] [] = {} := by
      intro place
      change {} ++ ({} ++ Deck.checkText place "effect" true boundlessText) ++ {} = _
      rw [hcheck]
      rfl
    change {} ++ {} ++ ({} ++ (Deck.checkReaction _ ["e"] "" [boundlessText] [] ++ {})) = _
    rw [hreaction]
    rfl
  have hfindings : plunge.deck.findings = Deck.checkUnique "event" ["e"] ++
      Deck.checkUnique "variable" [] ++ Deck.checkUnique "control" [] ++ {} ++
      ({} ++ Deck.checkEvent ["e"] plunge.deck.events[0]) ++ {} ++
      Deck.checkEvents plunge.deck.events := rfl
  rw [hfindings, hevent]
  decide +kernel

/-- The game of a session of the deck when its card has been revealed. -/
def plunged (start : Game) : Option Game :=
  ((serveAll empty.nextId [.reveal] (empty.taking plunge (start.begun.showing 0))).find?
    empty.nextId).map (·.game)

theorem exists_built_plunge : ∃ start,
    Session.buildGame plunge.deck empty.settings (empty.chance plunge.seed) = .ok start ∧
      start.catalog.head? = some 0 ∧
      (plunged start).map (·.scheduler.phase) = some .awaitingAction ∧
      (plunged start).map (·.scheduler.inputOpen) = some true ∧
      (plunged start).map (·.scheduler.current) = some (some 0) ∧
      (plunged start).map (fun game =>
        (game.catalog.card 0).actions.map fun action => (action.condition, action.effects)) =
          some [("", [boundlessText])] := by
  rw [Session.buildGame, errors_plunge]
  refine ⟨_, rfl, ?_⟩
  decide +kernel

/-- In the session of the deck the card is revealed, and its action is there. -/
theorem played_plunge : ∃ start game action,
    Session.buildGame plunge.deck empty.settings (empty.chance plunge.seed) = .ok start ∧
      empty.played? plunge [.reveal] = some game ∧ (Act.accept 0).Ready game.scheduler ∧
      (game.catalog.card 0).actions = [action] ∧ action.condition = "" ∧
      action.effects = [boundlessText] := by
  obtain ⟨start, hbuilt, hhead, hphase, hopen, hcurrent, hactions⟩ := exists_built_plunge
  have hbuilds := Session.builds_of_buildGame hbuilt
  have hconditions : ∀ key, isBlankText (start.catalog.card key).condition = true :=
    Session.condition_of_builds (P := (isBlankText · = true)) hbuilds rfl (by decide)
  have hdraw : draw.run.run start = (.ok true, start.begun.showing 0) := by
    rw [run_draw_unconditional hconditions, hhead]
  have hcertain : start.Certain := certain_of_builds hbuilds ⟨by decide, by decide⟩
  have hplayed : empty.played? plunge [.reveal] = plunged start := by
    rw [played?, created_of_draw fresh_empty hbuilt hdraw (hcertain.showing 0)]
    rfl
  obtain ⟨game, hgame, hphase⟩ := Option.map_eq_some_iff.mp hphase
  rw [hgame] at hopen hcurrent hactions hplayed
  obtain ⟨action, haction, hpair⟩ := List.map_eq_singleton_iff.mp (Option.some.inj hactions)
  obtain ⟨hcondition, heffects⟩ := Prod.mk.inj hpair
  exact ⟨start, game, action, hbuilt, hplayed,
    ⟨hphase, Option.some.inj hopen, Option.some.inj hcurrent⟩, haction, hcondition, heffects⟩

/-- The effect is a fault. -/
theorem run_runEffects_boundless (specials : List String) (game : Game) :
    ∃ fault, (runEffects silent [boundlessText] specials).run.run game = (.error fault, game) := by
  obtain ⟨fault, hvalue⟩ := run_evaluateValue_boundless game
  have hevaluate : (evaluate silent boundlessText).run.run game = (.error fault, game) := by
    rw [evaluate, trim_boundless, run_orReport, evaluateStatement, ofText_boundless]
    dsimp only
    rw [attempt_bind, hvalue]
  have hauthored : authored [boundlessText] = [boundlessText] := by decide
  refine ⟨fault, ?_⟩
  rw [runEffects, hauthored, List.forIn_cons]
  exact run_bind_error (run_bind_error (run_bind_error hevaluate _) _) _

/-- The action of the card is offered as available, but selecting it ends in a fault. -/
theorem plunge_not_taken :
    ∃ start game offers diagnostics,
      Session.buildGame plunge.deck empty.settings (empty.chance plunge.seed) = .ok start ∧
      empty.played? plunge [.reveal] = some game ∧
      game.scheduler.phase = .awaitingAction ∧ game.scheduler.current = some 0 ∧
      (∀ action ∈ (game.catalog.card 0).actions, CallFree (trim action.condition.toList)) ∧
      choices.run.run game = (.ok offers, { game with diagnostics }) ∧
      Offered offers (.action 0) ∧ ¬game.Succeeds (.action 0) := by
  obtain ⟨start, game, action, hbuilt, hplayed, hready, haction, hcondition, heffects⟩ :=
    played_plunge
  have hactions : game.actions = [action] := (actions_of_current hready.2.2).trans haction
  have hfree : ∀ action ∈ (game.catalog.card 0).actions, CallFree (trim action.condition.toList) := by
    intro other hother
    rw [haction] at hother
    rw [List.mem_singleton.mp hother, hcondition]
    exact callFree_of_wordless (by decide)
  -- the condition of the action is blank, so it is offered whatever its effects are
  have hopen : game.openActions = [0] := by
    have hblank : isOpen game.store action = true := by
      rw [isOpen, hcondition]
      rfl
    simp [openActions, hactions, hblank]
  obtain ⟨diagnostics, hrun⟩ := run_availableActions_of_callFree (hactions ▸ haction ▸ hfree)
  rw [hopen] at hrun
  have hlt : ∀ n ∈ [0], n < game.actions.length := by simp [hactions]
  have hoffered : Offered (offersOf game.settings.continueLabel game.actions [0]) (.action 0) :=
    (offered_offersOf hlt).mpr (.inl ⟨0, List.mem_singleton_self 0, rfl⟩)
  refine ⟨start, game, _, diagnostics, hbuilt, hplayed, hready.1, hready.2.2, hfree,
    run_choices hready.2.2 hrun, hoffered, ?_⟩
  rintro ⟨result, after, hselect, -⟩
  have hchosen : chosen (.action 0) game.actions [0] = .ok (some action) := by
    rw [hactions]
    rfl
  rw [run_select_of_ok hready hrun hchosen, run_resolve] at hselect
  obtain ⟨outcome, resolved, houtcome, -⟩ := exists_run_of_bind hselect
  rw [outcomeOf, heffects] at houtcome
  obtain ⟨fault, hfault⟩ := run_runEffects_boundless action.specials (accepting 0 _)
  rw [hfault] at houtcome
  cases houtcome

end Service

end EventDeck
