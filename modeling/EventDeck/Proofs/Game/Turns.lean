import EventDeck.Proofs.Game.Course
import EventDeck.Session

/-!
# What requests to the scheduler come to

Every request leads along a course.  Drawing, and all that ends in it, brings the scheduler to rest,
or breaks off: then a fault of evaluation has ended it in the midst of checking conditions or of
resolving a card (`TurnsTo`).
-/

namespace EventDeck.Game

open Text

variable {α : Type} {game before between after : Game} {key : Nat} {fault : Option Fault}

/-! ## Effects -/

/-- A request leads along a course on which the scheduler does not move. -/
structure Affects (before : Game) (fault : Option Fault) (after : Game) : Prop
    extends Behaves before fault after where
  leads : Leads before after

/-- Effects leave the scheduler alone, whatever they do to the cards. -/
instance allows_affects : Conduct.Allows Affects where
  quiet h := ⟨allows_behaves.quiet h, allows_leads.quiet h⟩
  next first second :=
    ⟨allows_behaves.next first.toBehaves second.toBehaves, first.leads.trans second.leads⟩
  fault h := ⟨allows_behaves.fault h, allows_leads.fault h⟩

theorem Affects.of_step (act : Act) (h : Step before act after)
    (hscheduler : after.scheduler = before.scheduler) : Affects before none after :=
  ⟨⟨⟨h.toFrame, hscheduler⟩, no_fault⟩, .of_step h⟩

/-- What is authored stays so while the scheduler does not move. -/
theorem Steady.authors {text : String} (h : Steady before after) (htext : before.Authors text) :
    after.Authors text := by
  rcases htext with hcontrol | ⟨hphase, key, action, haction, htext⟩
  · exact .inl (h.panel ▸ hcontrol)
  · exact .inr ⟨h.scheduler ▸ hphase, key, action, h.faces.actions key ▸ haction, htext⟩

theorem affects_runSpecial {text : String} (htext : game.Authors text) :
    Runs Affects (runSpecial text) game := by
  unfold Runs runSpecial
  split
  next command hparse =>
    obtain ⟨decided, hdecided, catalog, hedits, result, diagnostics, generator, hrun⟩ :=
      commands_execute command game
    rw [hrun]
    refine .of_step (.special text) ⟨⟨rfl, hedits.sameFaces, rfl, rfl⟩, trivial, ?_, rfl⟩ rfl
    refine ⟨htext, ?_⟩
    rw [hparse]
    exact ⟨decided, hdecided, hedits⟩
  next e hparse =>
    refine .of_step (.special text) ⟨⟨rfl, .refl _, rfl, rfl⟩, trivial, ?_, rfl⟩ rfl
    refine ⟨htext, ?_⟩
    rw [hparse]
    rfl

theorem runs_silent {R : Conduct} [R.Composes] (observer : String) (change : Change)
    (game : Game) : Runs R (silent observer change) game :=
  runs_pure _ game

/-- An action consists of effects and of commands that its deck has written. -/
theorem affects_runEffects (effects specials : List String)
    (hspecials : ∀ text ∈ specials, game.Authors text) :
    Runs Affects (runEffects silent effects specials) game := by
  refine Runs.sequel (runs_loop (fun effect game => ?_) game) fun _ between haffects => ?_
  · exact (runs_evaluate runs_silent effect game).then fun _ _ => runs_pure _ _
  -- the special effects are authored before each of them
  have hvisits : Runs Affects ((authored specials).mapM runSpecial) between :=
    runs_mapM (fun text game => game.Authors text)
      (fun _ _ _ haffects htext => haffects.toSteady.authors htext)
      (fun _ _ htext => affects_runSpecial htext) between
      fun text htext => haffects.toSteady.authors (hspecials text (List.mem_filter.mp htext).1)
  exact hvisits.then fun _ _ => runs_pure _ _

/-! ## Checking conditions -/

/-- Conditions are checked: the pool stays as it is, too. -/
structure Checks (before : Game) (fault : Option Fault) (after : Game) : Prop
    extends Affects before fault after where
  pool : after.catalog.pool = before.catalog.pool

/-- Evaluation is no more than a check may do. -/
instance allows_checks : Conduct.Allows Checks where
  quiet h := ⟨allows_affects.quiet h, congrArg Catalog.pool h.catalog⟩
  next first second :=
    ⟨allows_affects.next first.toAffects second.toAffects, second.pool.trans first.pool⟩
  fault h := ⟨allows_affects.fault h, rfl⟩

/-- A card is brought into the queue or out of it. -/
theorem checks_changeCatalog (wanted : Bool) (hphase : game.scheduler.phase = .checkingConditions)
    (hpool : key ∈ game.catalog.pool) (hdiscarded : (game.catalog.card key).discarded = false) :
    Runs Checks (changeCatalog fun catalog =>
      if wanted then catalog.enqueue key else catalog.dequeue key) game := by
  have hfaces : game.catalog.SameFaces
      (if wanted then game.catalog.enqueue key else game.catalog.dequeue key) := by
    split
    · exact .enqueue ..
    · exact .of_cards rfl
  refine ⟨.of_step (.check key) ⟨⟨rfl, hfaces, rfl, rfl⟩, hphase, ?_, rfl⟩ rfl, ?_⟩
  · exact ⟨hpool, hdiscarded, wanted, rfl⟩
  · change (if wanted then game.catalog.enqueue key else game.catalog.dequeue key).pool = _
    rw [Catalog.enqueue]
    split
    · split <;> rfl
    · rfl

/-- The check of one card takes at most one step, which queues the card or takes it out of the queue. -/
theorem checks_checkCondition (hphase : game.scheduler.phase = .checkingConditions)
    (hpool : key ∈ game.catalog.pool) : Runs Checks (checkCondition key) game := by
  refine runs_get_bind (runs_ite (fun _ => runs_pure _ _) fun hcard => ?_)
  have hdiscarded : (game.catalog.card key).discarded = false := by
    simp only [Bool.or_eq_true, not_or, Bool.not_eq_true] at hcard
    exact hcard.1
  have hcondition {R : Conduct} [R.Allows] :
      Runs R (evaluateCondition (game.catalog.card key).condition) game :=
    runs_evaluateCondition _ game
  refine hcondition.bind fun wanted between hrun => ?_
  -- evaluating the condition has left the card, the pool and the phase as they were
  have hquiet : Evaluates game none between := hcondition.of_ok hrun
  rw [← hquiet.scheduler] at hphase
  rw [← hquiet.catalog] at hpool hdiscarded
  refine runs_get_bind (runs_ite (fun hwanted => ?_) fun _ => runs_ite (fun hunwanted => ?_)
    fun _ => runs_pure _ _)
  · exact checks_changeCatalog true hphase hpool hdiscarded
  · exact checks_changeCatalog false hphase hpool hdiscarded

/-- The phase stays the same while the conditions are checked. -/
theorem checks_checkConditions (hphase : game.scheduler.phase = .checkingConditions) :
    Runs Checks checkConditions game := by
  refine runs_get_bind (Runs.then ?_ fun _ _ => runs_pure _ _)
  refine runs_forIn
    (fun key game => game.scheduler.phase = .checkingConditions ∧ key ∈ game.catalog.pool)
    ?_ ?_ game fun _ h => ⟨hphase, h⟩
  · rintro key before after hchecks ⟨hphase, hpool⟩
    exact ⟨by rwa [hchecks.scheduler], by rwa [hchecks.pool]⟩
  · rintro key game ⟨hphase, hpool⟩
    exact (checks_checkCondition hphase hpool).then fun _ _ => runs_pure _ _

/-! ## Drawing -/

/-- The game when conditions are going to be checked. -/
def begun (game : Game) : Game :=
  { game with scheduler := Act.begin.next game.scheduler }

/-- The game when a card has been presented. -/
def showing (key : Nat) (game : Game) : Game :=
  let scheduler := (Act.present key).next game.scheduler
  { game with
    scheduler := if game.settings.autoReveal then Act.reveal.next scheduler else scheduler }

/-- What drawing comes to. -/
inductive Draws (game : Game) : Except Fault Bool → Game → Prop
  | broken {fault : Fault} {checked : Game} (h : Checks game.begun (some fault) checked) :
    Draws game (.error fault) checked
  | nothing {checked : Game} (h : Checks game.begun none checked)
    (hqueue : checked.catalog.queue = []) : Draws game (.ok false) checked
  | card {key : Nat} {checked : Game} (h : Checks game.begun none checked)
    (hhead : checked.catalog.head? = some key) : Draws game (.ok true) (checked.showing key)

/-- A card is presented, and revealed at once where the settings say so. -/
theorem run_present (key : Nat) (game : Game) :
    (present key).run.run game = (.ok (), game.showing key) := by
  let shown := { game with scheduler := (Act.present key).next game.scheduler }
  have hshown : (present key).run.run game = (if game.settings.autoReveal then
      (do let _ ← reveal) else pure () : Play Unit).run.run shown := rfl
  rw [hshown, showing]
  cases game.settings.autoReveal <;> rfl

/-- A draw begins with the check of all conditions. -/
theorem run_draw (game : Game) : draw.run.run game = (do
    checkConditions
    match (← get).catalog.head? with
    | some key =>
      present key
      return true
    | none => return false : Play Bool).run.run game.begun := rfl

/-- Nothing comes of checking the conditions if nothing comes of it for any card of the pool. -/
theorem run_checkConditions
    (h : ∀ key ∈ game.catalog.pool, (checkCondition key).run.run game = (.ok (), game)) :
    checkConditions.run.run game = (.ok (), game) := by
  rw [checkConditions, run_get_bind]
  refine run_bind_ok (run_loop fun key hkey => ?_) _
  rw [run_bind_ok (h key hkey)]
  rfl

/-- A card without a condition is not touched by the check. -/
theorem run_checkCondition_blank (h : isBlankText (game.catalog.card key).condition) :
    (checkCondition key).run.run game = (.ok (), game) := by
  rw [checkCondition, run_get_bind, if_pos (by simp [h])]
  rfl

/-- When the conditions have been checked, the first card of the queue is presented. -/
theorem run_draw_of_checked {checked : Game}
    (h : checkConditions.run.run game.begun = (.ok (), checked)) :
    draw.run.run game = match checked.catalog.head? with
      | some key => (.ok true, checked.showing key)
      | none => (.ok false, checked) := by
  rw [run_draw, run_bind_ok h, run_get_bind]
  cases checked.catalog.head? with
  | none => rfl
  | some key => exact run_bind_ok (run_present key checked) _

/-- Where no card has a condition, the first one of the queue is presented. -/
theorem run_draw_unconditional (h : ∀ key, isBlankText (game.catalog.card key).condition) :
    draw.run.run game = match game.catalog.head? with
      | some key => (.ok true, game.begun.showing key)
      | none => (.ok false, game.begun) :=
  run_draw_of_checked (run_checkConditions fun key _ => run_checkCondition_blank (h key))

/-- A draw ends in one of the three ways. -/
theorem draws_draw (game : Game) : Draws game (draw.run.run game).1 (draw.run.run game).2 := by
  have hchecks : Runs Checks checkConditions game.begun := checks_checkConditions rfl
  rcases hrun : checkConditions.run.run game.begun with ⟨fault | _, checked⟩
  · rw [run_draw, run_bind_error hrun]
    exact .broken (hchecks.of_error hrun)
  · have hchecked : Checks game.begun none checked := hchecks.of_ok hrun
    rw [run_draw_of_checked hrun]
    cases hhead : checked.catalog.head? with
    | none => exact .nothing hchecked (List.head?_eq_none_iff.mp hhead)
    | some key => exact .card hchecked hhead

/-! ## Coming to rest -/

/-- A request brings the scheduler to rest, or a fault of evaluation breaks it off. -/
structure TurnsTo (before : Game) (fault : Option Fault) (after : Game) : Prop where
  leads : Leads before after
  rest : fault = none → AtRest after.scheduler
  breaks : ∀ f, fault = some f → EvaluationFault before f ∧ Stuck after.scheduler

/-- A request that goes on after a part of it has led along a course. -/
theorem TurnsTo.behind (hleads : Leads before between) (h : TurnsTo between fault after) :
    TurnsTo before fault after where
  leads := hleads.trans h.leads
  rest := h.rest
  breaks f hf := by
    obtain ⟨stages, hcourse⟩ := hleads
    obtain ⟨hevaluation, hphase⟩ := h.breaks f hf
    exact ⟨hevaluation.of_epsilon hcourse.frame.epsilon, hphase⟩

theorem turnsTo_pure (a : α) (h : AtRest game.scheduler) : Runs TurnsTo (pure a : Play α) game :=
  ⟨⟨[], .done⟩, fun _ => h, no_fault⟩

/-- A request in two parts, the second of which brings the scheduler to rest. -/
theorem turnsTo_bind {β : Type} {x : Play α} {f : α → Play β}
    (hbreaks : ∀ fault after, x.run.run game = (.error fault, after) →
      TurnsTo game (some fault) after)
    (hnext : ∀ a between, x.run.run game = (.ok a, between) →
      Leads game between ∧ Runs TurnsTo (f a) between) : Runs TurnsTo (x >>= f) game := by
  unfold Runs
  rcases hrun : x.run.run game with ⟨fault | a, between⟩
  · rw [run_bind_error hrun]
    exact hbreaks fault between hrun
  · rw [run_bind_ok hrun]
    obtain ⟨hleads, hrest⟩ := hnext a between hrun
    exact .behind hleads hrest

/-! ## Moving on -/

/-- A draw begins with one step, and presents with one or two. -/
theorem leads_begun (hready : Act.begin.Ready game.scheduler) : Leads game game.begun :=
  .of_step (step_scheduler .begin hready rfl)

theorem leads_showing (hphase : game.scheduler.phase = .checkingConditions)
    (hhead : game.catalog.head? = some key) : Leads game (game.showing key) := by
  let shown := { game with scheduler := (Act.present key).next game.scheduler }
  have hpresent : Leads game shown :=
    .of_step (step_scheduler (.present key) hphase ⟨hhead, rfl⟩)
  unfold showing
  cases game.settings.autoReveal with
  | false => exact hpresent
  | true =>
    have hreveal : Step shown .reveal _ := step_scheduler .reveal rfl rfl
    exact hpresent.trans (.of_step hreveal)

theorem shown_showing (key : Nat) (game : Game) : Shown (game.showing key).scheduler := by
  unfold showing
  cases game.settings.autoReveal
  · exact .inl rfl
  · exact .inr rfl

/-- A halt ends a turn, and needs an empty queue. -/
theorem turnsTo_halt (hready : Act.halt.Ready game.scheduler) (hqueue : game.catalog.queue = []) :
    Runs TurnsTo (do halt; return (← get).scheduler.phase) game := by
  refine turnsTo_bind (fun _ _ hrun => nomatch hrun) fun _ halted hrun => ?_
  cases hrun
  exact ⟨.of_step (step_scheduler .halt hready ⟨hqueue, rfl⟩), turnsTo_pure _ (.inr rfl)⟩

/-- What is reported when a reshuffle has found nothing to queue. -/
def emptyDeckReport : Diagnostic :=
  ⟨.emptyDeckAfterReshuffle, "There are no active events even after the reshuffle"⟩

/-- The game after a reshuffle, apart from the report. -/
def reshuffled (game : Game) : Game :=
  let sentinel := game.settings.sentinelName
  { game with
    scheduler := Act.reshuffle.next game.scheduler
    catalog := game.catalog.rebuilt sentinel game.generator
    generator := ((sentinelFirst sentinel game.catalog).shufflePool game.generator).2 }

/-- A reshuffle never ends in a fault, and it reports an empty queue. -/
theorem run_reshuffle_eq (game : Game) :
    reshuffle.run.run game =
      if game.reshuffled.catalog.queue.isEmpty then
        (.ok false,
          { game.reshuffled with diagnostics := game.diagnostics.report emptyDeckReport })
      else (.ok true, game.reshuffled) := by
  have hrun : reshuffle.run.run game = (if game.reshuffled.catalog.queue.isEmpty then
      (do
        report .emptyDeckAfterReshuffle "There are no active events even after the reshuffle"
        return false)
      else return true : Play Bool).run.run game.reshuffled := rfl
  rw [hrun]
  split <;> rfl

/-- A reshuffle does not end in a fault, and says whether anything has been queued. -/
theorem run_reshuffle (hphase : game.scheduler.phase = .checkingConditions)
    (hqueue : game.catalog.queue = []) :
    ∃ filled reshuffled, reshuffle.run.run game = (.ok filled, reshuffled) ∧
      Step game .reshuffle reshuffled ∧ (filled = false ↔ reshuffled.catalog.queue = []) := by
  have hstep : ∀ diagnostics, Step game .reshuffle { game.reshuffled with diagnostics } := fun _ =>
    ⟨⟨rfl, game.catalog.sameFaces_rebuilt .., rfl, rfl⟩, hphase, ⟨hqueue, _, rfl⟩, rfl⟩
  rw [run_reshuffle_eq]
  split
  next hempty => exact ⟨false, _, rfl, hstep _, fun _ => List.isEmpty_iff.mp hempty, fun _ => rfl⟩
  next hfilled =>
    exact ⟨true, _, rfl, hstep _, nofun, fun hempty => absurd (List.isEmpty_iff.mpr hempty) hfilled⟩

/-- What follows a draw is said apart for a card that is presented and for an empty queue. -/
theorem turnsTo_draw {f : Bool → Play α} (hready : Act.begin.Ready game.scheduler)
    (hshown : ∀ shown, Shown shown.scheduler → Runs TurnsTo (f true) shown)
    (hempty : ∀ checked, checked.scheduler.phase = .checkingConditions →
      checked.catalog.queue = [] → Runs TurnsTo (f false) checked) :
    Runs TurnsTo (draw >>= f) game := by
  have hdraws := draws_draw game
  have hbegun := leads_begun hready
  refine turnsTo_bind (fun fault checked hrun => ?_) fun drawn checked hrun => ?_
  · rw [hrun] at hdraws
    cases hdraws with
    | broken h =>
      refine ⟨hbegun.trans h.leads, nofun, ?_⟩
      rintro _ ⟨⟩
      exact ⟨h.faults _ rfl, .inl (congrArg Scheduler.phase h.scheduler)⟩
  · rw [hrun] at hdraws
    cases hdraws with
    | nothing h hqueue =>
      exact ⟨hbegun.trans h.leads, hempty _ (congrArg Scheduler.phase h.scheduler) hqueue⟩
    | card h hhead =>
      have hphase := congrArg Scheduler.phase h.scheduler
      exact ⟨(hbegun.trans h.leads).trans (leads_showing hphase hhead),
        hshown _ (shown_showing ..)⟩

/-- Moving on to the next card comes to rest or is broken off. -/
theorem turnsTo_advance (hready : Act.begin.Ready game.scheduler) :
    Runs TurnsTo advance game := by
  have hend : ∀ shown, Shown shown.scheduler →
      Runs TurnsTo (do return (← get).scheduler.phase) shown :=
    fun shown hshown => turnsTo_pure _ (.inl hshown)
  refine turnsTo_draw hready hend fun checked hphase hqueue => ?_
  obtain ⟨filled, reshuffled, hrun, hstep, hnone⟩ := run_reshuffle hphase hqueue
  refine turnsTo_bind (fun _ _ h => ?_) fun _ _ h => ?_
  · rw [hrun] at h
    cases h
  · rw [hrun] at h
    cases h
    have hreshuffling : reshuffled.scheduler.phase = .reshuffling :=
      congrArg Scheduler.phase hstep.scheduler
    refine ⟨.of_step hstep, ?_⟩
    cases filled with
    | false => exact turnsTo_halt (.inr hreshuffling) (hnone.mp rfl)
    | true =>
      refine turnsTo_draw (.inr (.inr (.inl hreshuffling))) hend fun checked hphase hqueue => ?_
      exact turnsTo_halt (.inl hphase) hqueue

end EventDeck.Game
