import EventDeck.Proofs.Game.Commands
import EventDeck.Proofs.Game.Runs
import Mathlib.Data.List.Induction

/-!
# The course of a game

Whatever requests are made to a game, it changes by a few acts: an evaluation, a special effect, the
check of one card, and the acts of the scheduler.  A `Step` is one act, with what has to be so before
it and what it does; a `Course` is a sequence of steps, which is recorded in stages.

What every step preserves is preserved by a course (`Course.frame`), and whatever is said about all
courses can be proved one act at a time.
-/

namespace EventDeck

namespace Catalog

/-- The catalog after a reshuffle. -/
def rebuilt (catalog : Catalog) (sentinel : String) (generator : Generator) : Catalog :=
  let shuffled := ((Game.sentinelFirst sentinel catalog).shufflePool generator).1
  shuffled.pool.foldl Game.restore shuffled

theorem sameFaces_restore (catalog : Catalog) (key : Nat) :
    SameFaces catalog (Game.restore catalog key) := by
  rw [Game.restore]
  split
  · exact (SameFaces.setDiscarded ..).trans (.enqueue ..)
  · exact .refl _

theorem sameFaces_rebuilt (catalog : Catalog) (sentinel : String) (generator : Generator) :
    SameFaces catalog (catalog.rebuilt sentinel generator) := by
  have hfold : ∀ (keys : List Nat) (catalog : Catalog),
      SameFaces catalog (keys.foldl Game.restore catalog) := by
    intro keys
    induction keys with
    | nil => exact .refl
    | cons key keys ih => exact fun catalog => (sameFaces_restore catalog key).trans (ih _)
  have hcleared : SameFaces catalog catalog.clearQueue := .of_cards rfl
  have hfirst : SameFaces catalog (Game.sentinelFirst sentinel catalog) := by
    rw [Game.sentinelFirst]
    split
    · exact hcleared.trans (.enqueue ..)
    · exact hcleared
  have hshuffled : SameFaces (Game.sentinelFirst sentinel catalog)
      ((Game.sentinelFirst sentinel catalog).shufflePool generator).1 := .of_cards rfl
  exact (hfirst.trans hshuffled).trans (hfold _ _)

end Catalog

namespace Game

/-! ## Acts -/

/-- What can happen to a game. -/
inductive Act
  /-- Something is evaluated or reported, or numbers are drawn. -/
  | evaluate
  /-- A special effect of an action or a control is carried out. -/
  | special (text : String)
  /-- The condition of a card is checked. -/
  | check (key : Nat)
  /-- The scheduler begins to check conditions. -/
  | begin
  | reshuffle
  | present (key : Nat)
  | reveal
  | halt
  /-- A selection is accepted: the card is going to be resolved. -/
  | accept (key : Nat)
  /-- The card has been resolved. -/
  | discard (key : Nat)
deriving DecidableEq

/-- A card is presented or revealed, and no choice has been accepted. -/
def Shown (scheduler : Scheduler) : Prop :=
  scheduler.phase = .presenting ∨ scheduler.phase = .awaitingAction

/-- The scheduler waits for a reveal, a selection or an advance. -/
def AtRest (scheduler : Scheduler) : Prop :=
  Shown scheduler ∨ scheduler.phase = .halted

/-- The scheduler stands in the midst of a turn. -/
def Stuck (scheduler : Scheduler) : Prop :=
  scheduler.phase = .checkingConditions ∨ scheduler.phase = .resolving

/-- A text is a special effect of a control or, while a card is resolved, of an action. -/
def Authors (game : Game) (text : String) : Prop :=
  (∃ control ∈ game.panel, text ∈ control.specials) ∨
    game.scheduler.phase = .resolving ∧
      ∃ key, ∃ action ∈ (game.catalog.card key).actions, text ∈ action.specials

namespace Act

/-- Where the scheduler stands before an act. -/
def Ready (scheduler : Scheduler) : Act → Prop
  | evaluate | special _ => True
  | check _ | present _ => scheduler.phase = .checkingConditions
  | begin =>
    scheduler.phase = .idle ∨ scheduler.phase = .halted ∨ scheduler.phase = .reshuffling ∨
      scheduler.phase = .resolving ∧ scheduler.current = none
  | reshuffle => scheduler.phase = .checkingConditions
  | reveal => scheduler.phase = .presenting
  | halt => scheduler.phase = .checkingConditions ∨ scheduler.phase = .reshuffling
  | accept key =>
    scheduler.phase = .awaitingAction ∧ scheduler.inputOpen = true ∧ scheduler.current = some key
  | discard key => scheduler.phase = .resolving ∧ scheduler.current = some key

/-- What an act does to the scheduler. -/
def next (scheduler : Scheduler) : Act → Scheduler
  | evaluate | special _ | check _ => scheduler
  | begin => { scheduler with phase := .checkingConditions }
  | reshuffle =>
    { scheduler with phase := .reshuffling, reshuffles := scheduler.reshuffles + 1 }
  | present key =>
    { scheduler with
      current := some key, inputOpen := false, phase := .presenting
      presented := key :: scheduler.presented }
  | reveal => { scheduler with inputOpen := true, phase := .awaitingAction }
  | halt => { scheduler with current := none, inputOpen := false, phase := .halted }
  | accept _ => { scheduler with inputOpen := false, phase := .resolving }
  | discard _ => { scheduler with turn := scheduler.turn + 1, current := none }

/-- What an act does to the cards of a game. -/
def Deals (game : Game) (after : Catalog) : Act → Prop
  | special text =>
    game.Authors text ∧
      match Command.parse text with
      | .ok command => ∃ decided ∈ command.decided, game.catalog.Edits decided after
      | .error _ => after = game.catalog
  | check key =>
    key ∈ game.catalog.pool ∧ (game.catalog.card key).discarded = false ∧
      ∃ wanted : Bool, after = if wanted then game.catalog.enqueue key else game.catalog.dequeue key
  | reshuffle =>
    game.catalog.queue = [] ∧
      ∃ generator, after = game.catalog.rebuilt game.settings.sentinelName generator
  | present key => game.catalog.head? = some key ∧ after = game.catalog
  | halt => game.catalog.queue = [] ∧ after = game.catalog
  | discard key => after = (game.catalog.setDiscarded key true).dequeue key
  | _ => after = game.catalog

end Act

/-! ## Steps -/

/-- One act of a game. -/
structure Step (before : Game) (act : Act) (after : Game) : Prop
    extends Frame before after where
  ready : act.Ready before.scheduler
  deals : act.Deals before after.catalog
  scheduler : after.scheduler = act.next before.scheduler

/-- An act, with the game before and after it. -/
structure Stage where
  before : Game
  act : Act
  after : Game

/-- A sequence of steps that lead from one game to another. -/
inductive Course (first : Game) : List Stage → Game → Prop
  | done : Course first [] first
  | step {stages : List Stage} {before after : Game} {act : Act}
    (earlier : Course first stages before) (step : Step before act after) :
    Course first (stages ++ [⟨before, act, after⟩]) after

/-- The acts of some stages. -/
abbrev acts (stages : List Stage) : List Act :=
  stages.map (·.act)

variable {first before between after last : Game} {stages early late : List Stage} {act : Act}

theorem acts_concat (stages : List Stage) (stage : Stage) :
    acts (stages ++ [stage]) = acts stages ++ [stage.act] :=
  List.map_append

theorem Course.single (h : Step before act after) : Course before [⟨before, act, after⟩] after :=
  .step .done h

theorem Course.append (hearly : Course first early between) (hlate : Course between late last) :
    Course first (early ++ late) last := by
  induction hlate with
  | done => rwa [List.append_nil]
  | step _ hstep ih =>
    rw [← List.append_assoc]
    exact .step ih hstep

/-- The last step of a course that has one. -/
theorem Course.concat {stage : Stage} (h : Course first (stages ++ [stage]) last) :
    Course first stages stage.before ∧ Step stage.before stage.act stage.after ∧
      stage.after = last := by
  generalize hsplit : stages ++ [stage] = all at h
  cases h with
  | done => simp at hsplit
  | step earlier hstep =>
    obtain ⟨rfl, heq⟩ := List.append_inj' hsplit rfl
    cases heq
    exact ⟨earlier, hstep, rfl⟩

/-- A course that is cut in two. -/
theorem Course.split (h : Course first (early ++ late) last) :
    ∃ between, Course first early between ∧ Course between late last := by
  induction late using List.reverseRecOn generalizing last with
  | nil => exact ⟨last, by simpa using h, .done⟩
  | append_singleton late stage ih =>
    rw [← List.append_assoc] at h
    obtain ⟨hearlier, hstep, rfl⟩ := h.concat
    obtain ⟨between, hearly, hlate⟩ := ih hearlier
    exact ⟨between, hearly, .step hlate hstep⟩

/-- Every stage of a course is a step, which a course leads up to. -/
theorem Course.of_mem {stage : Stage} (h : Course first stages last) (hmem : stage ∈ stages) :
    ∃ early late, stages = early ++ stage :: late ∧ Course first early stage.before ∧
      Step stage.before stage.act stage.after := by
  obtain ⟨early, late, rfl⟩ := List.append_of_mem hmem
  rw [List.append_cons] at h
  obtain ⟨between, hearly, -⟩ := h.split
  obtain ⟨hearlier, hstep, -⟩ := hearly.concat
  exact ⟨early, late, rfl, hearlier, hstep⟩

/-- No act changes what authors wrote. -/
theorem Course.frame (h : Course first stages last) : Frame first last := by
  induction h with
  | done => exact .refl _
  | step _ hstep ih => exact ih.trans hstep.toFrame

/-! ## Steps of evaluation and of the scheduler -/

theorem step_evaluate (h : Quiet before after) : Step before .evaluate after :=
  ⟨h.frame, trivial, h.catalog, h.scheduler⟩

theorem step_scheduler (act : Act) {game : Game} (hready : act.Ready game.scheduler)
    (hdeals : act.Deals game game.catalog) :
    Step game act { game with scheduler := act.next game.scheduler } :=
  ⟨⟨rfl, .refl _, rfl, rfl⟩, hready, hdeals, rfl⟩

/-- A special effect is no command, or one that works on the catalog. -/
theorem Step.special_cases {text : String} (h : Step before (.special text) after) :
    (∃ message, Command.parse text = .error message ∧ after.catalog = before.catalog) ∨
      ∃ command, Command.parse text = .ok command ∧
        ∃ decided ∈ command.decided, before.catalog.Edits decided after.catalog := by
  have hdeals := h.deals.2
  cases hparse : Command.parse text with
  | error message =>
    rw [hparse] at hdeals
    exact .inl ⟨message, rfl, hdeals⟩
  | ok command =>
    rw [hparse] at hdeals
    exact .inr ⟨command, rfl, hdeals⟩

/-- Some course leads from one game to another. -/
def Leads (before after : Game) : Prop :=
  ∃ stages, Course before stages after

theorem Leads.of_step (h : Step before act after) : Leads before after :=
  ⟨_, .single h⟩

theorem Leads.trans (hfirst : Leads before between) (hsecond : Leads between after) :
    Leads before after := by
  obtain ⟨early, hearly⟩ := hfirst
  obtain ⟨late, hlate⟩ := hsecond
  exact ⟨_, hearly.append hlate⟩

instance allows_leads : Conduct.Allows fun before _ after => Leads before after where
  quiet h := .of_step (step_evaluate h)
  next first second := first.trans second
  fault _ := ⟨[], .done⟩

end Game

end EventDeck
