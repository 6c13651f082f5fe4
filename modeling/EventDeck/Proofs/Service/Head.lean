import EventDeck.Proofs.Service.Rounds

/-!
# The card that is shown and the head of the queue

A card is presented from the head of the queue, and the scheduler keeps it as the current one.
Commands take the head of the queue for the card that is shown.  The two are the same until a
control is pressed whose special effects take the shown card out of the queue; nothing else parts
them (`head_shown_iff`).
-/

namespace EventDeck

/-! ## The head of the queue -/

namespace Catalog

/-- A command takes the first card out of the queue. -/
def Takes (catalog : Catalog) : Command → Prop
  | .destroy => True
  | .remove name => catalog.findQueued? name = catalog.head?
  | _ => False

variable {before after catalog : Catalog} {command decided : Command} {key other : Nat}

theorem takes_decided (h : decided ∈ command.decided) :
    catalog.Takes decided ↔ catalog.Takes command := by
  rcases Command.decided_cases h with rfl | ⟨⟨_, _, _, rfl⟩, _, rfl⟩ <;> rfl

/-- A card that is put behind the first one leaves it in front. -/
theorem head?_insertAt {place : Int} (hplace : 0 < place) (hhead : catalog.head? = some key) :
    (catalog.insertAt other place).head? = some key := by
  obtain ⟨rest, hqueue⟩ := List.head?_eq_some_iff.mp hhead
  have hindex : ∃ index, (min place catalog.queue.length).toNat = index + 1 := by
    refine ⟨(min place catalog.queue.length).toNat - 1, ?_⟩
    rw [hqueue, List.length_cons]
    omega
  obtain ⟨index, hindex⟩ := hindex
  have hinserted : (catalog.insertAt other place).queue =
      catalog.queue.take (index + 1) ++ other :: catalog.queue.drop (index + 1) := by
    rw [insertAt, if_neg (by omega), hindex]
  rw [head?, hinserted, hqueue]
  rfl

theorem head?_dequeue_of_ne (hne : key ≠ other) (hhead : catalog.head? = some key) :
    (catalog.dequeue other).head? = some key := by
  obtain ⟨rest, hqueue⟩ := List.head?_eq_some_iff.mp hhead
  rw [head?, dequeue, hqueue, List.erase_cons_tail (by simpa using hne)]
  rfl

/-- When the first card is taken out, the next one is in front. -/
theorem head?_dequeue_self (hhead : catalog.head? = some key) :
    (catalog.dequeue key).head? = catalog.queue[1]? := by
  obtain ⟨rest, hqueue⟩ := List.head?_eq_some_iff.mp hhead
  rw [head?, dequeue, hqueue, List.erase_cons_head, List.head?_eq_getElem?]
  rfl

/-- A command leaves the first card in front unless it takes it out, and then only when the same card
is queued next. -/
theorem head?_edits_iff (h : before.Edits command after) (hhead : before.head? = some key) :
    after.head? = some key ↔ ¬(before.Takes command ∧ before.queue[1]? ≠ some key) := by
  cases h with
  | refused hnone =>
    refine iff_of_true hhead ?_
    rintro ⟨htakes, -⟩
    cases command with
    | destroy => rw [sought?, hhead] at hnone; cases hnone
    | remove name =>
      rw [Takes, hhead] at htakes
      rw [sought?, htakes] at hnone
      cases hnone
    | _ => exact htakes
  | @done other place hsought hplace =>
    -- Two commands may take the head out; an added or chained card comes behind it, and the others do
    -- not touch the queue.
    cases command with
    | destroy =>
      obtain rfl : key = other := Option.some.inj (hhead.symm.trans hsought)
      have hnext : (before.destroy key).head? = before.queue[1]? := head?_dequeue_self hhead
      rw [edit, hnext]
      simp [Takes]
    | remove name =>
      rw [edit]
      by_cases heq : key = other
      · subst heq
        have htakes : before.Takes (.remove name) := hsought.trans hhead.symm
        have hactive : (before.setActive key false).head? = some key := hhead
        rw [head?_dequeue_self hactive]
        simp [htakes, setActive]
      · refine iff_of_true (head?_dequeue_of_ne heq hhead) ?_
        rintro ⟨htakes, -⟩
        exact heq (Option.some.inj (hhead.symm.trans (htakes.symm.trans hsought)))
    | add name =>
      refine iff_of_true ?_ fun htakes => htakes.1
      rw [edit]
      split
      next => exact hhead
      next hother =>
        have hne : key ≠ other := by
          rintro rfl
          exact hother hhead
        have hdequeued : ((before.setActive other true).dequeue other).head? = some key :=
          head?_dequeue_of_ne hne hhead
        refine head?_insertAt ?_ hdequeued
        rcases hplace with hplace | hempty
        · exact_mod_cast hplace
        · -- the first card is left in the queue
          have hfirst : (before.queue.erase other).head? = some key := hdequeued
          rw [hempty] at hfirst
          cases hfirst
    | chain name =>
      refine iff_of_true (head?_insertAt Int.one_pos ?_) fun htakes => htakes.1
      split
      next => exact hhead
      next hother => exact head?_dequeue_of_ne (fun heq => hother (heq ▸ hhead)) hhead
    | activate name | deactivate name | randomChain first second percent =>
      exact iff_of_true hhead fun htakes => htakes.1

end Catalog

namespace Game

/-! ## Withdrawing the shown card -/

/-- The card that is shown is the first of the queue. -/
def ShowsHead (game : Game) : Prop :=
  Shown game.scheduler → game.scheduler.current = game.catalog.head?

/-- A special effect takes the first card out of the queue while a card is shown, and another card
or none is in front then. -/
def Withdraws (game : Game) (text : String) : Prop :=
  Shown game.scheduler ∧ ∃ command, Command.parse text = .ok command ∧
    game.catalog.Takes command ∧ game.catalog.queue[1]? ≠ game.catalog.head?

/-- A stage in which the shown card is withdrawn. -/
def Stage.Withdraws (stage : Stage) : Prop :=
  ∃ text, stage.act = .special text ∧ stage.before.Withdraws text

variable {before after first last : Game} {act : Act} {stages : List Stage} {history : List Act}

/-- While a card is shown, special effects are those of controls. -/
theorem Authors.of_shown {game : Game} {text : String} (h : game.Authors text)
    (hshown : Shown game.scheduler) : ∃ control ∈ game.panel, text ∈ control.specials := by
  rcases h with hcontrol | ⟨hphase, -⟩
  · exact hcontrol
  · rcases hshown with h | h <;> rw [hphase] at h <;> cases h

/-- A special effect parts the shown card from the head of the queue exactly when it withdraws it. -/
theorem showsHead_special_iff {text : String} (haccounted : Accounted history before.scheduler)
    (hbefore : before.ShowsHead) (hstep : Step before (.special text) after) :
    after.ShowsHead ↔ ¬before.Withdraws text := by
  have hscheduler : after.scheduler = before.scheduler := hstep.scheduler
  rw [ShowsHead, hscheduler]
  by_cases hshown : Shown before.scheduler
  · obtain ⟨key, hcurrent⟩ := Option.isSome_iff_exists.mp (haccounted.shown hshown)
    have hhead : before.catalog.head? = some key := (hbefore hshown).symm.trans hcurrent
    rw [Withdraws, hcurrent, hhead]
    rcases hstep.special_cases with ⟨message, hparse, hcatalog⟩ | ⟨command, hparse, hcommand⟩
    · simp [hparse, hcatalog, hhead]
    · obtain ⟨decided, hdecided, hedits⟩ := hcommand
      have hedited := Catalog.head?_edits_iff hedits hhead
      rw [Catalog.takes_decided hdecided] at hedited
      simp [hparse, hshown, eq_comm (a := some key), hedited]
  · exact iff_of_true (absurd · hshown) fun hwithdraws => hshown hwithdraws.1

/-- Every other act leaves the shown card at the head of the queue. -/
theorem showsHead_of_ne_special (hact : ∀ text, act ≠ .special text) (hbefore : before.ShowsHead)
    (hstep : Step before act after) : after.ShowsHead := by
  have hready := hstep.ready
  have hdeals := hstep.deals
  intro hshown
  rw [hstep.scheduler] at hshown ⊢
  -- An act either leaves catalog and card as they are, presents the head, or leads to a phase in which
  -- no card is shown.
  cases act with
  | special text => exact absurd rfl (hact text)
  | evaluate =>
    have hcatalog : after.catalog = before.catalog := hdeals
    exact hcatalog ▸ hbefore hshown
  | reveal =>
    have hcatalog : after.catalog = before.catalog := hdeals
    exact hcatalog ▸ hbefore (.inl hready)
  | present key =>
    obtain ⟨hhead, hcatalog⟩ := hdeals
    rw [hcatalog, hhead]
    rfl
  | check key =>
    have hphase : before.scheduler.phase = .checkingConditions := hready
    simp [Shown, Act.next, hphase] at hshown
  | discard key =>
    obtain ⟨hphase, -⟩ := hready
    simp [Shown, Act.next, hphase] at hshown
  | begin | reshuffle | halt | accept key => simp [Shown, Act.next] at hshown

/-- One act: the shown card stays at the head of the queue unless it is withdrawn. -/
theorem showsHead_step_iff (haccounted : Accounted history before.scheduler)
    (hbefore : before.ShowsHead) (hstep : Step before act after) :
    after.ShowsHead ↔ ¬(Stage.mk before act after).Withdraws := by
  by_cases hact : ∃ text, act = .special text
  · obtain ⟨text, rfl⟩ := hact
    rw [showsHead_special_iff haccounted hbefore hstep]
    simp [Stage.Withdraws]
  · refine iff_of_true (showsHead_of_ne_special (by simpa using hact) hbefore hstep) ?_
    rintro ⟨text, htext, -⟩
    exact hact ⟨text, htext⟩

/-! ## Whole courses -/

theorem showsHead_of_initial (h : first.scheduler = {}) : first.ShowsHead := by
  rw [ShowsHead, h]
  simp [Shown]

/-- The last game of a course shows the head when the first and all others do. -/
theorem Course.showsHead (h : Course first stages last) (hfirst : first.ShowsHead)
    (hstages : ∀ stage ∈ stages, stage.after.ShowsHead) : last.ShowsHead := by
  cases h with
  | done => exact hfirst
  | step earlier hstep => exact hstages _ (List.mem_append_right _ (List.mem_singleton_self _))

/-- In a course of a new game the shown card is the head of the queue at every moment exactly when it
is never withdrawn. -/
theorem Course.showsHead_iff (h : Course first stages last) (hfirst : first.scheduler = {}) :
    (∀ stage ∈ stages, stage.after.ShowsHead) ↔ ∀ stage ∈ stages, ¬stage.Withdraws := by
  have hinitial := showsHead_of_initial hfirst
  induction h with
  | done => simp
  | @step earlier before after act hearlier hstep ih =>
    simp only [List.forall_mem_append, List.forall_mem_singleton, ih]
    refine and_congr_right fun hnone => ?_
    have hbefore := hearlier.showsHead hinitial (ih.mpr hnone)
    exact showsHead_step_iff (hearlier.accounted hfirst) hbefore hstep

end Game

/-! ## Sessions -/

namespace Service

open Game

variable {service : Service} {request : CreateRequest} {start : Game}

/-- In a session, whatever calls are made: the shown card is the head of the queue at every moment
exactly when it is never withdrawn, and then it is so after every call.  It is withdrawn by special
effects of controls only. -/
theorem head_shown_iff (fresh : service.find? service.nextId = none)
    (built : Session.buildGame request.deck service.settings (service.chance request.seed) =
      .ok start) (calls : List Call) :
    (∃ stages game, Plays service request start calls stages game) ∧
    ∀ stages game, Plays service request start calls stages game →
      ((∀ stage ∈ stages, stage.after.ShowsHead) ↔ ∀ stage ∈ stages, ¬stage.Withdraws) ∧
      ((∀ stage ∈ stages, ¬stage.Withdraws) → ∀ earlier, earlier <+: calls →
        ∃ between, service.played? request earlier = some between ∧ between.ShowsHead) ∧
      ∀ stage ∈ stages, stage.Withdraws →
        ∃ text, stage.act = .special text ∧ ∃ control ∈ start.panel, text ∈ control.specials := by
  refine ⟨exists_plays fresh built calls, fun stages game hplays => ?_⟩
  have hfirst : start.scheduler = {} := (Session.builds_of_buildGame built).scheduler
  have hinitial := showsHead_of_initial hfirst
  have hiff := hplays.course.showsHead_iff hfirst
  refine ⟨hiff, fun hnone earlier hprefix => ?_, fun stage hmem hwithdraws => ?_⟩
  · obtain ⟨early, between, hearly, hcourse, hbetween⟩ := hplays.passes earlier hprefix
    refine ⟨between, hbetween, hcourse.showsHead hinitial fun stage hstage => ?_⟩
    exact hiff.mpr hnone stage (hearly.subset hstage)
  -- a withdrawal is a special effect while a card is shown, and only controls are pressed then
  · obtain ⟨text, hact, hshown, -⟩ := hwithdraws
    obtain ⟨early, late, -, hcourse, hstep⟩ := hplays.course.of_mem hmem
    have hdeals := hstep.deals
    rw [hact] at hdeals
    have hcontrol := hdeals.1.of_shown hshown
    rw [hcourse.frame.panel] at hcontrol
    exact ⟨text, hact, hcontrol⟩

/-- A deck without controls: the card that is shown is the head of the queue. -/
theorem stroll_showsHead :
    ∃ start, Session.buildGame stroll.deck empty.settings (empty.chance stroll.seed) = .ok start ∧
      ∀ earlier, earlier <+: [Call.reveal, .select ⟨some 0⟩] →
        ∃ between, empty.played? stroll earlier = some between ∧ between.ShowsHead := by
  obtain ⟨start, hbuilt⟩ := exists_built_stroll
  obtain ⟨⟨stages, game, hplays⟩, hshows⟩ :=
    head_shown_iff fresh_empty hbuilt [.reveal, .select ⟨some 0⟩]
  obtain ⟨-, hcalls, hcontrols⟩ := hshows stages game hplays
  refine ⟨start, hbuilt, hcalls fun stage hmem hwithdraws => ?_⟩
  obtain ⟨text, -, control, hcontrol, -⟩ := hcontrols stage hmem hwithdraws
  have hpanel := (Session.builds_of_buildGame hbuilt).panel
  rw [hpanel] at hcontrol
  cases hcontrol

/-- A request for a deck of two events, with a control that destroys. -/
def clearing : CreateRequest where
  deck := {
    events := [{ name := "a" }, { name := "b" }]
    controls := [{ name := "c", specials := ["destroy"] }] }
  seed := none

/-- A control destroys the card that is shown, and the other card is at the head of the queue. -/
theorem clearing_not_showsHead :
    ∃ start stages game,
      Session.buildGame clearing.deck empty.settings (empty.chance clearing.seed) = .ok start ∧
      Plays empty clearing start [.press "c"] stages game ∧ ¬game.ShowsHead := by
  obtain ⟨start, hbuilt⟩ : ∃ start,
      Session.buildGame clearing.deck empty.settings (empty.chance clearing.seed) = .ok start :=
    Session.exists_buildGame _ (by decide +kernel)
  obtain ⟨stages, game, hplays⟩ := exists_plays fresh_empty hbuilt [.press "c"]
  have hpressed : (empty.played? clearing [.press "c"]).map (fun game =>
      (game.scheduler.phase, game.scheduler.current, game.catalog.head?)) =
        some (.presenting, some 0, some 1) := by
    decide +kernel
  rw [hplays.played] at hpressed
  obtain ⟨hphase, hrest⟩ := Prod.mk.inj (Option.some.inj hpressed)
  obtain ⟨hcurrent, hhead⟩ := Prod.mk.inj hrest
  refine ⟨start, stages, game, hbuilt, hplays, fun hshows => ?_⟩
  rw [ShowsHead, hcurrent, hhead] at hshows
  cases hshows (.inl hphase)

end Service

end EventDeck
