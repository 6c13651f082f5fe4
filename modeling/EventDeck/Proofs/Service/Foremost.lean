import EventDeck.Proofs.Game.Drawing
import EventDeck.Proofs.Service.Front

/-!
# The foremost cards of the queue

What the check of the conditions does with the cards in front.  A card without a condition stays where
it is, so it is presented next (`presented_of_fronts`).  A card with a condition of its own is taken out
when its condition does not hold, and the card behind it comes instead, if that one has no condition
(`presented_of_precedes`).
-/

namespace EventDeck

open Game Text

/-! ## The queue -/

namespace Catalog

variable {catalog : Catalog} {first card other : Nat}

theorem head?_enqueue (other : Nat) (hhead : catalog.head? = some first) :
    (catalog.enqueue other).head? = some first := by
  rw [enqueue]
  split
  · exact hhead
  · exact (List.head?_append_of_ne_nil _ (List.ne_nil_of_mem (List.mem_of_head? hhead))).trans hhead

/-- Where two cards stand in front, a queued one comes behind both. -/
theorem exists_queue_enqueue (hqueue : ∃ rest, catalog.queue = first :: card :: rest) (other : Nat) :
    ∃ rest, (catalog.enqueue other).queue = first :: card :: rest := by
  obtain ⟨rest, hqueue⟩ := hqueue
  rw [enqueue]
  split
  · exact ⟨rest, hqueue⟩
  · exact ⟨rest ++ [other], congrArg (· ++ [other]) hqueue⟩

/-- A third card that leaves the queue leaves the two in front. -/
theorem exists_queue_dequeue (hqueue : ∃ rest, catalog.queue = first :: card :: rest)
    (hfirst : first ≠ other) (hcard : card ≠ other) :
    ∃ rest, (catalog.dequeue other).queue = first :: card :: rest := by
  obtain ⟨rest, hqueue⟩ := hqueue
  refine ⟨rest.erase other, ?_⟩
  rw [dequeue, hqueue, List.erase_cons_tail (by simpa using hfirst),
    List.erase_cons_tail (by simpa using hcard)]

end Catalog

namespace Game

variable {game before after checked : Game} {key other first card : Nat} {wanted : Bool}

/-! ## A card without a condition -/

/-- A card without a condition is the first of the queue. -/
structure Fronts (game : Game) (key : Nat) : Prop where
  head : game.catalog.head? = some key
  blank : isBlankText (game.catalog.card key).condition = true

/-- Only the head of the queue and the conditions matter. -/
theorem Fronts.of_faces (h : before.Fronts key)
    (hfaces : before.catalog.SameFaces after.catalog) (hhead : after.catalog.head? = some key) :
    after.Fronts key :=
  ⟨hhead, hfaces.condition key ▸ h.blank⟩

/-- A card that is in front stays there. -/
def Fronting (key : Nat) : Conduct :=
  fun before _ after => before.Fronts key → after.Fronts key

instance allows_fronting (key : Nat) : Conduct.Allows (Fronting key) where
  quiet h hfronts := ⟨h.catalog ▸ hfronts.head, h.catalog ▸ hfronts.blank⟩
  next first second hfronts := second (first hfronts)
  fault _ := id

/-- The check of another card does not take the first one away. -/
theorem fronting_checkCondition (key other : Nat) (game : Game) :
    Runs (Fronting key) (checkCondition other) game := by
  refine runs_get_bind (runs_ite (fun _ => runs_pure _ _) fun hchecked => ?_)
  have hcondition : Runs Evaluates (evaluateCondition (game.catalog.card other).condition) game :=
    runs_evaluateCondition _ game
  refine hcondition.of_evaluates.bind fun wanted between hrun => ?_
  have hbetween : Evaluates game none between := hcondition.of_ok hrun
  -- only a card with a condition is moved, and that is not the one in front
  have hne : between.Fronts key → key ≠ other := by
    rintro hfronts rfl
    rw [← hbetween.catalog, hfronts.blank] at hchecked
    simp at hchecked
  refine runs_get_bind (runs_ite (fun _ hfronts => ?_) fun _ =>
    runs_ite (fun _ hfronts => ?_) fun _ => runs_pure _ _)
  · exact hfronts.of_faces (.enqueue ..) (Catalog.head?_enqueue other hfronts.head)
  · exact hfronts.of_faces (.of_cards rfl) (Catalog.head?_dequeue_of_ne (hne hfronts) hfronts.head)

/-- A head without a condition stays the head. -/
theorem fronting_checkConditions (key : Nat) (game : Game) :
    Runs (Fronting key) checkConditions game := by
  refine runs_get_bind (Runs.then (runs_loop (fun other game => ?_) game) fun _ _ => runs_pure _ _)
  exact (fronting_checkCondition key other game).then fun _ _ => runs_pure _ _

/-! ## A card with a condition -/

/-- A card with a condition of its own is the first of the queue, and one without a condition is right
behind it. -/
structure Precedes (game : Game) (first card : Nat) : Prop where
  queue : ∃ rest, game.catalog.queue = first :: card :: rest
  conditional : isBlankText (game.catalog.card first).condition = false
  blank : isBlankText (game.catalog.card card).condition = true

theorem Precedes.head (h : game.Precedes first card) : game.catalog.head? = some first := by
  obtain ⟨rest, hqueue⟩ := h.queue
  exact congrArg List.head? hqueue

theorem Precedes.ne (h : game.Precedes first card) : first ≠ card := by
  rintro rfl
  exact absurd (h.conditional.symm.trans h.blank) Bool.false_ne_true

theorem Precedes.of_cards (h : before.Precedes first card)
    (hcards : after.catalog.cards = before.catalog.cards)
    (hqueue : ∃ rest, after.catalog.queue = first :: card :: rest) : after.Precedes first card := by
  have hcard : after.catalog.card = before.catalog.card :=
    funext fun key => by rw [Catalog.card, hcards, Catalog.card]
  exact ⟨hqueue, hcard ▸ h.conditional, hcard ▸ h.blank⟩

/-- The condition of a card is found to hold, or not to hold, with the variables as they are. -/
def Judges (game : Game) (key : Nat) (wanted : Bool) : Prop :=
  ∃ asked : Game, asked.store = game.store ∧
    ((evaluateCondition (game.catalog.card key).condition).run.run asked).1 = .ok wanted

/-- What a condition comes to depends on the store and on its text. -/
theorem Judges.of_same (h : before.Judges key wanted) (hstore : before.store = after.store)
    (hcondition : (before.catalog.card key).condition = (after.catalog.card key).condition) :
    after.Judges key wanted := by
  obtain ⟨asked, hasked, hresult⟩ := h
  exact ⟨asked, hasked.trans hstore, hcondition ▸ hresult⟩

/-- What comes of the two cards when the conditions of some cards are checked.  The first one keeps its
place, and if it was among those that were checked, its condition was found to hold; or it was found not
to hold, and the other card is in front. -/
inductive Contest (first card : Nat) (keys : List Nat) (before after : Game) : Prop
  | kept (precedes : after.Precedes first card) (store : after.store = before.store)
    (cards : after.catalog.cards = before.catalog.cards)
    (held : first ∈ keys → (before.catalog.card first).discarded = false → before.Judges first true)
  | dropped (fronts : after.Fronts card) (failed : before.Judges first false)

/-- The check of one condition. -/
theorem contest_checkCondition (h : game.Precedes first card)
    (hrun : (checkCondition key).run.run game = (.ok (), after)) :
    Contest first card [key] game after := by
  rw [checkCondition, run_get_bind] at hrun
  dsimp only at hrun
  split at hrun
  next hskipped =>
    cases hrun
    refine .kept h rfl rfl fun hmem hlive => ?_
    obtain rfl := List.mem_singleton.mp hmem
    simp [hlive, h.conditional] at hskipped
  next hchecked =>
    obtain ⟨holds, between, hevaluate, hrun⟩ := exists_run_of_bind hrun
    have hunmoved : Unmoved game none between := (runs_evaluateCondition _ game).of_ok hevaluate
    have hstore : between.store = game.store := by rw [hunmoved]
    have hcatalog : between.catalog = game.catalog := by rw [hunmoved]
    have hcards : between.catalog.cards = game.catalog.cards := congrArg Catalog.cards hcatalog
    have hjudges : game.Judges key holds := ⟨game, rfl, congrArg Prod.fst hevaluate⟩
    rw [run_get_bind, hcatalog] at hrun
    -- The first card stays or is dropped, as its condition says.
    by_cases hfirst : key = first
    · subst hfirst
      have hqueued : game.catalog.queue.contains key = true := by
        obtain ⟨rest, hqueue⟩ := h.queue
        simp [hqueue]
      rw [hqueued] at hrun
      cases holds with
      | true =>
        cases hrun
        exact .kept (h.of_cards hcards (hcatalog ▸ h.queue)) hstore hcards fun _ _ => hjudges
      | false =>
        cases hrun
        obtain ⟨rest, hqueue⟩ := h.queue
        have hblank : isBlankText (between.catalog.card card).condition = true := hcatalog ▸ h.blank
        refine .dropped ⟨?_, hblank⟩ hjudges
        change (between.catalog.dequeue key).head? = some card
        rw [hcatalog, Catalog.head?_dequeue_self h.head, hqueue]
        rfl
    · -- no card without a condition is moved, so what moves is neither of the two
      have hcard : card ≠ key := by
        rintro rfl
        simp [h.blank] at hchecked
      have hkept : ∀ {after : Game}, after.store = between.store →
          after.catalog.cards = game.catalog.cards →
          (∃ rest, after.catalog.queue = first :: card :: rest) →
          Contest first card [key] game after := fun hsame hcards hqueue =>
        .kept (h.of_cards hcards hqueue) (hsame.trans hstore) hcards fun hmem =>
          absurd (List.mem_singleton.mp hmem).symm hfirst
      split at hrun
      · cases hrun
        exact hkept rfl ((Catalog.cards_enqueue ..).trans hcards)
          (Catalog.exists_queue_enqueue (hcatalog ▸ h.queue) key)
      · split at hrun
        · cases hrun
          refine hkept rfl hcards ?_
          exact Catalog.exists_queue_dequeue (hcatalog ▸ h.queue) (Ne.symm hfirst) hcard
        · cases hrun
          exact hkept rfl hcards (hcatalog ▸ h.queue)

/-- The check of all conditions decides between the two cards. -/
theorem contest_checkConditions (h : game.Precedes first card)
    (hrun : checkConditions.run.run game = (.ok (), after)) :
    Contest first card game.catalog.pool game after := by
  let round (key : Nat) : Play (ForInStep PUnit) := do
    checkCondition key
    pure (.yield ⟨⟩)
  -- once the first card is out, nothing moves the other one
  have hfronting : ∀ keys game, Runs (Fronting card) (forIn keys ⟨⟩ fun key _ => round key) game :=
    fun keys game => runs_loop (fun other game =>
      (fronting_checkCondition card other game).then fun _ _ => runs_pure _ _) game
  have hloop : ∀ (keys : List Nat) (game : Game), game.Precedes first card →
      (forIn keys PUnit.unit fun key _ => round key).run.run game = (.ok PUnit.unit, after) →
      Contest first card keys game after := by
    intro keys
    induction keys with
    | nil =>
      intro game h hrun
      cases hrun
      exact .kept h rfl rfl fun hmem => absurd hmem List.not_mem_nil
    | cons key keys ih =>
      intro game h hrun
      rw [List.forIn_cons, bind_assoc] at hrun
      obtain ⟨_, between, hchecked, hrest⟩ := exists_run_of_bind hrun
      rw [pure_bind] at hrest
      cases contest_checkCondition h hchecked with
      | dropped fronts failed => exact .dropped ((hfronting keys between).of_ok hrest fronts) failed
      | kept precedes store cards held =>
        have hcard : between.catalog.card first = game.catalog.card first := by
          rw [Catalog.card, cards, Catalog.card]
        have hback : ∀ {wanted}, between.Judges first wanted → game.Judges first wanted := fun hjudges =>
          hjudges.of_same store (congrArg Card.condition hcard)
        cases ih between precedes hrest with
        | dropped fronts failed => exact .dropped fronts (hback failed)
        | kept later laterStore laterCards laterHeld =>
          refine .kept later (laterStore.trans store) (laterCards.trans cards) fun hmem hlive => ?_
          rcases List.mem_cons.mp hmem with rfl | hmem
          · exact held (List.mem_singleton_self _) hlive
          · exact hback (laterHeld hmem (hcard ▸ hlive))
  rw [checkConditions, run_get_bind] at hrun
  obtain ⟨_, between, hchecked, hrest⟩ := exists_run_of_bind hrun
  cases hrest
  exact hloop game.catalog.pool game h hchecked

/-! ## What is presented -/

/-- Moving on presents the card that is in front when the conditions have been checked, unless a fault
breaks the check off; then none is presented. -/
theorem presented_advance (game : Game) :
    (∃ fault after, advance.run.run game = (.error fault, after) ∧
        after.scheduler.presented = game.scheduler.presented) ∨
      ∃ checked, checkConditions.run.run game.begun = (.ok (), checked) ∧
        ∀ key, checked.catalog.head? = some key → ∃ phase after,
          advance.run.run game = (.ok phase, after) ∧
            after.scheduler.presented = key :: game.scheduler.presented := by
  have hchecks : Runs Checks checkConditions game.begun := checks_checkConditions rfl
  -- The first draw decides: after a check without a fault the head is presented, if there is one.
  rcases hrun : checkConditions.run.run game.begun with ⟨fault | _, checked⟩
  · have hchecked : Checks game.begun (some fault) checked := hchecks.of_error hrun
    have hdraw : draw.run.run game = (.error fault, checked) := by
      rw [run_draw, run_bind_error hrun]
    refine .inl ⟨fault, checked, run_bind_error hdraw _, ?_⟩
    rw [hchecked.scheduler]
    rfl
  · have hchecked : Checks game.begun none checked := hchecks.of_ok hrun
    refine .inr ⟨checked, rfl, fun key hhead => ?_⟩
    have hdraw : draw.run.run game = (.ok true, checked.showing key) := by
      rw [run_draw_of_checked hrun, hhead]
    have hpresented : (checked.showing key).scheduler.presented =
        key :: checked.scheduler.presented := by
      unfold showing
      cases checked.settings.autoReveal <;> rfl
    refine ⟨_, _, run_advance_of_draw hdraw, hpresented.trans ?_⟩
    rw [hchecked.scheduler]
    rfl

/-- A card without a condition that is in front is presented next. -/
theorem presented_of_fronts (h : game.Fronts key) :
    (∃ fault after, advance.run.run game = (.error fault, after) ∧
        after.scheduler.presented = game.scheduler.presented) ∨
      ∃ phase after, advance.run.run game = (.ok phase, after) ∧
        after.scheduler.presented = key :: game.scheduler.presented := by
  refine (presented_advance game).imp_right fun ⟨checked, hrun, hpresents⟩ => hpresents key ?_
  exact ((fronting_checkConditions key game.begun).of_ok hrun ⟨h.head, h.blank⟩).head

/-- A card with a condition that is in front is presented next if its condition is found to hold, or is
not checked, and otherwise the card behind it is. -/
theorem presented_of_precedes (h : game.Precedes first card) :
    (∃ fault after, advance.run.run game = (.error fault, after) ∧
        after.scheduler.presented = game.scheduler.presented) ∨
      ∃ phase after, advance.run.run game = (.ok phase, after) ∧
        (after.scheduler.presented = first :: game.scheduler.presented ∧
            (first ∈ game.catalog.pool → (game.catalog.card first).discarded = false →
              game.Judges first true) ∨
          after.scheduler.presented = card :: game.scheduler.presented ∧ game.Judges first false) := by
  refine (presented_advance game).imp_right fun ⟨checked, hrun, hpresents⟩ => ?_
  have hbegun : game.begun.Precedes first card := h.of_cards rfl h.queue
  cases contest_checkConditions hbegun hrun with
  | kept precedes store cards held =>
    obtain ⟨phase, after, hadvance, hpresented⟩ := hpresents first precedes.head
    exact ⟨phase, after, hadvance, .inl ⟨hpresented, held⟩⟩
  | dropped fronts failed =>
    obtain ⟨phase, after, hadvance, hpresented⟩ := hpresents card fronts.head
    exact ⟨phase, after, hadvance, .inr ⟨hpresented, failed⟩⟩

end Game

end EventDeck
