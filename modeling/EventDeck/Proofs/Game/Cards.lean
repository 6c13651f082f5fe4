import EventDeck.Proofs.Game.Commands
import EventDeck.Proofs.Game.Kept

/-!
# What commands and the scheduler do with the cards

No command but `destroy` takes a card out of the game, and `destroy` takes out the first of the
queue (`keeps_execute`, `run_execute_destroy`).  The scheduler queues cards of the pool, in the check
of their conditions and in a reshuffle, and presents the first of the queue (`keeps_advance`).
-/

namespace EventDeck

/-- What a command does that is not `destroy`. -/
theorem Catalog.keeps_edits {command : Command} {before after : Catalog}
    (h : before.Edits command after) (hcommand : command ≠ .destroy) : before.Keeps after := by
  -- The edit of each command is a chain of operations, each with its lemma; what is put into the queue
  -- was sought in the pool.
  cases h with
  | refused => exact .refl _
  | @done key place hsought hplace =>
    cases command with
    | destroy => exact absurd rfl hcommand
    | add name =>
      have hpool : key ∈ before.pool := List.mem_of_find?_eq_some hsought
      have hactive : before.Keeps (before.setActive key true) := .setActive ..
      have htaken := hactive.trans (.dequeue _ key)
      rw [edit]
      split
      · exact hactive
      · -- the card was taken out of the queue, so it comes back from the pool
        exact htaken.trans (.insertAt place (htaken.mem_pool hpool))
    | remove name => exact (Keeps.setActive before key false).trans (.dequeue ..)
    | activate name => exact .setActive ..
    | deactivate name => exact .setActive ..
    | chain name =>
      rw [sought?] at hsought
      split at hsought
      next => cases hsought
      next =>
        have hpool : key ∈ before.pool := List.mem_of_find?_eq_some hsought
        rw [edit]
        split
        · exact .insertAt 1 hpool
        · exact (Keeps.dequeue before key).trans (.insertAt 1 hpool)
    | randomChain first second percent => exact .refl _

namespace Game

open Text

variable {game : Game} {key : Nat}

/-! ## Commands -/

/-- No command but `destroy` takes a card out of the game. -/
theorem keeps_execute {command : Command} (h : command ≠ .destroy) (game : Game) :
    Runs Keeping (execute command) game := by
  -- a random chain is decided first, and becomes a chain and not a destruction
  obtain ⟨decided, hdecided, catalog, hedits, result, diagnostics, generator, hrun⟩ :=
    commands_execute command game
  have hcommand : decided ≠ .destroy := by
    rcases Command.decided_cases hdecided with rfl | ⟨-, name, rfl⟩
    · exact h
    · exact nofun
  unfold Runs
  rw [hrun]
  exact .of_cards (Catalog.keeps_edits hedits hcommand) rfl

/-- The state after a `destroy`: the first card of the queue is destroyed. -/
theorem run_execute_destroy {key : Nat} (h : game.catalog.head? = some key) :
    ((execute .destroy).run.run game).2 = { game with catalog := game.catalog.destroy key } := by
  rw [execute, runDestroy, run_get_bind, h]
  rfl

/-- There is nothing to destroy while the queue is empty. -/
theorem keeps_execute_destroy (h : game.catalog.head? = none) :
    Runs Keeping (execute .destroy) game := by
  refine runs_get_bind ?_
  rw [h]
  exact runs_refused _ _ _ _

/-! ## The scheduler -/

theorem keeps_enter (phase : Phase) (game : Game) : Runs Keeping (enter phase) game :=
  keeps_changeScheduler rfl

/-- The check of one card queues it or takes it out of the queue, by its condition. -/
theorem keeps_checkCondition {key : Nat} (hpool : key ∈ game.catalog.pool) :
    Runs Keeping (checkCondition key) game := by
  refine runs_get_bind (runs_ite (fun _ => runs_pure _ _) fun _ => ?_)
  refine (runs_evaluateCondition _ game).sequel fun wanted after hkept => runs_get_bind ?_
  -- the card is still in the pool after its condition has been evaluated
  have hafter : key ∈ after.catalog.pool := hkept.cards.mem_pool hpool
  refine runs_ite (fun _ => keeps_changeCatalog (.enqueue hafter)) fun _ => ?_
  exact runs_ite (fun _ => keeps_changeCatalog (.dequeue ..)) fun _ => runs_pure _ _

/-- The check goes through the whole pool. -/
theorem keeps_checkConditions (game : Game) : Runs Keeping checkConditions game := by
  refine runs_get_bind (Runs.then ?_ fun _ _ => runs_pure _ _)
  -- the pool is gone through as it was at the beginning, and keeps its cards meanwhile
  refine runs_forIn (fun key game => key ∈ game.catalog.pool) ?_ ?_ game fun _ h => h
  · exact fun key _ _ hkept h => hkept.cards.mem_pool h
  · exact fun key game h => (keeps_checkCondition h).then fun _ _ => runs_pure _ _

/-! ### Reshuffling -/

/-- A card that comes back is queued from the pool. -/
theorem cards_restore {catalog : Catalog} (hkey : key ∈ catalog.pool) :
    catalog.Keeps (restore catalog key) := by
  rw [restore]
  have hmarked : catalog.Keeps (catalog.setDiscarded key false) := .setDiscarded ..
  split
  · exact hmarked.trans (.enqueue (hmarked.mem_pool hkey))
  · exact .refl _

/-- All cards of a list come back, one after the other. -/
theorem cards_foldl_restore (keys : List Nat) (catalog : Catalog)
    (h : ∀ key ∈ keys, key ∈ catalog.pool) : catalog.Keeps (keys.foldl restore catalog) := by
  -- The cards that are to come are in the pool of the first result too.
  induction keys generalizing catalog with
  | nil => exact .refl _
  | cons key keys ih =>
    have hfirst : catalog.Keeps (restore catalog key) := cards_restore (h key List.mem_cons_self)
    have hothers : ∀ other ∈ keys, other ∈ (restore catalog key).pool := fun other hother =>
      hfirst.mem_pool (h other (List.mem_cons_of_mem _ hother))
    exact hfirst.trans (ih _ hothers)

/-- The sentinel is the first of the new queue, and it is a card of the pool. -/
theorem cards_sentinelFirst (sentinel : String) (catalog : Catalog) :
    catalog.Keeps (sentinelFirst sentinel catalog) := by
  rw [sentinelFirst]
  split
  next key hfind =>
    have hpool : key ∈ catalog.pool := List.mem_of_find?_eq_some hfind
    exact (Catalog.Keeps.clearQueue catalog).trans (.enqueue hpool)
  next => exact .clearQueue catalog

/-- A reshuffle puts the pool in a new order and queues cards of it. -/
theorem keeps_reshuffle (game : Game) : Runs Keeping reshuffle game := by
  have hrestore : ∀ game,
      Runs Keeping (changeCatalog fun catalog => catalog.pool.foldl restore catalog) game :=
    fun game => keeps_changeCatalog (cards_foldl_restore _ _ fun _ h => h)
  have hshuffle : ∀ game, Runs Keeping (changeByChance Catalog.shufflePool) game := fun game =>
    .of_cards (.shufflePool ..) rfl
  -- the counters, the sentinel, the shuffled pool, the cards that come back, the report of an empty
  -- queue
  refine (keeps_enter _ game).then fun _ after => ?_
  refine Runs.then (keeps_changeScheduler rfl) fun _ after => runs_get_bind ?_
  refine (keeps_changeCatalog (cards_sentinelFirst ..)).then fun _ after => ?_
  refine (hshuffle after).then fun _ after => (hrestore after).then fun _ after => ?_
  exact runs_get_bind (runs_ite
    (fun _ => (runs_report _ _ after).then fun _ _ => runs_pure _ _) fun _ => runs_pure _ _)

/-! ### Presenting -/

theorem keeps_reveal (game : Game) : Runs Keeping reveal game :=
  runs_get_bind <| runs_ite
    (fun _ => Runs.then (keeps_changeScheduler rfl) fun _ _ => runs_pure _ _)
    fun _ => runs_pure _ _

/-- A card of the queue is presented. -/
theorem keeps_present (hqueue : key ∈ game.catalog.queue) : Runs Keeping (present key) game := by
  have hpresented : Runs Keeping (changeScheduler fun scheduler =>
      { scheduler with
        current := some key, inputOpen := false, phase := .presenting
        presented := key :: scheduler.presented }) game := by
    -- what was presented is one card longer, by a card that is queued
    refine ⟨⟨fun _ h => h, fun _ h => .inl h, [key], rfl, fun other hother => ?_⟩, .refl _⟩
    rw [List.mem_singleton.mp hother]
    exact .inl hqueue
  refine hpresented.then fun _ after => runs_get_bind (runs_ite (fun _ => ?_) fun _ => ?_)
  · exact (keeps_reveal after).then fun _ _ => runs_pure _ _
  · exact runs_pure _ _

theorem keeps_halt (game : Game) : Runs Keeping halt game :=
  keeps_changeScheduler rfl

/-- A draw checks the conditions and presents the first of the queue, if there is one. -/
theorem keeps_draw (game : Game) : Runs Keeping draw game := by
  refine (keeps_enter _ game).then fun _ after => (keeps_checkConditions after).then fun _ after => ?_
  refine runs_get_bind ?_
  split
  next key hhead =>
    exact (keeps_present (List.mem_of_head? hhead)).then fun _ _ => runs_pure _ _
  next => exact runs_pure _ _

/-- The way to the next card: a draw, then a reshuffle and a second draw, or the end. -/
theorem keeps_advance (game : Game) : Runs Keeping advance game := by
  have hend : ∀ after, Runs Keeping (do return (← get).scheduler.phase) after :=
    fun after => .refl after
  have hhalt : ∀ after, Runs Keeping (do halt; return (← get).scheduler.phase) after := fun after =>
    (keeps_halt after).then fun _ after => hend after
  -- each branch of the way keeps the cards, whichever is taken
  refine (keeps_draw game).then fun drawn after => runs_ite (fun _ => hend after) fun _ => ?_
  refine (keeps_reshuffle after).then fun filled after => runs_ite (fun _ => ?_) fun _ => hhalt after
  refine (keeps_draw after).then fun drawn after => ?_
  exact runs_ite (fun _ => hend after) fun _ => hhalt after

/-! ### The end of a turn -/

/-- A discarded card leaves the queue and stays in the game. -/
theorem keeps_discard (key : Nat) (game : Game) : Runs Keeping (discard key) game :=
  (keeps_changeCatalog ((Catalog.Keeps.setDiscarded ..).trans (.dequeue ..))).then
    fun _ _ => keeps_changeScheduler rfl

/-- The card is discarded, and the next one is drawn. -/
theorem keeps_closing (key : Nat) (result : Phase → Game → TurnResult) (game : Game) :
    Runs Keeping (do discard key; let phase ← advance; return result phase (← get)) game :=
  (keeps_discard key game).then fun _ after => (keeps_advance after).then fun _ after => .refl after

/-- A card without actions is resolved. -/
theorem keeps_resolve_none (tell : Tell) (key mark : Nat) (game : Game) :
    Runs Keeping (resolve tell key none mark) game := by
  refine Runs.then (keeps_changeScheduler rfl) fun _ after => runs_get_bind ?_
  exact (runs_pure _ after).then fun _ resolved => keeps_closing key _ resolved

/-- A refused choice reports and changes no card. -/
theorem keeps_invalid (message : String) (game : Game) : Runs Keeping (invalid message) game :=
  (runs_report _ _ game).then fun _ after => .refl after

end Game

end EventDeck
