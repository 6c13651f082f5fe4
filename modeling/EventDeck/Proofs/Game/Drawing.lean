import EventDeck.Proofs.Game.Sorting
import EventDeck.Proofs.Reshuffle

/-!
# What can be drawn

Moving on to the next card presents the first card of the queue, as it is when the conditions have
been checked.  When the queue is empty then, it is rebuilt and the conditions are checked once more;
what is queued after that are exactly the cards of the pool that are `Drawable`, which can be told
from the game as it was before anything was done (`mem_queue_redrawn_iff`).

So play halts only when nothing can be drawn.  The main statement is `advance_draws`.
-/

namespace EventDeck

open Game EventDeck.Expr Text

namespace Catalog

variable {catalog before after : Catalog} {store : Store} {sentinel : String} {key : Nat}

theorem Foreseeable.rebuilds (h : before.Foreseeable) (hrebuilds : Rebuilds sentinel before after) :
    after.Foreseeable := by
  intro key hkey
  have hcondition : (after.card key).condition = (before.card key).condition := by
    rw [hrebuilds.card]
    split <;> rfl
  rw [hcondition]
  exact h key (hrebuilds.pool.mem_iff.mp hkey)

theorem mem_queue_checked_iff (hpool : catalog.pool.Nodup) (hqueue : catalog.queue.Nodup) :
    key ∈ (catalog.checked store).queue ↔
      key ∈ catalog.queue ∧ ¬(key ∈ catalog.pool ∧ catalog.verdict? store key = some false) ∨
        key ∈ catalog.pool ∧ catalog.verdict? store key = some true ∧ key ∉ catalog.queue := by
  rw [checked, foldl_sorted hpool hqueue]
  exact mem_sortedQueue_iff

theorem verdict?_eq_some_false_iff : catalog.verdict? store key = some false ↔
    ¬(isBlankText (catalog.card key).condition = true ∨
      conditionValue store (catalog.card key).condition = true ∨
      (catalog.card key).discarded = true) := by
  rw [verdict?]
  cases (catalog.card key).discarded <;> cases isBlankText (catalog.card key).condition <;>
    cases conditionValue store (catalog.card key).condition <;> simp

theorem mem_queue_rebuilt_iff (h : Rebuilds sentinel before after) :
    key ∈ after.queue ↔ before.findInactive? sentinel = some key ∨
      key ∈ before.pool ∧ before.active key = true := by
  have hactive : after.active key = before.active key := by
    rw [active, h.card, active]
    split <;> rfl
  rw [h.queue, List.mem_append, Option.mem_toList, actives, List.mem_filter,
    h.pool.mem_iff, hactive]

/-- A card that a reshuffle does not bring back says what it said before. -/
theorem verdict?_rebuilt (h : Rebuilds sentinel before after) (hactive : before.active key = false) :
    after.verdict? store key = before.verdict? store key := by
  have hcard : after.card key = before.card key := by
    rw [h.card, if_neg (by simp [hactive])]
  rw [verdict?, hcard, verdict?]

/-- An active card is not discarded when it has been brought back, so its condition decides. -/
theorem verdict?_restored (h : Rebuilds sentinel before after) (hpool : key ∈ before.pool)
    (hactive : before.active key = true) : after.verdict? store key = some false ↔
      ¬(isBlankText (before.card key).condition = true ∨
        conditionValue store (before.card key).condition = true) := by
  have hcard : after.card key = (before.card key).restored := by
    rw [h.card, if_pos ⟨hpool, hactive⟩]
  rw [verdict?_eq_some_false_iff, hcard]
  simp [Card.restored]

/-- A reshuffle does not depend on the queue, so a check before it makes no difference. -/
theorem rebuilds_of_checked (hpool : catalog.pool.Nodup) (hqueue : catalog.queue.Nodup)
    (h : Rebuilds sentinel (catalog.checked store) after) : Rebuilds sentinel catalog after := by
  rw [checked, foldl_sorted hpool hqueue] at h
  exact ⟨h.pool, h.queue, h.nodup, h.within, h.card⟩

theorem pool_checked (hpool : catalog.pool.Nodup) (hqueue : catalog.queue.Nodup) :
    (catalog.checked store).pool = catalog.pool := by
  rw [checked, foldl_sorted hpool hqueue]

/-- When nothing is queued after a check, no condition can bring a card into the queue. -/
theorem verdict?_ne_of_queue_checked (hpool : catalog.pool.Nodup) (hqueue : catalog.queue.Nodup)
    (hempty : (catalog.checked store).queue = []) :
    ∀ key ∈ catalog.pool, catalog.verdict? store key ≠ some true := by
  intro key hkey htrue
  have hnot : key ∉ (catalog.checked store).queue := hempty ▸ List.not_mem_nil
  refine hnot ((mem_queue_checked_iff hpool hqueue).mpr ?_)
  by_cases hqueued : key ∈ catalog.queue
  · exact .inl ⟨hqueued, fun h => by simp [htrue] at h⟩
  · exact .inr ⟨hkey, htrue, hqueued⟩

end Catalog

namespace Game

variable {game checked shuffled after : Game} {key : Nat}

/-! ## Cards that can be drawn -/

/-- A card can come into the queue, and its condition does not take it out of it again.

The ways into the queue are those of a reshuffle, which brings the active cards and the sentinel back,
and that of a condition that holds.  A sentinel that is discarded stays so when it is brought back, and
its condition is not asked. -/
structure Drawable (game : Game) (key : Nat) : Prop where
  source : game.catalog.active key = true ∨
    game.catalog.findInactive? game.settings.sentinelName = some key ∨ game.verdict? key = some true
  admitted : ((holds (game.catalog.card key).condition).run.run game).1 = .ok true ∨
    game.catalog.active key = false ∧ (game.catalog.card key).discarded = true

theorem drawable_iff (h : CallFree (trim (game.catalog.card key).condition.toList)) :
    game.Drawable key ↔
      (game.catalog.active key = true ∨
        game.catalog.findInactive? game.settings.sentinelName = some key ∨
        game.catalog.verdict? game.store key = some true) ∧
      ((isBlankText (game.catalog.card key).condition = true ∨
        conditionValue game.store (game.catalog.card key).condition = true) ∨
        game.catalog.active key = false ∧ (game.catalog.card key).discarded = true) := by
  obtain ⟨diagnostics, hholds⟩ := run_holds_of_callFree h game
  rw [← Bool.or_eq_true, ← verdict?_of_callFree h]
  refine ⟨fun ⟨hsource, hadmitted⟩ => ⟨hsource, ?_⟩, fun ⟨hsource, hadmitted⟩ => ⟨hsource, ?_⟩⟩
  · rw [hholds] at hadmitted
    exact hadmitted.imp_left fun hok => Except.ok.inj hok
  · rw [hholds]
    exact hadmitted.imp_left (congrArg Except.ok)

/-- When no condition can bring a card into the queue, the cards that are queued after a reshuffle and
another check are those that can be drawn. -/
theorem mem_queue_redrawn_iff {catalog : Catalog} (hpool : game.catalog.pool.Nodup)
    (hfree : game.catalog.Foreseeable)
    (hnone : ∀ key ∈ game.catalog.pool, game.catalog.verdict? game.store key ≠ some true)
    (h : game.catalog.Rebuilds game.settings.sentinelName catalog) :
    key ∈ (catalog.checked game.store).queue ↔ key ∈ game.catalog.pool ∧ game.Drawable key := by
  have hchecked : key ∈ (catalog.checked game.store).queue ↔ _ :=
    Catalog.mem_queue_checked_iff (h.pool.nodup_iff.mpr hpool) h.nodup
  rw [hchecked, h.pool.mem_iff, Catalog.mem_queue_rebuilt_iff h]
  by_cases hmem : key ∈ game.catalog.pool
  · rw [and_iff_right hmem, drawable_iff (hfree key hmem)]
    cases hactive : game.catalog.active key with
    | true =>
      have hverdict : catalog.verdict? game.store key = some false ↔ _ :=
        Catalog.verdict?_restored h hmem hactive
      simp only [hmem, hverdict, true_and, or_true, not_not, not_true_eq_false, and_false,
        or_false, true_or, Bool.true_eq_false, false_and]
    | false =>
      -- no condition holds, so only the sentinel can have come
      have hverdict : catalog.verdict? game.store key = game.catalog.verdict? game.store key :=
        Catalog.verdict?_rebuilt h hactive
      rw [hverdict, Catalog.verdict?_eq_some_false_iff]
      simp only [hmem, hnone key hmem, true_and, and_false, false_and, or_false, false_or, not_not,
        Bool.false_eq_true, or_assoc]
  · have hsentinel : game.catalog.findInactive? game.settings.sentinelName ≠ some key :=
      fun hfirst => hmem (Catalog.inactive_of_findInactive? hfirst).1
    simp [hmem, hsentinel]

/-- When no condition brings a card that can be drawn into the queue, a reshuffle brings it back. -/
theorem Drawable.mem_queue_rebuilt {catalog : Catalog} (h : game.Drawable key)
    (hmem : key ∈ game.catalog.pool)
    (hfree : CallFree (trim (game.catalog.card key).condition.toList))
    (hnone : game.catalog.verdict? game.store key ≠ some true)
    (hrebuilds : game.catalog.Rebuilds game.settings.sentinelName catalog) :
    key ∈ catalog.queue := by
  rw [Catalog.mem_queue_rebuilt_iff hrebuilds]
  rcases ((drawable_iff hfree).mp h).1 with hactive | hsentinel | htrue
  · exact .inr ⟨hmem, hactive⟩
  · exact .inl hsentinel
  · exact absurd htrue hnone

/-! ## Moving on -/

/-- Play has stopped until it is advanced again. -/
structure Halted (scheduler : Scheduler) : Prop where
  phase : scheduler.phase = .halted
  current : scheduler.current = none
  input : scheduler.inputOpen = false

/-- The game when play has halted. -/
def stopped (game : Game) : Game :=
  { game with scheduler := Act.halt.next game.scheduler }

theorem run_advance_of_draw (h : draw.run.run game = (.ok true, after)) :
    advance.run.run game = (.ok after.scheduler.phase, after) := by
  rw [advance, run_bind_ok h]
  rfl

/-- Nothing is queued, also after the reshuffle. -/
theorem run_advance_of_empty (hdraw : draw.run.run game = (.ok false, checked))
    (hreshuffle : reshuffle.run.run checked = (.ok false, shuffled)) :
    advance.run.run game = (.ok .halted, shuffled.stopped) := by
  rw [advance, run_bind_ok hdraw]
  exact (run_bind_ok hreshuffle _).trans rfl

/-- The reshuffle has queued something, and what comes of the second draw decides. -/
theorem run_advance_of_filled {drawn : Bool} (hdraw : draw.run.run game = (.ok false, checked))
    (hreshuffle : reshuffle.run.run checked = (.ok true, shuffled))
    (hagain : draw.run.run shuffled = (.ok drawn, after)) :
    advance.run.run game = if drawn then (.ok after.scheduler.phase, after)
      else (.ok .halted, after.stopped) := by
  rw [advance, run_bind_ok hdraw]
  refine ((run_bind_ok hreshuffle _).trans (run_bind_ok hagain _)).trans ?_
  cases drawn <;> rfl

/-- The first card of the queue is presented, and it is revealed when cards are revealed at once. -/
structure PresentsHead (autoReveal : Bool) (game : Game) (key : Nat) : Prop where
  head : game.catalog.head? = some key
  current : game.scheduler.current = some key
  phase : game.scheduler.phase = if autoReveal then .awaitingAction else .presenting
  input : game.scheduler.inputOpen = autoReveal

theorem presents_showing (h : game.catalog.head? = some key) :
    PresentsHead game.settings.autoReveal (game.showing key) key := by
  rw [showing]
  cases game.settings.autoReveal <;> exact ⟨h, rfl, rfl, rfl⟩

theorem PresentsHead.not_halted {autoReveal : Bool} (h : PresentsHead autoReveal game key) :
    ¬Halted game.scheduler := by
  intro hhalted
  have hphase := h.phase
  rw [hhalted.phase] at hphase
  cases autoReveal <;> cases hphase

/-- What the check of the conditions at the beginning of a draw leaves. -/
structure Sorts (game checked : Game) : Prop where
  settings : checked.settings = game.settings
  store : checked.store = game.store
  catalog : checked.catalog = game.catalog.checked game.store
  scheduler : checked.scheduler = Act.begin.next game.scheduler

theorem exists_sorts (hfree : game.catalog.Foreseeable) :
    ∃ checked, game.Sorts checked ∧ checkConditions.run.run game.begun = (.ok (), checked) ∧
      draw.run.run game = match checked.catalog.head? with
        | some key => (.ok true, checked.showing key)
        | none => (.ok false, checked) := by
  obtain ⟨diagnostics, hrun⟩ : ∃ diagnostics, checkConditions.run.run game.begun = (.ok (), _) :=
    run_checkConditions_of_callFree hfree
  exact ⟨{ game.begun with diagnostics, catalog := game.catalog.checked game.store },
    ⟨rfl, rfl, rfl, rfl⟩, hrun, run_draw_of_checked hrun⟩

/-- The check of the conditions has changed the queue, on which a reshuffle does not depend. -/
theorem Sorts.rebuilds (h : game.Sorts checked) (hpool : game.catalog.pool.Nodup)
    (hqueue : game.catalog.queue.Nodup) :
    game.catalog.Rebuilds game.settings.sentinelName checked.reshuffled.catalog := by
  have hchecked : checked.catalog.pool.Nodup := by
    rwa [h.catalog, Catalog.pool_checked hpool hqueue]
  have hrebuilt : checked.catalog.Rebuilds checked.settings.sentinelName checked.reshuffled.catalog :=
    Catalog.rebuilds_rebuilt hchecked checked.settings.sentinelName checked.generator
  rw [h.settings, h.catalog] at hrebuilt
  exact Catalog.rebuilds_of_checked hpool hqueue hrebuilt

theorem reshuffles_showing (key : Nat) (game : Game) :
    (game.showing key).scheduler.reshuffles = game.scheduler.reshuffles := by
  rw [showing]
  split <;> rfl

/-- When nothing is queued after the first check, play halts if nothing can be drawn, and otherwise a
card is presented. -/
theorem advance_redraws (hpool : game.catalog.pool.Nodup) (hqueue : game.catalog.queue.Nodup)
    (hfree : game.catalog.Foreseeable) (hsorts : game.Sorts checked)
    (hempty : checked.catalog.queue = []) (hdraw : draw.run.run game = (.ok false, checked)) :
    ∃ after, advance.run.run game = (.ok after.scheduler.phase, after) ∧
      after.scheduler.reshuffles = checked.scheduler.reshuffles + 1 ∧
      (Halted after.scheduler ∧ (∀ key ∈ game.catalog.pool, ¬game.Drawable key) ∨
        (∃ key ∈ game.catalog.pool, game.Drawable key) ∧
          ∃ key, PresentsHead game.settings.autoReveal after key) := by
  have hrebuilds := hsorts.rebuilds hpool hqueue
  have hnone : ∀ key ∈ game.catalog.pool, game.catalog.verdict? game.store key ≠ some true :=
    Catalog.verdict?_ne_of_queue_checked hpool hqueue (hsorts.catalog ▸ hempty)
  have hreshuffle := run_reshuffle_eq checked
  -- Either the reshuffle queues nothing, or the second check leaves in the queue exactly what can be
  -- drawn.
  by_cases hfilled : checked.reshuffled.catalog.queue.isEmpty = true
  · rw [if_pos hfilled] at hreshuffle
    refine ⟨stopped _, run_advance_of_empty hdraw hreshuffle, rfl, .inl ⟨⟨rfl, rfl, rfl⟩, ?_⟩⟩
    intro key hkey hdrawable
    have hqueued := hdrawable.mem_queue_rebuilt hkey (hfree key hkey) (hnone key hkey) hrebuilds
    rw [List.isEmpty_iff.mp hfilled] at hqueued
    exact List.not_mem_nil hqueued
  · rw [if_neg hfilled] at hreshuffle
    obtain ⟨later, hlater, -, hagain⟩ := exists_sorts (hfree.rebuilds hrebuilds)
    have hredrawn : ∀ key, key ∈ later.catalog.queue ↔
        key ∈ game.catalog.pool ∧ game.Drawable key := by
      have hstore : checked.reshuffled.store = game.store := hsorts.store
      rw [hlater.catalog, hstore]
      exact fun key => mem_queue_redrawn_iff hpool hfree hnone hrebuilds
    cases hhead : later.catalog.head? with
    | none =>
      rw [hhead] at hagain
      have hnothing : later.catalog.queue = [] := List.head?_eq_none_iff.mp hhead
      refine ⟨later.stopped, run_advance_of_filled hdraw hreshuffle hagain, ?_,
        .inl ⟨⟨rfl, rfl, rfl⟩, fun key hkey hdrawable => ?_⟩⟩
      · exact congrArg Scheduler.reshuffles hlater.scheduler
      · have hqueued := (hredrawn key).mpr ⟨hkey, hdrawable⟩
        rw [hnothing] at hqueued
        exact List.not_mem_nil hqueued
    | some key =>
      rw [hhead] at hagain
      have hqueued : key ∈ later.catalog.queue := List.mem_of_mem_head? hhead
      have hpresents := presents_showing hhead
      rw [hlater.settings] at hpresents
      refine ⟨later.showing key, run_advance_of_filled hdraw hreshuffle hagain, ?_,
        .inr ⟨⟨key, (hredrawn key).mp hqueued⟩, key, hsorts.settings ▸ hpresents⟩⟩
      rw [reshuffles_showing]
      exact congrArg Scheduler.reshuffles hlater.scheduler

/-- Moving on always comes to an end, with at most one reshuffle: there is one when nothing is queued
after the first check of the conditions.  Play halts if and only if nothing is queued then and no card
of the pool can be drawn; otherwise the first card of the queue is presented. -/
theorem advance_draws (hpool : game.catalog.pool.Nodup) (hqueue : game.catalog.queue.Nodup)
    (hfree : game.catalog.Foreseeable) :
    ∃ checked after,
      checkConditions.run.run game.begun = (.ok (), checked) ∧
      advance.run.run game = (.ok after.scheduler.phase, after) ∧
      after.scheduler.reshuffles =
        game.scheduler.reshuffles + (if checked.catalog.queue = [] then 1 else 0) ∧
      (Halted after.scheduler ↔
        checked.catalog.queue = [] ∧ ∀ key ∈ game.catalog.pool, ¬game.Drawable key) ∧
      (¬Halted after.scheduler → ∃ key, PresentsHead game.settings.autoReveal after key) := by
  obtain ⟨checked, hsorts, hchecked, hdraw⟩ := exists_sorts hfree
  have hreshuffles : checked.scheduler.reshuffles = game.scheduler.reshuffles := by
    rw [hsorts.scheduler]
    rfl
  -- with an empty queue it is the second draw that decides
  cases hhead : checked.catalog.head? with
  | none =>
    have hempty : checked.catalog.queue = [] := List.head?_eq_none_iff.mp hhead
    rw [hhead] at hdraw
    obtain ⟨after, hadvance, hcount, hrest⟩ :=
      advance_redraws hpool hqueue hfree hsorts hempty hdraw
    refine ⟨checked, after, hchecked, hadvance, ?_, ?_⟩
    · rw [hcount, hreshuffles, if_pos hempty]
    · rcases hrest with ⟨hhalted, hnone⟩ | ⟨⟨key, hkey, hdrawable⟩, hpresents⟩
      · exact ⟨⟨fun _ => ⟨hempty, hnone⟩, fun _ => hhalted⟩, fun h => absurd hhalted h⟩
      · obtain ⟨shown, hshown⟩ := hpresents
        exact ⟨⟨fun h => absurd h hshown.not_halted, fun h => absurd hdrawable (h.2 key hkey)⟩,
          fun _ => ⟨shown, hshown⟩⟩
  | some key =>
    have hfilled : checked.catalog.queue ≠ [] := fun hempty => by
      rw [Catalog.head?, hempty] at hhead
      cases hhead
    rw [hhead] at hdraw
    have hpresents := presents_showing hhead
    rw [hsorts.settings] at hpresents
    refine ⟨checked, checked.showing key, hchecked, run_advance_of_draw hdraw, ?_, ?_, ?_⟩
    · rw [reshuffles_showing, hreshuffles, if_neg hfilled]
      rfl
    · exact ⟨fun h => absurd h hpresents.not_halted, fun h => absurd h.1 hfilled⟩
    · exact fun _ => ⟨key, hpresents⟩

/-- A game with an empty queue, a discarded card and a discarded sentinel, whose conditions do not hold. -/
def lull : Game :=
  { Game.empty {} ⟨none, [], 0, 0⟩ (.ofScript []) with
    catalog := {
      cards := #[{ name := "a", copy := 1, condition := "0", discarded := true },
        { name := "last_card", copy := 1, condition := "0", active := false, discarded := true }]
      pool := [0, 1]
      queue := [] } }

/-- The sentinel comes back, and it is presented although its condition does not hold. -/
theorem lull_draws :
    lull.catalog.pool.Nodup ∧ lull.catalog.queue.Nodup ∧ lull.catalog.Foreseeable ∧
      ∃ after, advance.run.run lull = (.ok after.scheduler.phase, after) ∧
        after.scheduler.reshuffles = 1 ∧ ¬Halted after.scheduler ∧
          ∃ key, PresentsHead false after key := by
  have hpool : lull.catalog.pool.Nodup := by decide
  have hqueue : lull.catalog.queue.Nodup := by decide
  have hwords : ∀ key ∈ lull.catalog.pool,
      ¬randomWord <:+: trim (lull.catalog.card key).condition.toList := by decide
  have hfree : lull.catalog.Foreseeable := fun key hkey => callFree_of_wordless (hwords key hkey)
  obtain ⟨checked, after, hchecked, hadvance, hcount, hhalted, hpresents⟩ :=
    advance_draws hpool hqueue hfree
  have hidle : checkConditions.run.run lull.begun = (.ok (), lull.begun) := rfl
  obtain rfl : lull.begun = checked := congrArg Prod.snd (hidle.symm.trans hchecked)
  have hdrawable : lull.Drawable 1 := ⟨.inr (.inl (by decide)), .inr (by decide)⟩
  have hgoesOn : ¬Halted after.scheduler :=
    fun h => (hhalted.mp h).2 1 (by decide) hdrawable
  exact ⟨hpool, hqueue, hfree, after, hadvance, hcount, hgoesOn, hpresents hgoesOn⟩

end Game

end EventDeck
