import EventDeck.Proofs.Game.Forms
import EventDeck.Proofs.Game.Turns

/-!
# Conditions without chance

A condition without random calls has a value in every store, which depends on the store alone
(`conditionValue`).  When no card has a random call in its condition, the check of all conditions is a
computation on the catalog: every card of the pool that is not discarded is queued or not as its
condition says (`run_checkConditions_of_callFree`).

The check takes a card out of the queue once.  So a card that is still queued although its condition
does not hold was queued twice, or was out of the pool (`stray_of_unwanted`), or it is discarded.
-/

namespace EventDeck

open Game EventDeck.Expr Text

namespace Game

/-! ## The value of a condition -/

/-- The value of a condition without random calls in a store; a condition that is malformed or divides
by zero does not hold. -/
def conditionValue (store : Store) (condition : String) : Bool :=
  match evaluateText .evaluating
      (render (storedNames store) (cells (trim condition.toList))) with
  | .ok value => value.isTrue
  | .error _ => false

variable {game : Game} {condition : String} {key : Nat}

/-- A condition that is one number. -/
theorem conditionValue_literal {store : Store} {number : List Char}
    (hplain : render (storedNames store) (cells (trim condition.toList)) = number)
    (hnumber : tokenize number = .ok [.number number]) :
    conditionValue store condition = (Value.number (numberOf number)).isTrue := by
  rw [conditionValue, hplain, evaluateText_literal hnumber]

/-- A condition without random calls has its value, and only reports may have changed. -/
theorem run_evaluateCondition_of_callFree (h : CallFree (trim condition.toList)) (game : Game) :
    ∃ diagnostics, (evaluateCondition condition).run.run game =
      (.ok (conditionValue game.store condition), { game with diagnostics }) := by
  rw [evaluateCondition, run_orReport, attempt_bind, run_evaluateValue h game, conditionValue]
  cases evaluateText .evaluating (render (storedNames game.store) (cells (trim condition.toList))) with
  | ok value => exact ⟨_, rfl⟩
  | error e => exact ⟨_, rfl⟩

/-- A condition that is well-formed in a store has a truth value, and only the unknown names in it are
reported. -/
theorem run_evaluateCondition_of_value {value : Value} (h : CallFree (trim condition.toList))
    (hvalue : evaluateText .evaluating
      (render (storedNames game.store) (cells (trim condition.toList))) = .ok value) :
    (evaluateCondition condition).run.run game =
      (.ok value.isTrue, afterNames (namesIn (trim condition.toList)) game) := by
  rw [evaluateCondition, run_orReport, attempt_bind, run_evaluateValue h game, hvalue]
  rfl

theorem run_holds_of_callFree (h : CallFree (trim condition.toList)) (game : Game) :
    ∃ diagnostics, (holds condition).run.run game =
      (.ok (isBlankText condition || conditionValue game.store condition),
        { game with diagnostics }) := by
  rw [holds]
  split
  next hblank => exact ⟨game.diagnostics, by rw [hblank]; rfl⟩
  next hblank =>
    rw [Bool.eq_false_of_not_eq_true hblank, Bool.false_or]
    exact run_evaluateCondition_of_callFree h game

end Game

namespace Catalog

/-! ## Sorting the queue -/

/-- No card has a random call in its condition. -/
def ChanceFree (catalog : Catalog) : Prop :=
  ∀ key, CallFree (trim (catalog.card key).condition.toList)

/-- A card is queued or not as its condition says in a store; a discarded card and a card without a
condition stay where they are. -/
def sorted (store : Store) (catalog : Catalog) (key : Nat) : Catalog :=
  let card := catalog.card key
  if card.discarded || isBlankText card.condition then catalog
  else if conditionValue store card.condition then catalog.enqueue key
  else catalog.dequeue key

variable {before after catalog : Catalog} {store : Store} {key other : Nat} {keys : List Nat}

theorem SameFaces.chanceFree (h : SameFaces before after) (hfree : before.ChanceFree) :
    after.ChanceFree := by
  intro key
  rw [h.condition]
  exact hfree key

theorem cards_sorted (store : Store) (catalog : Catalog) (key : Nat) :
    (catalog.sorted store key).cards = catalog.cards := by
  rw [sorted]
  split
  · rfl
  split
  · exact cards_enqueue ..
  · rfl

theorem cards_foldl_sorted (store : Store) (catalog : Catalog) (keys : List Nat) :
    (keys.foldl (sorted store) catalog).cards = catalog.cards := by
  induction keys generalizing catalog with
  | nil => rfl
  | cons key keys ih => exact (ih _).trans (cards_sorted ..)

/-- The catalog when the conditions of all cards of the pool have been checked in a store. -/
def checked (store : Store) (catalog : Catalog) : Catalog :=
  catalog.pool.foldl (sorted store) catalog

theorem cards_checked (store : Store) (catalog : Catalog) :
    (catalog.checked store).cards = catalog.cards :=
  cards_foldl_sorted ..

/-! ### Cards that are not wanted -/

/-- A card whose condition does not hold, and which is not discarded. -/
def Unwanted (store : Store) (catalog : Catalog) (key : Nat) : Prop :=
  (catalog.card key).discarded = false ∧ isBlankText (catalog.card key).condition = false ∧
    conditionValue store (catalog.card key).condition = false

theorem Unwanted.of_cards (h : before.Unwanted store key) (hcards : after.cards = before.cards) :
    after.Unwanted store key := by
  have hcard : after.card key = before.card key := by rw [card, hcards, card]
  rw [Unwanted, hcard]
  exact h

theorem sorted_of_unwanted (h : catalog.Unwanted store key) :
    catalog.sorted store key = catalog.dequeue key := by
  obtain ⟨hdiscarded, hblank, hvalue⟩ := h
  rw [sorted]
  simp only [hdiscarded, hblank, hvalue, Bool.or_self, Bool.false_eq_true, if_false]

/-- An unwanted card is not queued by the check of any card. -/
theorem count_sorted_le (h : catalog.Unwanted store key) (other : Nat) :
    (catalog.sorted store other).queue.count key ≤ catalog.queue.count key := by
  by_cases heq : other = key
  · rw [heq, sorted_of_unwanted h]
    exact List.erase_sublist.count_le key
  · rw [sorted]
    split
    · exact Nat.le_refl _
    split
    · rw [enqueue]
      split
      · exact Nat.le_refl _
      · simp [List.count_append, heq]
    · exact List.erase_sublist.count_le key

theorem count_foldl_sorted_le (h : catalog.Unwanted store key) (keys : List Nat) :
    (keys.foldl (sorted store) catalog).queue.count key ≤ catalog.queue.count key := by
  induction keys generalizing catalog with
  | nil => exact Nat.le_refl _
  | cons other keys ih =>
    exact Nat.le_trans (ih (h.of_cards (cards_sorted ..))) (count_sorted_le h other)

/-- The check of an unwanted card takes it out of the queue once. -/
theorem count_foldl_sorted_lt (h : catalog.Unwanted store key) (hkey : key ∈ keys) :
    (keys.foldl (sorted store) catalog).queue.count key ≤ catalog.queue.count key - 1 := by
  induction keys generalizing catalog with
  | nil => cases hkey
  | cons other keys ih =>
    have hnext : (catalog.sorted store other).Unwanted store key := h.of_cards (cards_sorted ..)
    have hother := count_sorted_le h other
    rw [List.foldl_cons]
    rcases List.mem_cons.mp hkey with rfl | hlater
    · refine Nat.le_trans (count_foldl_sorted_le hnext keys) ?_
      rw [sorted_of_unwanted h, dequeue, List.count_erase_self]
    · have hrest := ih hnext hlater
      omega

theorem mem_queue_sorted (h : key ∈ (catalog.sorted store other).queue) :
    key ∈ catalog.queue ∨ key = other := by
  rw [sorted] at h
  split at h
  · exact .inl h
  split at h
  · rw [enqueue] at h
    split at h
    · exact .inl h
    · exact (List.mem_append.mp h).imp_right List.mem_singleton.mp
  · exact .inl (List.mem_of_mem_erase h)

theorem mem_queue_foldl_sorted (h : key ∈ (keys.foldl (sorted store) catalog).queue) :
    key ∈ catalog.queue ∨ key ∈ keys := by
  induction keys generalizing catalog with
  | nil => exact .inl h
  | cons other keys ih =>
    rcases ih h with hsorted | hlater
    · refine (mem_queue_sorted hsorted).imp_right ?_
      rintro rfl
      exact List.mem_cons_self
    · exact .inr (List.mem_cons_of_mem _ hlater)

/-- A card is queued more than once, or queued although it is not in the pool. -/
def Stray (catalog : Catalog) (key : Nat) : Prop :=
  1 < catalog.queue.count key ∨ key ∈ catalog.queue ∧ key ∉ catalog.pool

/-- A card that is not wanted and is queued after the check was a stray before. -/
theorem stray_of_unwanted (h : (catalog.checked store).Unwanted store key)
    (hqueued : key ∈ (catalog.checked store).queue) : catalog.Stray key := by
  by_cases hpool : key ∈ catalog.pool
  · have hunwanted : catalog.Unwanted store key := h.of_cards (cards_checked ..).symm
    have hout : (catalog.checked store).queue.count key ≤ catalog.queue.count key - 1 :=
      count_foldl_sorted_lt hunwanted hpool
    have hin : 0 < (catalog.checked store).queue.count key := List.count_pos_iff.mpr hqueued
    exact .inl (by omega)
  · exact .inr ⟨(mem_queue_foldl_sorted hqueued).resolve_right hpool, hpool⟩

end Catalog

namespace Game

variable {game : Game} {key : Nat}

/-! ## The check of all conditions -/

theorem run_checkCondition_of_callFree (h : CallFree (trim (game.catalog.card key).condition.toList)) :
    ∃ diagnostics, (checkCondition key).run.run game =
      (.ok (), { game with diagnostics, catalog := game.catalog.sorted game.store key }) := by
  rw [checkCondition, run_get_bind, Catalog.sorted]
  dsimp only
  split
  · exact ⟨game.diagnostics, rfl⟩
  · obtain ⟨diagnostics, hrun⟩ := run_evaluateCondition_of_callFree h game
    rw [run_bind_ok hrun, run_get_bind]
    refine ⟨diagnostics, ?_⟩
    dsimp only
    generalize conditionValue game.store (game.catalog.card key).condition = wanted
    -- a card that is where it should be is left there
    by_cases hqueued : game.catalog.queue.contains key = true
    · have henqueue : game.catalog.enqueue key = game.catalog := if_pos hqueued
      rw [hqueued, henqueue]
      cases wanted <;> rfl
    · have hdequeue : game.catalog.dequeue key = game.catalog := by
        rw [Catalog.dequeue, List.erase_of_not_mem (by simpa using hqueued)]
      rw [Bool.eq_false_of_not_eq_true hqueued, hdequeue]
      cases wanted <;> rfl

/-- When no condition of a card of the pool takes chance, the check of all conditions sorts the
queue. -/
theorem run_checkConditions_of_callFree
    (h : ∀ key ∈ game.catalog.pool, CallFree (trim (game.catalog.card key).condition.toList)) :
    ∃ diagnostics, checkConditions.run.run game =
      (.ok (), { game with
        diagnostics
        catalog := game.catalog.checked game.store }) := by
  have hloop : ∀ (keys : List Nat) (game : Game),
      (∀ key ∈ keys, CallFree (trim (game.catalog.card key).condition.toList)) → ∃ diagnostics,
      (forIn keys PUnit.unit fun key _ => do
        checkCondition key
        pure (ForInStep.yield PUnit.unit) : Play PUnit).run.run game =
      (.ok PUnit.unit, { game with
        diagnostics
        catalog := keys.foldl (Catalog.sorted game.store) game.catalog }) := by
    intro keys
    induction keys with
    | nil => exact fun game _ => ⟨game.diagnostics, rfl⟩
    | cons key keys ih =>
      intro game h
      obtain ⟨hkey, hkeys⟩ := List.forall_mem_cons.mp h
      obtain ⟨diagnostics, hchecked⟩ := run_checkCondition_of_callFree hkey
      -- the check of a card leaves the conditions of the others as they were
      have hcard : (game.catalog.sorted game.store key).card = game.catalog.card :=
        funext fun other => by rw [Catalog.card, Catalog.cards_sorted, Catalog.card]
      obtain ⟨later, hrest⟩ := ih
        { game with diagnostics, catalog := game.catalog.sorted game.store key }
        fun other hother => hcard ▸ hkeys other hother
      refine ⟨later, ?_⟩
      rw [List.forIn_cons, bind_assoc, run_bind_ok hchecked, pure_bind]
      exact hrest
  obtain ⟨diagnostics, hrun⟩ := hloop game.catalog.pool game h
  refine ⟨diagnostics, ?_⟩
  rw [checkConditions, run_get_bind, run_bind_ok hrun]
  rfl

/-- A card is discarded, or its condition is blank or holds. -/
def Admits (game : Game) (key : Nat) : Prop :=
  (game.catalog.card key).discarded = true ∨
    ((holds (game.catalog.card key).condition).run.run game).1 = .ok true

theorem admits_iff_not_unwanted (h : game.catalog.ChanceFree) :
    game.Admits key ↔ ¬game.catalog.Unwanted game.store key := by
  obtain ⟨diagnostics, hholds⟩ := run_holds_of_callFree (h key) game
  rw [Admits, hholds, Catalog.Unwanted]
  cases (game.catalog.card key).discarded <;>
    cases isBlankText (game.catalog.card key).condition <;>
      cases conditionValue game.store (game.catalog.card key).condition <;> simp

end Game

end EventDeck
