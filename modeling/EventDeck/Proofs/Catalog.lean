import EventDeck.Catalog

/-!
# What changes of the catalog do with the cards

Cards leave the pool when they are destroyed and in no other way, and what enters the queue comes
from the pool.  `Catalog.Keeps` says this of a change that destroys nothing, with one lemma for each
operation.  Whatever is done with a card, only its flags change: `Catalog.SameFaces`.

A queue within the pool can only be lost by `Catalog.destroy`, which takes the card out of the queue
once: `queue_subset_pool_destroy_iff`.
-/

namespace EventDeck

/-- What the author of a deck has written about a card: everything but its flags. -/
def Card.face (card : Card) : Card :=
  { card with active := true, discarded := false }

namespace Catalog

/-- What a change of the catalog that destroys no card leaves as it is. -/
structure Keeps (before after : Catalog) : Prop where
  /-- The pool is reordered at most. -/
  perm : after.pool.Perm before.pool
  /-- What is queued was queued before or comes from the pool. -/
  queue : ∀ key ∈ after.queue, key ∈ before.queue ∨ key ∈ before.pool

variable {catalog before between after : Catalog} {key : Nat}

namespace Keeps

/-- Nothing changed. -/
theorem refl (catalog : Catalog) : Keeps catalog catalog :=
  ⟨.refl _, fun _ h => .inl h⟩

/-- Two changes: what the second queues from the pool was in the first pool, since pools are only
reordered. -/
theorem trans (first : Keeps before between) (second : Keeps between after) :
    Keeps before after := by
  refine ⟨second.perm.trans first.perm, fun key h => ?_⟩
  rcases second.queue key h with hqueue | hpool
  · exact first.queue key hqueue
  · exact .inr (first.perm.mem_iff.mp hpool)

/-- No card leaves the game. -/
theorem mem_pool (h : Keeps before after) (hkey : key ∈ before.pool) : key ∈ after.pool :=
  h.perm.mem_iff.mpr hkey

/-- No card comes into the game a second time. -/
theorem nodup (h : Keeps before after) (hnodup : before.pool.Nodup) : after.pool.Nodup :=
  h.perm.nodup_iff.mpr hnodup

/-- A queue within the pool stays within it. -/
theorem queue_subset_pool (h : Keeps before after) (hqueue : before.queue ⊆ before.pool) :
    after.queue ⊆ after.pool := by
  intro key hkey
  rcases h.queue key hkey with hbefore | hpool
  · exact h.mem_pool (hqueue hbefore)
  · exact h.mem_pool hpool

/-- A change of the queue alone. -/
theorem of_queue (queue : List Nat)
    (h : ∀ key ∈ queue, key ∈ catalog.queue ∨ key ∈ catalog.pool) :
    Keeps catalog { catalog with queue } :=
  ⟨.refl _, h⟩

/-! ## Operations -/

/-- A card of the pool goes to the end of the queue, unless it is queued. -/
theorem enqueue (hkey : key ∈ catalog.pool) : Keeps catalog (catalog.enqueue key) := by
  rw [Catalog.enqueue]
  split
  · exact refl _
  · apply of_queue
    intro other hother
    rcases List.mem_append.mp hother with hqueued | hnew
    · exact .inl hqueued
    · rw [List.mem_singleton.mp hnew]
      exact .inr hkey

/-- One place of a card is taken out of the queue. -/
theorem dequeue (catalog : Catalog) (key : Nat) : Keeps catalog (catalog.dequeue key) :=
  of_queue _ fun _ h => .inl (List.mem_of_mem_erase h)

/-- A card of the pool is put anywhere into the queue. -/
theorem insertAt (place : Int) (hkey : key ∈ catalog.pool) :
    Keeps catalog (catalog.insertAt key place) := by
  apply of_queue
  intro other hother
  -- before the place, at the place, behind the place
  rcases List.mem_append.mp hother with hfront | hrest
  · exact .inl (List.mem_of_mem_take hfront)
  · rcases List.mem_cons.mp hrest with rfl | hback
    · exact .inr hkey
    · exact .inl (List.mem_of_mem_drop hback)

/-- The queue is emptied before a reshuffle fills it. -/
theorem clearQueue (catalog : Catalog) : Keeps catalog catalog.clearQueue :=
  of_queue _ fun _ h => nomatch h

theorem setActive (catalog : Catalog) (key : Nat) (active : Bool) :
    Keeps catalog (catalog.setActive key active) :=
  ⟨.refl _, fun _ h => .inl h⟩

theorem setDiscarded (catalog : Catalog) (key : Nat) (discarded : Bool) :
    Keeps catalog (catalog.setDiscarded key discarded) :=
  ⟨.refl _, fun _ h => .inl h⟩

/-- The pool alone is shuffled. -/
theorem shufflePool (catalog : Catalog) (generator : Generator) :
    Keeps catalog (catalog.shufflePool generator).1 :=
  ⟨shuffle_perm _ _, fun _ h => .inl h⟩

end Keeps

/-- Queueing a card changes nothing about it. -/
theorem cards_enqueue (catalog : Catalog) (key : Nat) :
    (catalog.enqueue key).cards = catalog.cards := by
  rw [enqueue]
  split <;> rfl

/-- Queueing a card does not touch the pool. -/
theorem pool_enqueue (catalog : Catalog) (key : Nat) :
    (catalog.enqueue key).pool = catalog.pool := by
  rw [enqueue]
  split <;> rfl

/-! ## Destruction -/

/-- A destroyed card leaves the game. -/
theorem pool_destroy (catalog : Catalog) (key : Nat) :
    (catalog.destroy key).pool = catalog.pool.erase key := rfl

/-- One place of the destroyed card leaves the queue, not all of them. -/
theorem queue_destroy (catalog : Catalog) (key : Nat) :
    (catalog.destroy key).queue = catalog.queue.erase key := rfl

/-- A card that is in the pool once is out of it when it is destroyed. -/
theorem not_mem_pool_destroy (hnodup : catalog.pool.Nodup) :
    key ∉ (catalog.destroy key).pool := by
  rw [pool_destroy]
  exact fun h => (hnodup.mem_erase_iff.mp h).1 rfl

/-- A card that is queued once is out of the queue when it is destroyed. -/
theorem not_mem_queue_destroy (hcount : catalog.queue.count key = 1) :
    key ∉ (catalog.destroy key).queue := by
  rw [queue_destroy, ← List.count_eq_zero, List.count_erase_self, hcount]

/-- Destroying the first card of the queue leaves the queue within the pool exactly when the card is
queued once; a second place of it in the queue is left behind. -/
theorem queue_subset_pool_destroy_iff (hnodup : catalog.pool.Nodup)
    (hqueue : catalog.queue ⊆ catalog.pool) (hhead : catalog.head? = some key) :
    (catalog.destroy key).queue ⊆ (catalog.destroy key).pool ↔ catalog.queue.count key = 1 := by
  constructor
  · intro hsubset
    have hqueued : 0 < catalog.queue.count key :=
      List.count_pos_iff.mpr (List.mem_of_head? hhead)
    have hgone : key ∉ (catalog.destroy key).queue := fun h =>
      not_mem_pool_destroy hnodup (hsubset h)
    -- erasing takes one place away, and none is left
    rw [queue_destroy, ← List.count_eq_zero, List.count_erase_self] at hgone
    omega
  · intro hcount other hother
    -- the destroyed card is not queued any more, and other cards stay in the pool
    have hne : other ≠ key := by
      rintro rfl
      exact not_mem_queue_destroy hcount hother
    rw [pool_destroy]
    exact (List.mem_erase_of_ne hne).mpr (hqueue (List.mem_of_mem_erase hother))

/-! ## Faces

Play changes the flags of cards; everything else about a card is as its author wrote it. -/

/-- Every card has kept what its author wrote about it. -/
structure SameFaces (before after : Catalog) : Prop where
  size : after.cards.size = before.cards.size
  face : ∀ key, (after.card key).face = (before.card key).face

/-- A change of one card; a key beyond the cards changes nothing. -/
theorem card_modify (catalog : Catalog) (key other : Nat) (f : Card → Card) :
    ({ catalog with cards := catalog.cards.modify key f } : Catalog).card other =
      if other = key ∧ key < catalog.cards.size then f (catalog.card other)
      else catalog.card other := by
  unfold card
  -- Beyond the cards both sides are the card without a name.
  by_cases hother : other < catalog.cards.size
  · simp only [Array.getD_eq_getD_getElem?, Array.getElem?_modify]
    by_cases hkey : key = other
    · subst hkey
      simp [hother]
    · simp [hkey, Ne.symm hkey]
  · have houtside : ¬(other = key ∧ key < catalog.cards.size) := by
      rintro ⟨rfl, h⟩
      exact hother h
    simp [Array.getD, hother, houtside]

namespace SameFaces

/-- A change of pool and queue alone. -/
theorem of_cards (h : after.cards = before.cards) : SameFaces before after :=
  ⟨congrArg Array.size h, fun key => by rw [Catalog.card, h, Catalog.card]⟩

theorem refl (catalog : Catalog) : SameFaces catalog catalog :=
  of_cards rfl

theorem trans (first : SameFaces before between) (second : SameFaces between after) :
    SameFaces before after :=
  ⟨second.size.trans first.size, fun key => (second.face key).trans (first.face key)⟩

/-- What a card offers is on its face. -/
theorem actions (h : SameFaces before after) (key : Nat) :
    (after.card key).actions = (before.card key).actions := by
  have hactions := congrArg Card.actions (h.face key)
  exact hactions

/-- The condition of a card is on its face. -/
theorem condition (h : SameFaces before after) (key : Nat) :
    (after.card key).condition = (before.card key).condition := by
  have hcondition := congrArg Card.condition (h.face key)
  exact hcondition

/-- A change of flags. -/
theorem modify (catalog : Catalog) (key : Nat) {f : Card → Card}
    (hf : ∀ card, (f card).face = card.face) :
    SameFaces catalog { catalog with cards := catalog.cards.modify key f } := by
  refine ⟨Array.size_modify, fun other => ?_⟩
  rw [card_modify]
  split
  · exact hf _
  · rfl

theorem setActive (catalog : Catalog) (key : Nat) (active : Bool) :
    SameFaces catalog (catalog.setActive key active) :=
  modify catalog key fun _ => rfl

theorem setDiscarded (catalog : Catalog) (key : Nat) (discarded : Bool) :
    SameFaces catalog (catalog.setDiscarded key discarded) :=
  modify catalog key fun _ => rfl

theorem enqueue (catalog : Catalog) (key : Nat) : SameFaces catalog (catalog.enqueue key) :=
  of_cards (cards_enqueue ..)

end SameFaces

/-! ### Flags -/

/-- The two flags of a card are apart. -/
theorem discarded_setActive (catalog : Catalog) (key other : Nat) (active : Bool) :
    ((catalog.setActive key active).card other).discarded = (catalog.card other).discarded := by
  rw [setActive, card_modify]
  split <;> rfl

/-- The discarded flag is set for one card. -/
theorem discarded_setDiscarded (catalog : Catalog) (key other : Nat) (discarded : Bool) :
    ((catalog.setDiscarded key discarded).card other).discarded =
      if other = key ∧ key < catalog.cards.size then discarded
      else (catalog.card other).discarded := by
  rw [setDiscarded, card_modify]
  split <;> rfl

/-! ## Dealing -/

/-- The catalog of a new game has every card in the pool once. -/
theorem nodup_pool_ofTemplates (templates : List Template) (generator : Generator) :
    (ofTemplates templates generator).1.pool.Nodup := by
  have hperm : (ofTemplates templates generator).1.pool.Perm
      (List.range (templates.flatMap Template.cards).length) := shuffle_perm _ _
  exact hperm.nodup_iff.mpr List.nodup_range

/-- The queue of a new game is within its pool. -/
theorem queue_subset_pool_ofTemplates (templates : List Template) (generator : Generator) :
    (ofTemplates templates generator).1.queue ⊆ (ofTemplates templates generator).1.pool := by
  intro key hkey
  have hpool : (ofTemplates templates generator).1.pool.Perm
      (List.range (templates.flatMap Template.cards).length) := shuffle_perm _ _
  -- queued are the active ones of all cards, and all cards are in the pool
  have hactive := (shuffle_perm _ _).mem_iff.mp hkey
  exact hpool.mem_iff.mpr ((List.mem_filter.mp hactive).1)

end Catalog

end EventDeck
