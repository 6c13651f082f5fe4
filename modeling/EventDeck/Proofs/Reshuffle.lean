import EventDeck.Proofs.Game.Turns

/-!
# What a reshuffle deals

A reshuffle rebuilds the queue as one pass through the deck: the inactive sentinel comes first, if
there is one, and behind it every active card once (`isPass_rebuilt`).  Which cards are in the game
and which of them are active stays as it was (`SameRoster`).

`Rebuilds` says exactly what becomes of the catalog: the pool in a new order, the queue in that order,
and the flags of the cards.  The main statement is `reshuffle_rebuilds`.
-/

namespace EventDeck

/-- A card that is not discarded any more. -/
def Card.restored (card : Card) : Card :=
  { card with discarded := false }

namespace Catalog

/-- The active cards of the pool. -/
def actives (catalog : Catalog) : List Nat :=
  catalog.pool.filter catalog.active

/-- The cards in the order of one pass after a reshuffle: an inactive sentinel if the pool has one,
then every active card once. -/
inductive IsPass (catalog : Catalog) (sentinel : String) : List Nat → Prop
  | sentinel {key : Nat} {order : List Nat} (hpool : key ∈ catalog.pool)
    (hnamed : catalog.named sentinel key = true) (hinactive : catalog.active key = false)
    (horder : order.Perm catalog.actives) : IsPass catalog sentinel (key :: order)
  | plain {order : List Nat}
    (hnone : ∀ key ∈ catalog.pool, catalog.named sentinel key = true → catalog.active key = true)
    (horder : order.Perm catalog.actives) : IsPass catalog sentinel order

/-- The same cards are in the game, and the same ones of them are active. -/
structure SameRoster (before after : Catalog) : Prop extends SameFaces before after where
  pool : after.pool.Perm before.pool
  active : ∀ key, after.active key = before.active key

variable {catalog before between after : Catalog} {sentinel : String} {key other : Nat}
  {keys pass : List Nat}

/-- An active card is in the game once. -/
theorem nodup_actives (h : catalog.pool.Nodup) : catalog.actives.Nodup :=
  h.filter _

/-- A name is on the face of a card. -/
theorem SameFaces.named (h : SameFaces before after) (name : String) (key : Nat) :
    after.named name key = before.named name key := by
  have hname := congrArg Card.name (h.face key)
  change (after.card key).name = (before.card key).name at hname
  rw [Catalog.named, Catalog.named, hname]

namespace SameRoster

/-- Nothing changed. -/
theorem refl (catalog : Catalog) : SameRoster catalog catalog :=
  ⟨.refl _, .refl _, fun _ => rfl⟩

/-- Two changes, one after the other. -/
theorem trans (first : SameRoster before between) (second : SameRoster between after) :
    SameRoster before after :=
  ⟨first.toSameFaces.trans second.toSameFaces, second.pool.trans first.pool,
    fun key => (second.active key).trans (first.active key)⟩

/-- The same cards, seen from the end: a pass of the new queue is one of the old game. -/
theorem symm (h : SameRoster before after) : SameRoster after before :=
  ⟨⟨h.size.symm, fun key => (h.face key).symm⟩, h.pool.symm, fun key => (h.active key).symm⟩

/-- A change of the order of the cards alone. -/
theorem of_cards (hcards : after.cards = before.cards) (hpool : after.pool.Perm before.pool) :
    SameRoster before after :=
  ⟨.of_cards hcards, hpool, fun key => by rw [Catalog.active, Catalog.card, hcards]; rfl⟩

/-- The active cards are the same ones, in the order of the new pool. -/
theorem actives (h : SameRoster before after) : after.actives.Perm before.actives := by
  have hactive : after.active = before.active := funext h.active
  rw [Catalog.actives, Catalog.actives, hactive]
  exact h.pool.filter _

/-- What is a pass through the deck does not depend on more than the roster. -/
theorem isPass (h : SameRoster before after) (hpass : after.IsPass sentinel pass) :
    before.IsPass sentinel pass := by
  -- Both forms of a pass speak of names, of active cards and of the pool, all of which the roster
  -- fixes.
  cases hpass with
  | sentinel hpool hnamed hinactive horder =>
    refine .sentinel (h.pool.mem_iff.mp hpool) ?_ ?_ (horder.trans h.actives)
    · rwa [h.named] at hnamed
    · rwa [h.active] at hinactive
  | plain hnone horder =>
    refine .plain (fun key hkey hnamed => ?_) (horder.trans h.actives)
    rw [← h.active]
    exact hnone key (h.pool.mem_iff.mpr hkey) (by rwa [h.named])

/-- The discarded flag is no part of the roster. -/
theorem setDiscarded (catalog : Catalog) (key : Nat) (discarded : Bool) :
    SameRoster catalog (catalog.setDiscarded key discarded) := by
  refine ⟨.setDiscarded .., .refl _, fun other => ?_⟩
  rw [Catalog.active, Catalog.setDiscarded, card_modify]
  split <;> rfl

theorem enqueue (catalog : Catalog) (key : Nat) : SameRoster catalog (catalog.enqueue key) := by
  rw [Catalog.enqueue]
  split
  · exact refl _
  · exact of_cards rfl (.refl _)

/-- A card that comes back was in the game, and active, before. -/
theorem restore (catalog : Catalog) (key : Nat) : SameRoster catalog (Game.restore catalog key) := by
  rw [Game.restore]
  split
  · exact (setDiscarded catalog key false).trans (enqueue ..)
  · exact refl _

theorem foldl_restore (keys : List Nat) (catalog : Catalog) :
    SameRoster catalog (keys.foldl Game.restore catalog) := by
  induction keys generalizing catalog with
  | nil => exact refl _
  | cons key keys ih => exact (restore catalog key).trans (ih _)

end SameRoster

/-! ## The queue of a reshuffle -/

/-- A card that is not queued goes to the end. -/
theorem queue_enqueue (h : key ∉ catalog.queue) :
    (catalog.enqueue key).queue = catalog.queue ++ [key] := by
  rw [enqueue, if_neg (by simpa using h)]

/-- An active card that comes back goes to the end of the queue; an inactive one does not come back. -/
theorem queue_restore (h : catalog.active key = true → key ∉ catalog.queue) :
    (Game.restore catalog key).queue = catalog.queue ++ [key].filter catalog.active := by
  rw [Game.restore]
  by_cases hactive : catalog.active key = true
  · have hnew : key ∉ (catalog.setDiscarded key false).queue := h hactive
    rw [if_pos hactive, queue_enqueue hnew, List.filter_cons_of_pos hactive]
    rfl
  · rw [if_neg hactive, List.filter_cons_of_neg hactive, List.filter_nil, List.append_nil]

/-- Bringing back different cards, of which no active one is queued, puts the active ones behind the
queue in their order. -/
theorem queue_foldl_restore (hkeys : keys.Nodup)
    (h : ∀ key ∈ keys, catalog.active key = true → key ∉ catalog.queue) :
    (keys.foldl Game.restore catalog).queue = catalog.queue ++ keys.filter catalog.active := by
  induction keys generalizing catalog with
  | nil => rw [List.foldl_nil, List.filter_nil, List.append_nil]
  | cons key keys ih =>
    obtain ⟨hkey, hkeys⟩ := List.nodup_cons.mp hkeys
    have hqueue := queue_restore (h key List.mem_cons_self)
    have hactive : (Game.restore catalog key).active = catalog.active :=
      funext (SameRoster.restore catalog key).active
    -- The cards are different, so the first one does not stand in the way of those behind it.
    have hrest : ∀ other ∈ keys, (Game.restore catalog key).active other = true →
        other ∉ (Game.restore catalog key).queue := by
      intro other hother hact
      rw [hactive] at hact
      rw [hqueue, List.mem_append, not_or]
      refine ⟨h other (List.mem_cons_of_mem _ hother) hact, fun hsame => ?_⟩
      obtain rfl := List.mem_singleton.mp (List.mem_filter.mp hsame).1
      exact hkey hother
    rw [List.foldl_cons, ih hkeys hrest, hqueue, hactive, List.append_assoc, ← List.filter_append,
      List.singleton_append]

/-- The first step of a reshuffle touches the queue alone. -/
theorem sameRoster_sentinelFirst (sentinel : String) (catalog : Catalog) :
    SameRoster catalog (Game.sentinelFirst sentinel catalog) := by
  have hcleared : SameRoster catalog catalog.clearQueue := .of_cards rfl (.refl _)
  rw [Game.sentinelFirst]
  split
  · exact hcleared.trans (.enqueue ..)
  · exact hcleared

theorem cards_sentinelFirst (sentinel : String) (catalog : Catalog) :
    (Game.sentinelFirst sentinel catalog).cards = catalog.cards := by
  rw [Game.sentinelFirst]
  split
  · exact cards_enqueue ..
  · rfl

/-- The first step of a reshuffle leaves an inactive sentinel in the queue, or nothing. -/
theorem queue_sentinelFirst (sentinel : String) (catalog : Catalog) :
    (Game.sentinelFirst sentinel catalog).queue = (catalog.findInactive? sentinel).toList := by
  rw [Game.sentinelFirst]
  cases catalog.findInactive? sentinel with
  | none => rfl
  | some key => exact queue_enqueue List.not_mem_nil

/-- What is found among the inactive cards is in the game, has the name and is inactive. -/
theorem inactive_of_findInactive? (h : catalog.findInactive? sentinel = some key) :
    key ∈ catalog.pool ∧ catalog.named sentinel key = true ∧ catalog.active key = false := by
  have hsought := List.find?_some h
  simp only [Bool.and_eq_true, Bool.not_eq_true'] at hsought
  exact ⟨List.mem_of_find?_eq_some h, hsought⟩

/-- A whole reshuffle leaves the roster as it was. -/
theorem sameRoster_rebuilt (catalog : Catalog) (sentinel : String) (generator : Generator) :
    SameRoster catalog (catalog.rebuilt sentinel generator) := by
  have hshuffled : SameRoster (Game.sentinelFirst sentinel catalog)
      ((Game.sentinelFirst sentinel catalog).shufflePool generator).1 :=
    .of_cards rfl (shuffle_perm _ _)
  exact ((sameRoster_sentinelFirst sentinel catalog).trans hshuffled).trans (.foldl_restore _ _)

theorem pool_restore (catalog : Catalog) (key : Nat) :
    (Game.restore catalog key).pool = catalog.pool := by
  rw [Game.restore]
  split
  · exact pool_enqueue ..
  · rfl

/-- Bringing cards back does not touch the pool. -/
theorem pool_foldl_restore (keys : List Nat) (catalog : Catalog) :
    (keys.foldl Game.restore catalog).pool = catalog.pool := by
  induction keys generalizing catalog with
  | nil => rfl
  | cons key keys ih => exact (ih _).trans (pool_restore ..)

/-- The queue after a reshuffle: the sentinel, and the active cards in the new order of the pool. -/
theorem queue_rebuilt (hpool : catalog.pool.Nodup) (sentinel : String) (generator : Generator) :
    (catalog.rebuilt sentinel generator).queue =
      (catalog.findInactive? sentinel).toList ++ (catalog.rebuilt sentinel generator).actives := by
  let first := Game.sentinelFirst sentinel catalog
  let shuffled := (first.shufflePool generator).1
  have hfirst : SameRoster catalog first := sameRoster_sentinelFirst sentinel catalog
  have hperm : shuffled.pool.Perm catalog.pool := (shuffle_perm _ _).trans hfirst.pool
  have hactive : shuffled.active = catalog.active := funext hfirst.active
  -- the sentinel is inactive, so no active card is queued before the others
  have hnew : ∀ key ∈ shuffled.pool, shuffled.active key = true → key ∉ shuffled.queue := by
    intro key _ hkey hqueued
    rw [hactive] at hkey
    have hsentinel : key ∈ (catalog.findInactive? sentinel).toList :=
      queue_sentinelFirst sentinel catalog ▸ hqueued
    obtain ⟨-, -, hinactive⟩ := inactive_of_findInactive? (Option.mem_toList.mp hsentinel)
    rw [hkey] at hinactive
    cases hinactive
  -- the cards come back in the order of the shuffled pool
  have hactives : (catalog.rebuilt sentinel generator).actives =
      shuffled.pool.filter shuffled.active := by
    have hrestored : (catalog.rebuilt sentinel generator).active = shuffled.active :=
      funext (SameRoster.foldl_restore shuffled.pool shuffled).active
    rw [actives, hrestored]
    exact congrArg _ (pool_foldl_restore ..)
  rw [hactives, ← queue_sentinelFirst]
  exact queue_foldl_restore (hperm.nodup_iff.mpr hpool) hnew

/-- A reshuffle queues one pass through the deck. -/
theorem isPass_rebuilt (hpool : catalog.pool.Nodup) (sentinel : String) (generator : Generator) :
    (catalog.rebuilt sentinel generator).IsPass sentinel
      (catalog.rebuilt sentinel generator).queue := by
  have hroster := sameRoster_rebuilt catalog sentinel generator
  refine hroster.symm.isPass ?_
  rw [queue_rebuilt hpool]
  -- with an inactive sentinel it stands before the pass; without one all its copies are active and in
  -- it
  cases hsentinel : catalog.findInactive? sentinel with
  | some key =>
    obtain ⟨hmem, hnamed, hinactive⟩ := inactive_of_findInactive? hsentinel
    exact .sentinel hmem hnamed hinactive hroster.actives
  | none =>
    have hnone := List.find?_eq_none.mp hsentinel
    exact .plain (fun key hkey hnamed => by simpa [hnamed] using hnone key hkey) hroster.actives

/-! ## The cards after a reshuffle -/

/-- One card is not discarded any more; a key beyond the cards has a card that never was. -/
theorem card_setDiscarded_false (catalog : Catalog) (key other : Nat) :
    (catalog.setDiscarded key false).card other =
      if other = key then (catalog.card other).restored else catalog.card other := by
  rw [setDiscarded, card_modify]
  by_cases hkey : other = key
  · by_cases hsize : key < catalog.cards.size
    · rw [if_pos ⟨hkey, hsize⟩, if_pos hkey]
      rfl
    · -- a key beyond the cards has a card that is not discarded
      have hbeyond : catalog.card other = { name := "", copy := 0 } := by
        rw [card, Array.getD, dif_neg (hkey ▸ hsize)]
      rw [if_neg fun h => hsize h.2, if_pos hkey, hbeyond]
      rfl
  · rw [if_neg fun h => hkey h.1, if_neg hkey]

/-- Of the cards only the active ones come back. -/
theorem card_restore (catalog : Catalog) (key other : Nat) :
    (Game.restore catalog key).card other =
      if other = key ∧ catalog.active other = true then (catalog.card other).restored
      else catalog.card other := by
  rw [Game.restore]
  by_cases hactive : catalog.active key = true
  · have hcards : ((catalog.setDiscarded key false).enqueue key).cards =
        (catalog.setDiscarded key false).cards := cards_enqueue ..
    rw [if_pos hactive, card, hcards, ← card, card_setDiscarded_false]
    refine if_congr ⟨?_, And.left⟩ rfl rfl
    rintro rfl
    exact ⟨rfl, hactive⟩
  · rw [if_neg hactive, if_neg]
    rintro ⟨rfl, h⟩
    exact hactive h

/-- All active cards of a list come back. -/
theorem card_foldl_restore (keys : List Nat) (catalog : Catalog) (other : Nat) :
    (keys.foldl Game.restore catalog).card other =
      if other ∈ keys ∧ catalog.active other = true then (catalog.card other).restored
      else catalog.card other := by
  induction keys generalizing catalog with
  | nil => rw [List.foldl_nil, if_neg fun h => List.not_mem_nil h.1]
  | cons key keys ih =>
    rw [List.foldl_cons, ih, (SameRoster.restore catalog key).active, card_restore]
    by_cases hkey : other = key
    · simp only [hkey, true_and, List.mem_cons, true_or]
      -- a card that comes back once more stays as it is
      by_cases hlater : key ∈ keys <;> by_cases hactive : catalog.active key = true <;>
        simp [hlater, hactive, Card.restored]
    · simp [hkey]

/-- What a reshuffle does to the catalog. -/
structure Rebuilds (sentinel : String) (before after : Catalog) : Prop where
  /-- The pool is put in a new order. -/
  pool : after.pool.Perm before.pool
  /-- The queue is the first inactive card of the sentinel, as the pool was before, and the active
  cards, as the pool is afterwards. -/
  queue : after.queue = (before.findInactive? sentinel).toList ++ after.actives
  nodup : after.queue.Nodup
  within : after.queue ⊆ after.pool
  /-- The active cards of the pool are not discarded any more, and everything else about the cards is
  as it was. -/
  card : ∀ key, after.card key =
    if key ∈ before.pool ∧ before.active key = true then (before.card key).restored
    else before.card key

/-- What a reshuffle computes is what `Rebuilds` says. -/
theorem rebuilds_rebuilt (hpool : catalog.pool.Nodup) (sentinel : String) (generator : Generator) :
    Rebuilds sentinel catalog (catalog.rebuilt sentinel generator) := by
  have hroster := sameRoster_rebuilt catalog sentinel generator
  have hqueue := queue_rebuilt hpool sentinel generator
  have hactives : (catalog.rebuilt sentinel generator).actives.Nodup :=
    nodup_actives (hroster.pool.nodup_iff.mpr hpool)
  refine ⟨hroster.pool, hqueue, ?_, fun key hkey => ?_, fun key => ?_⟩
  -- the sentinel is inactive and the cards behind it are active, so none is queued twice
  · have hsentinel : (catalog.findInactive? sentinel).toList.Nodup := by
      cases catalog.findInactive? sentinel <;> simp
    rw [hqueue]
    refine List.nodup_append.mpr ⟨hsentinel, hactives, ?_⟩
    rintro key hfirst _ hlater rfl
    obtain ⟨-, -, hinactive⟩ := inactive_of_findInactive? (Option.mem_toList.mp hfirst)
    rw [← hroster.active, (List.mem_filter.mp hlater).2] at hinactive
    cases hinactive
  · rw [hqueue, List.mem_append] at hkey
    rcases hkey with hfirst | hlater
    · obtain ⟨hmem, -⟩ := inactive_of_findInactive? (Option.mem_toList.mp hfirst)
      exact hroster.pool.mem_iff.mpr hmem
    · exact (List.mem_filter.mp hlater).1
  -- The shuffled game has the cards of the first one, so that bringing them back can be said of these.
  · let shuffled := ((Game.sentinelFirst sentinel catalog).shufflePool generator).1
    have hfirst := sameRoster_sentinelFirst sentinel catalog
    have hcards : shuffled.cards = catalog.cards := cards_sentinelFirst sentinel catalog
    have hcard : shuffled.card = catalog.card := funext fun other => by rw [card, hcards, card]
    have hmem : key ∈ shuffled.pool ↔ key ∈ catalog.pool :=
      ((shuffle_perm _ _).trans hfirst.pool).mem_iff
    have hfold := card_foldl_restore shuffled.pool shuffled key
    have hactive : shuffled.active key = catalog.active key := hfirst.active key
    rw [hcard, hactive] at hfold
    exact hfold.trans (if_congr (and_congr_left' hmem) rfl rfl)

/-- A new game has the active cards queued. -/
theorem perm_queue_ofTemplates (templates : List Template) (generator : Generator) :
    (ofTemplates templates generator).1.queue.Perm (ofTemplates templates generator).1.actives := by
  let cards := templates.flatMap Template.cards
  let dealt := (ofTemplates templates generator).1
  have hqueue : dealt.queue.Perm
      ((List.range cards.length).filter fun key => (cards[key]?).any (·.active)) := shuffle_perm _ _
  have hpool : dealt.pool.Perm (List.range cards.length) := shuffle_perm _ _
  -- The queue is dealt from the list of cards and the pool from their numbers; both ask the same flag.
  have hactive : ∀ key ∈ List.range cards.length,
      (cards[key]?).any (·.active) = dealt.active key := by
    intro key hkey
    have hcards : dealt.cards = cards.toArray := rfl
    have hlt : key < cards.length := List.mem_range.mp hkey
    simp [active, card, hcards, hlt]
  rw [List.filter_congr hactive] at hqueue
  exact hqueue.trans (hpool.filter _).symm

end Catalog

namespace Game

/-- A reshuffle always comes to an end: it counts itself and rebuilds the catalog, with chance for the
order of the pool, and it reports an empty queue, once.  Its result is whether anything is queued. -/
theorem reshuffle_rebuilds {game : Game} (hpool : game.catalog.pool.Nodup) :
    ∃ catalog generator, game.catalog.Rebuilds game.settings.sentinelName catalog ∧
      reshuffle.run.run game = (.ok (!catalog.queue.isEmpty), { game with
        catalog
        generator
        scheduler := { game.scheduler with
          phase := .reshuffling, reshuffles := game.scheduler.reshuffles + 1 }
        diagnostics :=
          if catalog.queue.isEmpty then game.diagnostics.report emptyDeckReport
          else game.diagnostics }) := by
  have hrebuilds := Catalog.rebuilds_rebuilt hpool game.settings.sentinelName game.generator
  refine ⟨game.reshuffled.catalog, game.reshuffled.generator, hrebuilds, ?_⟩
  rw [run_reshuffle_eq]
  cases game.reshuffled.catalog.queue.isEmpty <;> rfl

/-- A game with two sentinels, in which cards that are active and cards that are not have been
discarded. -/
def redeal : Game :=
  { Game.empty {} ⟨none, [], 0, 0⟩ (.ofScript []) with
    catalog := {
      cards := #[{ name := "a", copy := 1, discarded := true },
        { name := "b", copy := 1, active := false, discarded := true },
        { name := "c", copy := 1 },
        { name := "last_card", copy := 1, active := false, discarded := true },
        { name := "last_card", copy := 2, active := false }]
      pool := [1, 3, 0, 4, 2]
      queue := [1] } }

/-- The first inactive sentinel of the pool comes first, although there is a second one, and the
reshuffle counts itself. -/
theorem redeal_rebuilds :
    redeal.catalog.pool.Nodup ∧
      ∃ catalog generator, redeal.catalog.Rebuilds "last_card" catalog ∧
        catalog.queue = 3 :: catalog.actives ∧
        reshuffle.run.run redeal = (.ok true, { redeal with
          catalog
          generator
          scheduler := { phase := .reshuffling, reshuffles := 1 } }) := by
  have hpool : redeal.catalog.pool.Nodup := by decide
  obtain ⟨catalog, generator, hrebuilds, hrun⟩ := reshuffle_rebuilds hpool
  have hqueue : catalog.queue = 3 :: catalog.actives := hrebuilds.queue
  rw [hqueue] at hrun
  exact ⟨hpool, catalog, generator, hrebuilds, hqueue, hrun⟩

end Game

end EventDeck
