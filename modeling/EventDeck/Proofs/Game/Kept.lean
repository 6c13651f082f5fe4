import EventDeck.Proofs.Game.Runs
import EventDeck.Session

/-!
# Requests that destroy nothing

Every request except `destroy` leaves the pool as it is up to its order, takes what it queues from
the pool, and presents cards of the queue or of the pool.  `Kept` says this of two states of a game,
`Keeps` of a request and the state it is run on: it holds at the end also when the request ends in a
fault.  It is a conduct that allows for evaluation (`allows_keeping`).
-/

namespace EventDeck.Game

/-! ## States -/

/-- Where the cards of a later state come from. -/
structure Confined (before after : Game) : Prop where
  pool : after.catalog.pool ⊆ before.catalog.pool
  queue : ∀ key ∈ after.catalog.queue, key ∈ before.catalog.queue ∨ key ∈ before.catalog.pool
  /-- What was presented since was queued or in the pool. -/
  presented : ∃ since, after.scheduler.presented = since ++ before.scheduler.presented ∧
    ∀ key ∈ since, key ∈ before.catalog.queue ∨ key ∈ before.catalog.pool

/-- A later state with the same cards in the game. -/
structure Kept (before after : Game) : Prop extends Confined before after where
  cards : before.catalog.Keeps after.catalog

variable {α : Type} {game before between after : Game} {key : Nat}

/-- What comes from the state between has come from the first one. -/
theorem Confined.trans (first : Confined before between) (second : Confined between after) :
    Confined before after := by
  have hsource : ∀ key, key ∈ between.catalog.queue ∨ key ∈ between.catalog.pool →
      key ∈ before.catalog.queue ∨ key ∈ before.catalog.pool := by
    rintro key (hqueue | hpool)
    · exact first.queue key hqueue
    · exact .inr (first.pool hpool)
  obtain ⟨late, hlate, hlateKeys⟩ := second.presented
  obtain ⟨early, hearly, hearlyKeys⟩ := first.presented
  refine ⟨fun _ h => first.pool (second.pool h), fun key h => hsource key (second.queue key h),
    late ++ early, by rw [hlate, hearly, List.append_assoc], fun key h => ?_⟩
  rcases List.mem_append.mp h with h | h
  · exact hsource key (hlateKeys key h)
  · exact hearlyKeys key h

/-- A card that is neither queued nor in the pool does not come back and is not presented. -/
theorem Confined.gone (h : Confined before after) (hpool : key ∉ before.catalog.pool)
    (hqueue : key ∉ before.catalog.queue) :
    key ∉ after.catalog.pool ∧ key ∉ after.catalog.queue ∧
      after.scheduler.presented.count key = before.scheduler.presented.count key := by
  have hsource : ¬(key ∈ before.catalog.queue ∨ key ∈ before.catalog.pool) := by
    rintro (h | h)
    · exact hqueue h
    · exact hpool h
  obtain ⟨since, hsince, hkeys⟩ := h.presented
  have hnew : key ∉ since := fun hmem => hsource (hkeys key hmem)
  refine ⟨fun hmem => hpool (h.pool hmem), fun hmem => hsource (h.queue key hmem), ?_⟩
  rw [hsince, List.count_append, List.count_eq_zero.mpr hnew, Nat.zero_add]

/-- A change of the catalog, with nothing presented. -/
theorem Kept.of_cards (h : before.catalog.Keeps after.catalog)
    (hpresented : after.scheduler.presented = before.scheduler.presented) : Kept before after where
  pool := h.perm.subset
  queue := h.queue
  presented := ⟨[], hpresented, fun _ h => nomatch h⟩
  cards := h

/-- Nothing happened to the cards. -/
theorem Kept.of_eq (hcatalog : after.catalog = before.catalog)
    (hpresented : after.scheduler.presented = before.scheduler.presented) : Kept before after := by
  refine .of_cards ?_ hpresented
  rw [hcatalog]
  exact .refl _

theorem Kept.refl (game : Game) : Kept game game :=
  .of_eq rfl rfl

theorem Kept.trans (first : Kept before between) (second : Kept between after) :
    Kept before after :=
  ⟨first.toConfined.trans second.toConfined, first.cards.trans second.cards⟩

/-! ## Requests -/

/-- Whether a request, run on a state, destroys nothing. -/
def Keeps (request : Play α) (game : Game) : Prop :=
  Kept game (request.run.run game).2

/-- The conduct of requests that destroy nothing. -/
def Keeping : Conduct :=
  fun before _ after => Kept before after

theorem keeps_iff_runs {request : Play α} : Keeps request game ↔ Runs Keeping request game :=
  Iff.rfl

/-- A request that leaves catalog and scheduler alone destroys nothing. -/
instance allows_keeping : Keeping.Allows where
  quiet h := .of_eq h.catalog (congrArg Scheduler.presented h.scheduler)
  next first second := first.trans second
  fault _ := .refl _

/-! ## Changes of one part -/

/-- A change of one part, with nothing presented. -/
theorem keeps_changeCatalog {f : Catalog → Catalog} (h : game.catalog.Keeps (f game.catalog)) :
    Runs Keeping (changeCatalog f) game :=
  .of_cards h rfl

theorem keeps_changeScheduler {f : Scheduler → Scheduler}
    (h : (f game.scheduler).presented = game.scheduler.presented) :
    Runs Keeping (changeScheduler f) game :=
  .of_eq rfl h

/-- A broadcast destroys nothing when the observers do not. -/
theorem keeps_broadcast {tell : Tell}
    (htell : ∀ observer change game, Runs Keeping (tell observer change) game) (game : Game) :
    Runs Keeping (broadcast tell) game :=
  runs_broadcast htell .refl game

end EventDeck.Game
