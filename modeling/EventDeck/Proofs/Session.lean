import EventDeck.Proofs.Build
import EventDeck.Proofs.Moments

/-!
# The queue is within the pool

At all moments of a session the queue is within the pool, exactly when every card that is destroyed
is queued once when it is; a destroyed card is then gone for good (`queue_subset_pool_iff`).

The condition can fail, because chaining the card that is being resolved queues it a second time, and
a card is taken out of the queue only once when it is destroyed (`chaining_not_within`).
-/

namespace EventDeck.Session

open Game

variable {game : Game}

/-! ## Whole sessions -/

/-- The game is left with its queue within its pool by every moment. -/
def StaysWithin (moments : List Moment) : Prop :=
  ∀ moment ∈ moments, moment.after.catalog.queue ⊆ moment.after.catalog.pool

/-- Every card that is destroyed is queued once when it is. -/
def DestroysOnce (moments : List Moment) : Prop :=
  ∀ moment ∈ moments, ∀ key, moment.destroyed? = some key →
    moment.before.catalog.queue.count key = 1

theorem nodup_runSpecial {special : String} (hnodup : game.catalog.pool.Nodup) :
    ((runSpecial special).run.run game).2.catalog.pool.Nodup := by
  cases hdestroyed : destroyed? special game with
  | none => exact (keeps_runSpecial hdestroyed).cards.nodup hnodup
  | some key =>
    rw [(run_runSpecial_destroyed hdestroyed).1]
    exact hnodup.erase key

/-- A special effect leaves the queue within the pool exactly when it destroys nothing, or a card
that is queued once. -/
theorem queue_runSpecial_iff (special : String) (hnodup : game.catalog.pool.Nodup)
    (hqueue : game.catalog.queue ⊆ game.catalog.pool) :
    ((runSpecial special).run.run game).2.catalog.queue ⊆
        ((runSpecial special).run.run game).2.catalog.pool ↔
      ∀ key, destroyed? special game = some key → game.catalog.queue.count key = 1 := by
  cases hdestroyed : destroyed? special game with
  | none =>
    have hkept := (keeps_runSpecial hdestroyed).cards.queue_subset_pool hqueue
    exact iff_of_true hkept fun key h => nomatch h
  | some key =>
    obtain ⟨hrun, hhead⟩ := run_runSpecial_destroyed hdestroyed
    rw [hrun]
    refine (Catalog.queue_subset_pool_destroy_iff hnodup hqueue hhead).trans ?_
    constructor
    · rintro hcount other h
      cases h
      exact hcount
    · exact fun h => h key rfl

theorem confined_runSpecial (special : String) (game : Game) :
    Confined game ((runSpecial special).run.run game).2 := by
  cases hdestroyed : destroyed? special game with
  | none => exact (keeps_runSpecial hdestroyed).toConfined
  | some key =>
    rw [(run_runSpecial_destroyed hdestroyed).1]
    exact ⟨fun _ h => List.mem_of_mem_erase h, fun _ h => .inl (List.mem_of_mem_erase h), [], rfl,
      fun _ h => nomatch h⟩

variable {first last : Game} {sequence : List Moment}

/-- The first moment of a sequence and the rest, each under what the first one left. -/
theorem staysWithin_cons_iff {moment : Moment}
    (hmoment : moment.after.catalog.queue ⊆ moment.after.catalog.pool ↔
      ∀ key, moment.destroyed? = some key → moment.before.catalog.queue.count key = 1)
    (hrest : moment.after.catalog.queue ⊆ moment.after.catalog.pool →
      (StaysWithin sequence ↔ DestroysOnce sequence)) :
    StaysWithin (moment :: sequence) ↔ DestroysOnce (moment :: sequence) := by
  unfold StaysWithin DestroysOnce at *
  rw [List.forall_mem_cons, List.forall_mem_cons, ← hmoment]
  exact and_congr_right hrest

/-- Only a card that is queued more than once when it is destroyed takes the queue out of the
pool. -/
theorem Path.staysWithin_iff (h : Path first sequence last) (hnodup : first.catalog.pool.Nodup)
    (hqueue : first.catalog.queue ⊆ first.catalog.pool) :
    StaysWithin sequence ↔ DestroysOnce sequence := by
  -- every moment is judged under the assumption that the queue was within the pool before it
  induction h with
  | done => exact iff_of_true (fun _ h => nomatch h) fun _ h => nomatch h
  | other kept _ ih =>
    have hkept := kept.cards.queue_subset_pool hqueue
    exact staysWithin_cons_iff (iff_of_true hkept fun key h => nomatch h)
      fun hafter => ih (kept.cards.nodup hnodup) hafter
  | special text _ ih =>
    exact staysWithin_cons_iff (queue_runSpecial_iff text hnodup hqueue)
      fun hafter => ih (nodup_runSpecial hnodup) hafter

theorem Path.queue_last (h : Path first sequence last) (hwithin : StaysWithin sequence)
    (hqueue : first.catalog.queue ⊆ first.catalog.pool) :
    last.catalog.queue ⊆ last.catalog.pool := by
  induction h with
  | done => exact hqueue
  | other _ _ ih =>
    obtain ⟨hafter, hrest⟩ := List.forall_mem_cons.mp hwithin
    exact ih hrest hafter
  | special _ _ ih =>
    obtain ⟨hafter, hrest⟩ := List.forall_mem_cons.mp hwithin
    exact ih hrest hafter

theorem Path.nodup_last (h : Path first sequence last) (hnodup : first.catalog.pool.Nodup) :
    last.catalog.pool.Nodup := by
  induction h with
  | done => exact hnodup
  | other kept _ ih => exact ih (kept.cards.nodup hnodup)
  | special _ _ ih => exact ih (nodup_runSpecial hnodup)

/-- What is in the game at a moment comes from what was in it at the beginning. -/
theorem Path.confined (h : Path first sequence last) :
    ∀ moment ∈ sequence, Confined first moment.after := by
  induction h with
  | done => exact fun _ h => nomatch h
  | other kept _ ih =>
    exact List.forall_mem_cons.mpr ⟨kept.toConfined, fun m hm => kept.toConfined.trans (ih m hm)⟩
  | @special before _ _ text _ ih =>
    have hspecial := confined_runSpecial text before
    exact List.forall_mem_cons.mpr ⟨hspecial, fun m hm => hspecial.trans (ih m hm)⟩

/-- A card that is queued once when it is destroyed is neither queued nor in the pool from then on,
and is not presented. -/
theorem Path.gone_of_destroyed {earlier later : List Moment} {moment : Moment} {key : Nat}
    (h : Path first (earlier ++ moment :: later) last) (hnodup : first.catalog.pool.Nodup)
    (hdestroyed : moment.destroyed? = some key)
    (hcount : moment.before.catalog.queue.count key = 1) :
    ∀ m ∈ moment :: later, key ∉ m.after.catalog.pool ∧ key ∉ m.after.catalog.queue ∧
      m.after.scheduler.presented.count key = moment.before.scheduler.presented.count key := by
  -- the rest of the path starts without the card, and nothing brings it back
  obtain ⟨hearlier, hpath⟩ := h.split
  have hbefore : moment.before.catalog.pool.Nodup := hearlier.nodup_last hnodup
  obtain ⟨before, special, after⟩ := moment
  dsimp only at hpath hbefore hcount ⊢
  cases hpath with
  | other kept rest => cases hdestroyed
  | special text rest =>
    obtain ⟨hrun, -⟩ := run_runSpecial_destroyed hdestroyed
    rw [hrun] at rest ⊢
    have hpool : key ∉ (before.catalog.destroy key).pool := Catalog.not_mem_pool_destroy hbefore
    have hqueue : key ∉ (before.catalog.destroy key).queue := Catalog.not_mem_queue_destroy hcount
    exact List.forall_mem_cons.mpr
      ⟨⟨hpool, hqueue, rfl⟩, fun m hm => (rest.confined m hm).gone hpool hqueue⟩

/-! ## Sessions of a deck -/

/-- The game of a deck has every card in the pool once, and its queue within the pool. -/
theorem pool_buildGame {deck : Deck} {settings : Settings} {generator : Generator} {game : Game}
    (built : buildGame deck settings generator = .ok game) :
    game.catalog.pool.Nodup ∧ game.catalog.queue ⊆ game.catalog.pool := by
  rw [(builds_of_buildGame built).catalog]
  exact ⟨Catalog.nodup_pool_ofTemplates _ _, Catalog.queue_subset_pool_ofTemplates _ _⟩

theorem moments_append (tell : Tell) (first rest : List Operation) (game : Game) :
    moments tell (first ++ rest) game =
      moments tell first game ++ moments tell rest (after tell first game) := by
  induction first generalizing game with
  | nil => rfl
  | cons operation first ih =>
    rw [List.cons_append, moments, moments, ih, List.append_assoc]
    rfl

/-- Over every session of a deck that can be played, the queue stays within the pool exactly when
every card that is destroyed is queued once when it is.  Then the queue is within the pool after
every operation, and a card that was destroyed is in neither of them and is never presented
again. -/
theorem queue_subset_pool_iff {deck : Deck} {settings : Settings} {generator : Generator}
    {game : Game} {tell : Tell} (built : buildGame deck settings generator = .ok game)
    (htell : ∀ observer change game, Keeps (tell observer change) game)
    (operations : List Operation) :
    (StaysWithin (moments tell operations game) ↔
        DestroysOnce (moments tell operations game)) ∧
      (DestroysOnce (moments tell operations game) →
        (∀ first, first <+: operations →
          (after tell first game).catalog.queue ⊆ (after tell first game).catalog.pool) ∧
        ∀ earlier moment later key,
          moments tell operations game = earlier ++ moment :: later →
          moment.destroyed? = some key →
          ∀ m ∈ moment :: later, key ∉ m.after.catalog.pool ∧ key ∉ m.after.catalog.queue ∧
            m.after.scheduler.presented.count key =
              moment.before.scheduler.presented.count key) := by
  obtain ⟨hnodup, hqueue⟩ := pool_buildGame built
  have hpath := path_moments htell operations game
  have hiff := hpath.staysWithin_iff hnodup hqueue
  -- every beginning of the operations is a path of its own, and what is destroyed is gone on the path
  -- behind it
  refine ⟨hiff, fun honce => ⟨?_, ?_⟩⟩
  · rintro first ⟨rest, rfl⟩
    have hwithin := hiff.mpr honce
    rw [moments_append] at hwithin
    exact (path_moments htell first game).queue_last
      (fun m hm => hwithin m (List.mem_append_left _ hm)) hqueue
  · intro earlier moment later key hsplit hdestroyed
    have hmem : moment ∈ moments tell operations game := by
      rw [hsplit]
      exact List.mem_append_right _ List.mem_cons_self
    rw [hsplit] at hpath
    exact hpath.gone_of_destroyed hnodup hdestroyed (honce moment hmem key hdestroyed)

theorem keeps_silent (observer : String) (change : Change) (game : Game) :
    Keeps (silent observer change) game :=
  keeps_iff_runs.mpr (runs_pure _ game)

/-- A deck of one event that takes itself out of the game. -/
def parting : Deck where
  events := [{ name := "e", actions := [{ description := "leave", specials := ["destroy"] }] }]

theorem parting_stays_within :
    ∃ game, buildGame parting {} (.ofScript []) = .ok game ∧
      DestroysOnce (moments silent [.start, .reveal, .select (.action 0)] game) ∧
      StaysWithin (moments silent [.start, .reveal, .select (.action 0)] game) := by
  have hchecked : ((buildGame parting {} (.ofScript [])).toOption.map fun game =>
      (moments silent [.start, .reveal, .select (.action 0)] game).map fun m =>
        m.destroyed?.map m.before.catalog.queue.count) =
      some [none, none, none, none, none, some 1, none] := by
    decide +kernel
  rcases hbuilt : buildGame parting {} (.ofScript []) with error | game
  · rw [hbuilt] at hchecked
    cases hchecked
  · rw [hbuilt] at hchecked
    have honce : DestroysOnce (moments silent [.start, .reveal, .select (.action 0)] game) := by
      intro moment hmoment key hdestroyed
      have hcounts : (moments silent [.start, .reveal, .select (.action 0)] game).map (fun m =>
          m.destroyed?.map m.before.catalog.queue.count) =
          [none, none, none, none, none, some 1, none] := Option.some.inj hchecked
      have hcount : some (moment.before.catalog.queue.count key) ∈
          [none, none, none, none, none, some 1, none] := by
        rw [← hcounts]
        exact List.mem_map.mpr ⟨moment, hmoment, by rw [hdestroyed]; rfl⟩
      simpa using hcount
    exact ⟨game, rfl, honce, (queue_subset_pool_iff hbuilt keeps_silent _).1.mpr honce⟩

/-- A deck of one event, with a control that chains its card and then destroys it. -/
def chaining : Deck where
  events := [{ name := "e" }]
  controls := [{ name := "c", specials := ["chain(e)", "destroy"] }]

/-- The card of the event is chained while it is the first of the queue, so it is queued twice; when
it is destroyed, its second place is left behind. -/
theorem chaining_not_within :
    ∃ game, buildGame chaining {} (.ofScript []) = .ok game ∧
      ¬(after silent [.start, .press "c"] game).catalog.queue ⊆
        (after silent [.start, .press "c"] game).catalog.pool := by
  have hplayed : ((buildGame chaining {} (.ofScript [])).toOption.map fun game =>
      let last := after silent [.start, .press "c"] game
      (last.catalog.queue, last.catalog.pool)) = some ([0], []) := by
    decide +kernel
  rcases hbuilt : buildGame chaining {} (.ofScript []) with error | game
  · rw [hbuilt] at hplayed
    cases hplayed
  · rw [hbuilt] at hplayed
    obtain ⟨hqueue, hpool⟩ := Prod.mk.inj (Option.some.inj hplayed)
    refine ⟨game, rfl, fun hsubset => ?_⟩
    rw [hqueue, hpool] at hsubset
    exact nomatch hsubset List.mem_cons_self

end EventDeck.Session
