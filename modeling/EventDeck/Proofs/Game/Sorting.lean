import EventDeck.Proofs.Game.Conditions

/-!
# The queue after the check of all conditions

The check goes through the pool and moves one card after the other: a card whose condition holds goes
to the end of the queue unless it is queued, and a card whose condition does not hold is taken out.
What comes of it can be said at once (`sortedQueue`): the old queue without the cards that are taken
out, and behind it those that join it, in the order of the pool.  A second check changes nothing.

The main statement is `checkConditions_sorts`.
-/

namespace EventDeck

open Game EventDeck.Expr Text

/-- A queue when some cards have been checked.  A verdict says of a card whether it has to be queued,
or nothing. -/
def sortedQueue (verdict? : Nat → Option Bool) (keys queue : List Nat) : List Nat :=
  (queue.filter fun key => ¬(key ∈ keys ∧ verdict? key = some false)) ++
    keys.filter fun key => verdict? key = some true ∧ key ∉ queue

section Sorted

variable {verdict? other? : Nat → Option Bool} {key : Nat} {keys queue : List Nat}

theorem mem_sortedQueue_iff : key ∈ sortedQueue verdict? keys queue ↔
    key ∈ queue ∧ ¬(key ∈ keys ∧ verdict? key = some false) ∨
      key ∈ keys ∧ verdict? key = some true ∧ key ∉ queue := by
  rw [sortedQueue, List.mem_append, List.mem_filter, List.mem_filter, decide_eq_true_iff,
    decide_eq_true_iff]

/-- Only the verdicts on the cards that are checked matter. -/
theorem sortedQueue_congr (h : ∀ key ∈ keys, verdict? key = other? key) :
    sortedQueue verdict? keys queue = sortedQueue other? keys queue := by
  rw [sortedQueue, sortedQueue]
  congr 1
  · refine List.filter_congr fun key _ => decide_eq_decide.mpr (not_congr ?_)
    exact and_congr_right fun hkey => by rw [h key hkey]
  · exact List.filter_congr fun key hkey => by rw [h key hkey]

theorem nodup_sortedQueue (hkeys : keys.Nodup) (hqueue : queue.Nodup) :
    (sortedQueue verdict? keys queue).Nodup := by
  refine List.nodup_append'.mpr ⟨hqueue.filter _, hkeys.filter _, fun key hstays hjoins => ?_⟩
  have hjoins := of_decide_eq_true (List.mem_filter.mp hjoins).2
  exact hjoins.2 (List.mem_filter.mp hstays).1

/-- A queue that is sorted stays as it is when the cards are checked again. -/
theorem sortedQueue_sortedQueue :
    sortedQueue verdict? keys (sortedQueue verdict? keys queue) =
      sortedQueue verdict? keys queue := by
  have hstays : ∀ key ∈ sortedQueue verdict? keys queue,
      ¬(key ∈ keys ∧ verdict? key = some false) := by
    intro key hkey
    rcases mem_sortedQueue_iff.mp hkey with ⟨-, hstays⟩ | ⟨-, htrue, -⟩
    · exact hstays
    · rw [htrue]
      exact fun h => absurd h.2 (by decide)
  have hjoins : ∀ key ∈ keys,
      ¬(verdict? key = some true ∧ key ∉ sortedQueue verdict? keys queue) := by
    rintro key hkey ⟨htrue, hnot⟩
    refine hnot (mem_sortedQueue_iff.mpr ?_)
    by_cases hqueued : key ∈ queue
    · exact .inl ⟨hqueued, fun h => by simp [htrue] at h⟩
    · exact .inr ⟨hkey, htrue, hqueued⟩
  nth_rewrite 1 [sortedQueue]
  rw [List.filter_eq_self.mpr fun key hkey => decide_eq_true (hstays key hkey),
    List.filter_eq_nil_iff.mpr fun key hkey => by simpa using hjoins key hkey, List.append_nil]

/-! ## One card more -/

/-- A card that is not taken out makes no difference to who stays. -/
theorem filter_stays (hkey : verdict? key ≠ some false) :
    (queue.filter fun other => ¬(other ∈ key :: keys ∧ verdict? other = some false)) =
      queue.filter fun other => ¬(other ∈ keys ∧ verdict? other = some false) := by
  refine List.filter_congr fun other _ => decide_eq_decide.mpr (not_congr ?_)
  refine ⟨fun ⟨hmem, hfalse⟩ => ⟨?_, hfalse⟩, fun ⟨hmem, hfalse⟩ => ⟨.tail _ hmem, hfalse⟩⟩
  rcases List.mem_cons.mp hmem with rfl | hmem
  · exact absurd hfalse hkey
  · exact hmem

/-- Who joins the queue depends on the other cards in it. -/
theorem filter_joins {later : List Nat} (hnew : key ∉ keys)
    (h : ∀ other, other ≠ key → (other ∈ later ↔ other ∈ queue)) :
    (keys.filter fun other => verdict? other = some true ∧ other ∉ later) =
      keys.filter fun other => verdict? other = some true ∧ other ∉ queue := by
  refine List.filter_congr fun other hother => decide_eq_decide.mpr (and_congr_right fun _ => ?_)
  exact not_congr (h other fun heq => hnew (heq ▸ hother))

theorem sortedQueue_of_none (hkey : verdict? key = none) :
    sortedQueue verdict? (key :: keys) queue = sortedQueue verdict? keys queue := by
  rw [sortedQueue, filter_stays (by simp [hkey]), List.filter_cons_of_neg (by simp [hkey])]
  rfl

theorem sortedQueue_of_queued (hkey : verdict? key = some true) (hqueued : key ∈ queue) :
    sortedQueue verdict? (key :: keys) queue = sortedQueue verdict? keys queue := by
  rw [sortedQueue, filter_stays (by simp [hkey]), List.filter_cons_of_neg (by simp [hqueued])]
  rfl

theorem sortedQueue_of_true (hkey : verdict? key = some true) (hnew : key ∉ keys)
    (hqueued : key ∉ queue) :
    sortedQueue verdict? (key :: keys) queue = sortedQueue verdict? keys (queue ++ [key]) := by
  have hstays : ([key].filter fun other => ¬(other ∈ keys ∧ verdict? other = some false)) = [key] :=
    List.filter_cons_of_pos (by simp [hnew])
  have hjoins : ∀ other, other ≠ key → (other ∈ queue ++ [key] ↔ other ∈ queue) :=
    fun other hne => by simp [hne]
  rw [sortedQueue, sortedQueue, filter_stays (by simp [hkey]),
    List.filter_cons_of_pos (by simp [hkey, hqueued]), List.filter_append, hstays,
    filter_joins hnew hjoins, List.append_assoc, List.singleton_append]

theorem sortedQueue_of_false (hkey : verdict? key = some false) (hnew : key ∉ keys)
    (hqueue : queue.Nodup) :
    sortedQueue verdict? (key :: keys) queue = sortedQueue verdict? keys (queue.erase key) := by
  have hjoins : ∀ other, other ≠ key → (other ∈ queue.erase key ↔ other ∈ queue) :=
    fun other hne => List.mem_erase_of_ne hne
  have hstays : (queue.filter fun other => ¬(other ∈ key :: keys ∧ verdict? other = some false)) =
      (queue.erase key).filter fun other => ¬(other ∈ keys ∧ verdict? other = some false) := by
    rw [hqueue.erase_eq_filter, List.filter_filter]
    refine List.filter_congr fun other _ => ?_
    by_cases heq : other = key <;> simp [heq, hkey]
  rw [sortedQueue, sortedQueue, hstays, List.filter_cons_of_neg (by simp [hkey]),
    filter_joins hnew hjoins]

end Sorted

namespace Catalog

variable {catalog before after : Catalog} {store : Store} {key : Nat} {keys : List Nat}

/-! ## Checking cards -/

/-- What the condition of a card says in a store: nothing when the card is discarded or has no
condition. -/
def verdict? (store : Store) (catalog : Catalog) (key : Nat) : Option Bool :=
  let card := catalog.card key
  if card.discarded || isBlankText card.condition then none
  else some (conditionValue store card.condition)

theorem sorted_eq (store : Store) (catalog : Catalog) (key : Nat) :
    catalog.sorted store key =
      match catalog.verdict? store key with
      | none => catalog
      | some true => catalog.enqueue key
      | some false => catalog.dequeue key := by
  rw [sorted, verdict?]
  split
  · rfl
  · split
    next hholds => rw [hholds]
    next hfails => rw [Bool.eq_false_of_not_eq_true hfails]

/-- The check of different cards sorts a queue in which no card is twice. -/
theorem foldl_sorted (hkeys : keys.Nodup) (hqueue : catalog.queue.Nodup) :
    keys.foldl (sorted store) catalog =
      { catalog with queue := sortedQueue (catalog.verdict? store) keys catalog.queue } := by
  induction keys generalizing catalog with
  | nil => simp [sortedQueue]
  | cons key keys ih =>
    obtain ⟨hnew, hkeys⟩ := List.nodup_cons.mp hkeys
    rw [List.foldl_cons, sorted_eq]
    -- The first card is skipped, kept, queued or taken out; the queue stays without repetition, and the
    -- cards behind it are sorted into what it leaves.
    cases hkey : catalog.verdict? store key with
    | none => rw [sortedQueue_of_none hkey, ih hkeys hqueue]
    | some holds =>
      cases holds with
      | true =>
        by_cases hqueued : key ∈ catalog.queue
        · rw [sortedQueue_of_queued hkey hqueued]
          have hsame : catalog.enqueue key = catalog := if_pos (by simpa using hqueued)
          dsimp only
          rw [hsame, ih hkeys hqueue]
        · rw [sortedQueue_of_true hkey hnew hqueued]
          have hlonger : catalog.enqueue key = { catalog with queue := catalog.queue ++ [key] } :=
            if_neg (by simpa using hqueued)
          dsimp only
          have hlonger' : (catalog.queue ++ [key]).Nodup :=
            List.concat_eq_append ▸ hqueue.concat hqueued
          rw [hlonger]
          exact ih hkeys hlonger'
      | false =>
        rw [sortedQueue_of_false hkey hnew hqueue]
        exact ih hkeys (hqueue.erase key)

/-- No card of the pool has a random call in its condition. -/
def Foreseeable (catalog : Catalog) : Prop :=
  ∀ key ∈ catalog.pool, CallFree (trim (catalog.card key).condition.toList)

end Catalog

namespace Game

variable {game : Game} {key : Nat}

/-- What the condition of a card says when it is evaluated: nothing when the card is discarded or has
no condition. -/
def verdict? (game : Game) (key : Nat) : Option Bool :=
  let card := game.catalog.card key
  if card.discarded || isBlankText card.condition then none
  else ((evaluateCondition card.condition).run.run game).1.toOption

theorem verdict?_of_callFree (h : CallFree (trim (game.catalog.card key).condition.toList)) :
    game.verdict? key = game.catalog.verdict? game.store key := by
  obtain ⟨diagnostics, hrun⟩ := run_evaluateCondition_of_callFree h game
  rw [verdict?, Catalog.verdict?, hrun]
  rfl

/-- The check of all conditions sorts the queue. -/
theorem run_checkConditions_sorted (hpool : game.catalog.pool.Nodup)
    (hqueue : game.catalog.queue.Nodup) (hfree : game.catalog.Foreseeable) :
    ∃ diagnostics, checkConditions.run.run game = (.ok (), { game with
      diagnostics
      catalog := { game.catalog with
        queue := sortedQueue game.verdict? game.catalog.pool game.catalog.queue } }) := by
  obtain ⟨diagnostics, hrun⟩ := run_checkConditions_of_callFree hfree
  refine ⟨diagnostics, ?_⟩
  rw [hrun, Catalog.checked, Catalog.foldl_sorted hpool hqueue,
    sortedQueue_congr fun key hkey => verdict?_of_callFree (hfree key hkey)]

/-- The check of all conditions leaves the old queue without the cards of the pool whose condition
does not hold, and puts behind it the others whose condition holds, in the order of the pool; discarded
cards and cards without a condition stay where they are.  Nothing else changes but the reports, and a
second check changes nothing else at all. -/
theorem checkConditions_sorts (hpool : game.catalog.pool.Nodup)
    (hqueue : game.catalog.queue.Nodup) (hfree : game.catalog.Foreseeable) :
    ∃ diagnostics later,
      let after := { game with
        diagnostics
        catalog := { game.catalog with
          queue := sortedQueue game.verdict? game.catalog.pool game.catalog.queue } }
      checkConditions.run.run game = (.ok (), after) ∧
        checkConditions.run.run after = (.ok (), { after with diagnostics := later }) := by
  obtain ⟨diagnostics, hrun⟩ := run_checkConditions_sorted hpool hqueue hfree
  let after := { game with
    diagnostics
    catalog := { game.catalog with
      queue := sortedQueue game.verdict? game.catalog.pool game.catalog.queue } }
  obtain ⟨later, hagain⟩ : ∃ later, checkConditions.run.run after = _ :=
    run_checkConditions_sorted hpool (nodup_sortedQueue hpool hqueue) hfree
  -- the conditions say the same as before, since the store has not changed
  have hverdicts : ∀ key ∈ game.catalog.pool, after.verdict? key = game.verdict? key := by
    intro key hkey
    rw [verdict?_of_callFree (hfree key hkey)]
    exact verdict?_of_callFree (hfree key hkey)
  have hsorted : sortedQueue after.verdict? game.catalog.pool after.catalog.queue =
      after.catalog.queue := by
    rw [sortedQueue_congr hverdicts]
    exact sortedQueue_sortedQueue
  refine ⟨diagnostics, later, hrun, hagain.trans ?_⟩
  change (_, { after with diagnostics := later, catalog := { game.catalog with
    queue := sortedQueue after.verdict? game.catalog.pool after.catalog.queue } }) = _
  rw [hsorted]

/-- A game with cards that are queued and have to leave, that are not queued and have to come, and
others that stay where they are. -/
def muster : Game :=
  { Game.empty {} ⟨none, [], 0, 0⟩ (.ofScript []) with
    catalog := {
      cards := #[{ name := "a", copy := 1, condition := "0" }, { name := "b", copy := 1 },
        { name := "c", copy := 1, condition := "1" },
        { name := "d", copy := 1, condition := "1", discarded := true },
        { name := "e", copy := 1, condition := "(" }]
      pool := [3, 4, 2, 1, 0]
      queue := [4, 1, 0] } }

/-- What the conditions of its cards say. -/
def musterVerdict? : Nat → Option Bool
  | 0 | 4 => some false
  | 2 => some true
  | _ => none

theorem foreseeable_muster : muster.catalog.Foreseeable := by
  have hwords : ∀ key ∈ muster.catalog.pool,
      ¬randomWord <:+: trim (muster.catalog.card key).condition.toList := by decide
  exact fun key hkey => callFree_of_wordless (hwords key hkey)

theorem verdict?_muster : ∀ key ∈ muster.catalog.pool, muster.verdict? key = musterVerdict? key := by
  have hone : ∀ store, conditionValue store "1" = true := by
    intro store
    have hplain : render (storedNames store) (cells (trim "1".toList)) = ['1'] := by cbv
    rw [conditionValue_literal hplain (by cbv)]
    decide +kernel
  have hzero : ∀ store, conditionValue store "0" = false := by
    intro store
    have hplain : render (storedNames store) (cells (trim "0".toList)) = ['0'] := by cbv
    rw [conditionValue_literal hplain (by cbv)]
    decide +kernel
  have hopen : ∀ store, conditionValue store "(" = false := by
    intro store
    cbv
  intro key hkey
  rw [verdict?_of_callFree (foreseeable_muster key hkey)]
  have hcases : key = 3 ∨ key = 4 ∨ key = 2 ∨ key = 1 ∨ key = 0 := by simpa [muster] using hkey
  rcases hcases with rfl | rfl | rfl | rfl | rfl
  · rfl
  · exact congrArg some (hopen _)
  · exact congrArg some (hone _)
  · rfl
  · exact congrArg some (hzero _)

/-- The queue after one check is the sorted one, and a second check leaves it as it is. -/
theorem muster_sorts :
    muster.catalog.pool.Nodup ∧ muster.catalog.queue.Nodup ∧ muster.catalog.Foreseeable ∧
      ∃ diagnostics later,
        let after := { muster with
          diagnostics
          catalog := { muster.catalog with queue := [1, 2] } }
        checkConditions.run.run muster = (.ok (), after) ∧
          checkConditions.run.run after = (.ok (), { after with diagnostics := later }) := by
  have hpool : muster.catalog.pool.Nodup := by decide
  have hqueue : muster.catalog.queue.Nodup := by decide
  have hsorted : sortedQueue muster.verdict? muster.catalog.pool muster.catalog.queue = [1, 2] := by
    rw [sortedQueue_congr verdict?_muster]
    decide
  have hchecked := checkConditions_sorts hpool hqueue foreseeable_muster
  rw [hsorted] at hchecked
  exact ⟨hpool, hqueue, foreseeable_muster, hchecked⟩

end Game

end EventDeck
