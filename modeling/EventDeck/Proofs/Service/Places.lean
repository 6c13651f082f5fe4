import EventDeck.Proofs.Game.Cards
import EventDeck.Proofs.Reshuffle
import EventDeck.Proofs.Service.Passes
import Mathlib.Order.Lattice

/-!
# Places in the queue

A card that is queued is moved rather than queued again, with one exception: when the head of the queue
is chained, it stays where it is and gets a second place right behind.  The card is to come again when
its turn is over, and the end of the turn takes one of the places away; but a control can be pressed
while the card is shown, and then it is queued twice for the rest of its turn.

Nothing else gives a card a second place (`places_nodup_iff`), so a card has one place and one more for
each time that it was chained as the head, as long as that has not been used up (`surplus`).

A card in a second place can outlive its destruction.  Without second places every queued card is
queued once and is in the pool: the catalog is `Tidy`, at all moments of a session of a deck that does
not chain (`Session.tidy_of_not_chains`).
-/

namespace EventDeck

/-- The events that a command may chain. -/
def Command.chains : Command → List String
  | chain name => [name]
  | randomChain first second _ => [first, second]
  | _ => []

theorem Command.mem_chains_of_decided {command : Command} {name : String}
    (h : .chain name ∈ command.decided) : name ∈ command.chains := by
  cases command with
  | chain other | randomChain first second percent => simpa [decided, chains] using h
  | _ => simp [decided] at h

/-- A special effect of the deck may chain. -/
def Deck.Chains (deck : Deck) : Prop :=
  ∃ text ∈ deck.specials, ∃ command, Command.parse text = .ok command ∧ command.chains ≠ []

namespace Catalog

variable {before after catalog : Catalog} {command : Command} {key other : Nat}

/-! ## How often a card is queued -/

theorem count_enqueue_le (catalog : Catalog) (key other : Nat) :
    (catalog.enqueue other).queue.count key ≤ max 1 (catalog.queue.count key) := by
  rw [enqueue]
  split
  · exact Nat.le_max_right ..
  next hqueued =>
    have hnew : other ∉ catalog.queue := by simpa using hqueued
    rw [List.count_append, List.count_singleton]
    split
    next heq =>
      obtain rfl : other = key := by simpa using heq
      rw [List.count_eq_zero.mpr hnew]
      exact Nat.le_max_left ..
    next => exact Nat.le_max_right ..

theorem count_dequeue_le (catalog : Catalog) (key other : Nat) :
    (catalog.dequeue other).queue.count key ≤ catalog.queue.count key :=
  List.erase_sublist.count_le key

theorem count_insertAt (catalog : Catalog) (key other : Nat) (place : Int) :
    (catalog.insertAt other place).queue.count key =
      catalog.queue.count key + if other = key then 1 else 0 := by
  simp only [insertAt, List.count_append, List.count_cons, beq_iff_eq]
  rw [← Nat.add_assoc, ← List.count_append, List.take_append_drop]

/-- A card that is taken out before it is put back is queued as often as before, and at least once. -/
theorem count_move_le (catalog : Catalog) (key other : Nat) (place : Int) :
    ((catalog.dequeue other).insertAt other place).queue.count key ≤
      max 1 (catalog.queue.count key) := by
  rw [count_insertAt]
  split
  next heq =>
    subst heq
    rw [dequeue, List.count_erase_self]
    omega
  next => exact (count_dequeue_le ..).trans (Nat.le_max_right ..)

theorem count_rebuilt_le (catalog : Catalog) (sentinel : String) (generator : Generator) (key : Nat) :
    (catalog.rebuilt sentinel generator).queue.count key ≤ 1 := by
  have hrestore : ∀ (keys : List Nat) (catalog : Catalog), catalog.queue.count key ≤ 1 →
      (keys.foldl Game.restore catalog).queue.count key ≤ 1 := by
    intro keys
    induction keys with
    | nil => exact fun _ h => h
    | cons other keys ih =>
      intro catalog h
      refine ih _ ?_
      rw [Game.restore]
      split
      · exact (count_enqueue_le ..).trans (max_le (Nat.le_refl 1) h)
      · exact h
  refine hrestore _ _ ?_
  have hfirst : (Game.sentinelFirst sentinel catalog).queue.count key ≤ 1 := by
    rw [queue_sentinelFirst]
    cases catalog.findInactive? sentinel with
    | none => exact Nat.zero_le 1
    | some other => exact List.nodup_iff_count_le_one.mp (List.nodup_singleton other) key
  exact hfirst

/-- What is put behind the head of the queue. -/
theorem queue_insertAt_one (hhead : catalog.head? = some key) (other : Nat) :
    (catalog.insertAt other 1).queue = key :: other :: catalog.queue.tail := by
  obtain ⟨rest, hqueue⟩ := List.head?_eq_some_iff.mp hhead
  have hplace : (min 1 ((rest.length + 1 : Nat) : Int)).toNat = 1 := by omega
  simp only [insertAt, hqueue, List.length_cons, hplace]
  rfl

/-- A command has put the head of the queue in a second place. -/
def Doubles (before after : Catalog) (command : Command) (key : Nat) : Prop :=
  before.head? = some key ∧ after.queue = key :: before.queue ∧
    ∃ name ∈ command.chains, before.findFirst? name = some key

instance (before after : Catalog) (command : Command) (key : Nat) :
    Decidable (before.Doubles after command key) :=
  inferInstanceAs (Decidable (_ ∧ _ ∧ _))

theorem Doubles.not_nodup (h : before.Doubles after command key) : ¬after.queue.Nodup := by
  obtain ⟨hhead, hqueue, -⟩ := h
  rw [hqueue]
  exact fun hnodup => (List.nodup_cons.mp hnodup).1 (List.mem_of_head? hhead)

/-- A command that does not give a card a second place. -/
theorem count_edits_le {decided : Command} (hdecided : decided ∈ command.decided)
    (h : before.Edits decided after) (hdoubles : ¬before.Doubles after command key) :
    after.queue.count key ≤ max 1 (before.queue.count key) := by
  cases h with
  | refused => exact Nat.le_max_right ..
  | @done sought place hsought hplace =>
    cases decided with
    | destroy => exact (count_dequeue_le before key sought).trans (Nat.le_max_right ..)
    | remove name =>
      exact (count_dequeue_le (before.setActive sought false) key sought).trans (Nat.le_max_right ..)
    | add name =>
      rw [edit]
      split
      · exact Nat.le_max_right ..
      · exact count_move_le (before.setActive sought true) key sought place
    | chain name =>
      rw [edit]
      split
      next hhead =>
        -- a second place of another card, or none for this one
        rw [count_insertAt, if_neg, Nat.add_zero]
        · exact Nat.le_max_right ..
        rintro rfl
        refine hdoubles ⟨hhead, ?_, name, Command.mem_chains_of_decided hdecided, ?_⟩
        · rw [edit, if_pos hhead, queue_insertAt_one hhead]
          exact congrArg (List.cons _) (List.cons_head?_tail hhead)
        · rw [sought?] at hsought
          split at hsought
          · cases hsought
          · exact hsought
      next => exact count_move_le before key sought 1
    | activate name | deactivate name | randomChain first second percent =>
      exact Nat.le_max_right ..

/-! ## Tidy catalogs -/

/-- A command destroys the first card of the queue, or it destroys nothing. -/
theorem Edits.keeps_or_destroys {command : Command} {before after : Catalog}
    (h : before.Edits command after) :
    before.Keeps after ∨ ∃ key, before.head? = some key ∧ after = before.destroy key := by
  by_cases hcommand : command = .destroy
  · subst hcommand
    cases h with
    | refused => exact .inl (.refl _)
    | done hsought => exact .inr ⟨_, hsought, rfl⟩
  · exact .inl (keeps_edits h hcommand)

theorem keeps_rebuilt (catalog : Catalog) (sentinel : String) (generator : Generator) :
    catalog.Keeps (catalog.rebuilt sentinel generator) :=
  ((Game.cards_sentinelFirst sentinel catalog).trans (.shufflePool ..)).trans
    (Game.cards_foldl_restore _ _ fun _ h => h)

/-- Every card is in the pool once at most, and what is queued is queued once and comes from the
pool. -/
structure Tidy (catalog : Catalog) : Prop where
  pool : catalog.pool.Nodup
  queue : catalog.queue.Nodup
  within : catalog.queue ⊆ catalog.pool

end Catalog

namespace Game

variable {first last before after : Game} {act : Act} {stages : List Stage} {key count : Nat}

/-! ## What is left of second places -/

/-- A stage in which the head of the queue is put in a second place. -/
def Stage.doubles (stage : Stage) (key : Nat) : Bool :=
  match stage.act with
  | .special text =>
    match Command.parse text with
    | .ok command => stage.before.catalog.Doubles stage.after.catalog command key
    | .error _ => false
  | _ => false

/-- How many second places a card has after a stage: the end of a turn of the card uses one up, and a
reshuffle clears them. -/
def Stage.surplus (key count : Nat) (stage : Stage) : Nat :=
  match stage.act with
  | .discard other => if other = key then count - 1 else count
  | .reshuffle => 0
  | _ => if stage.doubles key then count + 1 else count

/-- How many second places a card has after some stages. -/
def surplus (key : Nat) (stages : List Stage) : Nat :=
  stages.foldl (Stage.surplus key) 0

theorem surplus_concat (key : Nat) (stages : List Stage) (stage : Stage) :
    surplus key (stages ++ [stage]) = stage.surplus key (surplus key stages) := by
  rw [surplus, List.foldl_append]
  rfl

theorem surplus_eq_zero (h : ∀ stage ∈ stages, stage.doubles key = false) :
    surplus key stages = 0 := by
  induction stages using List.reverseRecOn with
  | nil => rfl
  | append_singleton stages stage ih =>
    rw [List.forall_mem_append] at h
    have hstage := h.2 stage (List.mem_singleton_self _)
    rw [surplus_concat, ih h.1, Stage.surplus]
    split <;> simp [hstage]

theorem Stage.not_nodup_of_doubles {stage : Stage} (h : stage.doubles key = true) :
    ¬stage.after.catalog.queue.Nodup := by
  unfold Stage.doubles at h
  split at h
  · split at h
    next command _ =>
      have hdoubles : stage.before.catalog.Doubles stage.after.catalog command key := of_decide_eq_true h
      exact hdoubles.not_nodup
    next => cases h
  · cases h

/-- One act: a card has a place, and its second places. -/
theorem count_step_le (hstep : Step before act after)
    (hbefore : before.catalog.queue.count key ≤ 1 + count) :
    after.catalog.queue.count key ≤ 1 + (Stage.mk before act after).surplus key count := by
  have hdeals := hstep.deals
  cases act with
  | special text =>
    change _ ≤ 1 + if (Stage.mk before (.special text) after).doubles key then count + 1 else count
    rcases hstep.special_cases with
      ⟨-, -, hcatalog⟩ | ⟨command, hparse, decided, hdecided, hedits⟩
    · rw [hcatalog]
      split <;> omega
    · have hstage : (Stage.mk before (.special text) after).doubles key =
          decide (before.catalog.Doubles after.catalog command key) := by
        rw [Stage.doubles]
        dsimp only
        rw [hparse]
      rw [hstage]
      -- a command either queues the head a second time, which is counted, or it does not add a place
      by_cases hdoubles : before.catalog.Doubles after.catalog command key
      · rw [if_pos (decide_eq_true hdoubles), hdoubles.2.1, List.count_cons_self]
        omega
      · have hedited := Catalog.count_edits_le hdecided hedits hdoubles
        rw [if_neg (by simpa using hdoubles)]
        omega
  | check other =>
    obtain ⟨-, -, wanted, hcatalog⟩ := hdeals
    change _ ≤ 1 + count
    rw [hcatalog]
    split
    · have hqueued := Catalog.count_enqueue_le before.catalog key other
      omega
    · exact (Catalog.count_dequeue_le ..).trans hbefore
  | reshuffle =>
    obtain ⟨-, generator, hcatalog⟩ := hdeals
    rw [hcatalog]
    exact Catalog.count_rebuilt_le ..
  | discard other =>
    have hcatalog : after.catalog = (before.catalog.setDiscarded other true).dequeue other := hdeals
    change _ ≤ 1 + if other = key then count - 1 else count
    rw [hcatalog]
    split
    next heq =>
      subst heq
      change (before.catalog.queue.erase other).count other ≤ _
      rw [List.count_erase_self]
      omega
    next => exact (Catalog.count_dequeue_le ..).trans hbefore
  | present other | halt =>
    rw [hdeals.2]
    exact hbefore
  | evaluate | begin | reveal | accept other =>
    have hcatalog : after.catalog = before.catalog := hdeals
    rw [hcatalog]
    exact hbefore

theorem Course.count_queue_le (h : Course first stages last) (hfirst : first.catalog.queue.Nodup)
    (key : Nat) : last.catalog.queue.count key ≤ 1 + surplus key stages := by
  induction h with
  | done => exact List.nodup_iff_count_le_one.mp hfirst key
  | step _ hstep ih =>
    rw [surplus_concat]
    exact count_step_le hstep ih

/-- A course on which no card is put in a second place. -/
theorem Course.nodup_queue (h : Course first stages last) (hfirst : first.catalog.queue.Nodup)
    (hnone : ∀ stage ∈ stages, ∀ key, stage.doubles key = false) : last.catalog.queue.Nodup := by
  refine List.nodup_iff_count_le_one.mpr fun key => ?_
  have hcount := h.count_queue_le hfirst key
  rwa [surplus_eq_zero fun stage hstage => hnone stage hstage key] at hcount

/-- The queue has every card once at every moment exactly when the head is never put in a second
place. -/
theorem Course.nodup_queue_iff (h : Course first stages last) (hfirst : first.catalog.queue.Nodup) :
    (∀ stage ∈ stages, stage.after.catalog.queue.Nodup) ↔
      ∀ stage ∈ stages, ∀ key, stage.doubles key = false := by
  constructor
  · intro hnodup stage hstage key
    by_contra hdoubles
    exact Stage.not_nodup_of_doubles (Bool.eq_true_of_not_eq_false hdoubles) (hnodup stage hstage)
  · intro hnone stage hstage
    obtain ⟨early, late, rfl, hearly, hstep⟩ := h.of_mem hstage
    refine (Course.step hearly hstep).nodup_queue hfirst fun one hone => hnone one ?_
    rw [List.append_cons]
    exact List.mem_append_left _ hone

/-! ## Tidy catalogs -/

/-- An act destroys the first card of the queue, or it destroys nothing. -/
theorem Step.keeps_or_destroys (h : Step before act after) :
    before.catalog.Keeps after.catalog ∨
      ∃ key, before.catalog.head? = some key ∧ after.catalog = before.catalog.destroy key := by
  have hdeals := h.deals
  -- special effects are the only acts that may destroy
  cases act with
  | special text =>
    rcases h.special_cases with ⟨-, -, hcatalog⟩ | ⟨command, -, decided, -, hedits⟩
    · exact .inl (hcatalog ▸ .refl _)
    · exact hedits.keeps_or_destroys
  | check key =>
    obtain ⟨hpool, -, wanted, hcatalog⟩ := hdeals
    rw [hcatalog]
    split
    · exact .inl (.enqueue hpool)
    · exact .inl (.dequeue ..)
  | reshuffle =>
    obtain ⟨-, generator, hcatalog⟩ := hdeals
    exact .inl (hcatalog ▸ Catalog.keeps_rebuilt ..)
  | discard key =>
    have hcatalog : after.catalog = (before.catalog.setDiscarded key true).dequeue key := hdeals
    exact .inl (hcatalog ▸ (Catalog.Keeps.setDiscarded ..).trans (.dequeue ..))
  | present key | halt => exact .inl (hdeals.2 ▸ .refl _)
  | evaluate | begin | reveal | accept key =>
    have hcatalog : after.catalog = before.catalog := hdeals
    exact .inl (hcatalog ▸ .refl _)

/-- A catalog stays tidy as long as no card is put in a second place. -/
theorem Step.tidy (h : Step before act after) (hbefore : before.catalog.Tidy)
    (hnone : ∀ key, (Stage.mk before act after).doubles key = false) : after.catalog.Tidy := by
  have hqueue : after.catalog.queue.Nodup :=
    (Course.single h).nodup_queue hbefore.queue fun stage hstage => List.mem_singleton.mp hstage ▸ hnone
  rcases h.keeps_or_destroys with hkeeps | ⟨key, hhead, hcatalog⟩
  · exact ⟨hkeeps.nodup hbefore.pool, hqueue, hkeeps.queue_subset_pool hbefore.within⟩
  · have honce : before.catalog.queue.count key = 1 :=
      List.count_eq_one_of_mem hbefore.queue (List.mem_of_head? hhead)
    refine ⟨?_, hqueue, ?_⟩
    · rw [hcatalog]
      exact hbefore.pool.erase key
    · rw [hcatalog]
      exact (Catalog.queue_subset_pool_destroy_iff hbefore.pool hbefore.within hhead).mpr honce

theorem Course.tidy (h : Course first stages last) (hfirst : first.catalog.Tidy)
    (hnone : ∀ stage ∈ stages, ∀ key, stage.doubles key = false) : last.catalog.Tidy := by
  induction h with
  | done => exact hfirst
  | step _ hstep ih =>
    rw [List.forall_mem_append] at hnone
    exact hstep.tidy (ih hnone.1) (hnone.2 _ (List.mem_singleton_self _))

end Game

/-! ## Sessions -/

namespace Session

open Game

variable {deck : Deck} {settings : Settings} {generator : Generator} {start last : Game}
  {stages : List Stage} {key : Nat}

/-- The special effects that put the head of the queue in a second place are those of the deck that
chain. -/
theorem chains_of_doubles (built : Builds deck settings generator start)
    (h : Course start stages last) {stage : Stage} (hstage : stage ∈ stages)
    (hdoubles : stage.doubles key = true) : deck.Chains := by
  obtain ⟨early, late, -, hearly, hstep⟩ := h.of_mem hstage
  have hdeals := hstep.deals
  unfold Stage.doubles at hdoubles
  split at hdoubles
  next text hact =>
    rw [hact] at hdeals
    have htext := mem_specials_of_authors built hearly.frame hdeals.1
    split at hdoubles
    next command hparse =>
      obtain ⟨-, -, name, hname, -⟩ := of_decide_eq_true hdoubles
      exact ⟨text, htext, command, hparse, List.ne_nil_of_mem hname⟩
    next => cases hdoubles
  next => cases hdoubles

theorem doubles_eq_false (built : Builds deck settings generator start) (hdeck : ¬deck.Chains)
    (h : Course start stages last) : ∀ stage ∈ stages, ∀ key, stage.doubles key = false := by
  intro stage hstage key
  by_contra hdoubles
  exact hdeck (chains_of_doubles built h hstage (Bool.eq_true_of_not_eq_false hdoubles))

theorem tidy_of_builds (built : Builds deck settings generator start) : start.catalog.Tidy := by
  rw [built.catalog]
  exact ⟨Catalog.nodup_pool_ofTemplates .., (Catalog.Dealt.ofTemplates ..).nodup,
    Catalog.queue_subset_pool_ofTemplates ..⟩

/-- In a session of a deck that does not chain the catalog is always tidy. -/
theorem tidy_of_not_chains (built : Builds deck settings generator start) (hdeck : ¬deck.Chains)
    (h : Leads start last) : last.catalog.Tidy := by
  obtain ⟨stages, hcourse⟩ := h
  exact hcourse.tidy (tidy_of_builds built) (doubles_eq_false built hdeck hcourse)

end Session

namespace Service

open Game

variable {service : Service} {request : CreateRequest} {start : Game}

/-- In a session, whatever calls are made: the queue has every card once at every moment exactly when
the head of the queue is never put in a second place.  After every call a card is queued at most once,
and once more for each time that it was chained while it was the head, as far as that has not been used
up by the end of a turn of the card or cleared by a reshuffle.  So in a session of a deck that does not
chain, no card is queued twice. -/
theorem places_nodup_iff (fresh : service.find? service.nextId = none)
    (built : Session.buildGame request.deck service.settings (service.chance request.seed) =
      .ok start) (calls : List Call) :
    (∃ stages game, Plays service request start calls stages game) ∧
    ∀ stages game, Plays service request start calls stages game →
      ((∀ stage ∈ stages, stage.after.catalog.queue.Nodup) ↔
        ∀ stage ∈ stages, ∀ key, stage.doubles key = false) ∧
      (∀ earlier, earlier <+: calls → ∃ early between, early <+: stages ∧
        Course start early between ∧ service.played? request earlier = some between ∧
        ∀ key, between.catalog.queue.count key ≤ 1 + surplus key early) ∧
      (¬request.deck.Chains → game.catalog.queue.Nodup) := by
  refine ⟨exists_plays fresh built calls, fun stages game hplays => ?_⟩
  have hbuilds := Session.builds_of_buildGame built
  have hdealt : start.catalog.Dealt := hbuilds.catalog ▸ .ofTemplates ..
  refine ⟨hplays.course.nodup_queue_iff hdealt.nodup, fun earlier hprefix => ?_, fun hchains => ?_⟩
  · obtain ⟨early, between, hearly, hcourse, hbetween⟩ := hplays.passes earlier hprefix
    exact ⟨early, between, hearly, hcourse, hbetween, hcourse.count_queue_le hdealt.nodup⟩
  · exact hplays.course.nodup_queue hdealt.nodup
      (Session.doubles_eq_false hbuilds hchains hplays.course)

/-- A request for a deck of one event, with a control that chains it. -/
def encore : CreateRequest where
  deck := {
    events := [{ name := "e" }]
    controls := [{ name := "c", specials := ["chain(e)"] }] }
  seed := none

theorem exists_built_encore :
    ∃ start, Session.buildGame encore.deck empty.settings (empty.chance encore.seed) = .ok start :=
  Session.exists_buildGame _ (by decide +kernel)

theorem queue_encore :
    (empty.played? encore [.press "c"]).map (·.catalog.queue) = some [0, 0] := by
  decide +kernel

/-- A card that is chained while it is shown has a second place, and that is accounted for. -/
theorem encore_places :
    ∃ start stages game,
      Session.buildGame encore.deck empty.settings (empty.chance encore.seed) = .ok start ∧
      Plays empty encore start [.press "c"] stages game ∧ game.catalog.queue = [0, 0] ∧
      ∃ early, early <+: stages ∧ 1 ≤ surplus 0 early := by
  obtain ⟨start, hbuilt⟩ := exists_built_encore
  obtain ⟨⟨stages, game, hplays⟩, hplaces⟩ := places_nodup_iff fresh_empty hbuilt [.press "c"]
  obtain ⟨-, hcalls, -⟩ := hplaces stages game hplays
  have hqueue := queue_encore
  rw [hplays.played] at hqueue
  have hqueue : game.catalog.queue = [0, 0] := Option.some.inj hqueue
  obtain ⟨early, between, hearly, -, hbetween, hcount⟩ := hcalls [.press "c"] (List.prefix_refl _)
  obtain rfl := Option.some.inj (hplays.played.symm.trans hbetween)
  have hplaced := hcount 0
  rw [hqueue] at hplaced
  have htwice : List.count 0 [0, 0] = 2 := rfl
  exact ⟨start, stages, game, hbuilt, hplays, hqueue, early, hearly, by omega⟩

/-- After the control is pressed the card is queued twice. -/
theorem encore_queued_twice :
    ∃ start game,
      Session.buildGame encore.deck empty.settings (empty.chance encore.seed) = .ok start ∧
      empty.played? encore [.press "c"] = some game ∧ ¬game.catalog.queue.Nodup := by
  obtain ⟨start, hbuilt⟩ := exists_built_encore
  obtain ⟨game, hgame, hqueue⟩ := Option.map_eq_some_iff.mp queue_encore
  refine ⟨start, game, hbuilt, hgame, ?_⟩
  rw [hqueue]
  decide

end Service

end EventDeck
