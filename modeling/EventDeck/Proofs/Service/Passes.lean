import EventDeck.Proofs.Service.Rounds
import Mathlib.Data.List.Nodup

/-!
# Passes through the deck

Between two reshuffles the queue is only used up: a card that was presented is discarded when its
turn is over, and a discarded card is not queued again before the next reshuffle.  So in the sessions
of a deck whose special effects queue no cards, no card is presented twice in one pass
(`passes_nodup`).
-/

namespace EventDeck

/-- A command puts a card into the queue. -/
def Command.Queues : Command → Prop
  | add _ | chain _ | randomChain .. => True
  | destroy | remove _ | activate _ | deactivate _ => False

theorem Command.not_queues_decided {command decided : Command} (h : ¬command.Queues)
    (hdecided : decided ∈ command.decided) : ¬decided.Queues := by
  rcases decided_cases hdecided with rfl | ⟨⟨_, _, _, rfl⟩, -⟩
  · exact h
  · exact absurd trivial h

namespace Deck

/-- The special effects of a deck: those of its actions and of its controls. -/
def specials (deck : Deck) : List String :=
  (deck.events.flatMap fun event => event.actions.flatMap (·.specials)) ++
    deck.controls.flatMap (·.specials)

/-- A special effect of the deck puts a card into the queue. -/
def Queues (deck : Deck) : Prop :=
  ∃ text ∈ deck.specials, ∃ command, Command.parse text = .ok command ∧ command.Queues

end Deck

/-! ## Cards in order -/

namespace Catalog

/-- No card is queued twice, and there is a card for every key. -/
structure Dealt (catalog : Catalog) : Prop where
  nodup : catalog.queue.Nodup
  queue : ∀ key ∈ catalog.queue, key < catalog.cards.size
  pool : ∀ key ∈ catalog.pool, key < catalog.cards.size

/-- Cards are taken out of the queue and the pool, and none is put in, discarded or restored. -/
structure Thins (before after : Catalog) : Prop where
  queue : after.queue.Sublist before.queue
  pool : after.pool ⊆ before.pool
  size : after.cards.size = before.cards.size
  discarded : ∀ key, (after.card key).discarded = (before.card key).discarded

/-- A card will not be queued again before the next reshuffle. -/
def Spent (catalog : Catalog) (key : Nat) : Prop :=
  (catalog.card key).discarded = true ∧ key ∉ catalog.queue

variable {catalog before between after : Catalog} {command : Command} {key other : Nat}

namespace Thins

theorem refl (catalog : Catalog) : Thins catalog catalog :=
  ⟨.refl _, fun _ => id, rfl, fun _ => rfl⟩

theorem trans (first : Thins before between) (second : Thins between after) :
    Thins before after where
  queue := second.queue.trans first.queue
  pool := fun _ h => first.pool (second.pool h)
  size := second.size.trans first.size
  discarded key := (second.discarded key).trans (first.discarded key)

theorem setActive (catalog : Catalog) (key : Nat) (active : Bool) :
    Thins catalog (catalog.setActive key active) :=
  ⟨.refl _, fun _ => id, Array.size_modify, fun other => discarded_setActive catalog key other active⟩

theorem dequeue (catalog : Catalog) (key : Nat) : Thins catalog (catalog.dequeue key) :=
  ⟨List.erase_sublist, fun _ => id, rfl, fun _ => rfl⟩

theorem destroy (catalog : Catalog) (key : Nat) : Thins catalog (catalog.destroy key) :=
  ⟨List.erase_sublist, List.erase_subset, rfl, fun _ => rfl⟩

/-- What a command does that queues no card. -/
theorem of_edits (h : before.Edits command after) (hqueues : ¬command.Queues) :
    Thins before after := by
  cases h with
  | refused => exact refl _
  | @done key place hsought hplace =>
    cases command with
    | destroy => exact destroy _ _
    | remove name => exact (setActive before key false).trans (dequeue _ key)
    | activate name => exact setActive _ _ _
    | deactivate name => exact setActive _ _ _
    | add _ | chain _ | randomChain _ _ _ => exact absurd trivial hqueues

end Thins

theorem Spent.of_thins (h : before.Spent key) (hthins : Thins before after) : after.Spent key :=
  ⟨(hthins.discarded key).trans h.1, fun hqueue => h.2 (hthins.queue.subset hqueue)⟩

/-- Queueing a card that is not discarded. -/
theorem Spent.enqueue (h : catalog.Spent key) (hother : (catalog.card other).discarded = false) :
    (catalog.enqueue other).Spent key := by
  have hne : key ≠ other := by
    rintro rfl
    rw [h.1] at hother
    cases hother
  rw [Catalog.enqueue]
  split
  · exact h
  · refine ⟨h.1, fun hqueue => ?_⟩
    rcases List.mem_append.mp hqueue with hqueue | hnew
    · exact h.2 hqueue
    · exact hne (List.mem_singleton.mp hnew)

/-- Discarding another card. -/
theorem Spent.discard (h : catalog.Spent key) :
    ((catalog.setDiscarded other true).dequeue other).Spent key := by
  refine ⟨?_, fun hqueue => h.2 (List.mem_of_mem_erase hqueue)⟩
  have hcard := discarded_setDiscarded catalog other key true
  rw [h.1, ite_self] at hcard
  exact hcard

namespace Dealt

theorem of_thins (h : Dealt before) (hthins : Thins before after) : Dealt after where
  nodup := h.nodup.sublist hthins.queue
  queue key hkey := hthins.size ▸ h.queue key (hthins.queue.subset hkey)
  pool key hkey := hthins.size ▸ h.pool key (hthins.pool hkey)

theorem setDiscarded (h : Dealt catalog) (key : Nat) (discarded : Bool) :
    Dealt (catalog.setDiscarded key discarded) := by
  have hsize : (catalog.setDiscarded key discarded).cards.size = catalog.cards.size :=
    Array.size_modify
  exact ⟨h.nodup, hsize ▸ h.queue, hsize ▸ h.pool⟩

theorem enqueue (h : Dealt catalog) (hkey : key < catalog.cards.size) :
    Dealt (catalog.enqueue key) := by
  rw [Catalog.enqueue]
  split
  · exact h
  next hqueued =>
    have hnew : key ∉ catalog.queue := by simpa using hqueued
    refine ⟨List.concat_eq_append ▸ h.nodup.concat hnew, fun other hother => ?_, h.pool⟩
    rcases List.mem_append.mp hother with hother | hother
    · exact h.queue other hother
    · exact List.mem_singleton.mp hother ▸ hkey

/-- A discarded card that was queued once is spent. -/
theorem spent_discard (h : Dealt catalog) (hkey : key < catalog.cards.size) :
    ((catalog.setDiscarded key true).dequeue key).Spent key := by
  refine ⟨?_, fun hqueue => (h.nodup.mem_erase_iff.mp hqueue).1 rfl⟩
  have hcard := discarded_setDiscarded catalog key key true
  rwa [if_pos ⟨rfl, hkey⟩] at hcard

theorem restore (h : Dealt catalog) (hkey : key < catalog.cards.size) :
    Dealt (Game.restore catalog key) := by
  rw [Game.restore]
  split
  · have hsize : (catalog.setDiscarded key false).cards.size = catalog.cards.size :=
      Array.size_modify
    exact (h.setDiscarded key false).enqueue (hsize ▸ hkey)
  · exact h

theorem clearQueue (h : Dealt catalog) : Dealt catalog.clearQueue :=
  ⟨List.nodup_nil, fun _ hkey => (List.not_mem_nil hkey).elim, h.pool⟩

theorem sentinelFirst (h : Dealt catalog) (sentinel : String) :
    Dealt (Game.sentinelFirst sentinel catalog) := by
  rw [Game.sentinelFirst]
  split
  next key hfound => exact h.clearQueue.enqueue (h.pool key (List.mem_of_find?_eq_some hfound))
  next => exact h.clearQueue

theorem shufflePool (h : Dealt catalog) (generator : Generator) :
    Dealt (catalog.shufflePool generator).1 :=
  ⟨h.nodup, h.queue, fun key hkey => h.pool key ((shuffle_perm _ _).mem_iff.mp hkey)⟩

theorem rebuilt (h : Dealt catalog) (sentinel : String) (generator : Generator) :
    Dealt (catalog.rebuilt sentinel generator) := by
  have hfold : ∀ (keys : List Nat) (catalog : Catalog), Dealt catalog →
      (∀ key ∈ keys, key < catalog.cards.size) → Dealt (keys.foldl Game.restore catalog) := by
    intro keys
    induction keys with
    | nil => exact fun _ h _ => h
    | cons key keys ih =>
      intro catalog h hkeys
      obtain ⟨hkey, hkeys⟩ := List.forall_mem_cons.mp hkeys
      exact ih _ (h.restore hkey) ((sameFaces_restore catalog key).size ▸ hkeys)
  have hshuffled := (h.sentinelFirst sentinel).shufflePool generator
  exact hfold _ _ hshuffled hshuffled.pool

/-- The cards of a new game. -/
theorem ofTemplates (templates : List Template) (generator : Generator) :
    Dealt (Catalog.ofTemplates templates generator).1 := by
  let keys := List.range (templates.flatMap Template.cards).length
  have hsize : (Catalog.ofTemplates templates generator).1.cards.size =
      (templates.flatMap Template.cards).length := rfl
  have hpool : (Catalog.ofTemplates templates generator).1.pool.Perm keys := shuffle_perm _ _
  have hqueue : (Catalog.ofTemplates templates generator).1.queue.Perm
      (keys.filter fun key => ((templates.flatMap Template.cards)[key]?).any (·.active)) :=
    shuffle_perm _ _
  refine ⟨hqueue.nodup_iff.mpr (List.nodup_range.filter _), fun key hkey => ?_, fun key hkey => ?_⟩
  · exact hsize ▸ List.mem_range.mp (List.mem_filter.mp (hqueue.mem_iff.mp hkey)).1
  · exact hsize ▸ List.mem_range.mp (hpool.mem_iff.mp hkey)

end Dealt

end Catalog

namespace Game

open Catalog

/-! ## Presentations -/

/-- The card that an act presents. -/
def Act.presents? : Act → Option Nat
  | present key => some key
  | _ => none

/-- The cards that are presented by some acts. -/
def presentations (acts : List Act) : List Nat :=
  acts.filterMap Act.presents?

variable {first before after last : Game} {early late pass stages : List Stage} {act : Act}
  {history : List Act} {shown : List Nat}

theorem presented_next (scheduler : Scheduler) (act : Act) :
    (act.next scheduler).presented = act.presents?.toList ++ scheduler.presented := by
  cases act <;> rfl

theorem presentations_concat (history : List Act) (act : Act) :
    presentations (history ++ [act]) = presentations history ++ act.presents?.toList := by
  rw [presentations, List.filterMap_append]
  cases act <;> rfl

/-- The presentations of a course are those that the scheduler has recorded. -/
theorem Course.presented (h : Course first stages last) :
    last.scheduler.presented =
      (presentations (acts stages)).reverse ++ first.scheduler.presented := by
  induction h with
  | done => rfl
  | step _ hstep ih =>
    rw [hstep.scheduler, presented_next, ih, acts_concat, presentations_concat,
      List.reverse_append, List.append_assoc]
    cases Act.presents? _ <;> rfl

/-- The reshuffles of a course are those that the scheduler has counted. -/
theorem Course.reshuffles (h : Course first stages last) :
    last.scheduler.reshuffles = first.scheduler.reshuffles + (acts stages).count .reshuffle := by
  induction h with
  | done => rfl
  | @step _ _ _ act _ hstep ih =>
    rw [hstep.scheduler, acts_concat, List.count_append, ← Nat.add_assoc, ← ih]
    cases act <;> rfl

/-! ## One pass -/

/-- An act that is no special effect by which a card is queued. -/
def Act.Plain (act : Act) : Prop :=
  ∀ text, act = .special text → ∀ command, Command.parse text = .ok command → ¬command.Queues

/-- The cards that were presented in a pass are all different, and each is the current card or spent. -/
structure Unrepeated (keys : List Nat) (game : Game) : Prop extends game.catalog.Dealt where
  nodup_keys : keys.Nodup
  bound : ∀ key ∈ keys, key < game.catalog.cards.size
  spent : ∀ key ∈ keys, game.scheduler.current = some key ∨ game.catalog.Spent key

variable {keys : List Nat}

theorem thins_special {text : String} (hplain : (Act.special text).Plain)
    (hstep : Step before (.special text) after) : Thins before.catalog after.catalog := by
  rcases hstep.special_cases with ⟨-, -, hcatalog⟩ | ⟨command, hparse, decided, hdecided, hedits⟩
  · exact hcatalog ▸ .refl _
  · exact .of_edits hedits (Command.not_queues_decided (hplain text rfl command hparse) hdecided)

/-- Every act but a special effect that queues cards keeps the cards in order. -/
theorem dealt_step (hdealt : before.catalog.Dealt) (hplain : act.Plain)
    (hstep : Step before act after) : after.catalog.Dealt := by
  have hdeals := hstep.deals
  cases act with
  | special text => exact hdealt.of_thins (thins_special hplain hstep)
  | check key =>
    obtain ⟨hpool, -, wanted, hcatalog⟩ := hdeals
    rw [hcatalog]
    split
    · exact hdealt.enqueue (hdealt.pool key hpool)
    · exact hdealt.of_thins (.dequeue ..)
  | reshuffle =>
    obtain ⟨-, generator, hcatalog⟩ := hdeals
    exact hcatalog ▸ hdealt.rebuilt _ generator
  | discard key =>
    have hcatalog : after.catalog = _ := hdeals
    exact hcatalog ▸ (hdealt.setDiscarded key true).of_thins (.dequeue ..)
  | present key | halt => exact hdeals.2 ▸ hdealt
  | evaluate | begin | reveal | accept key =>
    have hcatalog : after.catalog = before.catalog := hdeals
    exact hcatalog ▸ hdealt

/-- The cards of a pass stay current or spent. -/
theorem Unrepeated.spent_step (h : Unrepeated keys before)
    (haccounted : Accounted history before.scheduler) (hplain : act.Plain)
    (hact : act ≠ .reshuffle) (hstep : Step before act after) {key : Nat} (hkey : key ∈ keys) :
    after.scheduler.current = some key ∨ after.catalog.Spent key := by
  have hready := hstep.ready
  have hdeals := hstep.deals
  have hbefore := h.spent key hkey
  rw [hstep.scheduler]
  -- between two turns no card is current
  have hspent (hphase : ¬(Shown before.scheduler ∨ before.scheduler.phase = .resolving)) :
      before.catalog.Spent key := by
    rw [haccounted.current_eq_none hphase] at hbefore
    exact hbefore.resolve_left nofun
  cases act with
  | reshuffle => exact absurd rfl hact
  | special text => exact hbefore.imp_right fun hspent => hspent.of_thins (thins_special hplain hstep)
  | check other =>
    have hphase : before.scheduler.phase = .checkingConditions := hready
    obtain ⟨-, hdiscarded, wanted, hcatalog⟩ := hdeals
    have hspent := hspent (by simp [Shown, hphase])
    rw [hcatalog]
    split
    · exact .inr (hspent.enqueue hdiscarded)
    · exact .inr (hspent.of_thins (.dequeue ..))
  | present other =>
    have hphase : before.scheduler.phase = .checkingConditions := hready
    exact .inr (hdeals.2 ▸ hspent (by simp [Shown, hphase]))
  | halt =>
    refine .inr (hdeals.2 ▸ hspent ?_)
    rcases hready with hphase | hphase <;> simp [Shown, hphase]
  | discard other =>
    obtain ⟨-, hcurrent⟩ := hready
    have hcatalog : after.catalog = (before.catalog.setDiscarded other true).dequeue other := hdeals
    rw [hcurrent] at hbefore
    rw [hcatalog]
    rcases hbefore with hsame | hspent
    · obtain rfl := Option.some.inj hsame
      exact .inr (h.spent_discard (h.bound other hkey))
    · exact .inr hspent.discard
  | evaluate | begin | reveal | accept other =>
    have hcatalog : after.catalog = before.catalog := hdeals
    exact hcatalog ▸ hbefore

/-- One act of a pass: a card that is presented was not presented before. -/
theorem Unrepeated.step (h : Unrepeated keys before)
    (haccounted : Accounted history before.scheduler) (hplain : act.Plain)
    (hact : act ≠ .reshuffle) (hstep : Step before act after) :
    Unrepeated (keys ++ act.presents?.toList) after := by
  have hdealt := dealt_step h.toDealt hplain hstep
  have hbound : ∀ key ∈ keys, key < after.catalog.cards.size := hstep.faces.size ▸ h.bound
  have hspent : ∀ key ∈ keys, after.scheduler.current = some key ∨ after.catalog.Spent key :=
    fun _ => h.spent_step haccounted hplain hact hstep
  -- Only a presentation adds a card; it was queued, and a card that was presented is not queued again
  -- before the next reshuffle.
  cases hpresents : act.presents? with
  | none =>
    rw [Option.toList_none, List.append_nil]
    exact ⟨hdealt, h.nodup_keys, hbound, hspent⟩
  | some key =>
    obtain rfl : act = .present key := by
      cases act <;> simp_all [Act.presents?]
    have hphase : before.scheduler.phase = .checkingConditions := hstep.ready
    obtain ⟨hhead, -⟩ := hstep.deals
    have hqueued : key ∈ before.catalog.queue := List.mem_of_head? hhead
    have hnew : key ∉ keys := by
      intro hkey
      have hbefore := h.spent key hkey
      rw [haccounted.current_eq_none (by simp [Shown, hphase])] at hbefore
      exact (hbefore.resolve_left (Option.some_ne_none key).symm).2 hqueued
    have hcurrent : after.scheduler.current = some key := congrArg Scheduler.current hstep.scheduler
    refine ⟨hdealt, ?_, ?_, ?_⟩
    · exact List.concat_eq_append ▸ h.nodup_keys.concat hnew
    · exact List.forall_mem_append.mpr ⟨hbound, by simpa [hstep.faces.size] using h.queue key hqueued⟩
    · exact List.forall_mem_append.mpr ⟨hspent, by simp [hcurrent]⟩

/-- The cards are in order after a course of plain acts. -/
theorem Course.dealt (h : Course first stages last) (hfirst : first.catalog.Dealt)
    (hplain : ∀ act ∈ acts stages, act.Plain) : last.catalog.Dealt := by
  induction h with
  | done => exact hfirst
  | step _ hstep ih =>
    rw [acts_concat, List.forall_mem_append] at hplain
    exact dealt_step (ih hplain.1) (hplain.2 _ (List.mem_singleton_self _)) hstep

/-- A course without a reshuffle. -/
theorem Course.unrepeated (h : Course first stages last) (hfirst : first.catalog.Dealt)
    (haccounted : Accounted history first.scheduler) (hplain : ∀ act ∈ acts stages, act.Plain)
    (hacts : .reshuffle ∉ acts stages) : Unrepeated (presentations (acts stages)) last := by
  induction h with
  | done => exact ⟨hfirst, List.nodup_nil, by simp [presentations], by simp [presentations]⟩
  | @step earlier before after act hearlier hstep ih =>
    rw [acts_concat, List.forall_mem_append] at hplain
    rw [acts_concat, List.mem_append, not_or] at hacts
    rw [acts_concat, presentations_concat]
    have hbefore := ih hplain.1 hacts.1
    refine hbefore.step (haccounted.course hearlier) (hplain.2 _ (List.mem_singleton_self _)) ?_ hstep
    rintro rfl
    exact hacts.2 (List.mem_singleton_self _)

end Game

/-! ## What authors write -/

namespace Session

open Game

variable {deck : Deck} {settings : Settings} {generator : Generator} {start game : Game}

/-- The special effects that are carried out are those of the deck. -/
theorem mem_specials_of_authors (built : Builds deck settings generator start)
    (frame : Frame start game) {text : String} (h : game.Authors text) : text ∈ deck.specials := by
  rw [Deck.specials, List.mem_append]
  rcases h with ⟨control, hcontrol, htext⟩ | ⟨-, key, action, haction, htext⟩
  · rw [frame.panel, built.panel] at hcontrol
    obtain ⟨written, hwritten, rfl⟩ := List.mem_map.mp (Panel.mem_ofList hcontrol)
    exact .inr (List.mem_flatMap.mpr ⟨written, hwritten, htext⟩)
  · rw [frame.faces.actions] at haction
    obtain ⟨event, hevent, hmem⟩ := mem_actions_of_builds built haction
    exact .inl (List.mem_flatMap.mpr ⟨event, hevent, List.mem_flatMap.mpr ⟨action, hmem, htext⟩⟩)

/-- The special effects of a deck that queues no cards are plain. -/
theorem plain_of_builds (built : Builds deck settings generator start) (hdeck : ¬deck.Queues)
    {stages : List Stage} (h : Course start stages game) : ∀ act ∈ acts stages, act.Plain := by
  intro act hact text htext command hparse hqueues
  obtain ⟨stage, hstage, rfl⟩ := List.mem_map.mp hact
  obtain ⟨early, late, -, hearly, hstep⟩ := h.of_mem hstage
  have hdeals := hstep.deals
  rw [htext] at hdeals
  exact hdeck ⟨text, mem_specials_of_authors built hearly.frame hdeals.1, command, hparse, hqueues⟩

end Session

/-! ## Sessions -/

namespace Service

open Game

variable {service : Service} {request : CreateRequest} {start : Game}

/-- In a session of a deck whose special effects queue no cards, whatever calls are made: no card is
presented twice between two reshuffles, nor before the first, nor after the last.  The presentations
and the reshuffles are those that the scheduler counts. -/
theorem passes_nodup (fresh : service.find? service.nextId = none)
    (built : Session.buildGame request.deck service.settings (service.chance request.seed) =
      .ok start) (queues : ¬request.deck.Queues) (calls : List Call) :
    (∃ stages game, Plays service request start calls stages game) ∧
    ∀ stages game, Plays service request start calls stages game →
      game.scheduler.presented = (presentations (acts stages)).reverse ∧
      game.scheduler.reshuffles = (acts stages).count .reshuffle ∧
      ∀ early pass late, stages = early ++ pass ++ late → .reshuffle ∉ acts pass →
        (presentations (acts pass)).Nodup := by
  refine ⟨exists_plays fresh built calls, fun stages game hplays => ?_⟩
  have hbuilds := Session.builds_of_buildGame built
  have hpresented := hplays.course.presented
  have hreshuffles := hplays.course.reshuffles
  rw [hbuilds.scheduler] at hpresented hreshuffles
  refine ⟨by simpa using hpresented, by simpa using hreshuffles, ?_⟩
  rintro early pass late rfl hpass
  obtain ⟨after, hcourse, -⟩ := hplays.course.split
  have hplain := Session.plain_of_builds hbuilds queues hcourse
  rw [acts, List.map_append, List.forall_mem_append] at hplain
  obtain ⟨before, hearly, hlate⟩ := hcourse.split
  have hdealt : start.catalog.Dealt := hbuilds.catalog ▸ .ofTemplates ..
  have haccounted := hearly.accounted hbuilds.scheduler
  exact (hlate.unrepeated (hearly.dealt hdealt hplain.1) haccounted hplain.2 hpass).nodup_keys

/-- A card is presented twice, with a reshuffle in between. -/
theorem stroll_passes :
    ∃ start stages game,
      Session.buildGame stroll.deck empty.settings (empty.chance stroll.seed) = .ok start ∧
      Plays empty stroll start [.reveal, .select ⟨some 0⟩] stages game ∧
      (presentations (acts stages)).reverse = [0, 0] ∧ (acts stages).count .reshuffle = 1 ∧
      ∀ early pass late, stages = early ++ pass ++ late → .reshuffle ∉ acts pass →
        (presentations (acts pass)).Nodup := by
  obtain ⟨start, hbuilt⟩ := exists_built_stroll
  have hqueues : ¬stroll.deck.Queues := by
    rintro ⟨text, htext, -⟩
    cases htext
  obtain ⟨⟨stages, game, hplays⟩, hpasses⟩ :=
    passes_nodup fresh_empty hbuilt hqueues [.reveal, .select ⟨some 0⟩]
  obtain ⟨hpresented, hreshuffles, hnodup⟩ := hpasses stages game hplays
  have hchecked : (empty.played? stroll [.reveal, .select ⟨some 0⟩]).map (fun game =>
      (game.scheduler.presented, game.scheduler.reshuffles)) = some ([0, 0], 1) := by
    decide +kernel
  rw [hplays.played] at hchecked
  obtain ⟨hshown, hshuffled⟩ := Prod.mk.inj (Option.some.inj hchecked)
  exact ⟨start, stages, game, hbuilt, hplays, hpresented.symm.trans hshown,
    hreshuffles.symm.trans hshuffled, hnodup⟩

end Service

end EventDeck
