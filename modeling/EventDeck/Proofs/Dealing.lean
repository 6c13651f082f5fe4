import EventDeck.Proofs.Bounds
import EventDeck.Proofs.Decimal.Form
import EventDeck.Proofs.Reshuffle

/-!
# What is dealt from a deck

The cards of a new game are the copies of the events of its deck, each once, and the cards of the
active events are queued (`Catalog.ofTemplates_deals`).  The shuffles only reorder them.

A card is known by its identifier, whatever its event is called: digits have no number sign, so the
last number sign of an identifier is the one that parts the name from the number (`Card.eq_of_id`).
-/

namespace EventDeck

/-! ## Identifiers -/

/-- A mark that does not occur behind it parts a text in one way only. -/
theorem eq_of_append_cons {α : Type} {mark : α} {front front' back back' : List α}
    (hback : mark ∉ back) (hback' : mark ∉ back')
    (h : front ++ mark :: back = front' ++ mark :: back') : front = front' ∧ back = back' := by
  have hempty : ∀ {rest back back' : List α}, mark ∉ back →
      mark :: back = rest ++ mark :: back' → rest = [] := by
    intro rest back back' hnone heq
    cases rest with
    | nil => rfl
    | cons first rest =>
      refine absurd ?_ hnone
      rw [(List.cons.inj heq).2]
      exact List.mem_append_right _ List.mem_cons_self
  rcases List.append_eq_append_iff.mp h with ⟨rest, rfl, hrest⟩ | ⟨rest, rfl, hrest⟩
  · obtain rfl := hempty hback hrest
    exact ⟨(List.append_nil _).symm, (List.cons.inj hrest).2⟩
  · obtain rfl := hempty hback' hrest
    exact ⟨List.append_nil _, (List.cons.inj hrest).2.symm⟩

namespace Card

variable {card other : Card}

theorem toList_id (card : Card) :
    card.id.toList = card.name.toList ++ '#' :: Decimal.integer card.copy := by
  simp [id, Decimal.integerText, toString]

/-- An identifier tells the event and the number, whatever characters the name has. -/
theorem eq_of_id (h : card.id = other.id) : card.name = other.name ∧ card.copy = other.copy := by
  have hmark : ∀ n, '#' ∉ Decimal.integer n := by
    intro n hmem
    rcases Decimal.mem_integer hmem with hminus | hdigit
    · exact absurd hminus (by decide)
    · exact absurd hdigit (by decide)
  have htext := congrArg String.toList h
  rw [toList_id, toList_id] at htext
  obtain ⟨hname, hnumber⟩ := eq_of_append_cons (hmark _) (hmark _) htext
  exact ⟨String.toList_inj.mp hname, Decimal.integer_injective hnumber⟩

end Card

/-! ## The copies of an event -/

/-- The copy of an event with a number, as it is dealt: with the data of the event, under its name
where it has no title, and not discarded. -/
def Template.dealt (event : Template) (number : Nat) : Card where
  name := event.name
  copy := number
  title := Deck.orElse event.title event.name
  description := event.description
  condition := event.condition
  actions := event.actions
  active := event.active
  discarded := false

/-- The copies of an event, numbered from one. -/
def Template.hand (event : Template) : List Card :=
  (List.range event.copies.toNat).map fun i => event.dealt (i + 1)

namespace Deck

variable {deck : Deck} {events : List Template} {event : Template}

/-- A deck that can be played has events with different names, and a copy of each. -/
theorem events_of_valid (h : deck.valid = true) :
    (deck.events.map (·.name)).Nodup ∧ ∀ event ∈ deck.events, 1 ≤ event.copies := by
  have herrors : deck.findings.errors = [] := List.isEmpty_iff.mp h
  simp only [findings, errors_append, List.append_eq_nil_iff] at herrors
  obtain ⟨⟨⟨⟨⟨⟨hunique, -⟩, -⟩, -⟩, hevents⟩, -⟩, -⟩ := herrors
  refine ⟨nodup_of_checkUnique hunique, fun event hevent => ?_⟩
  rw [errors_gather, List.flatMap_eq_nil_iff] at hevents
  have hchecked := hevents event hevent
  simp only [checkEvent, errors_append, List.append_eq_nil_iff] at hchecked
  by_contra hcopies
  have hnone := hchecked.1.1
  rw [decide_eq_true (by omega : event.copies < 1)] at hnone
  exact List.cons_ne_nil _ _ hnone

/-- The cards of a deck are those of its events. -/
theorem cards_templates (deck : Deck) :
    deck.templates.flatMap Template.cards = deck.events.flatMap Template.hand := by
  rw [templates, List.flatMap_map]
  rfl

theorem name_of_mem_hand {card : Card} (h : card ∈ event.hand) : card.name = event.name := by
  obtain ⟨i, -, rfl⟩ := List.mem_map.mp h
  rfl

/-- When events have different names, the cards of a name are those of one event. -/
theorem filter_hands (hnames : (events.map (·.name)).Nodup) (hevent : event ∈ events) :
    (events.flatMap Template.hand).filter (fun card => card.name = event.name) = event.hand := by
  induction events with
  | nil => cases hevent
  | cons first rest ih =>
    obtain ⟨hfirst, hrest⟩ := List.nodup_cons.mp hnames
    rw [List.flatMap_cons, List.filter_append]
    -- the cards of the first event have its name, and no card of the others has it
    rcases List.mem_cons.mp hevent with rfl | hevent
    · have hhand : event.hand.filter (fun card => card.name = event.name) = event.hand :=
        List.filter_eq_self.mpr fun card hcard => decide_eq_true (name_of_mem_hand hcard)
      have hothers : (rest.flatMap Template.hand).filter (fun card => card.name = event.name) = [] := by
        refine List.filter_eq_nil_iff.mpr fun card hcard => ?_
        obtain ⟨other, hother, hcard⟩ := List.mem_flatMap.mp hcard
        have hne : card.name ≠ event.name := fun hsame =>
          hfirst (List.mem_map.mpr ⟨other, hother, (name_of_mem_hand hcard).symm.trans hsame⟩)
        simpa using hne
      rw [hhand, hothers, List.append_nil]
    · have hnone : first.hand.filter (fun card => card.name = event.name) = [] := by
        refine List.filter_eq_nil_iff.mpr fun card hcard => ?_
        have hne : card.name ≠ event.name := fun hsame =>
          hfirst (List.mem_map.mpr ⟨event, hevent, hsame.symm.trans (name_of_mem_hand hcard)⟩)
        simpa using hne
      rw [hnone, List.nil_append]
      exact ih hrest hevent

/-- When events have different names, a card is active if the event of its name is. -/
theorem active_of_mem_hand (hnames : (events.map (·.name)).Nodup) (hevent : event ∈ events) {card : Card}
    (hcard : card ∈ event.hand) :
    card.active = events.any fun other => other.active && card.name = other.name := by
  obtain ⟨i, -, rfl⟩ := List.mem_map.mp hcard
  rw [Bool.eq_iff_iff, List.any_eq_true]
  constructor
  · intro hactive
    exact ⟨event, hevent, Bool.and_eq_true_iff.mpr ⟨hactive, decide_eq_true rfl⟩⟩
  · rintro ⟨other, hother, hboth⟩
    obtain ⟨hactive, hname⟩ := Bool.and_eq_true_iff.mp hboth
    -- the event of the card is the only one of its name
    obtain rfl := List.inj_on_of_nodup_map hnames hevent hother (of_decide_eq_true hname)
    exact hactive

/-- No two cards of events with different names have the same identifier. -/
theorem nodup_ids_hands (hnames : (events.map (·.name)).Nodup) :
    ((events.flatMap Template.hand).map (·.id)).Nodup := by
  have hhand : ∀ event : Template, (event.hand.map (·.id)).Nodup := by
    intro event
    rw [Template.hand, List.map_map]
    refine List.nodup_range.map fun i j h => ?_
    have hcopy : ((i + 1 : Nat) : Int) = (j + 1 : Nat) := (Card.eq_of_id h).2
    omega
  induction events with
  | nil => exact List.nodup_nil
  | cons first rest ih =>
    obtain ⟨hfirst, hrest⟩ := List.nodup_cons.mp hnames
    rw [List.flatMap_cons, List.map_append]
    refine (hhand first).append (ih hrest) ?_
    intro id hid hothers
    obtain ⟨card, hcard, rfl⟩ := List.mem_map.mp hid
    obtain ⟨other, hother, hsame⟩ := List.mem_map.mp hothers
    obtain ⟨event, hevent, hother⟩ := List.mem_flatMap.mp hother
    -- the same identifier is that of the same name
    have hname : event.name = first.name :=
      (name_of_mem_hand hother).symm.trans ((Card.eq_of_id hsame).1.trans (name_of_mem_hand hcard))
    exact hfirst (List.mem_map.mpr ⟨event, hevent, hname⟩)

end Deck

/-! ## The catalog of a new game -/

namespace Catalog

/-- The cards in the pool of a new game are all cards of its templates. -/
theorem perm_cards_ofTemplates (templates : List Template) (generator : Generator) :
    let catalog := (ofTemplates templates generator).1
    (catalog.pool.map catalog.card).Perm (templates.flatMap Template.cards) := by
  intro catalog
  let cards := templates.flatMap Template.cards
  have hpool : catalog.pool.Perm (List.range cards.length) := shuffle_perm _ _
  have hcards : (List.range cards.length).map catalog.card = cards := by
    refine List.ext_getElem (by simp) fun key hkey hlt => ?_
    have hdealt : catalog.cards = cards.toArray := rfl
    simp [card, hdealt, hlt]
  exact (hpool.map _).trans (.of_eq hcards)

/-- What is dealt from a deck that can be played, whatever chance there is in the shuffles: the pool
has exactly the copies of every event, with its data, and nothing else; no two cards have the same
identifier; and the queue has exactly the cards of the active events, each once. -/
theorem ofTemplates_deals {deck : Deck} (h : deck.valid = true) (generator : Generator) :
    let catalog := (ofTemplates deck.templates generator).1
    let cards := catalog.pool.map catalog.card
    (∀ event ∈ deck.events,
      (cards.filter fun card => card.name = event.name).Perm event.hand ∧
        (event.hand.length : Int) = event.copies) ∧
    (∀ card ∈ cards, ∃ event ∈ deck.events, card.name = event.name) ∧
    (cards.map (·.id)).Nodup ∧
    catalog.queue.Perm (catalog.pool.filter fun key =>
      deck.events.any fun event => event.active && (catalog.card key).name = event.name) := by
  intro catalog cards
  obtain ⟨hnames, hcopies⟩ := Deck.events_of_valid h
  -- the pool is the hands of all events, in some order
  have hcards : cards.Perm (deck.events.flatMap Template.hand) := by
    rw [← Deck.cards_templates]
    exact perm_cards_ofTemplates deck.templates generator
  have hevent : ∀ card ∈ cards, ∃ event ∈ deck.events, card ∈ event.hand := fun card hcard =>
    List.mem_flatMap.mp (hcards.mem_iff.mp hcard)
  refine ⟨fun event hmem => ⟨?_, ?_⟩, fun card hcard => ?_, ?_, ?_⟩
  · rw [← Deck.filter_hands hnames hmem]
    exact hcards.filter _
  · have hcopy := hcopies event hmem
    rw [Template.hand, List.length_map, List.length_range]
    omega
  · obtain ⟨event, hmem, hhand⟩ := hevent card hcard
    exact ⟨event, hmem, Deck.name_of_mem_hand hhand⟩
  · exact (hcards.map _).nodup_iff.mpr (Deck.nodup_ids_hands hnames)
  · have hactive : ∀ key ∈ catalog.pool, catalog.active key = deck.events.any fun event =>
        event.active && (catalog.card key).name = event.name := by
      intro key hkey
      obtain ⟨event, hmem, hhand⟩ := hevent (catalog.card key) (List.mem_map_of_mem hkey)
      exact Deck.active_of_mem_hand hnames hmem hhand
    rw [← List.filter_congr hactive]
    exact perm_queue_ofTemplates deck.templates generator

/-- A deck with names that look like identifiers, one of them of an event that is not active. -/
def lookalikes : Deck where
  events := [{ name := "a", copies := 11 }, { name := "a#1", title := "b", copies := 2 },
    { name := "#", copies := 1, active := false }]

/-- Names that end in marks and numbers: the copies are told apart by their identifiers all the same. -/
theorem lookalikes_deals :
    lookalikes.valid = true ∧
      let catalog := (ofTemplates lookalikes.templates (.ofScript [0.3, 0.9])).1
      let cards := catalog.pool.map catalog.card
      (cards.filter fun card => card.name = "a#1").Perm
          [{ name := "a#1", copy := 1, title := "b" }, { name := "a#1", copy := 2, title := "b" }] ∧
        (cards.map (·.id)).Nodup ∧
        catalog.queue.Perm (catalog.pool.filter fun key => !((catalog.card key).name == "#")) := by
  have hvalid : lookalikes.valid = true := by decide +kernel
  obtain ⟨hcopies, hnames, hids, hqueue⟩ := ofTemplates_deals hvalid (.ofScript [0.3, 0.9])
  refine ⟨hvalid, (hcopies _ (List.mem_cons_of_mem _ List.mem_cons_self)).1, hids, ?_⟩
  refine hqueue.trans (.of_eq (List.filter_congr fun key hkey => ?_))
  obtain ⟨event, hevent, hname⟩ := hnames _ (List.mem_map_of_mem hkey)
  have hactive : ∀ event ∈ lookalikes.events, (lookalikes.events.any fun other =>
      other.active && event.name = other.name) = !(event.name == "#") := by
    decide
  rw [hname]
  exact hactive event hevent

end Catalog

end EventDeck
