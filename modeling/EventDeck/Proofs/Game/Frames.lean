import EventDeck.Proofs.Service.Places
import EventDeck.Proofs.Service.Head

/-!
# What a special effect leaves alone

A special effect fails and is reported, or it works on one card of the pool: the other cards keep
their flags and their order in the queue, only `destroy` takes the card out of the pool, and only
`destroy` and `remove` take the first card of the queue away (`run_runSpecial_framed`).
-/

namespace EventDeck

namespace Catalog

variable {before after catalog : Catalog} {command decided : Command} {key other place : Nat}

/-- What a command that works on a card leaves as it is, and what it does with the card. -/
structure Frames (command : Command) (key : Nat) (before after : Catalog) : Prop where
  pooled : key ∈ before.pool
  /-- The other places of the queue stay, in their order. -/
  others : after.queue.filter (· ≠ key) = before.queue.filter (· ≠ key)
  cards : ∀ other, other ≠ key → after.card other = before.card other
  /-- Of the card itself, only whether it is active may change. -/
  card : ∃ active, after.card key = { before.card key with active }
  pool : command ≠ .destroy → after.pool = before.pool
  destroyed : command = .destroy →
    before.head? = some key ∧ after.pool = before.pool.filter (· ≠ key)
  head : ∀ first, before.head? = some first → command ≠ .destroy →
    ((∃ name, command = .remove name) → first ≠ key) → after.head? = some first
  added : ∀ name, command = .add name → after.active key = true ∧
    if before.head? = some key then after.queue = before.queue
    else after.queue.count key = 1 ∧ ∃ place, after.queue[place]? = some key ∧
      place ≤ (before.queue.filter (· ≠ key)).length ∧
      (0 < place ∨ before.queue.filter (· ≠ key) = [])

/-! ## The other cards -/

theorem filter_ne_of_nodup {keys : List Nat} (h : keys.Nodup) (key : Nat) :
    keys.filter (· ≠ key) = keys.erase key := by
  rw [h.erase_eq_filter]
  refine List.filter_congr fun other _ => ?_
  by_cases heq : other = key <;> simp [heq]

theorem filter_queue_dequeue (catalog : Catalog) (key : Nat) :
    (catalog.dequeue key).queue.filter (· ≠ key) = catalog.queue.filter (· ≠ key) := by
  rw [dequeue, ← List.erase_filter]
  exact List.erase_of_not_mem (by simp)

theorem filter_queue_insertAt (catalog : Catalog) (key : Nat) (place : Int) :
    (catalog.insertAt key place).queue.filter (· ≠ key) = catalog.queue.filter (· ≠ key) := by
  have hkey : ∀ rest : List Nat, (key :: rest).filter (· ≠ key) = rest.filter (· ≠ key) :=
    fun rest => List.filter_cons_of_neg (by simp)
  simp only [insertAt]
  rw [List.filter_append, hkey, ← List.filter_append, List.take_append_drop]

theorem filter_queue_edit (catalog : Catalog) (key place : Nat) (command : Command) :
    (catalog.edit key place command).queue.filter (· ≠ key) = catalog.queue.filter (· ≠ key) := by
  cases command with
  | destroy => exact filter_queue_dequeue catalog key
  | remove name => exact filter_queue_dequeue (catalog.setActive key false) key
  | add name =>
    rw [edit]
    split
    · rfl
    · rw [filter_queue_insertAt]
      exact filter_queue_dequeue (catalog.setActive key true) key
  | chain name =>
    rw [edit, filter_queue_insertAt]
    split
    · rfl
    · exact filter_queue_dequeue catalog key
  | activate name | deactivate name | randomChain first second percent => rfl

/-! ## Flags -/

theorem card_setActive_of_ne (catalog : Catalog) (active : Bool) (hne : other ≠ key) :
    (catalog.setActive key active).card other = catalog.card other := by
  rw [setActive, card_modify, if_neg fun h => hne h.1]

/-- The cards after a command are those of a catalog in which at most one was activated or
deactivated. -/
theorem cards_edit (catalog : Catalog) (key place : Nat) (command : Command) :
    (catalog.edit key place command).cards = catalog.cards ∨
      ∃ active, (catalog.edit key place command).cards = (catalog.setActive key active).cards := by
  cases command with
  | destroy | randomChain first second percent => exact .inl rfl
  | remove name | deactivate name => exact .inr ⟨false, rfl⟩
  | activate name => exact .inr ⟨true, rfl⟩
  | add name =>
    rw [edit]
    split <;> exact .inr ⟨true, rfl⟩
  | chain name =>
    rw [edit]
    split <;> exact .inl rfl

theorem card_edit_of_ne (command : Command) (place : Nat) (hne : other ≠ key) :
    (catalog.edit key place command).card other = catalog.card other := by
  rcases cards_edit catalog key place command with hcards | ⟨active, hcards⟩
  · rw [card, hcards, card]
  · rw [card, hcards, ← card, card_setActive_of_ne catalog active hne]

theorem card_edit_self (catalog : Catalog) (key place : Nat) (command : Command) :
    ∃ active, (catalog.edit key place command).card key = { catalog.card key with active } := by
  rcases cards_edit catalog key place command with hcards | ⟨active, hcards⟩
  · refine ⟨(catalog.card key).active, ?_⟩
    rw [card, hcards, ← card]
  · rw [card, hcards, ← card, setActive, card_modify]
    split
    · exact ⟨active, rfl⟩
    · exact ⟨(catalog.card key).active, rfl⟩

/-- A card that is found inactive can be activated. -/
theorem active_setActive_of_findInactive {name : String}
    (h : catalog.findInactive? name = some key) : (catalog.setActive key true).active key = true := by
  have hinactive : catalog.active key = false := by
    have hfound := List.find?_some h
    simp only [Bool.and_eq_true, Bool.not_eq_true'] at hfound
    exact hfound.2
  -- there is an active card in the place of every key without a card
  have hsize : key < catalog.cards.size := by
    by_contra hsize
    rw [active, card, Array.getD_eq_getD_getElem?, Array.getElem?_eq_none (by omega)] at hinactive
    cases hinactive
  rw [active, setActive, card_modify, if_pos ⟨rfl, hsize⟩]

/-! ## The pool and the head of the queue -/

theorem mem_pool_of_sought (hwithin : catalog.queue ⊆ catalog.pool)
    (h : catalog.sought? command = some key) : key ∈ catalog.pool := by
  cases command with
  | destroy => exact hwithin (List.mem_of_head? h)
  | remove name => exact hwithin (List.mem_of_find?_eq_some h)
  | add name | activate name | deactivate name => exact List.mem_of_find?_eq_some h
  | chain name =>
    rw [sought?] at h
    split at h
    · cases h
    · exact List.mem_of_find?_eq_some h
  | randomChain first second percent => cases h

theorem pool_edit (hcommand : command ≠ .destroy) :
    (catalog.edit key place command).pool = catalog.pool := by
  cases command with
  | destroy => exact absurd rfl hcommand
  | add name | chain name =>
    rw [edit]
    split <;> rfl
  | remove name | activate name | deactivate name | randomChain first second percent => rfl

/-- Only destroying the first card and removing it take it out. -/
theorem not_takes (hsought : catalog.sought? command = some key) (hcommand : command ≠ .destroy)
    (hremove : (∃ name, command = .remove name) → catalog.head? ≠ some key) :
    ¬catalog.Takes command := by
  cases command with
  | destroy => exact absurd rfl hcommand
  | remove name =>
    intro htakes
    exact hremove ⟨name, rfl⟩ (htakes.symm.trans hsought)
  | _ => exact fun htakes => htakes

/-- A card that is put into a queue is at its place, or at the end. -/
theorem exists_place_insertAt (catalog : Catalog) (key place : Nat)
    (hplace : 0 < place ∨ catalog.queue = []) :
    ∃ index, (catalog.insertAt key place).queue[index]? = some key ∧
      index ≤ catalog.queue.length ∧ (0 < index ∨ catalog.queue = []) := by
  refine ⟨min place catalog.queue.length, ?_, Nat.min_le_right .., ?_⟩
  · have hindex : (min (place : Int) catalog.queue.length).toNat =
        min place catalog.queue.length := by omega
    have hlength : (catalog.queue.take (min place catalog.queue.length)).length =
        min place catalog.queue.length := by
      rw [List.length_take]
      omega
    rw [insertAt, if_neg (by omega), hindex, List.getElem?_append_right (by omega), hlength,
      Nat.sub_self]
    rfl
  · rcases hplace with hplace | hempty
    · by_cases hqueue : catalog.queue = []
      · exact .inr hqueue
      · have hlength := List.length_pos_iff.mpr hqueue
        omega
    · exact .inr hempty

/-! ## One card -/

/-- A command that has found its card works on this card alone. -/
theorem frames_edit (htidy : before.Tidy) (hsought : before.sought? command = some key)
    (hplace : 0 < place ∨ before.queue.erase key = []) :
    Frames command key before (before.edit key place command) where
  -- each field is one clause of what a command does to its card
  pooled := mem_pool_of_sought htidy.within hsought
  others := filter_queue_edit before key place command
  cards := fun _ hne => card_edit_of_ne command place hne
  card := card_edit_self before key place command
  pool := pool_edit
  destroyed := by
    rintro rfl
    refine ⟨hsought, ?_⟩
    rw [filter_ne_of_nodup htidy.pool]
    rfl
  head := by
    intro first hhead hcommand hremove
    have htakes := not_takes hsought hcommand fun h heq =>
      hremove h (Option.some.inj (hhead.symm.trans heq))
    exact (head?_edits_iff (.done hsought hplace) hhead).mpr fun h => htakes h.1
  added := by
    rintro name rfl
    have hactive := active_setActive_of_findInactive hsought
    rw [edit, filter_ne_of_nodup htidy.queue]
    by_cases hhead : before.head? = some key
    · rw [if_pos hhead, if_pos hhead]
      exact ⟨hactive, rfl⟩
    · rw [if_neg hhead, if_neg hhead]
      have hgone : (before.queue.erase key).count key = 0 :=
        List.count_eq_zero.mpr fun h => (htidy.queue.mem_erase_iff.mp h).1 rfl
      refine ⟨hactive, ?_, exists_place_insertAt _ key place hplace⟩
      rw [count_insertAt, if_pos rfl]
      exact congrArg (· + 1) hgone

/-- A random chain leaves alone what the chain does that chance has decided on. -/
theorem Frames.of_decided (hdecided : decided ∈ command.decided)
    (h : Frames decided key before after) : Frames command key before after := by
  rcases Command.decided_cases hdecided with rfl | ⟨⟨first, second, percent, rfl⟩, name, rfl⟩
  · exact h
  · exact {
      pooled := h.pooled
      others := h.others
      cards := h.cards
      card := h.card
      pool := fun _ => h.pool (by simp)
      destroyed := fun heq => nomatch heq
      head := fun front hhead _ _ => h.head front hhead (by simp) (by simp)
      added := fun _ heq => nomatch heq }

end Catalog

namespace Game

/-! ## Special effects -/

/-- What came of a special effect: it failed, reported that and left the catalog as it is, or it was
carried out on one card of the pool and left the others alone. -/
def Framed (text : String) (before after : Game) (result : CommandResult) : Prop :=
  (result.success = false ∧ after.catalog = before.catalog ∧
      ∃ code message, result.error = some (code, message) ∧
        after.diagnostics = before.diagnostics.report ⟨code, message⟩) ∨
    (result.success = true ∧ after.diagnostics = before.diagnostics ∧
      ∃ command key, Command.parse text = .ok command ∧
        Catalog.Frames command key before.catalog after.catalog)

/-- A special effect never ends in a fault, and nothing but the catalog, the diagnostics and chance is
changed by it.  If every card is in the pool once and what is queued is queued once and comes from the
pool, it fails or works on one card alone. -/
theorem run_runSpecial_framed (game : Game) (text : String) (hpool : game.catalog.pool.Nodup)
    (hqueue : game.catalog.queue.Nodup) (hwithin : game.catalog.queue ⊆ game.catalog.pool) :
    ∃ result catalog diagnostics generator,
      let after := { game with catalog, diagnostics, generator }
      (runSpecial text).run.run game = (.ok result, after) ∧ Framed text game after result := by
  unfold runSpecial
  split
  next command hparse =>
    cases answers_execute command game with
    | refused hnone hmakes =>
      obtain ⟨result, generator, hfailed, hrun⟩ := hmakes
      obtain ⟨code, message, herror, hreported⟩ :=
        CommandResult.reported_of_failed hfailed game.diagnostics
      exact ⟨result, _, _, generator, hrun, .inl ⟨hfailed, rfl, code, message, herror, hreported⟩⟩
    | done place hsought hplace hmakes =>
      obtain ⟨result, generator, hsuccess, hrun⟩ := hmakes
      have hframes := Catalog.frames_edit ⟨hpool, hqueue, hwithin⟩ hsought hplace
      exact ⟨result, _, _, generator, hrun, .inr ⟨hsuccess,
        CommandResult.reported_of_success hsuccess game.diagnostics,
        command, _, hparse, hframes.of_decided (command.rolled_mem_decided _)⟩⟩
  next e hparse =>
    exact ⟨_, _, _, _, rfl, .inl ⟨rfl, rfl, _, _, rfl, rfl⟩⟩

/-- A game of an active card and one that is not, with the active one queued. -/
def pair : Game :=
  { Game.empty {} ⟨none, [], 0, 0⟩ (.ofScript []) with
    catalog := .ofCards [{ name := "a", copy := 1 }, { name := "b", copy := 1, active := false }] }

/-- The card that is not active is added. -/
theorem pair_framed :
    ∃ result after, (runSpecial "add(b)").run.run pair = (.ok result, after) ∧
      Framed "add(b)" pair after result ∧ result.success = true := by
  obtain ⟨result, catalog, diagnostics, generator, hrun, hframed⟩ :=
    run_runSpecial_framed pair "add(b)" (by decide +kernel) (by decide +kernel) (by decide +kernel)
  refine ⟨result, _, hrun, hframed, ?_⟩
  have hadded : ((runSpecial "add(b)").run.run pair).1.toOption.map (·.success) = some true := by
    decide +kernel
  rw [hrun] at hadded
  exact Option.some.inj hadded

end Game

end EventDeck
