import EventDeck.Game.Commands
import EventDeck.Proofs.Catalog
import EventDeck.Proofs.Game.Run

/-!
# What commands do

A command looks for a card and does something with it; when there is no such card, it is refused.
`Catalog.sought?` is the card, `Catalog.edit` what is done with it.  A command changes nothing else
of a game than the catalog, apart from reports and chance, and it never ends in a fault
(`commands_execute`).
-/

namespace EventDeck

namespace Catalog

/-- The card that a command works on. -/
def sought? (catalog : Catalog) : Command → Option Nat
  | .destroy => catalog.head?
  | .add name | .activate name => catalog.findInactive? name
  | .remove name => catalog.findQueued? name
  | .deactivate name => catalog.findActive? name
  | .chain name => if catalog.queue.isEmpty then none else catalog.findFirst? name
  | .randomChain .. => none

/-- What a command does with the card that it works on; `place` is where an added card is put. -/
def edit (catalog : Catalog) (key place : Nat) : Command → Catalog
  | .destroy => catalog.destroy key
  | .add _ =>
    let activated := catalog.setActive key true
    if catalog.head? = some key then activated
    else (activated.dequeue key).insertAt key place
  | .remove _ => (catalog.setActive key false).dequeue key
  | .activate _ => catalog.setActive key true
  | .deactivate _ => catalog.setActive key false
  | .chain _ =>
    (if catalog.head? = some key then catalog else catalog.dequeue key).insertAt key 1
  | .randomChain .. => catalog

/-- A command makes one catalog of another.  Nothing is put in front of a queue that is not empty. -/
inductive Edits (command : Command) (before : Catalog) : Catalog → Prop
  | refused (h : before.sought? command = none) : Edits command before before
  | done {key place : Nat} (h : before.sought? command = some key)
    (hplace : 0 < place ∨ before.queue.erase key = []) :
    Edits command before (before.edit key place command)

/-- A command changes flags, order and membership, and nothing that is written on cards. -/
theorem sameFaces_edit (catalog : Catalog) (key place : Nat) (command : Command) :
    SameFaces catalog (catalog.edit key place command) := by
  cases command with
  | add name =>
    rw [edit]
    split
    · exact .setActive ..
    · exact (SameFaces.setActive catalog key true).trans (.of_cards rfl)
  | remove name => exact (SameFaces.setActive catalog key false).trans (.of_cards rfl)
  | activate name => exact .setActive ..
  | deactivate name => exact .setActive ..
  | chain name =>
    rw [edit]
    split <;> exact .of_cards rfl
  | destroy => exact .of_cards rfl
  | randomChain first second percent => exact .refl _

theorem Edits.sameFaces {command : Command} {before after : Catalog}
    (h : Edits command before after) : SameFaces before after := by
  cases h with
  | refused => exact .refl _
  | done => exact sameFaces_edit ..

end Catalog

/-- What a command may come to when chance has decided. -/
def Command.decided : Command → List Command
  | .randomChain first second _ => [.chain first, .chain second]
  | command => [command]

/-- Chance decides between two chained names and nothing else. -/
theorem Command.decided_cases {command decided : Command} (h : decided ∈ command.decided) :
    decided = command ∨
      (∃ first second percent, command = .randomChain first second percent) ∧
        ∃ name, decided = .chain name := by
  cases command with
  | randomChain first second percent =>
    refine .inr ⟨⟨first, second, percent, rfl⟩, ?_⟩
    have hchains : decided = .chain first ∨ decided = .chain second := by
      simpa [Command.decided] using h
    exact hchains.elim (fun h => ⟨first, h⟩) fun h => ⟨second, h⟩
  | _ => exact .inl (List.mem_singleton.mp h)

/-- What a command comes to when the generator has decided. -/
def Command.rolled (generator : Generator) : Command → Command
  | .randomChain first second percent =>
    .chain (if Float.ofNat (generator.below 100).1 < percent then first else second)
  | command => command

theorem Command.rolled_mem_decided (command : Command) (generator : Generator) :
    command.rolled generator ∈ command.decided := by
  cases command with
  | randomChain first second percent =>
    rw [Command.rolled, Command.decided]
    split <;> simp
  | _ => exact List.mem_singleton_self _

namespace CommandResult

/-- The sink after a command: a refusal is reported. -/
def reported (result : CommandResult) (sink : Diagnostics) : Diagnostics :=
  match result.error with
  | none => sink
  | some (code, message) => sink.report ⟨code, message⟩

/-- A refusal reports what its result says. -/
theorem reported_of_failed {result : CommandResult} (h : result.success = false)
    (sink : Diagnostics) : ∃ code message, result.error = some (code, message) ∧
      result.reported sink = sink.report ⟨code, message⟩ := by
  obtain ⟨_, error, _⟩ := result
  cases error with
  | none => cases h
  | some report => exact ⟨report.1, report.2, rfl, rfl⟩

theorem reported_of_success {result : CommandResult} (h : result.success = true)
    (sink : Diagnostics) : result.reported sink = sink := by
  obtain ⟨_, error, _⟩ := result
  cases error with
  | none => rfl
  | some report => cases h

end CommandResult

namespace Game

variable {command given : Command} {game : Game} {catalog : Catalog} {success : Bool}

/-! ## Running -/

/-- A request that is carried out or refused leaves a game with a catalog; a refusal is reported.
Nothing else changes but chance. -/
def Makes (catalog : Catalog) (success : Bool) (request : Play CommandResult) (game : Game) : Prop :=
  ∃ result generator, result.success = success ∧
    request.run.run game = (.ok result,
      { game with catalog, diagnostics := result.reported game.diagnostics, generator })

/-- The parts of a command one after the other; each is true by its definition. -/
theorem makes_get_bind {f : Game → Play CommandResult} (h : Makes catalog success (f game) game) :
    Makes catalog success (get >>= f) game :=
  h

theorem makes_changeCatalog {change : Catalog → Catalog} {f : Unit → Play CommandResult}
    (h : Makes catalog success (f ()) { game with catalog := change game.catalog }) :
    Makes catalog success (changeCatalog change >>= f) game :=
  h

/-- A place that is drawn: the generator goes on, the catalog stays. -/
theorem makes_drawBelow {bound : Nat} {place : Nat → Nat} {f : Nat → Play CommandResult}
    (h : Makes catalog success (f (place (game.generator.below bound).1))
      { game with generator := (game.generator.below bound).2 }) :
    Makes catalog success (place <$> drawBelow bound >>= f) game :=
  h

theorem makes_ite {c : Prop} [Decidable c] {x y : Play CommandResult}
    (hx : c → Makes catalog success x game) (hy : ¬c → Makes catalog success y game) :
    Makes catalog success (if c then x else y) game := by
  split
  next h => exact hx h
  next h => exact hy h

/-- A command that is carried out reports nothing. -/
theorem makes_applied (given : Command) (key : Nat) (words : String → String) (game : Game) :
    Makes game.catalog true (do applied given (words (← idOf key))) game :=
  ⟨_, game.generator, rfl, rfl⟩

/-- A refusal leaves the catalog and makes one report. -/
theorem makes_refused (given : Option Command) (code : DiagnosticCode) (message : String)
    (game : Game) : Makes game.catalog false (refused given code message) game :=
  ⟨_, game.generator, rfl, rfl⟩

/-- A request answers a command: it is refused for want of a card, or it does with the card what it is
meant to do.  Nothing is put in front of a queue that is not empty. -/
inductive Answers (command : Command) (request : Play CommandResult) (game : Game) : Prop
  | refused (h : game.catalog.sought? command = none)
    (hmakes : Makes game.catalog false request game)
  | done {key : Nat} (place : Nat) (h : game.catalog.sought? command = some key)
    (hplace : 0 < place ∨ game.catalog.queue.erase key = [])
    (hmakes : Makes (game.catalog.edit key place command) true request game)

theorem answers_get_bind {f : Game → Play CommandResult} (h : Answers command (f game) game) :
    Answers command (get >>= f) game := by
  cases h with
  | refused h hmakes => exact .refused h hmakes
  | done place h hplace hmakes => exact .done place h hplace hmakes

theorem answers_drawBelow {bound : Nat} {f : Nat → Play CommandResult}
    (h : Answers command (f (game.generator.below bound).1)
      { game with generator := (game.generator.below bound).2 }) :
    Answers command (drawBelow bound >>= f) game := by
  cases h with
  | refused h hmakes => exact .refused h hmakes
  | done place h hplace hmakes => exact .done place h hplace hmakes

/-- A command without a card is refused. -/
theorem answers_refused (given : Option Command) (code : DiagnosticCode) (message : String)
    (h : game.catalog.sought? command = none) :
    Answers command (refused given code message) game :=
  .refused h (makes_refused given code message game)

/-- A command that makes one change to the catalog for the card that it looks for. -/
theorem answers_changed {key : Nat} {change : Catalog → Catalog} (given : Command)
    (words : String → String) (h : game.catalog.sought? command = some key)
    (hedit : game.catalog.edit key 1 command = change game.catalog) :
    Answers command (do changeCatalog change; applied given (words (← idOf key))) game := by
  refine .done 1 h (.inl Nat.one_pos) (makes_changeCatalog ?_)
  rw [hedit]
  exact makes_applied given key words _

/-! ## Each command -/

theorem answers_runDestroy (given : Command) (game : Game) :
    Answers .destroy (runDestroy given) game := by
  refine answers_get_bind ?_
  split
  next h => exact answers_refused _ _ _ h
  next key h => exact answers_changed given _ h rfl

/-- An added card goes behind the head: to a place that is drawn, or alone into an empty queue; a head
stays where it is. -/
theorem answers_runAdd (given : Command) (name : String) (game : Game) :
    Answers (.add name) (runAdd given name) game := by
  refine answers_get_bind ?_
  split
  next h => exact answers_refused _ _ _ h
  next key h =>
    -- the card is the head, or the queue without it is empty, or it is not
    by_cases hhead : game.catalog.head? = some key
    · refine .done 1 h (.inl Nat.one_pos) (makes_changeCatalog (makes_get_bind ?_))
      rw [Catalog.edit, if_pos hhead]
      exact makes_ite (fun _ => makes_applied given key _ _) fun hother => absurd hhead hother
    · by_cases hempty : game.catalog.queue.erase key = []
      · refine .done 0 h (.inr hempty) (makes_changeCatalog (makes_get_bind ?_))
        rw [Catalog.edit, if_neg hhead]
        refine makes_ite (fun hother => absurd hother hhead) fun _ => ?_
        refine makes_changeCatalog (makes_get_bind (makes_ite (fun _ => ?_) fun hlength => ?_))
        · rw [pure_bind]
          exact makes_changeCatalog (makes_applied given key _ _)
        · exact absurd (List.length_eq_zero_iff.mpr hempty) hlength
      · -- a place is drawn behind the first of the queue
        let place := (game.generator.below (game.catalog.queue.erase key).length).1 + 1
        refine .done place h (.inl (Nat.succ_pos _)) (makes_changeCatalog (makes_get_bind ?_))
        rw [Catalog.edit, if_neg hhead]
        refine makes_ite (fun hother => absurd hother hhead) fun _ => ?_
        refine makes_changeCatalog (makes_get_bind (makes_ite (fun hlength => ?_) fun _ => ?_))
        · exact absurd (List.length_eq_zero_iff.mp hlength) hempty
        · refine makes_drawBelow (makes_changeCatalog ?_)
          exact makes_applied given key _ _

theorem answers_runRemove (given : Command) (name : String) (game : Game) :
    Answers (.remove name) (runRemove given name) game := by
  refine answers_get_bind ?_
  split
  next h => exact answers_refused _ _ _ h
  next key h => exact answers_changed given _ h rfl

theorem answers_runActivate (given : Command) (name : String) (game : Game) :
    Answers (.activate name) (runActivate given name) game := by
  refine answers_get_bind ?_
  split
  next h => exact answers_refused _ _ _ h
  next key h => exact answers_changed given _ h rfl

theorem answers_runDeactivate (given : Command) (name : String) (game : Game) :
    Answers (.deactivate name) (runDeactivate given name) game := by
  refine answers_get_bind ?_
  split
  next h => exact answers_refused _ _ _ h
  next key h => exact answers_changed given _ h rfl

/-- A chained card goes right behind the head, from wherever it was; the head itself is queued a second
time. -/
theorem answers_runChain (given : Command) (name : String) (game : Game) :
    Answers (.chain name) (runChain given name) game := by
  refine answers_get_bind ?_
  split
  next h =>
    have hsought : game.catalog.sought? (.chain name) = none := by
      rw [Catalog.sought?, h, ite_self]
    exact answers_refused _ _ _ hsought
  next key h =>
    refine answers_get_bind ?_
    dsimp only
    split
    next hempty => exact answers_refused _ _ _ (if_pos hempty)
    next hempty =>
      have hsought : game.catalog.sought? (.chain name) = some key := (if_neg hempty).trans h
      refine .done 1 hsought (.inl Nat.one_pos) ?_
      rw [Catalog.edit]
      split
      · exact makes_changeCatalog (makes_applied given key _ _)
      · exact makes_changeCatalog (makes_changeCatalog (makes_applied given key _ _))

/-- A command is carried out or refused, and never ends in a fault. -/
theorem answers_execute (command : Command) (game : Game) :
    Answers (command.rolled game.generator) (execute command) game := by
  cases command with
  | destroy => exact answers_runDestroy _ game
  | add name => exact answers_runAdd _ name game
  | remove name => exact answers_runRemove _ name game
  | activate name => exact answers_runActivate _ name game
  | deactivate name => exact answers_runDeactivate _ name game
  | chain name => exact answers_runChain _ name game
  | randomChain first second percent => exact answers_drawBelow (answers_runChain _ _ _)

/-- A request that works as a command on the catalog. -/
def Commands (command : Command) (request : Play CommandResult) (game : Game) : Prop :=
  ∃ catalog, game.catalog.Edits command catalog ∧ ∃ result diagnostics generator,
    request.run.run game = (.ok result, { game with catalog, diagnostics, generator })

/-- What a command answers, with the texts and the chance left out. -/
theorem Answers.commands {request : Play CommandResult} (h : Answers command request game) :
    Commands command request game := by
  cases h with
  | refused h hmakes =>
    obtain ⟨result, generator, -, hrun⟩ := hmakes
    exact ⟨_, .refused h, result, _, generator, hrun⟩
  | done place h hplace hmakes =>
    obtain ⟨result, generator, -, hrun⟩ := hmakes
    exact ⟨_, .done h hplace, result, _, generator, hrun⟩

/-- A command changes nothing else of a game than the catalog, reports and chance. -/
theorem commands_execute (command : Command) (game : Game) :
    ∃ decided ∈ command.decided, Commands decided (execute command) game :=
  ⟨_, command.rolled_mem_decided _, (answers_execute command game).commands⟩

end Game

end EventDeck
