import EventDeck.Proofs.Service.Calls

/-!
# Turns are complete

In every course of a new game the cards are gone through one after the other: each is presented,
revealed, accepted and discarded before the next one is presented.  `Accounted` says so of what has
happened so far and of where the scheduler stands; every act preserves it.

For a session this means that input is open exactly while a selection is awaited, that the turns
account for all presentations, and that a selection is accepted for the latest presentation only,
after its reveal (`turns_accounted`).
-/

namespace EventDeck

namespace Game

/-! ## Rounds -/

/-- The acts that belong to the turn of a card. -/
def Act.ofTurn : Act → Bool
  | present _ | reveal | accept _ | discard _ => true
  | _ => false

/-- What happens to a card in its turn. -/
def round (key : Nat) : List Act :=
  [.present key, .reveal, .accept key, .discard key]

/-- What has happened to the current card so far. -/
def pending (scheduler : Scheduler) : List Act :=
  match scheduler.current, scheduler.phase with
  | none, _ => []
  | some key, .presenting => [.present key]
  | some key, .awaitingAction => [.present key, .reveal]
  | some key, _ => [.present key, .reveal, .accept key]

/-- The scheduler stands where the acts so far have led it, round by round. -/
structure Accounted (acts : List Act) (scheduler : Scheduler) : Prop where
  /-- Input is open while a selection is awaited. -/
  gate : scheduler.inputOpen = true ↔ scheduler.phase = .awaitingAction
  /-- While a card is shown or resolved it is the current one. -/
  shown : Shown scheduler → scheduler.current.isSome
  turning : scheduler.current.isSome → Shown scheduler ∨ scheduler.phase = .resolving
  /-- Every turn that is over was a round. -/
  rounds : ∃ keys, keys.length = scheduler.turn ∧
    scheduler.presented = (keys ++ scheduler.current.toList).reverse ∧
    acts.filter Act.ofTurn = keys.flatMap round ++ pending scheduler

variable {history : List Act} {scheduler next : Scheduler} {act : Act} {key : Nat}
  {before after first last : Game} {stages : List Stage}

theorem accounted_initial : Accounted [] {} where
  gate := by decide
  shown := by simp [Shown]
  turning := by simp
  rounds := ⟨[], rfl, rfl, rfl⟩

namespace Accounted

/-- Between two turns there is no current card. -/
theorem current_eq_none (h : Accounted history scheduler)
    (hphase : ¬(Shown scheduler ∨ scheduler.phase = .resolving)) : scheduler.current = none := by
  by_contra hcurrent
  exact hphase (h.turning (Option.isSome_iff_ne_none.mpr hcurrent))

/-- Input is not open outside of a turn. -/
theorem inputOpen_eq_false (h : Accounted history scheduler)
    (hphase : scheduler.phase ≠ .awaitingAction) : scheduler.inputOpen = false := by
  by_contra hopen
  exact hphase (h.gate.mp (by simpa using hopen))

/-- An act that leaves the scheduler where it is. -/
theorem stay (h : Accounted history scheduler) (hact : act.ofTurn = false) :
    Accounted (history ++ [act]) scheduler := by
  obtain ⟨keys, hlength, hpresented, hrounds⟩ := h.rounds
  refine ⟨h.gate, h.shown, h.turning, keys, hlength, hpresented, ?_⟩
  simp [List.filter_append, hact, hrounds]

/-- An act between two turns. -/
theorem between (h : Accounted history scheduler) (hact : act.ofTurn = false)
    (hcurrent : scheduler.current = none) (hcurrent' : next.current = none)
    (hturn : next.turn = scheduler.turn) (hpresented' : next.presented = scheduler.presented)
    (hclosed : next.inputOpen = false) (hphase : ¬Shown next) :
    Accounted (history ++ [act]) next := by
  obtain ⟨keys, hlength, hpresented, hrounds⟩ := h.rounds
  refine ⟨⟨fun hopen => ?_, fun hawaiting => absurd (.inr hawaiting) hphase⟩,
    fun hshown => absurd hshown hphase, fun hsome => ?_, keys, hlength.trans hturn.symm, ?_, ?_⟩
  · rw [hclosed] at hopen
    cases hopen
  · rw [hcurrent'] at hsome
    cases hsome
  · rw [hpresented', hpresented, hcurrent, hcurrent']
  · rw [List.filter_append, hrounds, pending, pending, hcurrent, hcurrent']
    simp [hact]

end Accounted

/-- Every act keeps the accounts right. -/
theorem Accounted.step (h : Accounted history before.scheduler) (hstep : Step before act after) :
    Accounted (history ++ [act]) after.scheduler := by
  obtain ⟨keys, hlength, hpresented, hrounds⟩ := h.rounds
  have hready := hstep.ready
  rw [hstep.scheduler]
  -- Of a turn are presentation, reveal, choice and discard: the first three make what is pending longer
  -- by one, and the last one makes a whole round of it.
  cases act with
  | evaluate | special _ | check _ => exact h.stay rfl
  | begin =>
    have hcurrent : before.scheduler.current = none := by
      rcases hready with hphase | hphase | hphase | ⟨-, hcurrent⟩
      · exact h.current_eq_none (by simp [Shown, hphase])
      · exact h.current_eq_none (by simp [Shown, hphase])
      · exact h.current_eq_none (by simp [Shown, hphase])
      · exact hcurrent
    have hclosed : before.scheduler.inputOpen = false := by
      refine h.inputOpen_eq_false fun hawaiting => ?_
      simpa [hcurrent] using h.shown (.inr hawaiting)
    exact h.between rfl hcurrent hcurrent rfl rfl hclosed (by simp [Shown, Act.next])
  | reshuffle =>
    have hphase : before.scheduler.phase = .checkingConditions := hready
    have hcurrent := h.current_eq_none (by simp [Shown, hphase])
    have hclosed := h.inputOpen_eq_false (by simp [hphase])
    exact h.between rfl hcurrent hcurrent rfl rfl hclosed (by simp [Shown, Act.next])
  | halt =>
    have hcurrent : before.scheduler.current = none := by
      rcases hready with hphase | hphase
      · exact h.current_eq_none (by simp [Shown, hphase])
      · exact h.current_eq_none (by simp [Shown, hphase])
    exact h.between rfl hcurrent rfl rfl rfl rfl (by simp [Shown, Act.next])
  | present key =>
    have hphase : before.scheduler.phase = .checkingConditions := hready
    have hcurrent := h.current_eq_none (by simp [Shown, hphase])
    rw [hcurrent] at hpresented
    rw [pending, hcurrent] at hrounds
    refine ⟨by simp [Act.next], fun _ => rfl, fun _ => .inl (.inl rfl), keys, hlength, ?_, ?_⟩
    · simp [Act.next, hpresented]
    · simp [List.filter_append, hrounds, Act.ofTurn, pending, Act.next]
  | reveal =>
    have hphase : before.scheduler.phase = .presenting := hready
    obtain ⟨key, hcurrent⟩ := Option.isSome_iff_exists.mp (h.shown (.inl hphase))
    rw [pending, hcurrent, hphase] at hrounds
    refine ⟨by simp [Act.next], fun _ => ?_, fun _ => .inl (.inr rfl), keys, hlength, hpresented, ?_⟩
    · simp [Act.next, hcurrent]
    · simp [List.filter_append, hrounds, Act.ofTurn, pending, Act.next, hcurrent]
  | accept key =>
    obtain ⟨hphase, -, hcurrent⟩ := hready
    rw [pending, hcurrent, hphase] at hrounds
    refine ⟨by simp [Act.next], fun hshown => ?_, fun _ => .inr rfl, keys, hlength, hpresented, ?_⟩
    · simp [Act.next, hcurrent]
    · simp [List.filter_append, hrounds, Act.ofTurn, pending, Act.next, hcurrent]
  | discard key =>
    obtain ⟨hphase, hcurrent⟩ := hready
    rw [pending, hcurrent, hphase] at hrounds
    have hclosed := h.inputOpen_eq_false (by simp [hphase])
    refine ⟨by simp [Act.next, hclosed, hphase], by simp [Shown, Act.next, hphase],
      by simp [Act.next], keys ++ [key], by simp [Act.next, hlength], ?_, ?_⟩
    · simp [Act.next, hpresented, hcurrent]
    · simp [List.filter_append, hrounds, Act.ofTurn, pending, Act.next, round]

/-- A course keeps the accounts right. -/
theorem Accounted.course (h : Accounted history first.scheduler)
    (hcourse : Course first stages last) : Accounted (history ++ acts stages) last.scheduler := by
  induction hcourse with
  | done => rwa [acts, List.map_nil, List.append_nil]
  | step _ hstep ih =>
    rw [acts_concat, ← List.append_assoc]
    exact ih.step hstep

/-- The accounts of a game that starts from nothing are right in every course. -/
theorem Course.accounted (h : Course first stages last) (hfirst : first.scheduler = {}) :
    Accounted (acts stages) last.scheduler := by
  have hinitial : Accounted [] first.scheduler := hfirst ▸ accounted_initial
  exact hinitial.course h

/-- Every presentation belongs to a turn that is over, or to the card that is current. -/
theorem Accounted.length_presented (h : Accounted history scheduler) :
    scheduler.presented.length =
      scheduler.turn + if scheduler.current.isSome then 1 else 0 := by
  obtain ⟨keys, hlength, hpresented, -⟩ := h.rounds
  rw [hpresented, List.length_reverse, List.length_append, hlength]
  cases scheduler.current <;> rfl

/-- The current card is the one that was presented last. -/
theorem Accounted.head?_presented (h : Accounted history scheduler)
    (hcurrent : scheduler.current = some key) : scheduler.presented.head? = some key := by
  obtain ⟨keys, -, hpresented, -⟩ := h.rounds
  rw [hpresented, hcurrent]
  simp

end Game

/-! ## Sessions -/

namespace Service

open Game

variable {service : Service} {request : CreateRequest} {start : Game}

/-- After any calls to a session, whether they succeed or not: input is open exactly while a selection
is awaited; the turns that are over and the current card account for all presentations; and what has
happened are whole rounds and a beginning of the next.  A selection is accepted only when the latest
presentation has been revealed, and it resolves the card of that presentation. -/
theorem turns_accounted (fresh : service.find? service.nextId = none)
    (built : Session.buildGame request.deck service.settings (service.chance request.seed) =
      .ok start) (calls : List Call) :
    (∃ stages game, Plays service request start calls stages game) ∧
    ∀ stages game, Plays service request start calls stages game →
      (game.scheduler.inputOpen = true ↔ game.scheduler.phase = .awaitingAction) ∧
      game.scheduler.presented.length =
        game.scheduler.turn + (if game.scheduler.current.isSome then 1 else 0) ∧
      (∃ keys, keys.length = game.scheduler.turn ∧
        game.scheduler.presented = (keys ++ game.scheduler.current.toList).reverse ∧
        (acts stages).filter Act.ofTurn = keys.flatMap round ++ pending game.scheduler) ∧
      (∀ choice key, game.Accepts choice key →
        game.scheduler.presented.head? = some key ∧
        pending game.scheduler = [.present key, .reveal]) ∧
      ∀ choice result after, (Game.select silent choice).run.run game = (.ok result, after) →
        result.success = true →
        ∃ key, game.Accepts choice key ∧ result.card = some key := by
  refine ⟨exists_plays fresh built calls, fun stages game hplays => ?_⟩
  have hfirst : start.scheduler = {} := (Session.builds_of_buildGame built).scheduler
  have haccounted := hplays.course.accounted hfirst
  -- all of it is in the accounts at the end of the course; acceptance is read off the phase
  refine ⟨haccounted.gate, haccounted.length_presented, haccounted.rounds,
    fun choice key haccepts => ?_, fun choice result after hrun hsuccess => ?_⟩
  · obtain ⟨hphase, -, hcurrent⟩ := haccepts.ready
    refine ⟨haccounted.head?_presented hcurrent, ?_⟩
    rw [pending, hcurrent, hphase]
  · obtain ⟨key, haccepts⟩ := accepts_of_select hrun hsuccess
    exact ⟨key, haccepts, haccepts.card hrun⟩

/-- A card is resolved, and after a reshuffle it is presented again. -/
theorem stroll_accounted :
    ∃ start stages game,
      Session.buildGame stroll.deck empty.settings (empty.chance stroll.seed) = .ok start ∧
      Plays empty stroll start [.reveal, .select ⟨some 0⟩] stages game ∧
      game.scheduler.turn = 1 ∧ game.scheduler.presented.length = 2 ∧
      ∃ keys : List Nat, keys.length = 1 ∧
        (acts stages).filter Act.ofTurn = keys.flatMap round ++ pending game.scheduler := by
  obtain ⟨start, hbuilt⟩ := exists_built_stroll
  obtain ⟨⟨stages, game, hplays⟩, haccounts⟩ :=
    turns_accounted fresh_empty hbuilt [.reveal, .select ⟨some 0⟩]
  obtain ⟨-, hpresented, ⟨keys, hlength, -, hacts⟩, -⟩ := haccounts stages game hplays
  have hchecked : (empty.played? stroll [.reveal, .select ⟨some 0⟩]).map (fun game =>
      (game.scheduler.turn, game.scheduler.current)) = some (1, some 0) := by
    decide +kernel
  rw [hplays.played] at hchecked
  obtain ⟨hturn, hcurrent⟩ := Prod.mk.inj (Option.some.inj hchecked)
  rw [hturn, hcurrent] at hpresented
  exact ⟨start, stages, game, hbuilt, hplays, hturn, hpresented, keys, hlength.trans hturn, hacts⟩

end Service

end EventDeck
