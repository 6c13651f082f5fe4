import EventDeck.Proofs.Game.Drawless
import EventDeck.Proofs.Terminal.Entries
import EventDeck.Terminal.Table

/-!
# Whole plays

A play goes through the lines of the input one by one: before each the player is shown something and
asked, and then the line is answered, until play is over, the lines are used up, the player leaves or a
line is a fault.  `Played` says so of a log of rounds.

Between two lines play has halted, or input is open for the current card, when that was so at the
beginning and the game draws nothing (`Seated`); such a play can always go on (`exists_played`).  The
loop over the lines does what the log says (`Played.run_rounds`), every turn that is counted is in the
log (`Played.turn`), and the only faults are misread lines (`Played.broken_iff`).
-/

namespace EventDeck.Terminal

open Game

variable {turns : Option Int} {game asked before after last : Game} {shown line written : String}
  {entry : Entry} {input : List String}

/-! ## Between two lines -/

/-- Something was drawn, and not all turns have been played. -/
structure GoesOn (turns : Option Int) (scheduler : Scheduler) : Prop where
  drawn : scheduler.phase ≠ .halted
  left : ∀ limit, turns = some limit → (scheduler.turn : Int) < limit

theorem run_goesOn (turns : Option Int) (game : Game) :
    ∃ goes, (goesOn turns).run.run game = (.ok goes, game) ∧
      (goes = true ↔ GoesOn turns game.scheduler) := by
  refine ⟨_, rfl, ?_⟩
  rw [Bool.and_eq_true, bne_iff_ne, Option.all_eq_true]
  constructor
  · rintro ⟨hdrawn, hleft⟩
    exact ⟨hdrawn, fun limit hlimit => of_decide_eq_true (hleft limit hlimit)⟩
  · rintro ⟨hdrawn, hleft⟩
    exact ⟨hdrawn, fun limit hlimit => decide_eq_true (hleft limit hlimit)⟩

/-- A game that draws nothing, in which play has halted or input is open for the current card. -/
structure Seated (game : Game) : Prop extends game.Drawless where
  reveals : game.settings.autoReveal = true
  stands : Halted game.scheduler ∨ ∃ key, (Act.accept key).Ready game.scheduler

theorem Seated.of_comesToRest (h : game.Drawless) (hreveals : game.settings.autoReveal = true)
    (hrest : ComesToRest true game) : Seated game where
  toDrawless := h
  reveals := hreveals
  stands := hrest.imp_right fun ⟨key, hpresents⟩ =>
    ⟨key, hpresents.phase, hpresents.input, hpresents.current⟩

theorem Seated.of_steady (h : Seated before) (hsteady : Steady before after) : Seated after where
  toDrawless := h.toDrawless.of_frame hsteady.toFrame
  reveals := hsteady.settings ▸ h.reveals
  stands := hsteady.scheduler ▸ h.stands

theorem Seated.of_diagnostics (h : Seated game) (diagnostics : Diagnostics) :
    Seated { game with diagnostics } :=
  h.of_steady (steady_diagnostics game diagnostics)

/-- Input is open for a card while play goes on. -/
theorem Seated.ready (h : Seated game) (hon : GoesOn turns game.scheduler) :
    ∃ key, (Act.accept key).Ready game.scheduler :=
  h.stands.resolve_left fun hhalted => hon.drawn hhalted.phase

/-! ## Asking -/

/-- The player is asked, while a card is current.  Nothing is changed by that but reports. -/
structure Asks (turns : Option Int) (game : Game) (shown : String) (asked : Game) : Prop where
  goesOn : GoesOn turns game.scheduler
  current : ∃ key, game.scheduler.current = some key
  run : (ask turns).run.run game = (.ok (some shown), asked)
  reports : ∃ diagnostics, asked = { game with diagnostics }

theorem run_ask_over (h : ¬GoesOn turns game.scheduler) :
    (ask turns).run.run game = (.ok none, game) := by
  obtain ⟨goes, hrun, hgoes⟩ := run_goesOn turns game
  rw [ask, run_bind_ok hrun, if_neg fun hon => h (hgoes.mp hon)]
  rfl

/-- What is shown can be found out without a fault. -/
theorem exists_run_scene (h : game.Drawless) {key : Nat} (hcurrent : game.scheduler.current = some key) :
    ∃ shown diagnostics, scene.run.run game = (.ok shown, { game with diagnostics }) := by
  obtain ⟨earlier, havailable⟩ :=
    run_availableActions_of_callFree fun action haction => (h.current action haction).condition
  obtain ⟨names, diagnostics, hcontrols⟩ := exists_run_availableControls (h.of_diagnostics earlier)
  exact ⟨_, diagnostics,
    (run_bind_ok (run_choices hcurrent havailable) _).trans (run_bind_ok hcontrols _)⟩

theorem exists_asks (h : Seated game) (hon : GoesOn turns game.scheduler) :
    ∃ shown asked, Asks turns game shown asked := by
  obtain ⟨key, hready⟩ := h.ready hon
  obtain ⟨goes, hrun, hgoes⟩ := run_goesOn turns game
  obtain ⟨shown, diagnostics, hscene⟩ := exists_run_scene h.toDrawless hready.2.2
  refine ⟨shown ++ prompt, _, hon, ⟨key, hready.2.2⟩, ?_, diagnostics, rfl⟩
  rw [ask, run_bind_ok hrun, if_pos (hgoes.mpr hon), run_bind_ok hscene]
  rfl

/-! ## Answering -/

/-- What came of a line, unless the player leaves. -/
inductive Upshot
  | pressed (result : ControlResult)
  | refused (message : String)
  | turned (result : TurnResult)

namespace Upshot

/-- What is said to the player. -/
def said : Upshot → String
  | pressed result => lines (result.error.map (·.2)).toList
  | refused message => lines [message]
  | turned result => lines (turnLines result)

/-- Whether a turn was taken. -/
def isTurn : Upshot → Bool
  | pressed _ | refused _ => false
  | turned _ => true

end Upshot

/-- An entry is answered: a control is pressed, which leaves the scheduler where it is; a message is the
answer, and nothing changes but reports; or a turn is taken. -/
inductive Answers : Entry → Game → Upshot → Game → Prop
  | press {control : String} {before after : Game} {result : ControlResult}
    (run : (press silent control).run.run before = (.ok result, after))
    (steady : Steady before after) : Answers (.press control) before (.pressed result) after
  | unknown {text : String} {game : Game} :
    Answers (.unknown text) game (.refused s!"Unknown input: {text}") game
  | refuse {choice : Choice} {game : Game} {result : TurnResult} {message : String}
    {diagnostics : Diagnostics}
    (run : (select silent choice).run.run game = (.ok result, { game with diagnostics }))
    (error : result.error = some (.invalidAction, message)) :
    Answers (.choose choice) game (.refused message) { game with diagnostics }
  | turn {choice : Choice} {before after : Game} {result : TurnResult}
    (run : (select silent choice).run.run before = (.ok result, after))
    (success : result.success = true)
    (turn : after.scheduler.turn = before.scheduler.turn + 1) :
    Answers (.choose choice) before (.turned result) after

variable {upshot : Upshot}

/-- Turns are counted, and nothing else is. -/
theorem Answers.turn_eq (h : Answers entry before upshot after) :
    after.scheduler.turn = before.scheduler.turn + if upshot.isTurn then 1 else 0 := by
  cases h with
  | press _ steady => rw [steady.scheduler]; rfl
  | unknown => rfl
  | refuse => rfl
  | turn _ _ turn => exact turn

theorem Answers.run_respond (h : Answers entry before upshot after) :
    (respond entry).run.run before = (.ok (some upshot.said), after) := by
  cases h with
  | press run => exact run_bind_ok run _
  | unknown => rfl
  | @refuse choice game result message diagnostics run error =>
    have hlines : turnLines result = [message] := by rw [turnLines, error]
    rw [respond, run_bind_ok run, hlines]
    rfl
  | turn run => exact run_bind_ok run _

/-- Every entry is answered while a card is current, unless it is to leave, and play can go on after
that. -/
theorem exists_answers (h : Seated game) {key : Nat} (hready : (Act.accept key).Ready game.scheduler)
    (hentry : entry ≠ .leave) : ∃ upshot after, Answers entry game upshot after ∧ Seated after := by
  cases entry with
  | leave => exact absurd rfl hentry
  | press control =>
    obtain ⟨result, after, hrun, hsteady⟩ := exists_run_press h.toDrawless control
    exact ⟨_, after, .press hrun hsteady, h.of_steady hsteady⟩
  | unknown text => exact ⟨_, game, .unknown, h⟩
  | choose choice =>
    rcases select_cases h.toDrawless hready choice with
      ⟨result, message, diagnostics, hrun, herror⟩ |
        ⟨result, after, hrun, hsuccess, htakes⟩
    · exact ⟨_, _, .refuse hrun herror, h.of_diagnostics diagnostics⟩
    · refine ⟨_, after, .turn hrun hsuccess htakes.turn,
        .of_comesToRest ?_ ?_ (h.reveals ▸ htakes.rest)⟩
      · exact h.toDrawless.of_frame htakes.frame
      · exact htakes.frame.settings ▸ h.reveals

/-! ## The log of a play -/

/-- A line that was answered, with what was shown before it. -/
structure Round where
  shown : String
  line : String
  upshot : Upshot

/-- How a play ends. -/
inductive Finish
  /-- Nothing can be drawn, or all turns have been played. -/
  | done
  /-- The player was asked, and there are no more lines. -/
  | inputEnds (shown : String)
  /-- The player has left. -/
  | left (shown line : String)
  /-- A line was a fault. -/
  | broken (line : String) (fault : Fault)

namespace Finish

/-- The line that was read last, if it was not answered. -/
def line? : Finish → Option String
  | done | inputEnds _ => none
  | left _ line | broken line _ => some line

/-- What a play comes to when a text has been written in its rounds. -/
def result (written : String) : Finish → Except Fault String
  | done => .ok written
  | inputEnds shown | left shown _ => .ok (written ++ shown)
  | broken _ fault => .error fault

end Finish

/-- What is written by the rounds of a play, after what was written before. -/
def textOf (written : String) (log : List Round) : String :=
  log.foldl (fun text round => text ++ round.shown ++ round.upshot.said) written

/-- The lines that were read in a play. -/
def linesRead (log : List Round) (finish : Finish) : List String :=
  log.map (·.line) ++ finish.line?.toList

/-- A play on a list of lines, with the log of its rounds. -/
inductive Played (turns : Option Int) : Game → List String → List Round → Finish → Game → Prop
  | done {game : Game} {input : List String} (h : ¬GoesOn turns game.scheduler) :
    Played turns game input [] .done game
  | inputEnds {game asked : Game} {shown : String} (asks : Asks turns game shown asked) :
    Played turns game [] [] (.inputEnds shown) asked
  | left {game asked : Game} {shown line : String} {input : List String}
    (asks : Asks turns game shown asked) (read : Entry.ofLine line = .ok .leave) :
    Played turns game (line :: input) [] (.left shown line) asked
  | broken {game asked : Game} {shown line : String} {input : List String} {fault : Fault}
    (asks : Asks turns game shown asked) (read : Entry.ofLine line = .error fault) :
    Played turns game (line :: input) [] (.broken line fault) asked
  | round {game asked after last : Game} {shown line : String} {entry : Entry} {upshot : Upshot}
    {input : List String} {log : List Round} {finish : Finish}
    (asks : Asks turns game shown asked) (read : Entry.ofLine line = .ok entry)
    (answers : Answers entry asked upshot after) (rest : Played turns after input log finish last) :
    Played turns game (line :: input) (⟨shown, line, upshot⟩ :: log) finish last

variable {log : List Round} {finish : Finish}

/-- Every play comes to an end, whatever the lines are. -/
theorem exists_played (h : Seated game) (turns : Option Int) (input : List String) :
    ∃ log finish last, Played turns game input log finish last := by
  -- The induction is on the lines; the table stays one at which a player can sit, whatever a line comes
  -- to.
  induction input generalizing game with
  | nil =>
    by_cases hon : GoesOn turns game.scheduler
    · obtain ⟨shown, asked, hasks⟩ := exists_asks h hon
      exact ⟨_, _, _, .inputEnds hasks⟩
    · exact ⟨_, _, _, .done hon⟩
  | cons line input ih =>
    by_cases hon : GoesOn turns game.scheduler
    · obtain ⟨shown, asked, hasks⟩ := exists_asks h hon
      obtain ⟨diagnostics, hasked⟩ := hasks.reports
      have hseated : Seated asked := hasked ▸ h.of_diagnostics diagnostics
      obtain ⟨key, hready⟩ := h.ready hon
      have hready : (Act.accept key).Ready asked.scheduler := by rwa [hasked]
      cases hread : Entry.ofLine line with
      | error fault => exact ⟨_, _, _, .broken hasks hread⟩
      | ok entry =>
        by_cases hleave : entry = .leave
        · exact ⟨_, _, _, .left hasks (hleave ▸ hread)⟩
        · obtain ⟨upshot, after, hanswers, hafter⟩ := exists_answers hseated hready hleave
          obtain ⟨log, finish, last, hplayed⟩ := ih hafter
          exact ⟨_, _, _, .round hasks hread hanswers hplayed⟩
    · exact ⟨_, _, _, .done hon⟩

/-- The turns of a play are those of its rounds. -/
theorem Played.turn (h : Played turns game input log finish last) :
    last.scheduler.turn = game.scheduler.turn + log.countP (·.upshot.isTurn) := by
  induction h with
  | done => rfl
  | inputEnds asks | left asks _ | broken asks _ =>
    obtain ⟨diagnostics, rfl⟩ := asks.reports
    rfl
  | round asks read answers rest ih =>
    obtain ⟨diagnostics, rfl⟩ := asks.reports
    rw [ih, answers.turn_eq, List.countP_cons]
    dsimp only
    omega

/-- Lines are read from the front of the input. -/
theorem Played.linesRead_prefix (h : Played turns game input log finish last) :
    linesRead log finish <+: input := by
  induction h with
  | done | inputEnds => exact List.nil_prefix
  | left | broken => exact List.prefix_append [_] _
  | round _ _ _ _ ih => exact List.cons_prefix_cons.mpr ⟨rfl, ih⟩

/-- The only faults of a play are lines that are misread. -/
theorem Played.broken_iff (h : Played turns game input log finish last) :
    (∃ line fault, finish = .broken line fault) ↔ ∃ line ∈ linesRead log finish, Misread line := by
  have hunderstood : ∀ {line entry}, Entry.ofLine line = .ok entry → ¬Misread line := by
    intro line entry hread
    rw [← ofLine_eq_error_iff, hread]
    exact fun ⟨_, hfault⟩ => nomatch hfault
  induction h with
  | done | inputEnds => simp [linesRead, Finish.line?]
  | left asks read => simp [linesRead, Finish.line?, hunderstood read]
  | broken asks read =>
    have hmisread := ofLine_eq_error_iff.mp ⟨_, read⟩
    simp [linesRead, Finish.line?, hmisread]
  | round asks read answers rest ih =>
    refine ih.trans ?_
    simp [linesRead, hunderstood read]

/-- The loop over the lines does what the log says. -/
theorem Played.run_rounds (h : Played turns game input log finish last) (written : String) :
    (rounds turns written input).run.run game = (finish.result (textOf written log), last) := by
  induction h generalizing written with
  | @done game input h =>
    cases input with
    | nil =>
      rw [rounds, run_bind_ok (run_ask_over h), Option.getD_none, String.append_empty]
      rfl
    | cons line input => exact run_bind_ok (run_ask_over h) _
  | inputEnds asks => exact run_bind_ok asks.run _
  | left asks read =>
    rw [rounds, run_bind_ok asks.run, Terminal.enter, read]
    rfl
  | broken asks read =>
    rw [rounds, run_bind_ok asks.run, Terminal.enter, read]
    rfl
  | @round game asked after last shown line entry upshot input log finish asks read answers rest ih =>
    have henter : (enter line).run.run asked = (.ok (some upshot.said), after) := by
      rw [Terminal.enter, read]
      exact answers.run_respond
    rw [rounds, run_bind_ok asks.run]
    exact (run_bind_ok henter _).trans (ih _)

/-- A whole play is the loop over the lines, with what is said at the end. -/
theorem Played.run_play (h : Played turns game input log finish last) (written : String)
    {farewell : String} (hclosing : closing.run.run last = (.ok farewell, last)) :
    (play turns written input).run.run game =
      ((finish.result (textOf written log)).map (· ++ farewell), last) := by
  have hrounds := h.run_rounds written
  rw [play]
  cases hresult : finish.result (textOf written log) with
  | error fault =>
    rw [hresult] at hrounds
    exact run_bind_error hrounds _
  | ok text =>
    rw [hresult] at hrounds
    exact (run_bind_ok hrounds _).trans (run_bind_ok hclosing _)

end EventDeck.Terminal
