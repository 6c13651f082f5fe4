import EventDeck.Proofs.Service.Offers
import EventDeck.Proofs.Terminal.Plays
import EventDeck.Terminal.Run

/-!
# Plays of a deck

A table can be set for every deck without errors in which nothing draws, with the settings of any
environment (`exists_setTable`).  Then every input is played through: each line that is read is
answered, and the turns that are counted are the selections that were accepted
(`play_comes_through`).

The exception are the lines that are misread.  A superscript is enough to end a play in a fault
(`superscript_breaks_play`).
-/

namespace EventDeck

open Game EventDeck.Expr Text

/-- No condition and no effect of a deck has a random call. -/
structure Deck.Drawless (deck : Deck) : Prop where
  conditions : deck.ChanceFree
  actions : ∀ event ∈ deck.events, ∀ action ∈ event.actions,
    DrawsNothing action.condition action.effects
  controls : ∀ control ∈ deck.controls, DrawsNothing control.condition control.effects

/-- The environment sets neither the tolerance for writing nor the limit for diagnostics. -/
theorem Settings.ofEnvironment_defaults {lookup : String → Option String} {settings : Settings}
    (h : Settings.ofEnvironment lookup = .ok settings) :
    settings.epsilon = ({} : Settings).epsilon ∧
      settings.diagnosticsLimit = ({} : Settings).diagnosticsLimit := by
  rw [ofEnvironment] at h
  cases hdelay : lookup "OMEN_REVEAL_DELAY" with
  | none =>
    rw [hdelay] at h
    cases h
    exact ⟨rfl, rfl⟩
  | some text =>
    rw [hdelay] at h
    cases hread : Decimal.read? text.toList with
    | none =>
      simp only [hread] at h
      cases h
    | some delay =>
      simp only [hread] at h
      cases h
      exact ⟨rfl, rfl⟩

namespace Session

variable {deck : Deck} {settings : Settings} {generator : Generator} {start : Game}

/-- The game of a deck that draws nothing. -/
theorem drawless_of_builds (built : Builds deck settings generator start) (hdeck : deck.Drawless)
    (htolerance : ¬settings.epsilon < 0) : start.Drawless where
  conditions := chanceFree_of_builds built hdeck.conditions
  actions key action haction := by
    obtain ⟨event, hevent, hmem⟩ := mem_actions_of_builds built haction
    exact hdeck.actions event hevent action hmem
  controls control hcontrol := by
    rw [built.panel] at hcontrol
    obtain ⟨written, hwritten, rfl⟩ := List.mem_map.mp (Panel.mem_ofList hcontrol)
    exact hdeck.controls written hwritten
  tolerance := built.epsilon ▸ htolerance

/-- The first card can be drawn without a fault, and that counts no turn. -/
theorem exists_run_start (hstart : start.Drawless) (hidle : start.scheduler.phase = .idle) :
    ∃ phase after, (Session.start silent).run.run start = (.ok phase, after) ∧
      Frame start after ∧ after.scheduler.turn = start.scheduler.turn ∧
        ComesToRest start.settings.autoReveal after := by
  obtain ⟨after, hadvance, hturn, hrest⟩ := exists_run_advance hstart.conditions
  have hrun : (Session.start silent).run.run start = (.ok after.scheduler.phase, after) := by
    rw [Session.start, run_bind_ok (run_broadcast_silent start), hadvance]
  have hturns : TurnsTo start none after := (turnsTo_start hidle).of_ok hrun
  obtain ⟨stages, hcourse⟩ := hturns.leads
  exact ⟨_, after, hrun, hcourse.frame, hturn, hrest⟩

end Session

namespace Terminal

variable {surroundings : Surroundings} {settings : Settings} {deck : Deck}

/-! ## Setting a table -/

theorem exists_setTable
    (hsettings : Settings.ofEnvironment surroundings.environment = .ok settings)
    (hvalid : deck.valid = true) (hdeck : deck.Drawless) (seed turns : Option Int) :
    ∃ table, setTable surroundings settings deck seed turns = .ok (.ok table) ∧
      table.turns = turns ∧ table.game.scheduler.turn = 0 ∧ Seated table.game := by
  obtain ⟨hepsilon, hlimit⟩ := Settings.ofEnvironment_defaults hsettings
  let service : Service := {
    settings := { settings with autoReveal := true }, chance := surroundings.chance }
  obtain ⟨start, hbuilt⟩ : ∃ start,
      Session.buildGame deck service.settings (service.chance seed) = .ok start :=
    Session.exists_buildGame_of_limit _ (List.isEmpty_iff.mp hvalid) hlimit
  have hbuilds := Session.builds_of_buildGame hbuilt
  have htolerance : ¬service.settings.epsilon < 0 := by
    change ¬settings.epsilon < 0
    rw [hepsilon]
    decide +kernel
  -- A deck that draws nothing starts without a fault, and with cards revealed at once it comes to rest
  -- at a prompt or at the end.
  have hstart := Session.drawless_of_builds hbuilds hdeck htolerance
  obtain ⟨phase, game, hrun, hframe, hturn, hrest⟩ :=
    Session.exists_run_start hstart (congrArg Scheduler.phase hbuilds.scheduler)
  have hreveals : start.settings.autoReveal = true := congrArg Settings.autoReveal hbuilds.settings
  have fresh : service.find? service.nextId = none := List.find?_nil
  have hlaunch : ((Service.launch ⟨deck, seed⟩ true).run.run service).1 =
      .ok (.ok (service.opened ⟨deck, seed⟩ game)) := by
    have hlaunched := @Service.run_launch_built service ⟨deck, seed⟩ start fresh hbuilt
    rw [hrun] at hlaunched
    exact congrArg Prod.fst hlaunched
  let greeting := lines [s!"Playing {deck.title} (session {service.nextId})"]
  refine ⟨{ game, turns, greeting }, ?_, rfl, ?_,
    .of_comesToRest (hstart.of_frame hframe) ?_ (hreveals ▸ hrest)⟩
  · rw [setTable]
    dsimp only
    rw [hlaunch]
    rfl
  · rw [hturn, hbuilds.scheduler]
  · rw [hframe.settings, hreveals]

/-! ## Playing -/

/-- For every deck without errors in which nothing draws, with every seed and every limit of turns a
table is set, and no turn has been counted yet.  Then every input is played through, and there is a log
of that: every line that is read is answered until the player leaves, a control is pressed, or a message
is the answer and no turn is counted, or exactly one turn is taken; what is written is said in the log,
and the turns that are counted in the end are those of the log, which are the accepted selections.  Play
ends in a fault if and only if one of the lines that are read is misread. -/
theorem play_comes_through
    (hsettings : Settings.ofEnvironment surroundings.environment = .ok settings)
    (hvalid : deck.valid = true) (hdeck : deck.Drawless) (seed turns : Option Int) :
    ∃ table, setTable surroundings settings deck seed turns = .ok (.ok table) ∧
      table.turns = turns ∧ table.game.scheduler.turn = 0 ∧
      ∀ input, ∃ log finish last farewell,
        Played turns table.game input log finish last ∧
        linesRead log finish <+: input ∧
        last.scheduler.turn = log.countP (·.upshot.isTurn) ∧
        closing.run.run last = (.ok farewell, last) ∧
        (play turns table.greeting input).run.run table.game =
          ((finish.result (textOf table.greeting log)).map (· ++ farewell), last) ∧
        ((∃ fault, ((play turns table.greeting input).run.run table.game).1 = .error fault) ↔
          ∃ line ∈ linesRead log finish, Misread line) := by
  obtain ⟨table, hset, hturns, hturn, hseated⟩ := exists_setTable hsettings hvalid hdeck seed turns
  refine ⟨table, hset, hturns, hturn, fun input => ?_⟩
  obtain ⟨log, finish, last, hplayed⟩ := exists_played hseated turns input
  obtain ⟨farewell, hclosing⟩ : ∃ farewell, closing.run.run last = (.ok farewell, last) := ⟨_, rfl⟩
  have hplay := hplayed.run_play table.greeting hclosing
  -- no turn has been counted before, so the turns at the end are those of the log
  have hcount := hplayed.turn
  rw [hturn, Nat.zero_add] at hcount
  refine ⟨log, finish, last, farewell, hplayed, hplayed.linesRead_prefix, hcount, hclosing, hplay, ?_⟩
  rw [hplay, ← hplayed.broken_iff]
  cases finish <;> simp [Finish.result, Except.map]

/-! ### A deck that is played -/

/-- A program without an environment and without files, for which chance always draws zero. -/
def bare : Surroundings where
  environment := fun _ => none
  file := fun _ => none
  chance := fun _ => .ofScript []

theorem settings_bare : Settings.ofEnvironment bare.environment = .ok {} := by
  have htruthy : Settings.isTruthy "" = false := by decide +kernel
  have hlevel : upper "WARNING" = "WARNING" := by decide +kernel
  have hsettings : Settings.ofEnvironment bare.environment =
      .ok { autoReveal := Settings.isTruthy "", logLevel := upper "WARNING" } := rfl
  rw [hsettings, htruthy, hlevel]

theorem drawless_stroll : Service.stroll.deck.Drawless where
  conditions := Service.undrawn_stroll.conditions
  actions event hevent action haction := by
    have hblank : ∀ event ∈ Service.stroll.deck.events, ∀ action ∈ event.actions,
        action.condition = "" := by decide
    refine ⟨?_, Service.undrawn_stroll.effects event hevent action haction⟩
    rw [hblank event hevent action haction]
    exact callFree_of_wordless (by decide)
  controls _ hcontrol := absurd hcontrol List.not_mem_nil

/-- Whether a text comes of a play of the deck, and how many turns are counted. -/
def strolled? (turns : Option Int) (input : List String) : Option (Bool × Nat) :=
  ((setTable bare {} Service.stroll.deck none turns).toOption.bind (·.toOption)).map fun table =>
    let whole := (play turns table.greeting input).run.run table.game
    (whole.1.toOption.isSome, whole.2.scheduler.turn)

theorem strolled?_eq {turns : Option Int} {table : Table}
    (hset : setTable bare {} Service.stroll.deck none turns = .ok (.ok table))
    (input : List String) :
    strolled? turns input =
      some (((play turns table.greeting input).run.run table.game).1.toOption.isSome,
        ((play turns table.greeting input).run.run table.game).2.scheduler.turn) := by
  rw [strolled?, hset]
  rfl

/-- A text that is not understood, a control that does not exist and the one action of the card: that is
one turn. -/
theorem stroll_comes_through :
    Settings.ofEnvironment bare.environment = .ok {} ∧ Service.stroll.deck.valid = true ∧
      Service.stroll.deck.Drawless ∧
      ∃ table log finish last text,
        setTable bare {} Service.stroll.deck none (some 2) = .ok (.ok table) ∧
        Played (some 2) table.game ["x", "!a", "0", "q"] log finish last ∧
        (play (some 2) table.greeting ["x", "!a", "0", "q"]).run.run table.game = (.ok text, last) ∧
        log.countP (·.upshot.isTurn) = 1 := by
  have hvalid : Service.stroll.deck.valid = true := by decide +kernel
  have hchecked : strolled? (some 2) ["x", "!a", "0", "q"] = some (true, 1) := by decide +kernel
  obtain ⟨table, hset, -, -, hinputs⟩ :=
    play_comes_through settings_bare hvalid drawless_stroll none (some 2)
  obtain ⟨log, finish, last, farewell, hplayed, -, hcount, -, hplay, -⟩ :=
    hinputs ["x", "!a", "0", "q"]
  rw [strolled?_eq hset, hplay] at hchecked
  obtain ⟨hwritten, hturn⟩ := Prod.mk.inj (Option.some.inj hchecked)
  refine ⟨settings_bare, hvalid, drawless_stroll, table, log, finish, last, ?_⟩
  cases hresult : (finish.result (textOf table.greeting log)).map (· ++ farewell) with
  | error fault =>
    rw [hresult] at hwritten
    cases hwritten
  | ok text => exact ⟨text, hset, hplayed, hresult ▸ hplay, hcount.symm.trans hturn⟩

/-- The deck is valid and draws nothing, but a line of a superscript ends the play in a fault. -/
theorem superscript_breaks_play :
    Settings.ofEnvironment bare.environment = .ok {} ∧ Service.stroll.deck.valid = true ∧
      Service.stroll.deck.Drawless ∧
      ∃ table fault, setTable bare {} Service.stroll.deck none none = .ok (.ok table) ∧
        ((play none table.greeting ["²"]).run.run table.game).1 = .error fault := by
  have hvalid : Service.stroll.deck.valid = true := by decide +kernel
  have hchecked : strolled? none ["²"] = some (false, 0) := by decide +kernel
  obtain ⟨table, hset, -⟩ := exists_setTable settings_bare hvalid drawless_stroll none none
  rw [strolled?_eq hset] at hchecked
  obtain ⟨hbroken, -⟩ := Prod.mk.inj (Option.some.inj hchecked)
  refine ⟨settings_bare, hvalid, drawless_stroll, table, ?_⟩
  cases hresult : ((play none table.greeting ["²"]).run.run table.game).1 with
  | error fault => exact ⟨fault, hset, rfl⟩
  | ok text =>
    rw [hresult] at hbroken
    cases hbroken

end Terminal

end EventDeck
