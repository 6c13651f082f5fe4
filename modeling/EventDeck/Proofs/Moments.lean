import EventDeck.Proofs.Game.Cards

/-!
# The moments of a session

A session is a list of operations, in any order.  It is looked at after every operation and, within
an operation, before and after every special effect: these are its `moments`.

The games between them are those that the requests really pass through: special effects lead from
one to the next, and whatever else happens destroys no card (`path_moments`).
-/

namespace EventDeck.Session

open Game

/-! ## Operations and moments -/

/-- What can be done in a session. -/
inductive Operation
  | start
  | reveal
  | select (choice : Choice)
  | advance
  | press (control : String)

/-- The game after an operation. -/
def Operation.after (tell : Tell) : Operation → Game → Game
  | .start, game => ((Session.start tell).run.run game).2
  | .reveal, game => (Game.reveal.run.run game).2
  | .select choice, game => ((Game.select tell choice).run.run game).2
  | .advance, game => (Game.advance.run.run game).2
  | .press control, game => ((Game.press tell control).run.run game).2

/-- The game after a list of operations. -/
def after (tell : Tell) (operations : List Operation) (game : Game) : Game :=
  operations.foldl (fun game operation => operation.after tell game) game

/-- Carries out effects; the special effects that come next. -/
def opening (tell : Tell) (effects specials : List String) : Play (List String) := do
  for effect in authored effects do
    let _ ← evaluate tell effect
  return authored specials

/-- What an operation does before its special effects, and which these are. -/
def Operation.opening (tell : Tell) : Operation → Play (List String)
  | .select choice => do
    let scheduler := (← get).scheduler
    match scheduler.current with
    | some _ =>
      if scheduler.inputOpen && scheduler.phase = .awaitingAction then
        let available ← availableActions
        match chosen choice (← currentActions) available with
        | .ok (some action) =>
          changeScheduler fun scheduler =>
            { scheduler with inputOpen := false, phase := .resolving }
          Session.opening tell action.effects action.specials
        | _ => return []
      else return []
    | none => return []
  | .press control => do
    match (← get).panel.get? control with
    | none => return []
    | some control =>
      if ← holds control.condition then Session.opening tell control.effects control.specials
      else return []
  | _ => return []

/-- A part of a session: a special effect, or something else that happens. -/
structure Moment where
  before : Game
  special : Option String
  after : Game

/-- The card that a special effect destroys. -/
def destroyed? (special : String) (game : Game) : Option Nat :=
  match Command.parse special with
  | .ok .destroy => game.catalog.head?
  | _ => none

/-- The card that is destroyed at a moment. -/
def Moment.destroyed? (moment : Moment) : Option Nat :=
  moment.special.bind (Session.destroyed? · moment.before)

/-- The game after the last of some moments. -/
def last (game : Game) : List Moment → Game
  | [] => game
  | moment :: moments => last moment.after moments

/-- The moments of special effects. -/
def specialMoments : List String → Game → List Moment
  | [], _ => []
  | special :: specials, game =>
    match (runSpecial special).run.run game with
    | (.ok _, after) => ⟨game, some special, after⟩ :: specialMoments specials after
    | (.error _, after) => [⟨game, some special, after⟩]

/-- The moments of an operation: what comes before its special effects, these, and the rest. -/
def Operation.moments (tell : Tell) (operation : Operation) (game : Game) : List Moment :=
  match (operation.opening tell).run.run game with
  | (.ok specials, opened) =>
    let moments := specialMoments specials opened
    ⟨game, none, opened⟩ :: moments ++ [⟨last opened moments, none, operation.after tell game⟩]
  | (.error _, _) => [⟨game, none, operation.after tell game⟩]

/-- The moments of a list of operations. -/
def moments (tell : Tell) : List Operation → Game → List Moment
  | [], _ => []
  | operation :: operations, game =>
    operation.moments tell game ++ moments tell operations (operation.after tell game)

/-! ## Special effects -/

theorem keeps_runSpecial {special : String} {game : Game} (h : destroyed? special game = none) :
    Runs Keeping (runSpecial special) game := by
  unfold runSpecial
  unfold destroyed? at h
  split
  next command hparse =>
    rw [hparse] at h
    by_cases hcommand : command = .destroy
    · subst hcommand
      exact keeps_execute_destroy h
    · exact keeps_execute hcommand game
  next => exact runs_refused _ _ _ game

theorem run_runSpecial_destroyed {special : String} {game : Game} {key : Nat}
    (h : destroyed? special game = some key) :
    ((runSpecial special).run.run game).2 =
      { game with catalog := game.catalog.destroy key } ∧ game.catalog.head? = some key := by
  unfold runSpecial
  unfold destroyed? at h
  split at h
  next hparse =>
    rw [hparse]
    exact ⟨run_execute_destroy h, h⟩
  next => cases h

/-! ## Sequences of moments -/

/-- A sequence of moments that lead from one game to another. -/
inductive Path : Game → List Moment → Game → Prop
  | done (game : Game) : Path game [] game
  | other {before after last : Game} {moments : List Moment} (kept : Kept before after)
    (rest : Path after moments last) : Path before (⟨before, none, after⟩ :: moments) last
  | special {before last : Game} {moments : List Moment} (special : String)
    (rest : Path ((runSpecial special).run.run before).2 moments last) :
    Path before (⟨before, some special, ((runSpecial special).run.run before).2⟩ :: moments) last

theorem Path.append {first second third : Game} {early late : List Moment}
    (hearly : Path first early second) (hlate : Path second late third) :
    Path first (early ++ late) third := by
  induction hearly with
  | done => exact hlate
  | other kept _ ih => exact .other kept (ih hlate)
  | special text _ ih => exact .special text (ih hlate)

/-- A sequence of moments in front of one of them, and from it on. -/
theorem Path.split {first third : Game} {early late : List Moment} {moment : Moment}
    (h : Path first (early ++ moment :: late) third) :
    Path first early moment.before ∧ Path moment.before (moment :: late) third := by
  induction early generalizing first with
  | nil =>
    cases h with
    | other kept rest => exact ⟨.done _, .other kept rest⟩
    | special text rest => exact ⟨.done _, .special text rest⟩
  | cons m early ih =>
    cases h with
    | other kept rest =>
      obtain ⟨hearly, hlate⟩ := ih rest
      exact ⟨.other kept hearly, hlate⟩
    | special text rest =>
      obtain ⟨hearly, hlate⟩ := ih rest
      exact ⟨.special text hearly, hlate⟩

theorem path_specialMoments (specials : List String) (game : Game) :
    Path game (specialMoments specials game) (last game (specialMoments specials game)) := by
  induction specials generalizing game with
  | nil => exact .done _
  | cons special specials ih =>
    rw [specialMoments]
    rcases hrun : (runSpecial special).run.run game with ⟨fault | result, after⟩
    · have hpath := @Path.special game _ _ special (.done _)
      rw [hrun] at hpath
      exact hpath
    · have hpath := @Path.special game _ _ special (by rw [hrun]; exact ih after)
      rw [hrun] at hpath
      exact hpath

/-! ## Requests with special effects -/

variable {α β : Type} {game : Game}

/-- A request that does what comes before special effects, then these, and then something that
destroys nothing. -/
structure Opens (request : Play α) (opening : Play (List String)) (game : Game) : Prop where
  done : ∀ specials opened, opening.run.run game = (.ok specials, opened) →
    Kept game opened ∧ Kept (last opened (specialMoments specials opened)) (request.run.run game).2
  fault : ∀ fault opened, opening.run.run game = (.error fault, opened) →
    Kept game (request.run.run game).2

theorem opens_of_keeps {request : Play α} (h : Runs Keeping request game) :
    Opens request (pure []) game := by
  refine ⟨fun specials opened hrun => ?_, fun _ _ _ => h⟩
  cases hrun
  exact ⟨.refl game, h⟩

/-- A common part in front of both. -/
theorem Opens.after {x : Play β} {f : β → Play α} {o : β → Play (List String)}
    (hx : Runs Keeping x game) (h : ∀ b after, Opens (f b) (o b) after) :
    Opens (x >>= f) (x >>= o) game := by
  rcases hrun : x.run.run game with ⟨fault | b, between⟩
  · have hfault : (x >>= f).run.run game = (.error fault, between) := run_bind_error hrun f
    have hkept : Kept game ((x >>= f).run.run game).2 := by
      rw [hfault]
      have hx' : Kept game (x.run.run game).2 := hx
      rwa [hrun] at hx'
    refine ⟨fun specials opened ho => ?_, fun _ _ _ => hkept⟩
    rw [run_bind_error hrun o] at ho
    cases ho
  · have hkept : Kept game between := hx.of_ok hrun
    refine ⟨fun specials opened ho => ?_, fun fault opened ho => ?_⟩
    · rw [run_bind_ok hrun o] at ho
      rw [run_bind_ok hrun f]
      obtain ⟨hopened, hlast⟩ := (h b between).done specials opened ho
      exact ⟨hkept.trans hopened, hlast⟩
    · rw [run_bind_ok hrun o] at ho
      rw [run_bind_ok hrun f]
      exact hkept.trans ((h b between).fault fault opened ho)

/-- A request that depends on the state it is run on. -/
theorem opens_get_bind {f : Game → Play α} {opening : Play (List String)}
    (h : Opens (f game) opening game) : Opens (get >>= f) opening game :=
  ⟨h.done, h.fault⟩

/-- A sequel that destroys nothing. -/
theorem Opens.then {request : Play α} {opening : Play (List String)} {f : α → Play β}
    (h : Opens request opening game) (hf : ∀ a after, Runs Keeping (f a) after) :
    Opens (request >>= f) opening game := by
  have hrest : Kept (request.run.run game).2 ((request >>= f).run.run game).2 := by
    rw [run_bind]
    rcases request.run.run game with ⟨fault | a, after⟩
    · exact .refl after
    · exact hf a after
  refine ⟨fun specials opened ho => ?_, fun fault opened ho => (h.fault fault opened ho).trans hrest⟩
  obtain ⟨hopened, hlast⟩ := h.done specials opened ho
  exact ⟨hopened, hlast.trans hrest⟩

theorem run_specials (specials : List String) (game : Game) :
    ((specials.mapM runSpecial).run.run game).2 = last game (specialMoments specials game) := by
  induction specials generalizing game with
  | nil => rfl
  | cons special specials ih =>
    rw [List.mapM_cons, run_bind, specialMoments]
    rcases (runSpecial special).run.run game with ⟨fault | result, after⟩
    · rfl
    · dsimp only [last]
      rw [← ih after, run_bind]
      rcases (specials.mapM runSpecial).run.run after with ⟨fault | results, final⟩ <;> rfl

section Operations

variable {tell : Tell} (htell : ∀ observer change game, Runs Keeping (tell observer change) game)

include htell

theorem opens_runEffects (effects specials : List String) (game : Game) :
    Opens (runEffects tell effects specials) (opening tell effects specials) game := by
  have hspecials : ∀ texts game, Opens (texts.mapM runSpecial) (pure texts) game := by
    refine fun texts game => ⟨fun specials opened hrun => ?_, fun _ _ hrun => nomatch hrun⟩
    cases hrun
    rw [run_specials]
    exact ⟨.refl game, .refl _⟩
  refine Opens.after (runs_loop (fun effect game => ?_) game) fun _ between => ?_
  · exact (runs_evaluate htell effect game).then fun _ _ => runs_pure _ _
  · exact (hspecials _ between).then fun _ _ => runs_pure _ _

theorem opens_press (control : String) (game : Game) :
    Opens (press tell control) (Operation.opening tell (.press control)) game := by
  have hrefused : ∀ message game, Runs Keeping (notPressed control message) game :=
    fun message game => (runs_report _ _ game).then fun _ _ => runs_pure _ _
  refine Opens.after (.refl game) fun now game => ?_
  cases now.panel.get? control with
  | none => exact opens_of_keeps (hrefused _ game)
  | some button =>
    refine Opens.after (runs_holds _ game) fun pressed game => ?_
    cases pressed with
    | true => exact (opens_runEffects htell _ _ game).then fun _ _ => runs_pure _ _
    | false => exact opens_of_keeps (hrefused _ game)

theorem opens_resolve (key : Nat) (action : Action) (mark : Nat) (game : Game) :
    Opens (resolve tell key (some action) mark)
      (do
        changeScheduler fun scheduler => { scheduler with inputOpen := false, phase := .resolving }
        opening tell action.effects action.specials) game := by
  refine Opens.after (keeps_changeScheduler rfl) fun _ after => ?_
  refine opens_get_bind ((opens_runEffects htell _ _ after).then fun outcome resolved => ?_)
  exact keeps_closing key _ resolved

theorem opens_select (choice : Choice) (game : Game) :
    Opens (select tell choice) (Operation.opening tell (.select choice)) game := by
  refine Opens.after (.refl game) fun now game => ?_
  dsimp only
  cases now.scheduler.current with
  | none => exact opens_of_keeps (runs_pure _ game)
  | some key =>
    dsimp only
    split
    next =>
      refine opens_get_bind (Opens.after (runs_availableActions game) fun available game => ?_)
      refine Opens.after (runs_currentActions game) fun actions game => ?_
      cases chosen choice actions available with
      | error message => exact opens_of_keeps (keeps_invalid message game)
      | ok action =>
        cases action with
        | none => exact opens_of_keeps (keeps_resolve_none tell key _ game)
        | some action => exact opens_resolve htell key action _ game
    next => exact opens_of_keeps (runs_pure _ game)

theorem path_operation (operation : Operation) (game : Game) :
    Path game (operation.moments tell game) (operation.after tell game) := by
  have hpath : ∀ {α : Type} {request : Play α},
      Opens request (operation.opening tell) game →
      (request.run.run game).2 = operation.after tell game →
      Path game (operation.moments tell game) (operation.after tell game) := by
    intro α request h hafter
    rw [Operation.moments]
    rcases hrun : (operation.opening tell).run.run game with ⟨fault | specials, opened⟩
    · have hkept := h.fault fault opened hrun
      rw [hafter] at hkept
      exact .other hkept (.done _)
    · obtain ⟨hopened, hlast⟩ := h.done specials opened hrun
      rw [hafter] at hlast
      exact .other hopened ((path_specialMoments specials opened).append (.other hlast (.done _)))
  -- start, reveal and advance have no special effects; a selection and a pressed control open with some
  cases operation with
  | start =>
    have hstart : Runs Keeping (start tell) game :=
      (keeps_broadcast htell game).then fun _ after => keeps_advance after
    exact hpath (opens_of_keeps hstart) rfl
  | reveal => exact hpath (opens_of_keeps (keeps_reveal game)) rfl
  | select choice => exact hpath (opens_select htell choice game) rfl
  | advance => exact hpath (opens_of_keeps (keeps_advance game)) rfl
  | press control => exact hpath (opens_press htell control game) rfl

theorem path_moments (operations : List Operation) (game : Game) :
    Path game (moments tell operations game) (after tell operations game) := by
  induction operations generalizing game with
  | nil => exact .done _
  | cons operation operations ih =>
    exact (path_operation htell operation game).append (ih _)

end Operations

end EventDeck.Session
