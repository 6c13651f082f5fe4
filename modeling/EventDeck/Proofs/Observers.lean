import EventDeck.Console
import EventDeck.Proofs.Game.Run
import EventDeck.Proofs.Store

/-!
# Observers that write

An observer that is told about a change may write variables itself, the one it is told about among
them.  The observers of what it writes are told at once, before those that still wait to hear of the
first change.  So observers may be told about changes in any order, and what they are told may be out
of date by the end.

`Unfolds` describes what happens during a write as a tree of writes within writes, and lists what
happens in order: that a variable got a new value, and that an observer was told about it.  An
observer is told the value that the variable has at that time, so being told after the last change is
being told the value that stays.  `Informs` says this about the part of the list that belongs to a
branch of the tree; two such parts can be put together (`Informs.append`), and a change that all
observers are told about afterwards may come before it (`Informs.changed`).

The main statement is `setVariable_informs`: in the end, observers know the value of the variable.
The observers of a console are a special case when they only set variables
(`Console.exists_run_setVariable`).
-/

namespace EventDeck

open Game

/-! ## Reactions -/

/-- What an observer does when it is told about a change.  It writes variables, and whatever else it
does spares the store and the notices.  How it goes on may depend on the game and on the values that
were written. -/
inductive Reaction
  | done
  | aside (act : Game → Game)
      (spares : ∀ game, (act game).store = game.store ∧ (act game).notices = game.notices)
      (next : Game → Reaction)
  | write (name : String) (x : Float) (next : Float → Reaction)

/-- Runs a reaction, given how variables are written. -/
def Reaction.run (set : String → Float → Play Float) : Reaction → Play Unit
  | done => pure ()
  | aside act _ next => do
    modify act
    (next (← get)).run set
  | write name x next => do
    let y ← set name x
    (next y).run set

/-- Observers that take note of what they are told and react to it; reactions may set each other off
to a depth. -/
def informed (reactions : String → Change → Reaction) : Nat → Tell
  | 0 => fun _ _ => throw .endlessReaction
  | depth + 1 => fun observer change => do
    modify fun game => { game with notices := ⟨observer, change⟩ :: game.notices }
    (reactions observer change).run (setVariable (informed reactions depth))

/-! ## What happens during a write -/

/-- Something that happens during a write. -/
inductive Happening
  /-- A known variable got a new value. -/
  | changed (name : String) (x : Float)
  /-- An observer was told about a variable. -/
  | told (name observer : String) (change : Change)

/-- The variable that it happens to. -/
def Happening.name : Happening → String
  | changed name _ => name
  | told name .. => name

/-- What an observer takes note of. -/
def Happening.notice? : Happening → Option Notice
  | changed .. => none
  | told _ observer change => some ⟨observer, change⟩

/-- What an observer is told about a variable. -/
def Happening.about? (name observer : String) : Happening → Option Change
  | changed .. => none
  | told n o change => if n = name ∧ o = observer then some change else none

/-- Everything that an observer is told about a variable, in order. -/
def toldAbout (name observer : String) (happenings : List Happening) : List Change :=
  happenings.filterMap (Happening.about? name observer)

/-- The parts of a write. -/
inductive Part
  /-- A write of `x` to a name; it returns `y`. -/
  | set (name : String) (x y : Float)
  /-- Telling observers about a variable, one after the other. -/
  | tell (v : Variable) (old : Float) (observers : List String)
  /-- What is left of a reaction. -/
  | react (reaction : Reaction)

/-- What happens during a part of a write, and the game afterwards. -/
inductive Unfolds (reactions : String → Change → Reaction) :
    Part → Game → List Happening → Game → Prop
  | created {game : Game} {store : Store} {name : String} {x : Float}
      (write : game.store.write name x = .ok (store, .created)) :
      Unfolds reactions (.set name x x) game [] { game with store }
  | kept {game : Game} {store : Store} {name : String} {x y : Float}
      (write : game.store.write name x = .ok (store, .kept y)) :
      Unfolds reactions (.set name x y) game [] { game with store }
  | changed {game after : Game} {store : Store} {name : String} {x old : Float} {v : Variable}
      {happenings : List Happening}
      (write : game.store.write name x = .ok (store, .changed v old))
      (tell : Unfolds reactions (.tell v old (store.observersOf v.name)) { game with store }
        happenings after) :
      Unfolds reactions (.set name x v.value) game (.changed name v.value :: happenings) after
  | toldAll (v : Variable) (old : Float) (game : Game) :
      Unfolds reactions (.tell v old []) game [] game
  | told {game between after : Game} {v : Variable} {old : Float} {observer : String}
      {observers : List String} {change : Change} {first rest : List Happening}
      (now : change = ⟨old, (game.store.current v).value, (game.store.current v).max⟩)
      (react : Unfolds reactions (.react (reactions observer change))
        { game with notices := ⟨observer, change⟩ :: game.notices } first between)
      (others : Unfolds reactions (.tell v old observers) between rest after) :
      Unfolds reactions (.tell v old (observer :: observers)) game
        (.told v.name observer change :: (first ++ rest)) after
  | done (game : Game) : Unfolds reactions (.react .done) game [] game
  | aside {game after : Game} {act : Game → Game} {next : Game → Reaction}
      {spares : ∀ game, (act game).store = game.store ∧ (act game).notices = game.notices}
      {happenings : List Happening}
      (rest : Unfolds reactions (.react (next (act game))) (act game) happenings after) :
      Unfolds reactions (.react (.aside act spares next)) game happenings after
  | write {game between after : Game} {name : String} {x y : Float} {next : Float → Reaction}
      {first rest : List Happening}
      (set : Unfolds reactions (.set name x y) game first between)
      (react : Unfolds reactions (.react (next y)) between rest after) :
      Unfolds reactions (.react (.write name x next)) game (first ++ rest) after

variable {reactions : String → Change → Reaction} {part : Part} {before after : Game}
  {happenings : List Happening} {name observer : String} {x y : Float}

/-! ## Every write unfolds -/

section Runs

variable {depth : Nat}

theorem unfolds_react {set : String → Float → Play Float}
    (hset : ∀ name x y before after, (set name x).run.run before = (.ok y, after) →
      ∃ happenings, Unfolds reactions (.set name x y) before happenings after)
    {reaction : Reaction} (hrun : (reaction.run set).run.run before = (.ok (), after)) :
    ∃ happenings, Unfolds reactions (.react reaction) before happenings after := by
  induction reaction generalizing before with
  | done =>
    cases hrun
    exact ⟨[], .done _⟩
  | aside act spares next ih =>
    obtain ⟨happenings, hrest⟩ := ih (act before) hrun
    exact ⟨happenings, .aside hrest⟩
  | write name x next ih =>
    obtain ⟨y, between, hfirst, hnext⟩ := exists_run_of_bind hrun
    obtain ⟨first, hfirst⟩ := hset name x y before between hfirst
    obtain ⟨rest, hrest⟩ := ih y hnext
    exact ⟨first ++ rest, .write hfirst hrest⟩

theorem unfolds_tell {tell : Tell}
    (htell : ∀ observer change before after,
      (tell observer change).run.run before = (.ok (), after) →
      ∃ happenings, Unfolds reactions (.react (reactions observer change))
        { before with notices := ⟨observer, change⟩ :: before.notices } happenings after)
    {v : Variable} {old : Float} {observers : List String}
    (hrun : (forIn observers PUnit.unit fun observer _ => do
      let now := (← get).store.current v
      tell observer ⟨old, now.value, now.max⟩
      pure (.yield PUnit.unit) : Play PUnit).run.run before = (.ok (), after)) :
    ∃ happenings, Unfolds reactions (.tell v old observers) before happenings after := by
  -- one observer after the other; each may have written before the next is told
  induction observers generalizing before with
  | nil =>
    cases hrun
    exact ⟨[], .toldAll v old _⟩
  | cons observer observers ih =>
    rw [List.forIn_cons] at hrun
    obtain ⟨step, between, hround, hrest⟩ := exists_run_of_bind hrun
    rw [run_get_bind] at hround
    obtain ⟨⟨⟩, between', hfirst, hyield⟩ := exists_run_of_bind hround
    cases hyield
    obtain ⟨first, hfirst⟩ := htell _ _ _ _ hfirst
    obtain ⟨rest, hrest⟩ := ih hrest
    exact ⟨_, .told rfl hfirst hrest⟩

theorem unfolds_set {tell : Tell}
    (htell : ∀ observer change before after,
      (tell observer change).run.run before = (.ok (), after) →
      ∃ happenings, Unfolds reactions (.react (reactions observer change))
        { before with notices := ⟨observer, change⟩ :: before.notices } happenings after)
    (hrun : (setVariable tell name x).run.run before = (.ok y, after)) :
    ∃ happenings, Unfolds reactions (.set name x y) before happenings after := by
  change (liftM (before.store.write name x) >>= _ : Play Float).run.run before = _ at hrun
  cases hwrite : before.store.write name x with
  | error fault =>
    rw [hwrite] at hrun
    cases hrun
  | ok written =>
    obtain ⟨store, write⟩ := written
    rw [hwrite] at hrun
    -- what has become of the number says whether there is anybody to tell
    cases write with
    | created =>
      cases hrun
      exact ⟨[], .created hwrite⟩
    | kept value =>
      cases hrun
      exact ⟨[], .kept hwrite⟩
    | changed v old =>
      change (tellObservers tell v old >>= fun _ => pure v.value : Play Float).run.run _ = _ at hrun
      obtain ⟨⟨⟩, between, htold, hvalue⟩ := exists_run_of_bind hrun
      cases hvalue
      rw [tellObservers, run_get_bind] at htold
      obtain ⟨⟨⟩, between', hloop, hend⟩ := exists_run_of_bind htold
      cases hend
      obtain ⟨happenings, hunfolds⟩ := unfolds_tell htell hloop
      exact ⟨_, .changed hwrite hunfolds⟩

/-- Whatever depth suffices, a write that ends without a fault unfolds. -/
theorem exists_unfolds
    (hrun : (setVariable (informed reactions depth) name x).run.run before = (.ok y, after)) :
    ∃ happenings, Unfolds reactions (.set name x y) before happenings after := by
  induction depth generalizing name x y before after with
  | zero =>
    refine unfolds_set ?_ hrun
    intro observer change before after hthrow
    cases hthrow
  | succ depth ih =>
    refine unfolds_set ?_ hrun
    intro observer change before after hreact
    exact unfolds_react (fun _ _ _ _ _ hset => ih hset) hreact

end Runs

/-! ## What stays -/

theorem Unfolds.retains (h : Unfolds reactions part before happenings after) :
    before.store.Retains after.store := by
  induction h with
  | created hwrite | kept hwrite => exact Store.retains_of_write hwrite
  | changed hwrite _ ih => exact (Store.retains_of_write hwrite).trans ih
  | toldAll | done => exact .refl _
  | told _ _ _ ih ih' => exact ih.trans ih'
  | @aside game _ _ _ spares _ _ ih => rwa [(spares game).1] at ih
  | write _ _ ih ih' => exact ih.trans ih'

/-- What observers are told is what they take note of. -/
theorem Unfolds.notices (h : Unfolds reactions part before happenings after) :
    after.notices = (happenings.filterMap Happening.notice?).reverse ++ before.notices := by
  induction h with
  | created | kept | toldAll | done => rfl
  | changed _ _ ih => rw [ih, List.filterMap_cons_none rfl]
  | @told _ _ _ v _ observer _ change _ _ _ _ _ ih ih' =>
    have hcons : (Happening.told v.name observer change).notice? = some ⟨observer, change⟩ := rfl
    rw [ih', ih, List.filterMap_cons_some hcons, List.filterMap_append]
    simp
  | @aside game _ _ _ spares _ _ ih => rw [ih, (spares game).2]
  | write _ _ ih ih' =>
    rw [ih', ih, List.filterMap_append]
    simp

/-! ## What observers know in the end -/

/-- What observers of a variable know about it, when its value is `x` before and `y` afterwards. -/
structure Informs (name : String) (observers : List String) (x : Float)
    (happenings : List Happening) (y : Float) : Prop where
  /-- Without a change, the value stays, and that is what everyone who is told anything is told. -/
  quiet : (∀ z, .changed name z ∉ happenings) → y = x ∧
    ∀ observer change, .told name observer change ∈ happenings → change.new = y
  /-- After a change, all observers are told, and the last thing they are told is the value. -/
  loud : ∀ z, .changed name z ∈ happenings → ∀ observer ∈ observers,
    ∃ change, (toldAbout name observer happenings).getLast? = some change ∧ change.new = y

theorem mem_toldAbout {change : Change} :
    change ∈ toldAbout name observer happenings ↔ .told name observer change ∈ happenings := by
  rw [toldAbout, List.mem_filterMap]
  constructor
  · rintro ⟨happening, hmem, habout⟩
    cases happening with
    | changed => cases habout
    | told n o c =>
      rw [Happening.about?] at habout
      split at habout
      · next hsame =>
        cases habout
        rw [← hsame.1, ← hsame.2]
        exact hmem
      · cases habout
  · intro hmem
    exact ⟨_, hmem, if_pos ⟨rfl, rfl⟩⟩

namespace Informs

variable {observers : List String} {z : Float} {rest : List Happening}

theorem nil (name : String) (observers : List String) (x : Float) :
    Informs name observers x [] x :=
  ⟨fun _ => ⟨rfl, nofun⟩, nofun⟩

theorem told {change : Change} (h : change.new = x) (observer : String) :
    Informs name observers x [.told name observer change] x := by
  refine ⟨fun _ => ⟨rfl, ?_⟩, fun z hz => by simp at hz⟩
  intro o c hmem
  cases List.mem_singleton.1 hmem
  exact h

/-- What happens to another variable does not matter. -/
theorem other {happening : Happening} (h : happening.name ≠ name) :
    Informs name observers x [happening] x := by
  refine ⟨fun _ => ⟨rfl, ?_⟩, ?_⟩
  · intro o c hmem
    cases List.mem_singleton.1 hmem
    exact absurd rfl h
  · intro z hmem
    cases List.mem_singleton.1 hmem
    exact absurd rfl h

/-- The last thing that an observer is told is the value. -/
theorem new_eq_of_last (h : Informs name observers x happenings y) (hobserver : observer ∈ observers)
    {change : Change} (hlast : (toldAbout name observer happenings).getLast? = some change) :
    change.new = y := by
  by_cases hchange : ∃ z, .changed name z ∈ happenings
  · obtain ⟨z, hz⟩ := hchange
    obtain ⟨last, hlast', hnew⟩ := h.loud z hz observer hobserver
    rw [hlast'] at hlast
    cases hlast
    exact hnew
  · have hquiet := h.quiet fun z hz => hchange ⟨z, hz⟩
    exact hquiet.2 observer change (mem_toldAbout.1 (List.mem_of_getLast? hlast))

theorem append (h : Informs name observers x happenings y) (h' : Informs name observers y rest z) :
    Informs name observers x (happenings ++ rest) z := by
  constructor
  · intro hnone
    obtain ⟨hvalue, htold⟩ := h.quiet fun u hu => hnone u (List.mem_append_left _ hu)
    obtain ⟨hvalue', htold'⟩ := h'.quiet fun u hu => hnone u (List.mem_append_right _ hu)
    refine ⟨hvalue'.trans hvalue, fun o change hmem => ?_⟩
    rcases List.mem_append.1 hmem with hmem | hmem
    · exact (htold o change hmem).trans hvalue'.symm
    · exact htold' o change hmem
  · intro u hu o ho
    have happend : (toldAbout name o (happenings ++ rest)).getLast? =
        (toldAbout name o rest).getLast?.or (toldAbout name o happenings).getLast? := by
      rw [toldAbout, List.filterMap_append, List.getLast?_append]
      rfl
    cases hlast : (toldAbout name o rest).getLast? with
    | some change =>
      refine ⟨change, ?_, h'.new_eq_of_last ho hlast⟩
      rw [happend, hlast, Option.some_or]
    | none =>
      -- The observer hears nothing later on, so nothing changes later on.
      have hnone : ∀ w, .changed name w ∉ rest := by
        intro w hw
        obtain ⟨change, hchange, -⟩ := h'.loud w hw o ho
        rw [hlast] at hchange
        cases hchange
      have hfirst : .changed name u ∈ happenings :=
        (List.mem_append.1 hu).resolve_right (hnone u)
      obtain ⟨change, hchange, hnew⟩ := h.loud u hfirst o ho
      refine ⟨change, ?_, hnew.trans (h'.quiet hnone).1.symm⟩
      rw [happend, hlast, Option.none_or, hchange]

/-- A change that all observers are told about afterwards. -/
theorem changed (h : Informs name observers y happenings z)
    (htold : ∀ observer ∈ observers, ∃ change, .told name observer change ∈ happenings)
    (w : Float) : Informs name observers x (.changed name w :: happenings) z := by
  refine ⟨fun hnone => absurd List.mem_cons_self (hnone w), fun _ _ o ho => ?_⟩
  have hcons : toldAbout name o (.changed name w :: happenings) = toldAbout name o happenings :=
    List.filterMap_cons_none rfl
  obtain ⟨change, hmem⟩ := htold o ho
  have hne : toldAbout name o happenings ≠ [] := List.ne_nil_of_mem (mem_toldAbout.2 hmem)
  rw [hcons]
  exact ⟨_, List.getLast?_eq_some_getLast hne,
    h.new_eq_of_last ho (List.getLast?_eq_some_getLast hne)⟩

end Informs

/-- Everyone who is to be told is told. -/
theorem Unfolds.tells {v : Variable} {old : Float} {observers : List String}
    (h : Unfolds reactions (.tell v old observers) before happenings after) :
    ∀ observer ∈ observers, ∃ change, .told v.name observer change ∈ happenings := by
  induction observers generalizing before happenings with
  | nil => exact nofun
  | cons first others ih =>
    cases h with
    | told _ _ hothers =>
      rintro observer (_ | ⟨_, hmem⟩)
      · exact ⟨_, List.mem_cons_self⟩
      · obtain ⟨change, htold⟩ := ih hothers observer hmem
        exact ⟨change, List.mem_cons_of_mem _ (List.mem_append_right _ htold)⟩

/-- Observers are told about the variable that is in place. -/
def Part.InPlace (store : Store) : Part → Prop
  | .tell v .. => ∃ w, store.find? v.name = some w ∧ w.version = v.version
  | .set .. | .react _ => True

theorem storedValue_congr {store store' : Store} (h : store'.find? name = store.find? name) :
    storedValue store' name = storedValue store name := by
  rw [storedValue, h, storedValue]

theorem Unfolds.informs (h : Unfolds reactions part before happenings after)
    (hplace : part.InPlace before.store) (hknown : before.store.has name = true) :
    Informs name (before.store.observersOf name) (storedValue before.store name) happenings
      (storedValue after.store name) := by
  induction h with
  | created hwrite =>
    rw [storedValue_congr (Store.find?_of_write hwrite hknown fun _ => nofun)]
    exact .nil ..
  | kept hwrite =>
    rw [storedValue_congr (Store.find?_of_write hwrite hknown fun _ => nofun)]
    exact .nil ..
  | @changed game after store other x old v happenings hwrite htell ih =>
    obtain ⟨hname, hfind⟩ := Store.find?_of_changed hwrite
    have hretains := Store.retains_of_write hwrite
    have hrest := ih ⟨v, hname ▸ hfind, rfl⟩ (hretains.has hknown)
    rw [hretains.observersOf name] at hrest
    by_cases hsame : other = name
    · subst hsame
      -- Whatever else happens, all observers are told after this change.
      refine hrest.changed ?_ v.value
      have htells := htell.tells
      rwa [hname, hretains.observersOf other] at htells
    · rw [storedValue_congr (Store.find?_of_write hwrite hknown fun h => absurd h.symm hsame)] at hrest
      have hhead : Informs name (game.store.observersOf name) (storedValue game.store name)
          [.changed other v.value] (storedValue game.store name) := .other hsame
      exact hhead.append hrest
  | toldAll | done => exact .nil ..
  | @told game between after v old observer observers change first rest hnow hreact _ ih ih' =>
    -- The variable is in place, so the observer is told the value that is stored.
    obtain ⟨w, hfind, hversion⟩ := hplace
    have hretains : game.store.Retains between.store := hreact.retains
    obtain ⟨w', hfind', hversion'⟩ := hretains.places v.name w hfind
    have hfirst := ih trivial hknown
    have hrest := ih' ⟨w', hfind', hversion'.trans hversion⟩ (hretains.has hknown)
    rw [hretains.observersOf name] at hrest
    have hhead : Informs name (game.store.observersOf name) (storedValue game.store name)
        [.told v.name observer change] (storedValue game.store name) := by
      by_cases hsame : v.name = name
      · subst hsame
        refine .told ?_ observer
        rw [hnow, Store.current_eq hfind hversion, storedValue, hfind]
        rfl
      · exact .other hsame
    exact hhead.append (hfirst.append hrest)
  | @aside game _ _ _ spares _ _ ih =>
    rw [(spares game).1] at ih
    exact ih trivial hknown
  | write hfirst _ ih ih' =>
    have hretains := hfirst.retains
    have hrest := ih' trivial (hretains.has hknown)
    rw [hretains.observersOf name] at hrest
    exact (ih trivial hknown).append hrest

/-- Whatever observers write in turn, each observer of a variable that is told about it is told its
final value last, and when the variable is changed at any time, each is told about it.  This holds for
the variable that is written as for every other one. -/
theorem setVariable_informs {depth : Nat} {game : Game} {written : String}
    (hrun : (setVariable (informed reactions depth) written x).run.run game = (.ok y, after))
    (hknown : game.store.has name = true) :
    (∃ happenings, Unfolds reactions (.set written x y) game happenings after) ∧
    ∀ happenings, Unfolds reactions (.set written x y) game happenings after →
      after.notices = (happenings.filterMap Happening.notice?).reverse ++ game.notices ∧
      ((∀ z, .changed name z ∉ happenings) →
        storedValue after.store name = storedValue game.store name) ∧
      ∀ observer ∈ game.store.observersOf name,
        (∀ change, (toldAbout name observer happenings).getLast? = some change →
          change.new = storedValue after.store name) ∧
        ((∃ z, .changed name z ∈ happenings) → toldAbout name observer happenings ≠ []) := by
  refine ⟨exists_unfolds hrun, fun happenings hunfolds => ?_⟩
  have hinforms := hunfolds.informs trivial hknown
  refine ⟨hunfolds.notices, fun hnone => (hinforms.quiet hnone).1, fun observer hobserver => ?_⟩
  refine ⟨fun change hlast => hinforms.new_eq_of_last hobserver hlast, ?_⟩
  rintro ⟨z, hz⟩ hnil
  obtain ⟨change, hlast, -⟩ := hinforms.loud z hz observer hobserver
  rw [hnil] at hlast
  cases hlast

/-- An observer that sets a variable back whenever it is told another value. -/
def resetting (observer : String) (change : Change) : Reaction :=
  if observer = "reset" && change.new != 20.0 then .write "hp" 20.0 fun _ => .done else .done

/-- A game with a variable, an observer that sets it back, and one that hears of it later. -/
def resettingGame : Game :=
  { Game.empty {} ⟨none, [], 0, 0⟩ (.ofScript []) with
    store := {
      epsilon := 0.0
      vars := [{ name := "hp", value := 30.0 }]
      subscriptions := [("hp", ["reset", "log"])] } }

/-- The observer that hears of the variable later is told the value it was set back to, twice. -/
theorem resettingGame_informs : resettingGame.store.has "hp" = true ∧
    ∃ y after happenings,
      (setVariable (informed resetting 2) "hp" 10.0).run.run resettingGame = (.ok y, after) ∧
      Unfolds resetting (.set "hp" 10.0 y) resettingGame happenings after ∧
      ∃ change, (toldAbout "hp" "log" happenings).getLast? = some change ∧
        change.new = storedValue after.store "hp" := by
  have hknown : resettingGame.store.has "hp" = true := by decide +kernel
  have hok : ((setVariable (informed resetting 2) "hp" 10.0).run.run resettingGame).1.isOk = true := by
    decide +kernel
  have hvalue : (storedValue ((setVariable (informed resetting 2) "hp" 10.0).run.run
      resettingGame).2.store "hp").toBits ≠ (storedValue resettingGame.store "hp").toBits := by
    decide +kernel
  refine ⟨hknown, ?_⟩
  rcases hrun : (setVariable (informed resetting 2) "hp" 10.0).run.run resettingGame with
    ⟨fault | y, after⟩
  · rw [hrun] at hok
    cases hok
  · rw [hrun] at hvalue
    obtain ⟨⟨happenings, hunfolds⟩, hinforms⟩ := setVariable_informs hrun hknown
    obtain ⟨-, hsame, htold⟩ := hinforms happenings hunfolds
    obtain ⟨hlast, hchanged⟩ := htold "log" (by decide)
    -- the value has changed at the end, so it was told at least once
    have hchange : ∃ z, .changed "hp" z ∈ happenings := Classical.byContradiction fun hnone =>
      hvalue (congrArg Float.toBits (hsame fun z hz => hnone ⟨z, hz⟩))
    have hsome := List.getLast?_eq_some_getLast (hchanged hchange)
    exact ⟨y, after, happenings, rfl, hunfolds, _, hsome, hlast _ hsome⟩

/-! ## The observers of a console -/

namespace Console

variable {α β : Type} {observers : List Observer}

/-- Two requests do the same on games with certain observers, and leave the observers as they are. -/
def Alike (observers : List Observer) (p q : Play α) : Prop :=
  ∀ game, game.observers = observers →
    p.run.run game = q.run.run game ∧ (q.run.run game).2.observers = observers

theorem Alike.of_keeps {p : Play α} (h : ∀ game, (p.run.run game).2.observers = game.observers) :
    Alike observers p p :=
  fun game hgame => ⟨rfl, (h game).trans hgame⟩

theorem Alike.bind {p q : Play α} {f g : α → Play β} (h : Alike observers p q)
    (hnext : ∀ a, Alike observers (f a) (g a)) : Alike observers (p >>= f) (q >>= g) := by
  intro game hgame
  obtain ⟨hsame, hkept⟩ := h game hgame
  rw [run_bind, run_bind, hsame]
  rcases hrun : q.run.run game with ⟨fault | a, after⟩
  · rw [hrun] at hkept
    exact ⟨rfl, hkept⟩
  · rw [hrun] at hkept
    exact hnext a after hkept

theorem Alike.forIn {items : List α} {f g : α → PUnit → Play (ForInStep PUnit)}
    (h : ∀ a, Alike observers (f a ⟨⟩) (g a ⟨⟩)) :
    Alike observers (forIn items ⟨⟩ f) (forIn items ⟨⟩ g) := by
  induction items with
  | nil => exact .of_keeps fun _ => rfl
  | cons a items ih =>
    rw [List.forIn_cons, List.forIn_cons]
    refine (h a).bind fun step => ?_
    cases step with
    | done => exact .of_keeps fun _ => rfl
    | yield => exact ih

theorem alike_tellObservers {tell tell' : Tell}
    (htell : ∀ observer change, Alike observers (tell observer change) (tell' observer change))
    (v : Variable) (old : Float) :
    Alike observers (tellObservers tell v old) (tellObservers tell' v old) := by
  have hget : Alike observers (get : Play Game) get := .of_keeps fun _ => rfl
  refine hget.bind fun game => Alike.bind (.forIn fun observer => ?_) fun _ => .of_keeps fun _ => rfl
  exact hget.bind fun game => (htell observer _).bind fun _ => .of_keeps fun _ => rfl

theorem alike_setVariable {tell tell' : Tell}
    (htell : ∀ observer change, Alike observers (tell observer change) (tell' observer change))
    (name : String) (x : Float) :
    Alike observers (setVariable tell name x) (setVariable tell' name x) := by
  have hget : Alike observers (get : Play Game) get := .of_keeps fun _ => rfl
  refine hget.bind fun game => ?_
  have hwrite : Alike observers (liftM (game.store.write name x) : Play (Store × Store.Write))
      (liftM (game.store.write name x)) := by
    refine .of_keeps fun _ => ?_
    cases game.store.write name x <;> rfl
  refine hwrite.bind fun (store, write) => ?_
  have hchange : Alike observers (changeStore fun _ => store) (changeStore fun _ => store) :=
    .of_keeps fun _ => rfl
  refine hchange.bind fun _ => ?_
  cases write with
  | created | kept => exact .of_keeps fun _ => rfl
  | changed v old =>
    exact (alike_tellObservers htell v old).bind fun _ => .of_keeps fun _ => rfl

/-- A list of requests to set variables, as a reaction. -/
def settingReaction : List Request → Reaction
  | [] => .done
  | .set name x :: requests => .write name x fun _ => settingReaction requests
  | _ :: requests => settingReaction requests

/-- The reactions of observers to whatever they are told. -/
def settingReactions (observers : List Observer) (id : String) (_ : Change) : Reaction :=
  settingReaction (((observers.find? (·.id = id)).map (·.reaction)).getD [])

/-- Requests that set variables. -/
def Sets (requests : List Request) : Prop :=
  ∀ request ∈ requests, ∃ name x, request = .set name x

theorem alike_requests {answer : Request → Play Reply} {set : String → Float → Play Float}
    (hset : ∀ name x, Alike observers (answer (.set name x)) (Reply.number <$> set name x))
    {requests : List Request} (h : Sets requests) :
    Alike observers
      (forIn requests ⟨⟩ fun request _ => do
        let _ ← answer request
        return ForInStep.yield PUnit.unit)
      ((settingReaction requests).run set) := by
  induction requests with
  | nil => exact .of_keeps fun _ => rfl
  | cons request requests ih =>
    obtain ⟨name, x, rfl⟩ := h request List.mem_cons_self
    have hrest := ih fun request hmem => h request (List.mem_cons_of_mem _ hmem)
    have hrun : (settingReaction (.set name x :: requests)).run set =
        ((Reply.number <$> set name x) >>= fun _ => (settingReaction requests).run set) := by
      rw [bind_map_left]
      rfl
    rw [List.forIn_cons, hrun, bind_assoc]
    refine (hset name x).bind fun _ => ?_
    rw [pure_bind]
    exact hrest

theorem alike_respond_set {tell tell' : Tell}
    (htell : ∀ observer change, Alike observers (tell observer change) (tell' observer change))
    (name : String) (x : Float) :
    Alike observers (respond tell (.set name x)) (Reply.number <$> setVariable tell' name x) := by
  change Alike observers (Reply.number <$> setVariable tell name x) _
  rw [map_eq_pure_bind, map_eq_pure_bind]
  exact (alike_setVariable htell name x).bind fun _ => .of_keeps fun _ => rfl

/-- An observer of a console takes note of what it is told and reacts to it. -/
theorem alike_react (h : ∀ observer ∈ observers, Sets observer.reaction) {depth : Nat}
    (hset : ∀ name x, Alike observers (answer depth (.set name x))
      (Reply.number <$> setVariable (informed (settingReactions observers) depth) name x))
    (id : String) (change : Change) :
    Alike observers (react (answer depth) id change)
      (informed (settingReactions observers) (depth + 1) id change) := by
  have hnote : Alike observers
      (modify fun game => { game with notices := ⟨id, change⟩ :: game.notices } : Play PUnit)
      (modify fun game => { game with notices := ⟨id, change⟩ :: game.notices }) :=
    .of_keeps fun _ => rfl
  refine hnote.bind fun _ game hgame => ?_
  have hsets : Sets (((observers.find? (·.id = id)).map (·.reaction)).getD []) := by
    cases hfind : observers.find? (·.id = id) with
    | none => exact nofun
    | some observer => exact h observer (List.mem_of_find?_eq_some hfind)
  have hreaction := alike_requests hset hsets game hgame
  simp only [bind_pure_unit]
  rw [← hgame] at hreaction ⊢
  exact hreaction

/-- A console with observers that set variables is a game with informed observers. -/
theorem alike_answer_set (h : ∀ observer ∈ observers, Sets observer.reaction) (depth : Nat)
    (name : String) (x : Float) :
    Alike observers (answer depth (.set name x))
      (Reply.number <$> setVariable (informed (settingReactions observers) depth) name x) := by
  induction depth generalizing name x with
  | zero => exact alike_respond_set (fun _ _ => .of_keeps fun _ => rfl) name x
  | succ depth ih => exact alike_respond_set (alike_react h ih) name x

/-- What `setVariable_informs` says holds on a console whose observers set variables, to whatever
depth their reactions may go. -/
theorem exists_run_setVariable {depth : Nat} {game after : Game} {reply : Reply}
    (h : ∀ observer ∈ game.observers, Sets observer.reaction)
    (hrun : (answer depth (.set name x)).run.run game = (.ok reply, after)) :
    ∃ y, reply = .number y ∧
      (setVariable (informed (settingReactions game.observers) depth) name x).run.run game =
        (.ok y, after) := by
  rw [(alike_answer_set h depth name x game rfl).1, map_eq_pure_bind] at hrun
  obtain ⟨y, between, hset, hreply⟩ := exists_run_of_bind hrun
  cases hreply
  exact ⟨y, rfl, hset⟩

end Console

end EventDeck
