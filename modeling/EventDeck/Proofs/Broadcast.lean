import EventDeck.Proofs.Game.Runs
import EventDeck.Proofs.Observers

/-!
# Telling all observers

When observers are told the values of their variables they may write variables themselves.  A broadcast
should reach everyone all the same: whoever observes a variable that is there at the beginning is told
the value that it has when it is the observer's turn, once for each subscription.  `announce` goes
through the names that there are at the beginning and does just that (`Announces`), whatever is written
meanwhile.

A broadcast goes through the places of the store instead, and it gives up when a variable was created,
even if all observers have been told by then.  So it comes to the same as long as nobody writes an
unknown name; otherwise the observers of the variables that follow hear nothing
(`broadcast_announces`).
-/

namespace EventDeck

open Game

/-! ## Names and audiences -/

namespace Store

variable {store after : Store}

/-- Who observes some variables: each name with its observers, in the order of subscription. -/
def audienceOf (store : Store) (names : List String) : List (String × String) :=
  names.flatMap fun name => (store.observersOf name).map (name, ·)

/-- Who observes the variables of a store, in the order of the variables. -/
def audience (store : Store) : List (String × String) :=
  store.audienceOf store.names

theorem audienceOf_append (store : Store) (earlier later : List String) :
    store.audienceOf (earlier ++ later) = store.audienceOf earlier ++ store.audienceOf later :=
  List.flatMap_append

theorem Retains.audienceOf (h : store.Retains after) (names : List String) :
    after.audienceOf names = store.audienceOf names := by
  rw [Store.audienceOf, Store.audienceOf]
  congr
  funext name
  rw [h.observersOf]

end Store

/-! ## Announcements -/

/-- An observer is told about a variable, and something happens because of it. -/
structure Announcement where
  name : String
  observer : String
  change : Change
  happenings : List Happening

namespace Announcement

/-- Who is told about what. -/
def subscription (announcement : Announcement) : String × String :=
  (announcement.name, announcement.observer)

/-- What observers take note of: first the announcement itself. -/
def notices (announcement : Announcement) : List Notice :=
  ⟨announcement.observer, announcement.change⟩ ::
    announcement.happenings.filterMap Happening.notice?

end Announcement

/-- Observers are told about variables, one after the other, each with zero as the old value and the
value and the maximum that the variable has at that time. -/
inductive Announces (reactions : String → Change → Reaction) :
    List (String × String) → Game → List Announcement → Game → Prop
  | done (game : Game) : Announces reactions [] game [] game
  | tell {game between after : Game} {v : Variable} {name observer : String}
      {audience : List (String × String)} {happenings : List Happening} {rest : List Announcement}
      (found : game.store.find? name = some v)
      (react : Unfolds reactions (.react (reactions observer ⟨0.0, v.value, v.max⟩))
        { game with notices := ⟨observer, ⟨0.0, v.value, v.max⟩⟩ :: game.notices } happenings between)
      (others : Announces reactions audience between rest after) :
      Announces reactions ((name, observer) :: audience) game
        (⟨name, observer, ⟨0.0, v.value, v.max⟩, happenings⟩ :: rest) after

variable {reactions : String → Change → Reaction} {part : Part} {before between after last game : Game}
  {happenings : List Happening} {announcements first rest : List Announcement}
  {audience audience' : List (String × String)} {name : String} {names earlier later : List String}
  {v w : Variable} {tell : Tell} {depth size place : Nat}

theorem Unfolds.names_prefix (h : Unfolds reactions part before happenings after) :
    before.store.names <+: after.store.names := by
  induction h with
  | created hwrite | kept hwrite => exact Store.names_prefix_of_write hwrite
  | changed hwrite _ ih => exact (Store.names_prefix_of_write hwrite).trans ih
  | toldAll | done => exact List.prefix_refl _
  | told _ _ _ ih ih' => exact ih.trans ih'
  | @aside game _ _ _ spares _ _ ih => rwa [(spares game).1] at ih
  | write _ _ ih ih' => exact ih.trans ih'

namespace Announces

theorem append (h : Announces reactions audience before first between)
    (h' : Announces reactions audience' between rest after) :
    Announces reactions (audience ++ audience') before (first ++ rest) after := by
  induction h with
  | done => exact h'
  | tell hfound hreact _ ih => exact .tell hfound hreact (ih h')

theorem retains (h : Announces reactions audience before announcements after) :
    before.store.Retains after.store := by
  induction h with
  | done => exact .refl _
  | tell _ hreact _ ih => exact hreact.retains.trans ih

theorem names_prefix (h : Announces reactions audience before announcements after) :
    before.store.names <+: after.store.names := by
  induction h with
  | done => exact List.prefix_refl _
  | tell _ hreact _ ih => exact hreact.names_prefix.trans ih

/-- The observers of a name are told, and then those of others. -/
theorem cons {store : Store} (h : Announces reactions (store.audienceOf [name]) before first between)
    (h' : Announces reactions (store.audienceOf names) between rest after) :
    Announces reactions (store.audienceOf (name :: names)) before (first ++ rest) after := by
  have happend := h.append h'
  rwa [← Store.audienceOf_append] at happend

/-- Everyone is told once, in order. -/
theorem subscriptions (h : Announces reactions audience before announcements after) :
    announcements.map (·.subscription) = audience := by
  induction h with
  | done => rfl
  | tell _ _ _ ih => exact congrArg (List.cons _) ih

/-- Observers take note of what they are told and of what follows from it. -/
theorem notices (h : Announces reactions audience before announcements after) :
    after.notices = (announcements.flatMap (·.notices)).reverse ++ before.notices := by
  induction h with
  | done => rfl
  | tell _ hreact _ ih =>
    rw [ih, hreact.notices, List.flatMap_cons, Announcement.notices]
    simp

end Announces

/-! ## Telling the observers of a variable -/

/-- What an informed observer does unfolds. -/
theorem exists_unfolds_informed {observer : String} {change : Change}
    (hrun : (informed reactions depth observer change).run.run before = (.ok (), after)) :
    ∃ happenings, Unfolds reactions (.react (reactions observer change))
      { before with notices := ⟨observer, change⟩ :: before.notices } happenings after := by
  cases depth with
  | zero => cases hrun
  | succ depth => exact unfolds_react (fun _ _ _ _ _ hset => exists_unfolds hset) hrun

/-- The observers of a variable that has its place are told what is stored. -/
theorem Unfolds.announces {observers : List String}
    (h : Unfolds reactions (.tell v 0.0 observers) before happenings after)
    (hfind : before.store.find? v.name = some w) (hversion : w.version = v.version) :
    ∃ announcements, Announces reactions (observers.map (v.name, ·)) before announcements after := by
  induction observers generalizing before happenings w with
  | nil =>
    cases h
    exact ⟨[], .done _⟩
  | cons observer observers ih =>
    cases h with
    | told hnow hreact hothers =>
      rw [Store.current_eq hfind hversion] at hnow
      subst hnow
      -- the variable keeps its place while the first observer reacts
      obtain ⟨w', hfind', hversion'⟩ := hreact.retains.places v.name w hfind
      obtain ⟨announcements, hrest⟩ := ih hothers hfind' (hversion'.trans hversion)
      exact ⟨_, .tell hfind hreact hrest⟩

theorem exists_announces_of_tellObservers (hfind : before.store.find? name = some v)
    (hrun : (tellObservers (informed reactions depth) v 0.0).run.run before = (.ok (), after)) :
    ∃ announcements, Announces reactions (before.store.audienceOf [name]) before announcements after := by
  obtain rfl := Store.name_of_find? hfind
  rw [tellObservers, run_get_bind] at hrun
  obtain ⟨⟨⟩, between, hloop, hend⟩ := exists_run_of_bind hrun
  cases hend
  obtain ⟨happenings, hunfolds⟩ := unfolds_tell (fun _ _ _ _ => exists_unfolds_informed) hloop
  obtain ⟨announcements, hannounces⟩ := hunfolds.announces hfind rfl
  refine ⟨announcements, ?_⟩
  rw [Store.audienceOf, List.flatMap_singleton]
  exact hannounces

/-! ## Going through the variables -/

namespace Game

/-- Tells the observers of some names, one after the other. -/
def tellNames (tell : Tell) (names : List String) : Play Unit := do
  for name in names do
    if let some v := (← get).store.find? name then tellObservers tell v 0.0

/-- Tells every observer of the variables that there are at the beginning the value of its variable,
with zero as the old value. -/
def announce (tell : Tell) : Play Unit := do
  tellNames tell (← get).store.names

/-- Tells the observers of the variables in some places, as long as there are as many variables as at
the beginning. -/
def tellPlaces (tell : Tell) (size : Nat) (places : List Nat) : Play Unit := do
  for place in places do
    if let some v := (← get).store.vars[place]? then tellObservers tell v 0.0
    unless (← get).store.size = size do throw .changedWhileTelling

theorem run_broadcast (tell : Tell) (game : Game) :
    (broadcast tell).run.run game =
      (tellPlaces tell game.store.names.length (List.range game.store.names.length)).run.run game :=
  rfl

theorem run_tellPlaces_cons {places : List Nat} (hplace : game.store.vars[place]? = some v)
    (htold : (tellObservers tell v 0.0).run.run game = (.ok (), after)) :
    (tellPlaces tell size (place :: places)).run.run game =
      if after.store.size = size then (tellPlaces tell size places).run.run after
      else (.error .changedWhileTelling, after) := by
  rw [tellPlaces, bind_pure_unit, List.forIn_cons, bind_assoc, run_get_bind, hplace]
  dsimp only
  rw [bind_assoc, run_bind_ok htold, bind_assoc, run_get_bind]
  split
  · rw [tellPlaces, bind_pure_unit]
    rfl
  · rfl

/-- The first of some names whose observers are told, when nobody raises a fault. -/
theorem exists_run_tellNames_cons (hfind : game.store.find? name = some v)
    (hrun : (tellNames tell (name :: names)).run.run game = (.ok (), last)) :
    ∃ between, (tellObservers tell v 0.0).run.run game = (.ok (), between) ∧
      (tellNames tell names).run.run between = (.ok (), last) := by
  rw [tellNames, bind_pure_unit, List.forIn_cons, bind_assoc, run_get_bind, hfind] at hrun
  dsimp only at hrun
  rw [bind_assoc] at hrun
  obtain ⟨⟨⟩, between, htold, hrest⟩ := exists_run_of_bind hrun
  refine ⟨between, htold, ?_⟩
  rw [tellNames, bind_pure_unit]
  exact hrest

/-- Whoever observes variables that there are is told, whatever is written meanwhile. -/
theorem exists_announces (hknown : ∀ name ∈ names, name ∈ game.store.names)
    (hrun : (tellNames (informed reactions depth) names).run.run game = (.ok (), last)) :
    ∃ announcements,
      Announces reactions (game.store.audienceOf names) game announcements last := by
  induction names generalizing game with
  | nil =>
    cases hrun
    exact ⟨[], .done _⟩
  | cons name names ih =>
    obtain ⟨hfirst, hothers⟩ := List.forall_mem_cons.mp hknown
    obtain ⟨v, hfind⟩ := Option.isSome_iff_exists.mp ((Store.has_iff_mem_names _ _).mpr hfirst)
    obtain ⟨between, htold, hrest⟩ := exists_run_tellNames_cons hfind hrun
    obtain ⟨own, hown⟩ := exists_announces_of_tellObservers hfind htold
    obtain ⟨others, hothers⟩ :=
      ih (fun other hother => hown.names_prefix.subset (hothers other hother)) hrest
    rw [hown.retains.audienceOf] at hothers
    exact ⟨own ++ others, hown.cons hothers⟩

end Game

/-- While observers are told about variables one after the other, those of one variable create others.
Nobody did so before, and the observers of the variables that follow are not told. -/
inductive BreaksOff (reactions : String → Change → Reaction) (names : List String) (game : Game)
    (announcements : List Announcement) (after : Game) : Prop
  | at {name : String} {told missed : List String} {between : Game}
      {early own others : List Announcement}
      (split : names = told ++ name :: missed)
      (all : announcements = early ++ (own ++ others))
      (heard : Announces reactions (game.store.audienceOf told) game early between)
      (kept : between.store.names = game.store.names)
      (last : Announces reactions (game.store.audienceOf [name]) between own after)
      (created : game.store.size < after.store.size)
      (unheard : others.map (·.subscription) = game.store.audienceOf missed)

/-- Something is broken off later. -/
theorem BreaksOff.behind (hown : Announces reactions (game.store.audienceOf [name]) game first between)
    (hsame : between.store.names = game.store.names)
    (h : BreaksOff reactions names between announcements after) :
    BreaksOff reactions (name :: names) game (first ++ announcements) after := by
  obtain ⟨hsplit, hall, hheard, hkept, hlast, hcreated, hunheard⟩ := h
  have hsize : between.store.size = game.store.size := by
    rw [← Store.length_names, hsame, Store.length_names]
  rw [hown.retains.audienceOf] at hheard hlast hunheard
  refine .at (congrArg (List.cons name) hsplit) ?_ (hown.cons hheard) (hkept.trans hsame) hlast
    (hsize ▸ hcreated) hunheard
  rw [hall, List.append_assoc]

namespace Game

/-- When the observers of a variable create others, it is broken off behind them. -/
theorem exists_breaksOff (hnames : ∀ other ∈ names, other ∈ game.store.names)
    (hown : Announces reactions (game.store.audienceOf [name]) game first between)
    (hgrown : between.store.names ≠ game.store.names)
    (hrun : (tellNames (informed reactions depth) names).run.run between = (.ok (), last)) :
    last.store.names ≠ game.store.names ∧ ∃ announcements,
      Announces reactions (game.store.audienceOf (name :: names)) game announcements last ∧
      BreaksOff reactions (name :: names) game announcements between := by
  have hsize : game.store.size < between.store.size := by
    rw [← Store.length_names, ← Store.length_names]
    refine Nat.lt_of_le_of_ne hown.names_prefix.length_le fun heq => hgrown ?_
    exact (hown.names_prefix.eq_of_length heq).symm
  obtain ⟨others, hothers⟩ :=
    exists_announces (fun other hother => hown.names_prefix.subset (hnames other hother)) hrun
  have hlast : last.store.names ≠ game.store.names := fun heq => by
    have hle := hothers.names_prefix.length_le
    rw [heq, Store.length_names, Store.length_names] at hle
    omega
  rw [hown.retains.audienceOf] at hothers
  have hnone : Announces reactions (game.store.audienceOf []) game [] game := .done game
  exact ⟨hlast, first ++ others, hown.cons hothers,
    .at rfl rfl hnone rfl hown hsize hothers.subscriptions⟩

/-- Going through the places of a store does what should be done, unless names are created. -/
theorem run_tellPlaces (hnames : game.store.names = earlier ++ later)
    (hnodup : (earlier ++ later).Nodup)
    (hrun : (tellNames (informed reactions depth) later).run.run game = (.ok (), last)) :
    let places := (tellPlaces (informed reactions depth) game.store.names.length
      (List.range' earlier.length later.length)).run.run game
    (last.store.names = game.store.names → places = (.ok (), last)) ∧
    (last.store.names ≠ game.store.names → ∃ announcements after,
      Announces reactions (game.store.audienceOf later) game announcements last ∧
      BreaksOff reactions later game announcements after ∧
      places = (.error .changedWhileTelling, after)) := by
  -- Places and names are gone through together: what is told at the first place of the rest is told by
  -- its name, until a name is created.
  induction later generalizing earlier game with
  | nil =>
    cases hrun
    exact ⟨fun _ => rfl, fun hne => absurd rfl hne⟩
  | cons name later ih =>
    intro places
    have hnew : name ∉ earlier := fun hmem =>
      (List.nodup_append.mp hnodup).2.2 name hmem name List.mem_cons_self rfl
    obtain ⟨v, hplace, hfind⟩ := Store.exists_place hnames hnew
    obtain ⟨between, htold, hrest⟩ := exists_run_tellNames_cons hfind hrun
    obtain ⟨own, hown⟩ := exists_announces_of_tellObservers hfind htold
    have hplaces : places = if between.store.size = game.store.names.length then
        (tellPlaces (informed reactions depth) game.store.names.length
          (List.range' (earlier.length + 1) later.length)).run.run between
        else (.error .changedWhileTelling, between) :=
      run_tellPlaces_cons hplace htold
    rw [hplaces, ← Store.length_names]
    by_cases hsame : between.store.names = game.store.names
    · -- no name was created, so the next variable has the next place
      have hsplit : between.store.names = (earlier ++ [name]) ++ later := by simp [hsame, hnames]
      have hnext := ih hsplit (by simpa using hnodup) hrest
      rw [hsame, List.length_append, List.length_singleton] at hnext
      rw [if_pos (congrArg List.length hsame)]
      refine ⟨hnext.1, fun hgrown => ?_⟩
      obtain ⟨others, after, hothers, hbreaks, hafter⟩ := hnext.2 hgrown
      rw [hown.retains.audienceOf] at hothers
      exact ⟨own ++ others, after, hown.cons hothers, hbreaks.behind hown hsame, hafter⟩
    · have hlater : ∀ other ∈ later, other ∈ game.store.names := by
        intro other hother
        rw [hnames]
        exact List.mem_append_right _ (List.mem_cons_of_mem _ hother)
      obtain ⟨hgrown, announcements, hannounces, hbreaks⟩ := exists_breaksOff hlater hown hsame hrest
      rw [if_neg fun heq => hsame (hown.names_prefix.eq_of_length heq.symm).symm]
      exact ⟨fun heq => absurd heq hgrown, fun _ => ⟨announcements, between, hannounces, hbreaks, rfl⟩⟩

/-- A broadcast, when no observer raises a fault if all are told in turn: whoever observes a variable
that there is at the beginning should be told once for each subscription, in order, with zero as the old
value and the value and the maximum that the variable has at that time.  The broadcast does this and
nothing else if no variable is created meanwhile.  Otherwise it ends in a fault, when the observers of the
first variable that leads to this have all been told, and those of the variables behind it are not told. -/
theorem broadcast_announces (hnames : game.store.names.Nodup)
    (hrun : (announce (informed reactions depth)).run.run game = (.ok (), last)) :
    ∃ announcements, Announces reactions game.store.audience game announcements last ∧
      announcements.map (·.subscription) = game.store.audience ∧
      last.notices = (announcements.flatMap (·.notices)).reverse ++ game.notices ∧
      (last.store.names = game.store.names →
        (broadcast (informed reactions depth)).run.run game = (.ok (), last)) ∧
      (last.store.names ≠ game.store.names → ∃ after,
        BreaksOff reactions game.store.names game announcements after ∧
        (broadcast (informed reactions depth)).run.run game = (.error .changedWhileTelling, after)) := by
  have hsplit : game.store.names = [] ++ game.store.names := rfl
  have hplaces := run_tellPlaces hsplit hnames hrun
  rw [List.length_nil, ← List.range_eq_range', ← run_broadcast] at hplaces
  obtain ⟨hdone, hbroken⟩ := hplaces
  by_cases hsame : last.store.names = game.store.names
  · obtain ⟨announcements, hannounces⟩ := exists_announces (fun _ hname => hname) hrun
    exact ⟨announcements, hannounces, hannounces.subscriptions, hannounces.notices, hdone,
      fun hgrown => absurd hsame hgrown⟩
  · obtain ⟨announcements, after, hannounces, hbreaks, hafter⟩ := hbroken hsame
    exact ⟨announcements, hannounces, hannounces.subscriptions, hannounces.notices, hdone,
      fun _ => ⟨after, hbreaks, hafter⟩⟩

/-- A game with two variables and observers of both. -/
def pairGame : Game :=
  { Game.empty {} ⟨none, [], 0, 0⟩ (.ofScript []) with
    store := {
      epsilon := 0.0
      vars := [{ name := "hp", value := 5.0 }, { name := "mp", value := 3.0 }]
      subscriptions := [("hp", ["a"]), ("mp", ["b", "b"])] } }

/-- An observer that writes to a name whenever it is told something. -/
def writing (name observer : String) (_ : Change) : Reaction :=
  if observer = "a" then .write name 7.0 fun _ => .done else .done

/-- The observer of one variable writes the other, whose observer is told twice about it then and is
told the new value twice in its turn. -/
theorem pairGame_announces :
    pairGame.store.names.Nodup ∧ ∃ announcements last,
      (announce (informed (writing "mp") 2)).run.run pairGame = (.ok (), last) ∧
      (broadcast (informed (writing "mp") 2)).run.run pairGame = (.ok (), last) ∧
      Announces (writing "mp") pairGame.store.audience pairGame announcements last ∧
      announcements.map (·.subscription) = [("hp", "a"), ("mp", "b"), ("mp", "b")] ∧
      last.notices.map (·.observer) = ["b", "b", "b", "b", "a"] := by
  have hnames : pairGame.store.names.Nodup := by decide
  have hok : ((announce (informed (writing "mp") 2)).run.run pairGame).1.isOk = true := by
    decide +kernel
  have hkept : ((announce (informed (writing "mp") 2)).run.run pairGame).2.store.names =
      pairGame.store.names := by
    decide +kernel
  have hnotices : ((announce (informed (writing "mp") 2)).run.run pairGame).2.notices.map
      (·.observer) = ["b", "b", "b", "b", "a"] := by
    decide +kernel
  rcases hrun : (announce (informed (writing "mp") 2)).run.run pairGame with ⟨fault | ⟨⟩, last⟩
  · rw [hrun] at hok
    cases hok
  · rw [hrun] at hkept hnotices
    obtain ⟨announcements, hannounces, hsubscriptions, -, hdone, -⟩ := broadcast_announces hnames hrun
    exact ⟨hnames, announcements, last, rfl, hdone hkept, hannounces, hsubscriptions, hnotices⟩

/-- The observer of one variable creates another one, and the observer of the second variable is not
told anything, although all could be told in turn. -/
theorem pairGame_breaks_off :
    ∃ last after,
      (announce (informed (writing "mana") 2)).run.run pairGame = (.ok (), last) ∧
      last.notices.map (·.observer) = ["b", "b", "a"] ∧
      (broadcast (informed (writing "mana") 2)).run.run pairGame = (.error .changedWhileTelling, after) ∧
      after.notices.map (·.observer) = ["a"] := by
  -- both ways of telling are computed, and then said of their results
  have hall : fault? ((announce (informed (writing "mana") 2)).run.run pairGame).1 = none ∧
      ((announce (informed (writing "mana") 2)).run.run pairGame).2.notices.map (·.observer) =
        ["b", "b", "a"] := by
    decide +kernel
  have hbroken : fault? ((broadcast (informed (writing "mana") 2)).run.run pairGame).1 =
        some .changedWhileTelling ∧
      ((broadcast (informed (writing "mana") 2)).run.run pairGame).2.notices.map (·.observer) =
        ["a"] := by
    decide +kernel
  rcases hrun : (announce (informed (writing "mana") 2)).run.run pairGame with ⟨fault | ⟨⟩, last⟩
  · rw [hrun] at hall
    cases hall.1
  rcases hrun' : (broadcast (informed (writing "mana") 2)).run.run pairGame with ⟨fault | ⟨⟩, after⟩
  · rw [hrun] at hall
    rw [hrun'] at hbroken
    obtain rfl := Option.some.inj hbroken.1
    exact ⟨last, after, rfl, hall.2, rfl, hbroken.2⟩
  · rw [hrun'] at hbroken
    cases hbroken.1

end Game

/-! ## The observers of a console -/

namespace Console

variable {observers : List Observer}

theorem alike_broadcast {tell tell' : Tell}
    (htell : ∀ observer change, Alike observers (tell observer change) (tell' observer change)) :
    Alike observers (broadcast tell) (broadcast tell') := by
  have hget : Alike observers (get : Play Game) get := .of_keeps fun _ => rfl
  have hcheck : ∀ size game, ((do
      unless (← get).store.size = size do throw .changedWhileTelling
      return ForInStep.yield PUnit.unit : Play (ForInStep PUnit)).run.run game).2.observers =
        game.observers := by
    intro size game
    rw [run_get_bind]
    split <;> rfl
  intro game hgame
  rw [run_broadcast, run_broadcast]
  refine Alike.bind (.forIn fun place => ?_) (fun _ => .of_keeps fun _ => rfl) game hgame
  refine hget.bind fun game => ?_
  dsimp only
  split
  next v _ => exact (alike_tellObservers htell v 0.0).bind fun _ => .of_keeps (hcheck _)
  next => exact .of_keeps (hcheck _)

/-- A broadcast of a console whose observers set variables. -/
theorem run_answer_broadcast {depth : Nat} {game : Game}
    (h : ∀ observer ∈ game.observers, Sets observer.reaction) :
    (answer depth .broadcast).run.run game =
      (do broadcast (informed (settingReactions game.observers) depth); return Reply.nothing :
        Play Reply).run.run game := by
  have htell : ∀ depth, Alike game.observers (answer depth .broadcast)
    (do broadcast (informed (settingReactions game.observers) depth); return Reply.nothing) := by
    intro depth
    cases depth with
    | zero => exact (alike_broadcast fun _ _ => .of_keeps fun _ => rfl).bind fun _ => .of_keeps fun _ => rfl
    | succ depth =>
      exact (alike_broadcast (alike_react h (alike_answer_set h depth))).bind fun _ => .of_keeps fun _ => rfl
  exact (htell depth game rfl).1

end Console

end EventDeck
