import EventDeck.Proofs.Service.Front
import EventDeck.Proofs.Session

/-!
# What an action destroys

The command `destroy` takes the first card of the queue for the card that is being resolved.  When the
action is accepted the two are the same, if no control has come between, and they stay the same until a
special effect of the action takes the first card out (`Session.Clears`).  What is destroyed before that
is the card that is being resolved, and what is destroyed after it can be any other
(`destroyed_is_resolved`).
-/

namespace EventDeck

open Game

namespace Session

variable {game opened : Game} {text : String} {texts : List String} {key other : Nat}
  {early late rest : List Moment} {choice : Choice}

/-! ## The head of the queue between special effects -/

/-- A special effect takes the first card out of the queue, and another card or none is in front
then. -/
def Clears (text : String) (game : Game) : Prop :=
  ∃ command, Command.parse text = .ok command ∧ game.catalog.Takes command ∧
    game.catalog.queue[1]? ≠ game.catalog.head?

/-- At a moment the first card is taken out of the queue. -/
def Moment.Clears (moment : Moment) : Prop :=
  ∃ text, moment.special = some text ∧ Session.Clears text moment.before

/-- A special effect leaves the first card of the queue in front unless it takes it out. -/
theorem head?_runSpecial (hhead : game.catalog.head? = some key) (h : ¬Clears text game) :
    ((runSpecial text).run.run game).2.catalog.head? = some key := by
  unfold runSpecial
  split
  next command hparse =>
    obtain ⟨decided, hdecided, catalog, hedits, result, diagnostics, generator, hrun⟩ :=
      commands_execute command game
    rw [hrun]
    refine (Catalog.head?_edits_iff hedits hhead).mpr fun htakes => h ⟨command, hparse, ?_⟩
    exact ⟨(Catalog.takes_decided hdecided).mp htakes.1, hhead ▸ htakes.2⟩
  next => exact hhead

/-- A special effect never ends in a fault. -/
theorem exists_run_runSpecial (text : String) (game : Game) :
    ∃ result after, (runSpecial text).run.run game = (.ok result, after) := by
  unfold runSpecial
  split
  next command _ =>
    obtain ⟨_, -, _, -, result, _, _, hrun⟩ := commands_execute command game
    exact ⟨result, _, hrun⟩
  next => exact ⟨_, _, rfl⟩

theorem specialMoments_cons (text : String) (texts : List String) (game : Game) :
    specialMoments (text :: texts) game =
      ⟨game, some text, ((runSpecial text).run.run game).2⟩ ::
        specialMoments texts ((runSpecial text).run.run game).2 := by
  obtain ⟨result, after, hrun⟩ := exists_run_runSpecial text game
  rw [specialMoments, hrun]

/-- As long as no special effect takes it out, the first card stays in front. -/
theorem head?_last (hhead : game.catalog.head? = some key)
    (hsplit : specialMoments texts game = early ++ rest) (hearly : ∀ one ∈ early, ¬one.Clears) :
    (last game early).catalog.head? = some key ∧
      ∀ moment late, rest = moment :: late → moment.before = last game early := by
  induction texts generalizing game early with
  | nil =>
    have hempty : early ++ rest = [] := hsplit.symm
    obtain ⟨rfl, rfl⟩ := List.append_eq_nil_iff.mp hempty
    exact ⟨hhead, fun _ _ h => absurd h.symm (List.cons_ne_nil _ _)⟩
  | cons text texts ih =>
    rw [specialMoments_cons] at hsplit
    cases early with
    | nil =>
      refine ⟨hhead, ?_⟩
      rintro moment late rfl
      exact congrArg Moment.before (List.cons.inj hsplit).1.symm
    | cons one early =>
      obtain ⟨rfl, htail⟩ := List.cons.inj hsplit
      obtain ⟨hone, hearly⟩ := List.forall_mem_cons.mp hearly
      have hnext := ih (head?_runSpecial hhead fun h => hone ⟨text, rfl, h⟩) htail hearly
      exact hnext

/-! ## Selections -/

/-- What a selection does before its special effects. -/
theorem run_opening_select (choice : Choice) (game : Game) :
    ((Operation.select choice).opening silent).run.run game = (do
      match ← accepted? choice with
      | some (key, some action) =>
        changeScheduler (Act.accept key).next
        Session.opening silent action.effects action.specials
      | _ => return [] : Play (List String)).run.run game := by
  rw [accepted?, Operation.opening, bind_assoc, run_get_bind, run_get_bind]
  dsimp only
  cases game.scheduler.current with
  | none => rfl
  | some key =>
    dsimp only
    split
    · rw [bind_assoc]
      congr 3
      funext available
      rw [bind_assoc]
      congr 1
      funext actions
      cases chosen choice actions available with
      | error message => rfl
      | ok action => cases action <;> rfl
    · rfl

theorem evaluates_opening (effects specials : List String) (game : Game) :
    Runs Evaluates (Session.opening silent effects specials) game := by
  refine (runs_loop (fun effect game => ?_) game).then fun _ _ => runs_pure _ _
  exact (runs_evaluate runs_silent effect game).then fun _ _ => runs_pure _ _

/-- Special effects are those of an action that was accepted, whose effects have been carried out. -/
theorem exists_accepted_of_opening
    (h : ((Operation.select choice).opening silent).run.run game = (.ok texts, opened))
    (htexts : texts ≠ []) :
    ∃ key action between, (accepted? choice).run.run game = (.ok (some (key, some action)), between) ∧
      (Session.opening silent action.effects action.specials).run.run (between.accepting key) =
        (.ok texts, opened) := by
  rw [run_opening_select] at h
  obtain ⟨accepted, between, haccepted, hrest⟩ := exists_run_of_bind h
  match accepted with
  | none | some (_, none) =>
    cases hrest
    exact absurd rfl htexts
  | some (key, some action) => exact ⟨key, action, between, haccepted, hrest⟩

/-- Cards are where they were when the special effects come. -/
theorem catalog_opening
    (h : ((Operation.select choice).opening silent).run.run game = (.ok texts, opened))
    (htexts : texts ≠ []) : opened.catalog = game.catalog := by
  obtain ⟨key, action, between, haccepted, hopening⟩ := exists_accepted_of_opening h htexts
  have hbetween : Evaluates game none between := (evaluates_accepted? choice game).of_ok haccepted
  have hopened : Evaluates (between.accepting key) none opened :=
    (evaluates_opening ..).of_ok hopening
  exact hopened.catalog.trans hbetween.catalog

/-- The special effects of an operation come between its first and its last moment. -/
theorem split_moments {operation : Operation} {moment : Moment} (hspecial : moment.special ≠ none)
    (hsplit : operation.moments silent game = early ++ moment :: late) :
    ∃ texts opened first rest, (operation.opening silent).run.run game = (.ok texts, opened) ∧
      early = ⟨game, none, opened⟩ :: first ∧
      specialMoments texts opened = first ++ moment :: rest := by
  have hother : ∀ before after, moment ≠ ⟨before, none, after⟩ := by
    rintro before after rfl
    exact hspecial rfl
  unfold Operation.moments at hsplit
  split at hsplit
  next texts opened hopening =>
    rw [List.cons_append] at hsplit
    -- A moment of a special effect is neither the opening nor the end, and so the split is one of the
    -- moments between them.
    cases early with
    | nil => exact (hother _ _ (List.cons.inj hsplit).1.symm).elim
    | cons one first =>
      obtain ⟨rfl, htail⟩ := List.cons.inj hsplit
      rcases List.eq_nil_or_concat late with rfl | ⟨rest, final, rfl⟩
      · have hlast := List.append_inj_right' htail rfl
        exact (hother _ _ (List.cons.inj hlast).1.symm).elim
      · rw [List.concat_eq_append] at htail
        have hmoments := htail.trans (List.append_assoc first (moment :: rest) [final]).symm
        exact ⟨texts, opened, first, rest, hopening, rfl, List.append_inj_left' hmoments rfl⟩
  next =>
    have hmem : moment ∈ [⟨game, none, operation.after silent game⟩] :=
      hsplit ▸ List.mem_append_right _ List.mem_cons_self
    exact (hother _ _ (List.mem_singleton.mp hmem)).elim

/-- The first card is in front at every special effect of a selection, as long as none of those before
has taken it out. -/
theorem head?_moments {moment : Moment} (hhead : game.catalog.head? = some key)
    (hsplit : (Operation.select choice).moments silent game = early ++ moment :: late)
    (hspecial : moment.special ≠ none) (hearly : ∀ one ∈ early, ¬one.Clears) :
    moment.before.catalog.head? = some key := by
  obtain ⟨texts, opened, first, rest, hopening, rfl, hmoments⟩ := split_moments hspecial hsplit
  have htexts : texts ≠ [] := by
    rintro rfl
    exact absurd hmoments.symm (by simp [specialMoments])
  rw [← catalog_opening hopening htexts] at hhead
  obtain ⟨hfront, hbefore⟩ := head?_last hhead hmoments (List.forall_mem_cons.mp hearly).2
  rw [hbefore moment rest rfl]
  exact hfront

/-! ## The pool -/

theorem head?_of_destroyed? {moment : Moment} (h : moment.destroyed? = some other) :
    moment.special ≠ none ∧ moment.before.catalog.head? = some other := by
  obtain ⟨text, hspecial, hdestroyed⟩ := Option.bind_eq_some_iff.mp h
  exact ⟨hspecial ▸ Option.some_ne_none text, (run_runSpecial_destroyed hdestroyed).2⟩

/-- Nothing is destroyed after the first card was taken out of the queue. -/
def Calm (moments : List Moment) : Prop :=
  ∀ early moment late, moments = early ++ moment :: late → moment.destroyed? ≠ none →
    ∀ one ∈ early, ¬one.Clears

/-- What is destroyed first while a card is resolved is that card. -/
theorem eq_of_destroyed? {moment : Moment} (hhead : game.catalog.head? = some key)
    (hsplit : (Operation.select choice).moments silent game = early ++ moment :: late)
    (hdestroyed : moment.destroyed? = some other) (hearly : ∀ one ∈ early, ¬one.Clears) :
    other = key := by
  obtain ⟨hspecial, hother⟩ := head?_of_destroyed? hdestroyed
  exact Option.some.inj (hother.symm.trans (head?_moments hhead hsplit hspecial hearly))

/-- The cards that are destroyed at some moments. -/
def destroyed (moments : List Moment) : List Nat :=
  moments.filterMap (·.destroyed?)

theorem mem_destroyed {moments : List Moment} :
    other ∈ destroyed moments ↔ ∃ moment ∈ moments, moment.destroyed? = some other :=
  List.mem_filterMap

theorem eq_of_mem_destroyed (hhead : game.catalog.head? = some key)
    (hcalm : Calm ((Operation.select choice).moments silent game))
    (h : other ∈ destroyed ((Operation.select choice).moments silent game)) : other = key := by
  obtain ⟨moment, hmem, hdestroyed⟩ := mem_destroyed.mp h
  obtain ⟨early, late, hsplit⟩ := List.append_of_mem hmem
  have hearly := hcalm early moment late hsplit (hdestroyed ▸ Option.some_ne_none other)
  exact eq_of_destroyed? hhead hsplit hdestroyed hearly

/-- The pool loses the cards that are destroyed and no others. -/
theorem Path.mem_pool_iff {first last : Game} {moments : List Moment} (h : Path first moments last)
    (hnodup : first.catalog.pool.Nodup) :
    other ∈ last.catalog.pool ↔ other ∈ first.catalog.pool ∧ other ∉ destroyed moments := by
  induction h with
  | done => simp [destroyed]
  | other kept _ ih =>
    rw [ih (kept.cards.nodup hnodup), kept.cards.perm.mem_iff]
    rfl
  | @special before last moments text _ ih =>
    rw [ih (nodup_runSpecial hnodup)]
    cases hdestroyed : destroyed? text before with
    | none =>
      have hperm := (keeps_runSpecial hdestroyed).cards.perm
      rw [hperm.mem_iff]
      simp [destroyed, Moment.destroyed?, hdestroyed]
    | some key =>
      rw [(run_runSpecial_destroyed hdestroyed).1, Catalog.pool_destroy, hnodup.mem_erase_iff]
      simp [destroyed, Moment.destroyed?, hdestroyed, and_assoc, and_left_comm]

/-- At some moments the pool has lost a card if anything was destroyed, and no other card. -/
def RemovesOnly (key : Nat) (moments : List Moment) (before after : Game) : Prop :=
  ∀ other, other ∈ after.catalog.pool ↔
    other ∈ before.catalog.pool ∧ ¬(other = key ∧ destroyed moments ≠ [])

theorem removesOnly_iff {before after : Game} {moments : List Moment}
    (hpool : ∀ other, other ∈ after.catalog.pool ↔
      other ∈ before.catalog.pool ∧ other ∉ destroyed moments) :
    RemovesOnly key moments before after ↔
      (∀ other ∈ destroyed moments, other ∈ before.catalog.pool → other = key) ∧
        (destroyed moments ≠ [] → key ∈ before.catalog.pool → key ∈ destroyed moments) := by
  constructor
  · intro h
    refine ⟨fun other hdestroyed hbefore => ?_, fun hsome hbefore => ?_⟩
    · by_contra hne
      exact ((hpool other).mp ((h other).mpr ⟨hbefore, fun hkey => hne hkey.1⟩)).2 hdestroyed
    · by_contra hkept
      exact ((h key).mp ((hpool key).mpr ⟨hbefore, hkept⟩)).2 ⟨rfl, hsome⟩
  · rintro ⟨honly, hkey⟩ other
    rw [hpool]
    refine and_congr_right fun hbefore => not_congr ⟨fun hdestroyed => ?_, ?_⟩
    · exact ⟨honly other hdestroyed hbefore, List.ne_nil_of_mem hdestroyed⟩
    · rintro ⟨rfl, hsome⟩
      exact hkey hsome hbefore

end Session

namespace Game

variable {first before after last : Game} {act : Act} {stages : List Stage}

/-- No act brings a card into the pool a second time. -/
theorem Step.nodup_pool (h : Step before act after) (hbefore : before.catalog.pool.Nodup) :
    after.catalog.pool.Nodup := by
  rcases h.keeps_or_destroys with hkeeps | ⟨key, -, hcatalog⟩
  · exact hkeeps.nodup hbefore
  · rw [hcatalog]
    exact hbefore.erase key

theorem Course.nodup_pool (h : Course first stages last) (hfirst : first.catalog.pool.Nodup) :
    last.catalog.pool.Nodup := by
  induction h with
  | done => exact hfirst
  | step _ hstep ih => exact hstep.nodup_pool ih

end Game

/-! ## Sessions -/

namespace Service

open Session

variable {service : Service} {request : CreateRequest} {start : Game} {calls : List Call}

/-- A selection is accepted for a card, in a session in which every control that was pressed since the
card was presented has been refused.  The pool loses the cards that are destroyed by special effects of
the action, and `destroy` destroys the card that is resolved unless an earlier special effect has taken
the first card out of the queue.  So no other card is lost if nothing is destroyed after that; and it is
so exactly when every card that is destroyed and was in the game is the one that is resolved. -/
theorem destroyed_is_resolved (fresh : service.find? service.nextId = none)
    (built : Session.buildGame request.deck service.settings (service.chance request.seed) =
      .ok start) (h : Unpressed service request calls) :
    ∃ before, service.played? request calls = some before ∧
      ∀ (answer : SelectRequest) key, before.Accepts answer.choice key →
        let moments := (Operation.select answer.choice).moments silent before
        ∃ after, service.played? request (calls ++ [.select answer]) = some after ∧
          (∀ other, other ∈ after.catalog.pool ↔
            other ∈ before.catalog.pool ∧ other ∉ destroyed moments) ∧
          (∀ early moment late other, moments = early ++ moment :: late →
            moment.destroyed? = some other → (∀ one ∈ early, ¬one.Clears) → other = key) ∧
          (Calm moments → RemovesOnly key moments before after) ∧
          (RemovesOnly key moments before after ↔
            (∀ other ∈ destroyed moments, other ∈ before.catalog.pool → other = key) ∧
              (destroyed moments ≠ [] → key ∈ before.catalog.pool → key ∈ destroyed moments)) := by
  obtain ⟨before, hbefore, hshows⟩ := showsHead_of_unpressed fresh built h
  obtain ⟨stages, game, hplays⟩ := exists_plays fresh built calls
  obtain rfl : game = before := Option.some.inj (hplays.played.symm.trans hbefore)
  have hnodup := hplays.course.nodup_pool (pool_buildGame built).1
  refine ⟨game, hbefore, fun answer key haccepts => ?_⟩
  obtain ⟨_, hafter, generator, rfl⟩ := played?_looked hbefore (.select answer)
  have hready := haccepts.ready
  -- the card that is shown is the head of the queue when the selection begins
  have hhead : game.catalog.head? = some key := (hshows (.inr hready.1)).symm.trans hready.2.2
  have hpath := path_operation keeps_silent (.select answer.choice) game
  have hpool := fun other => @Path.mem_pool_iff other _ _ _ hpath hnodup
  refine ⟨_, hafter, hpool, fun _ _ _ _ => eq_of_destroyed? hhead, fun hcalm => ?_,
    removesOnly_iff hpool⟩
  have hresolved := fun other => @eq_of_mem_destroyed game key other answer.choice hhead hcalm
  refine (removesOnly_iff hpool).mpr ⟨fun other hother _ => hresolved other hother, ?_⟩
  intro hsome _
  obtain ⟨other, hother⟩ := List.exists_mem_of_ne_nil _ hsome
  exact hresolved other hother ▸ hother

/-- A request for a deck of three events; the action of the first one has some special effects. -/
def leaving (specials : List String) : CreateRequest where
  deck := {
    events := [{ name := "e", actions := [{ description := "go", specials }] }, { name := "b" },
      { name := "c" }] }
  seed := none

/-- What is seen of a game when the first choice is going to be made: the card for which it is accepted,
the pool, and the cards that will be destroyed. -/
def foresight (game : Game) : Option (Option Nat) × List Nat × List Nat :=
  (((accepted? (.action 0)).run.run game).1.toOption.map (·.map (·.1)), game.catalog.pool,
    destroyed ((Operation.select (.action 0)).moments silent game))

theorem accepts_of_foresight {game : Game} {key : Nat} {rest : List Nat × List Nat}
    (h : foresight game = (some (some key), rest)) : game.Accepts (.action 0) key := by
  have haccepted := congrArg Prod.fst h
  rw [foresight] at haccepted
  rcases hrun : (accepted? (.action 0)).run.run game with ⟨fault | _ | ⟨_, action⟩, between⟩
  · rw [hrun] at haccepted
    cases haccepted
  · rw [hrun] at haccepted
    cases haccepted
  · rw [hrun] at haccepted
    cases haccepted
    exact ⟨action, between, hrun⟩

/-- An action that destroys once removes the card that is resolved. -/
theorem leaving_removesOnly :
    ∃ before after, Unpressed empty (leaving ["destroy"]) [.reveal] ∧
      empty.played? (leaving ["destroy"]) [.reveal] = some before ∧
      before.Accepts (.action 0) 0 ∧
      empty.played? (leaving ["destroy"]) [.reveal, .select ⟨some 0⟩] = some after ∧
      RemovesOnly 0 ((Operation.select (.action 0)).moments silent before) before after := by
  obtain ⟨start, hbuilt⟩ : ∃ start, Session.buildGame (leaving ["destroy"]).deck empty.settings
      (empty.chance (leaving ["destroy"]).seed) = .ok start :=
    Session.exists_buildGame _ (by decide +kernel)
  have hunpressed : Unpressed empty (leaving ["destroy"]) [.reveal] :=
    unpressed_of_forall (by simp)
  obtain ⟨before, hbefore, hselect⟩ := destroyed_is_resolved fresh_empty hbuilt hunpressed
  -- what the resolution is going to destroy is computed before it is made
  have hseen : (empty.played? (leaving ["destroy"]) [.reveal]).map foresight =
      some (some (some 0), [0, 1, 2], [0]) := by
    decide +kernel
  rw [hbefore] at hseen
  have hseen : foresight before = _ := Option.some.inj hseen
  have hdestroyed : destroyed ((Operation.select (.action 0)).moments silent before) = [0] :=
    congrArg (·.2.2) hseen
  have haccepts := accepts_of_foresight hseen
  obtain ⟨after, hafter, -, -, -, hiff⟩ := hselect ⟨some 0⟩ 0 haccepts
  refine ⟨before, after, hunpressed, hbefore, haccepts, hafter, hiff.mpr ⟨?_, ?_⟩⟩
  · intro other hother _
    exact List.mem_singleton.mp (hdestroyed ▸ hother)
  · exact fun _ _ => hdestroyed ▸ List.mem_singleton_self 0

/-- An action that destroys twice removes the other card as well, which comes to the head of the queue
when the first one is gone. -/
theorem leaving_twice_not_removesOnly :
    ∃ before after, Unpressed empty (leaving ["destroy", "destroy"]) [.reveal] ∧
      empty.played? (leaving ["destroy", "destroy"]) [.reveal] = some before ∧
      before.Accepts (.action 0) 0 ∧
      empty.played? (leaving ["destroy", "destroy"]) [.reveal, .select ⟨some 0⟩] = some after ∧
      ¬RemovesOnly 0 ((Operation.select (.action 0)).moments silent before) before after := by
  have hseen : (empty.played? (leaving ["destroy", "destroy"]) [.reveal]).map foresight =
      some (some (some 0), [0, 1, 2], [0, 1]) := by
    decide +kernel
  have hlater : (empty.played? (leaving ["destroy", "destroy"])
      [.reveal, .select ⟨some 0⟩]).map (·.catalog.pool) = some [2] := by
    decide +kernel
  obtain ⟨before, hbefore, hseen⟩ := Option.map_eq_some_iff.mp hseen
  obtain ⟨after, hafter, hleft⟩ := Option.map_eq_some_iff.mp hlater
  have hpool : before.catalog.pool = [0, 1, 2] := congrArg (·.2.1) hseen
  refine ⟨before, after, unpressed_of_forall (by simp), hbefore, accepts_of_foresight hseen, hafter,
    fun hremoves => ?_⟩
  have hother : 1 ∈ after.catalog.pool := (hremoves 1).mpr ⟨by simp [hpool], by simp⟩
  simp [hleft] at hother

end Service

end EventDeck
