import EventDeck.Proofs.Service.Places
import EventDeck.Proofs.Service.Requests

/-!
# Presence

Before a card is presented the conditions of all cards are checked.  When no condition takes chance, a
card that is presented is admitted: its condition is blank or holds as the card is presented, or the
card is discarded (`presented_admitted`).  A discarded card is passed over by the check, so one that is
chained comes whatever its condition says (`relapse_not_held`).

The check takes a card out of the queue once, and it looks at the cards of the pool.  A card that had a
second place in the queue, or has one although it was destroyed, can be left in the queue.  Cards get
second places only where the deck chains; in other sessions there are no such cards.
-/

namespace EventDeck

open Game EventDeck.Expr Text

/-- No event has a random call in its condition. -/
def Deck.ChanceFree (deck : Deck) : Prop :=
  ∀ event ∈ deck.events, CallFree (trim event.condition.toList)

/-! ## Strays -/

namespace Catalog

variable {catalog : Catalog} {key : Nat}

theorem Tidy.not_stray (h : catalog.Tidy) (key : Nat) : ¬catalog.Stray key := by
  rintro (htwice | ⟨hqueued, hpool⟩)
  · have honce := List.nodup_iff_count_le_one.mp h.queue key
    omega
  · exact hpool (h.within hqueued)

/-- No card strays after a reshuffle. -/
theorem not_stray_rebuilt (hqueue : catalog.queue = []) (sentinel : String) (generator : Generator) :
    ¬(catalog.rebuilt sentinel generator).Stray key := by
  rintro (htwice | ⟨hqueued, hpool⟩)
  · have honce := count_rebuilt_le catalog sentinel generator key
    omega
  · have hnone : catalog.queue ⊆ catalog.pool := hqueue ▸ List.nil_subset _
    exact hpool ((keeps_rebuilt catalog sentinel generator).queue_subset_pool hnone hqueued)

end Catalog

namespace Session

variable {deck : Deck} {settings : Settings} {generator : Generator} {start : Game}

/-- The cards of a deck whose events have no random calls in their conditions. -/
theorem chanceFree_of_builds (built : Builds deck settings generator start)
    (hdeck : deck.ChanceFree) : start.catalog.ChanceFree := by
  have hblank : CallFree (trim "".toList) := callFree_of_wordless (by decide)
  exact condition_of_builds (P := fun condition => CallFree (trim condition.toList)) built hblank hdeck

end Session

namespace Game

variable {α β : Type} {game asked before after : Game} {key : Nat} {action : Option Action}

/-- What a request does when little is done after its first part. -/
theorem after_bind {R : Game → Game → Prop} (hrefl : ∀ game, R game game) {x : Play α}
    {f : α → Play β} (hf : ∀ a game, R game ((f a).run.run game).2) (game : Game) :
    R (x.run.run game).2 ((x >>= f).run.run game).2 := by
  rw [run_bind]
  rcases x.run.run game with ⟨fault | a, between⟩
  · exact hrefl between
  · exact hf a between

/-! ## Presenting a card -/

/-- The conditions have been checked in a game, and the first card of the queue has been presented: a
card that is not wanted was a stray. -/
structure Shows (asked : Game) (key : Nat) (after : Game) : Prop where
  presented : after.scheduler.presented = key :: asked.scheduler.presented
  current : after.scheduler.current = some key
  stray : after.catalog.Unwanted after.store key → asked.catalog.Stray key

/-- What drawing comes to when no condition takes chance: a card is shown, or the queue is empty. -/
inductive Finds (game : Game) : Except Fault Bool → Game → Prop
  | card {key : Nat} {after : Game} (h : Shows game key after) : Finds game (.ok true) after
  | nothing {checked : Game} (scheduler : checked.scheduler = game.begun.scheduler)
    (faces : game.catalog.SameFaces checked.catalog) (queue : checked.catalog.queue = []) :
    Finds game (.ok false) checked

theorem finds_draw (h : game.catalog.ChanceFree) :
    Finds game (draw.run.run game).1 (draw.run.run game).2 := by
  have hbegun : game.begun.catalog.ChanceFree := h
  obtain ⟨diagnostics, hrun⟩ := run_checkConditions_of_callFree fun key _ => hbegun key
  obtain ⟨checked, hchecked⟩ : ∃ checked, checked =
    { game.begun with diagnostics, catalog := game.catalog.checked game.store } := ⟨_, rfl⟩
  have hrun : checkConditions.run.run game.begun = (.ok (), checked) := hchecked ▸ hrun
  rw [run_draw_of_checked hrun]
  cases hhead : checked.catalog.head? with
  | none =>
    subst hchecked
    exact .nothing rfl (.of_cards (Catalog.cards_checked ..)) (List.head?_eq_none_iff.mp hhead)
  | some key =>
    subst hchecked
    have hqueued : key ∈ (game.catalog.checked game.store).queue := List.mem_of_head? hhead
    refine @Finds.card game key _ ?_
    unfold showing
    cases game.begun.settings.autoReveal <;>
      exact ⟨rfl, rfl, fun hunwanted => Catalog.stray_of_unwanted hunwanted hqueued⟩

/-- A card that is shown when play moves on; after a reshuffle no card is a stray. -/
theorem shows_advance (h : game.catalog.ChanceFree) :
    let after := (advance.run.run game).2
    after.scheduler.presented = game.scheduler.presented ∨ ∃ key, Shows game key after := by
  obtain ⟨result, drawn, hdraw, hfinds⟩ :
      ∃ result drawn, draw.run.run game = (result, drawn) ∧ Finds game result drawn :=
    ⟨_, _, rfl, finds_draw h⟩
  rw [advance]
  cases hfinds with
  | card hshows =>
    rw [run_bind_ok hdraw]
    exact .inr ⟨_, hshows⟩
  | nothing hscheduler hfaces hqueue =>
    have hphase : drawn.scheduler.phase = .checkingConditions := congrArg Scheduler.phase hscheduler
    obtain ⟨filled, reshuffled, hreshuffle, hstep, hfilled⟩ := run_reshuffle hphase hqueue
    have hpresented : reshuffled.scheduler.presented = game.scheduler.presented := by
      rw [hstep.scheduler, hscheduler]
      rfl
    rw [run_bind_ok hdraw, if_neg Bool.false_ne_true, run_bind_ok hreshuffle]
    -- A second draw is made only from a queue that the reshuffle has filled, and of its cards none is a
    -- stray.
    cases filled with
    | false => exact .inl hpresented
    | true =>
      obtain ⟨result, last, hredraw, hfinds⟩ :
          ∃ result last, draw.run.run reshuffled = (result, last) ∧ Finds reshuffled result last :=
        ⟨_, _, rfl, finds_draw (hstep.faces.chanceFree (hfaces.chanceFree h))⟩
      rw [if_pos rfl]
      cases hfinds with
      | @card key _ hshows =>
        obtain ⟨hempty, generator, hrebuilt⟩ := hstep.deals
        rw [run_bind_ok hredraw]
        refine .inr ⟨key, hshows.presented.trans (congrArg _ hpresented), hshows.current, ?_⟩
        intro hunwanted
        have hstray := hshows.stray hunwanted
        rw [hrebuilt] at hstray
        exact absurd hstray (Catalog.not_stray_rebuilt hempty _ _)
      | nothing hscheduler _ _ =>
        have hlast : last.scheduler.presented = reshuffled.scheduler.presented := by
          rw [hscheduler]
          rfl
        rw [run_bind_ok hredraw]
        exact .inl (hlast.trans hpresented)

/-- A card is resolved up to where play moves on: the effects have been carried out and the card has
been discarded. -/
def Resolves (game : Game) (key : Nat) (action : Option Action) (asked : Game) : Prop :=
  ∃ outcome resolved, (outcomeOf action).run.run (game.accepting key) = (.ok outcome, resolved) ∧
    (discard key).run.run resolved = (.ok (), asked)

theorem Resolves.leads (h : Resolves game key action asked)
    (hready : (Act.accept key).Ready game.scheduler)
    (haction : ∀ a, action = some a → a ∈ (game.catalog.card key).actions) :
    Leads game asked ∧ asked.scheduler.presented = game.scheduler.presented := by
  obtain ⟨outcome, resolved, houtcome, hdiscard⟩ := h
  have haccept := step_accept hready
  have heffects : Affects (game.accepting key) none resolved :=
    (affects_outcomeOf haction).of_ok houtcome
  have hcurrent : (Act.discard key).Ready resolved.scheduler := by
    rw [heffects.scheduler]
    exact ⟨rfl, hready.2.2⟩
  obtain ⟨discarded, hrun, hstep⟩ := step_discard hcurrent
  obtain rfl : discarded = asked := congrArg Prod.snd (hrun.symm.trans hdiscard)
  refine ⟨(Leads.of_step haccept).trans (heffects.leads.trans (.of_step hstep)), ?_⟩
  rw [hstep.scheduler, heffects.scheduler]
  rfl

/-- Resolving a card presents no other one, or the one that is shown when play moves on. -/
theorem shows_resolve (hready : (Act.accept key).Ready game.scheduler)
    (haction : ∀ a, action = some a → a ∈ (game.catalog.card key).actions)
    (hchance : game.catalog.ChanceFree) (mark : Nat) :
    let after := ((resolve silent key action mark).run.run game).2
    after.scheduler.presented = game.scheduler.presented ∨
      ∃ asked next, Resolves game key action asked ∧ Shows asked next after := by
  have heffects : Runs Affects (outcomeOf action) (game.accepting key) := affects_outcomeOf haction
  rw [run_resolve]
  -- After a fault of the effects nothing is drawn; otherwise the next card is asked for when the
  -- resolved one has been discarded.
  rcases houtcome : (outcomeOf action).run.run (game.accepting key) with ⟨fault | outcome, resolved⟩
  · have hresolved := heffects.of_error houtcome
    rw [run_bind_error houtcome]
    left
    change resolved.scheduler.presented = _
    rw [hresolved.scheduler]
    rfl
  · rcases hdiscard : (discard key).run.run resolved with ⟨fault | _, asked⟩
    · cases hdiscard
    have hresolves : Resolves game key action asked := ⟨outcome, resolved, houtcome, hdiscard⟩
    obtain ⟨⟨stages, hcourse⟩, hpresented⟩ := hresolves.leads hready haction
    rw [run_bind_ok houtcome, run_bind_ok hdiscard]
    intro after
    have hafter : (advance.run.run asked).2 = after := after_bind (fun _ => rfl) (fun _ _ => rfl) asked
    rw [← hafter, ← hpresented]
    exact (shows_advance (hcourse.frame.faces.chanceFree hchance)).imp_right
      fun ⟨next, hshows⟩ => ⟨asked, next, hresolves, hshows⟩

end Game

/-! ## Calls -/

namespace Call

/-- The game in which a call has the conditions checked: an advance at once, and a selection that is
accepted when the card has been resolved. -/
inductive Asks : Call → Game → Game → Prop
  | advance (game : Game) : Asks .advance game game
  | select {request : SelectRequest} {game between asked : Game} {key : Nat} {action : Option Action}
    (accepted : (accepted? request.choice).run.run game = (.ok (some (key, action)), between))
    (resolved : Resolves between key action asked) : Asks (.select request) game asked

/-- The game after a call, before it is looked at. -/
def played (game : Game) : Call → Game
  | look => game
  | reveal => (Game.reveal.run.run game).2
  | advance =>
    if game.scheduler.phase = .idle || game.scheduler.phase = .halted then
      (Game.advance.run.run game).2
    else game
  | select request => ((Game.select silent request.choice).run.run game).2
  | press control => ((Game.press silent control).run.run game).2

end Call

namespace Game

variable {before after : Game} {call : Call} {key : Nat}

/-- A call has a card presented: a card that is not wanted was a stray when the conditions were
checked. -/
structure Presents (call : Call) (before : Game) (key : Nat) (after : Game) : Prop where
  presented : after.scheduler.presented = key :: before.scheduler.presented
  current : after.scheduler.current = some key
  stray : after.catalog.Unwanted after.store key →
    ∃ asked, call.Asks before asked ∧ Leads before asked ∧ asked.catalog.Stray key

/-- A selection presents no card, or the next one when the current card has been resolved. -/
theorem presents_select (request : SelectRequest) (hchance : before.catalog.ChanceFree) :
    let after := ((Game.select silent request.choice).run.run before).2
    after.scheduler.presented = before.scheduler.presented ∨
      ∃ key, Presents (.select request) before key after := by
  have hevaluates := evaluates_accepted? request.choice before
  rcases hrun : (Game.select silent request.choice).run.run before with ⟨result, after⟩
  change after.scheduler.presented = _ ∨ ∃ key, Presents _ _ key after
  cases selects_select hrun with
  | broken h => exact .inl (congrArg Scheduler.presented (hevaluates.of_error h).scheduler)
  | refused h hquiet _ =>
    exact .inl (congrArg Scheduler.presented ((hevaluates.of_ok h).toQuiet.trans hquiet).scheduler)
  | @accepted current action between _ _ h hready haction hresolve =>
    have hbetween : Evaluates before none between := hevaluates.of_ok h
    have hshows := shows_resolve hready haction (hbetween.catalog ▸ hchance) before.diagnostics.mark
    rw [hresolve, hbetween.scheduler] at hshows
    refine hshows.imp_right ?_
    rintro ⟨asked, next, hresolves, hshows⟩
    obtain ⟨hleads, hpresented⟩ := hresolves.leads hready haction
    refine ⟨next, ?_, hshows.current, fun hunwanted => ?_⟩
    · rw [hshows.presented, hpresented, hbetween.scheduler]
    · exact ⟨asked, .select h hresolves, (allows_leads.evaluates hbetween).trans hleads,
        hshows.stray hunwanted⟩

/-- What a call comes to: no card is presented, or one that is wanted or was a stray. -/
theorem presents_played (call : Call) (hchance : before.catalog.ChanceFree) :
    (call.played before).scheduler.presented = before.scheduler.presented ∨
      ∃ key, Presents call before key (call.played before) := by
  cases call with
  | look => exact .inl rfl
  | reveal =>
    left
    change (Game.reveal.run.run before).2.scheduler.presented = _
    rw [Game.reveal, run_get_bind]
    split <;> rfl
  | advance =>
    rw [Call.played]
    split
    · refine (shows_advance hchance).imp_right ?_
      rintro ⟨key, hshows⟩
      exact ⟨key, hshows.presented, hshows.current,
        fun hunwanted => ⟨before, .advance before, ⟨[], .done⟩, hshows.stray hunwanted⟩⟩
    · exact .inl rfl
  | select request => exact presents_select request hchance
  | press control =>
    have hpress : Affects before _ (Call.played before (.press control)) := affects_press control before
    exact .inl (congrArg Scheduler.presented hpress.scheduler)

end Game

namespace Service

variable {service : Service} {session : Session} {id : String} {game before : Game} {call : Call}

/-- A look has changed the source of chance at most. -/
def Looked (before after : Game) : Prop :=
  ∃ generator, after = { before with generator }

theorem looked_view (session : Session) (answer : SessionView → Response) (game : Game) :
    Looked game ((do return answer (← view session) : Play Response).run.run game).2 := by
  have hsame : ((view session).run.run game).2 =
      ((do return answer (← view session) : Play Response).run.run game).2 :=
    after_bind (fun _ => rfl) (fun _ _ => rfl) game
  rw [← hsame, after_view]
  exact ⟨_, rfl⟩

/-- The game of a session after a call, which ends with a look unless it is refused. -/
theorem looked_serve (call : Call) (h : service.find? id = some session) :
    ∃ game, ((call.serve id).run.run service).2.find? id = some { session with game } ∧
      Looked (call.played session.game) game := by
  have hcall : ∀ {request : Session → Play Response},
      Looked (call.played session.game) ((request session).run.run session.game).2 →
      ∃ game, ((withSession id request).run.run service).2.find? id = some { session with game } ∧
        Looked (call.played session.game) game :=
    fun hlooked => ⟨_, find?_withSession _ h, hlooked⟩
  have hrefl : ∀ game, Looked game game := fun game => ⟨game.generator, rfl⟩
  -- a call that is refused leaves the game as it was played, any other one looks at it at the end
  cases call with
  | look => exact hcall (looked_view session .session session.game)
  | reveal => exact hcall (after_bind hrefl (fun _ => looked_view session .session) _)
  | advance =>
    refine hcall ?_
    rw [run_get_bind, Call.played]
    dsimp only
    split
    · exact after_bind hrefl (fun _ => looked_view session .session) _
    · exact hrefl _
  | select request =>
    refine hcall (after_bind hrefl (fun result between => ?_) _)
    split
    · exact hrefl _
    · exact looked_view session _ between
  | press control =>
    refine hcall (after_bind hrefl (fun result between => ?_) _)
    split
    · exact hrefl _
    · exact looked_view session _ between

variable {request : CreateRequest} {start after : Game} {calls : List Call} {key : Nat}

theorem played?_looked (h : service.played? request calls = some before) (call : Call) :
    ∃ after, service.played? request (calls ++ [call]) = some after ∧
      Looked (call.played before) after := by
  obtain ⟨session, hsession, rfl⟩ := Option.map_eq_some_iff.mp h
  obtain ⟨game, hgame, hlooked⟩ := looked_serve call hsession
  refine ⟨game, ?_, hlooked⟩
  rw [played?, serveAll, List.foldl_append]
  exact congrArg (Option.map _) hgame

/-- A session that is created has drawn its first card and has been looked at. -/
theorem looked_created (fresh : service.find? service.nextId = none)
    (built : Session.buildGame request.deck service.settings (service.chance request.seed) =
      .ok start) :
    ∃ game, service.played? request [] = some game ∧ Looked (Game.advance.run.run start).2 game := by
  obtain ⟨session, hcreated⟩ := played?_nil fresh built
  refine ⟨_, hcreated, ?_⟩
  rw [Session.start, bind_assoc, run_bind_ok (run_broadcast_silent start)]
  exact after_bind (fun game => ⟨game.generator, rfl⟩) (fun _ => looked_view session .session) start

/-- When a session is created the first card is admitted, if there is one. -/
theorem admits_created (fresh : service.find? service.nextId = none)
    (built : Session.buildGame request.deck service.settings (service.chance request.seed) =
      .ok start) (hdeck : request.deck.ChanceFree) :
    ∃ game, service.played? request [] = some game ∧
      ∀ key ∈ game.scheduler.presented, game.Admits key := by
  have hbuilds := Session.builds_of_buildGame built
  have hchance := Session.chanceFree_of_builds hbuilds hdeck
  have hnone : start.scheduler.presented = [] := congrArg Scheduler.presented hbuilds.scheduler
  obtain ⟨game, hgame, hopens⟩ := played?_create fresh built
  obtain ⟨stages, hcourse⟩ := hopens.leads
  obtain ⟨_, hcreated, hlooked⟩ := looked_created fresh built
  obtain rfl := Option.some.inj (hcreated.symm.trans hgame)
  refine ⟨_, hgame, fun key hkey => ?_⟩
  rw [admits_iff_not_unwanted (hcourse.frame.faces.chanceFree hchance)]
  obtain ⟨generator, rfl⟩ := hlooked
  intro hunwanted
  rcases shows_advance hchance with hsame | ⟨first, hshows⟩
  · rw [hsame, hnone] at hkey
    cases hkey
  · rw [hshows.presented, hnone] at hkey
    obtain rfl := List.mem_singleton.mp hkey
    exact (Session.tidy_of_builds hbuilds).not_stray key (hshows.stray hunwanted)

/-- In a session of a deck whose conditions take no chance, whatever calls are made: when a card is
presented, its condition is blank or holds in the game as it is then, or the card is discarded.  In a
deck that chains a card is excepted if it was queued more than once, or was out of the pool, when the
conditions were checked. -/
theorem presented_admitted (fresh : service.find? service.nextId = none)
    (built : Session.buildGame request.deck service.settings (service.chance request.seed) =
      .ok start) (hdeck : request.deck.ChanceFree) :
    (∃ game, service.played? request [] = some game ∧
      ∀ key ∈ game.scheduler.presented, game.Admits key) ∧
    ∀ calls call, ∃ before after, service.played? request calls = some before ∧
      service.played? request (calls ++ [call]) = some after ∧
      (after.scheduler.presented = before.scheduler.presented ∨
        ∃ key, after.scheduler.presented = key :: before.scheduler.presented ∧
          after.scheduler.current = some key ∧
          (after.Admits key ∨
            request.deck.Chains ∧ ∃ asked, call.Asks before asked ∧ asked.catalog.Stray key)) := by
  refine ⟨admits_created fresh built hdeck, fun calls call => ?_⟩
  have hbuilds := Session.builds_of_buildGame built
  have hchance := Session.chanceFree_of_builds hbuilds hdeck
  obtain ⟨stages, before, hplays⟩ := exists_plays fresh built calls
  have hbefore := hplays.course.frame.faces.chanceFree hchance
  obtain ⟨after, hafter, hserves⟩ := played?_concat hplays.played call
  obtain ⟨_, hlooked, generator, rfl⟩ := played?_looked hplays.played call
  obtain rfl := Option.some.inj (hafter.symm.trans hlooked)
  refine ⟨before, _, hplays.played, hafter, (presents_played call hbefore).imp_right ?_⟩
  rintro ⟨key, hpresents⟩
  refine ⟨key, hpresents.presented, hpresents.current, ?_⟩
  by_cases hunwanted : Catalog.Unwanted (call.played before).store (call.played before).catalog key
  · -- a card that is not wanted was a stray, and only chaining makes strays
    obtain ⟨asked, hasks, hleads, hstray⟩ := hpresents.stray hunwanted
    refine .inr ⟨?_, asked, hasks, hstray⟩
    by_contra hchains
    have htidy := Session.tidy_of_not_chains hbuilds hchains (.trans ⟨_, hplays.course⟩ hleads)
    exact htidy.not_stray key hstray
  · obtain ⟨late, hcourse⟩ := hserves.leads
    exact .inl ((admits_iff_not_unwanted (hcourse.frame.faces.chanceFree hbefore)).mpr hunwanted)

/-- A session that starts with a card, and in which looks take no chance. -/
theorem created_of_draw {start shown : Game} (fresh : service.find? service.nextId = none)
    (built : Session.buildGame request.deck service.settings (service.chance request.seed) =
      .ok start)
    (hdraw : draw.run.run start = (.ok true, shown)) (hcertain : shown.Certain) :
    ((create request).run.run service).2 = service.taking request shown := by
  have hlook := after_view_of_certain (service.opened request start) hcertain
  rw [run_create_built fresh built, welcome, run_bind_ok (run_start hdraw)]
  refine congrArg (service.taking request) (Eq.trans ?_ hlook)
  exact (after_bind (fun _ => rfl) (fun _ _ => rfl) _).symm

/-! ## A card that comes back -/

/-- An event that comes as long as a number is not zero, and counts it down. -/
def waning : Template where
  name := "a"
  condition := "hp"
  actions := [{ description := "x", effects := ["hp--"] }]

/-- A request for a deck of that event and of another one that chains it. -/
def relapse : CreateRequest where
  deck := {
    declarations := [{ name := "hp", value := 1.0 }]
    events := [waning, { name := "b", actions := [{ description := "y", specials := ["chain(a)"] }] }] }
  seed := none

theorem chanceFree_relapse : relapse.deck.ChanceFree := by
  have hwords : ∀ event ∈ relapse.deck.events, ¬randomWord <:+: trim event.condition.toList := by
    decide +kernel
  exact fun event hevent => callFree_of_wordless (hwords event hevent)

/-- The condition is well formed. -/
theorem problem?_hp : problem? "hp" false = none := by
  have htrim : trim "hp".toList = "hp".toList := by cbv
  have hplain : replaceNames (fun _ => pure ['0']) "hp".toList =
      (.ok ['0'] : Except ExprError _) := by cbv
  have hzero : evaluateText .checking ['0'] = .ok (.number (numberOf ['0'])) :=
    evaluateText_literal (by cbv)
  rw [problem?_eq_none_iff, htrim, if_neg (by decide), checkExpression, hplain]
  change (replaceRandoms checkedCall ['0'] >>= fun plain =>
    evaluateText .checking plain >>= fun _ => .ok ()) = _
  rw [replaceRandoms_of_wordless (by decide), pure_bind, hzero]
  rfl

/-- The deck has no errors. -/
theorem errors_relapse : relapse.deck.findings.errors = [] := by
  have hcheck : ∀ place, Deck.checkText place "condition" false "hp" = {} := by
    intro place
    rw [Deck.checkText, if_neg (by decide), problem?_hp]
  let actions := Deck.checkAction "Event 'a' action 0" ["a", "b"]
    { description := "x", effects := ["hp--"] }
  have hevent : Deck.checkEvent ["a", "b"] waning = {} ++ {} ++ ({} ++ actions) := by
    rw [Deck.checkEvent]
    change _ ++ Deck.checkText _ "condition" false "hp" ++ _ = _
    rw [hcheck]
    rfl
  have hfindings : relapse.deck.findings = Deck.checkUnique "event" ["a", "b"] ++
      Deck.checkUnique "variable" ["hp"] ++ Deck.checkUnique "control" [] ++
      Findings.gather relapse.deck.declarations Deck.checkDeclaration ++
      ({} ++ Deck.checkEvent ["a", "b"] waning ++
        Deck.checkEvent ["a", "b"] relapse.deck.events[1]) ++
      {} ++ Deck.checkEvents relapse.deck.events := rfl
  rw [hfindings, hevent]
  decide +kernel

/-- The condition while the variable has a value. -/
theorem run_evaluateCondition_hp {number : List Char} (hhas : game.store.has "hp" = true)
    (hwritten : storedNames game.store "hp".toList = number)
    (hnumber : tokenize number = .ok [.number number]) (hword : ¬randomWord <:+: number) :
    (evaluateCondition "hp").run.run game = (.ok (Value.number (numberOf number)).isTrue, game) := by
  have htrim : trim "hp".toList = "hp".toList := by cbv
  -- the whole text is one run, which is the name
  have hsubstitute : (substitute "hp".toList).run.run game = (.ok number, game) := by
    have hvalue := run_valueOf "hp" game
    rw [afterReading, if_pos hhas] at hvalue
    have hpaste : (pasteName "hp".toList).run.run game = (.ok number, game) := by
      rw [← hwritten]
      exact run_bind_ok hvalue _
    have hruns : runs "hp".toList = ["hp".toList] := by cbv
    have hpastes : (["hp".toList].mapM (replaceRun pasteName)).run.run game =
        (.ok [number], game) := by
      rw [List.mapM_cons, replaceRun, if_pos (by decide), run_bind_ok hpaste]
      rfl
    change (replaceNames pasteName "hp".toList).run.run game = _
    rw [replaceNames_eq, hruns, run_map_ok hpastes, List.flatten_singleton]
  have hevaluate : (evaluateValue "hp".toList).run.run.run game =
      (.ok (.ok (.number (numberOf number))), game) := by
    rw [evaluateValue, attempt_bind_ok (attempt_lift_ok hsubstitute),
      replaceRandoms_of_wordless hword, pure_bind, evaluateText_literal hnumber]
    exact attempt_except _ _
  rw [evaluateCondition, htrim, run_orReport, attempt_bind, hevaluate]
  rfl

/-- What is looked at in a game of the deck: which cards have been presented, the condition of the
first card, whether there is a variable for it, and what its value is written as. -/
structure Glimpse where
  presented : List Nat
  condition : String
  declared : Bool
  written : List Char
deriving DecidableEq

def glimpse (game : Game) : Glimpse where
  presented := game.scheduler.presented
  condition := (game.catalog.card 0).condition
  declared := game.store.has "hp"
  written := storedNames game.store "hp".toList

/-- What is seen in the session of the deck after some calls, when it has started with the first
card. -/
def glimpseAfter (start : Game) (calls : List Call) : Option Glimpse :=
  ((serveAll empty.nextId calls (empty.taking relapse (start.begun.showing 0))).find?
    empty.nextId).map (glimpse ·.game)

/-- The calls by which the first card is resolved, and the second one is revealed. -/
def visiting : List Call := [.reveal, .select ⟨some 0⟩, .reveal]

theorem exists_built_relapse : ∃ start,
    Session.buildGame relapse.deck empty.settings (empty.chance relapse.seed) = .ok start ∧
      start.catalog.pool = [0, 1] ∧ start.catalog.queue = [0, 1] ∧
      (start.catalog.card 1).condition = "" ∧ glimpse start = ⟨[], "hp", true, "1.0".toList⟩ ∧
      glimpseAfter start [] = some ⟨[0], "hp", true, "1.0".toList⟩ ∧
      glimpseAfter start visiting = some ⟨[1, 0], "hp", true, "0.0".toList⟩ ∧
      glimpseAfter start (visiting ++ [.select ⟨some 0⟩]) =
        some ⟨[0, 1, 0], "hp", true, "0.0".toList⟩ := by
  rw [Session.buildGame, errors_relapse]
  refine ⟨_, rfl, ?_⟩
  decide +kernel

/-- The session starts with the first card. -/
theorem created_relapse
    (built : Session.buildGame relapse.deck empty.settings (empty.chance relapse.seed) = .ok start)
    (hpool : start.catalog.pool = [0, 1]) (hqueue : start.catalog.queue = [0, 1])
    (hblank : (start.catalog.card 1).condition = "")
    (hglimpse : glimpse start = ⟨[], "hp", true, "1.0".toList⟩) :
    ((create relapse).run.run empty).2 = empty.taking relapse (start.begun.showing 0) := by
  have hbuilds := Session.builds_of_buildGame built
  have hcondition : (start.catalog.card 0).condition = "hp" :=
    congrArg Glimpse.condition hglimpse
  have hhas : start.store.has "hp" = true := congrArg Glimpse.declared hglimpse
  have hwritten : storedNames start.store "hp".toList = "1.0".toList :=
    congrArg Glimpse.written hglimpse
  have hfirst : (checkCondition 0).run.run start.begun = (.ok (), start.begun) := by
    have hcard : (start.begun.catalog.card 0).condition = "hp" := hcondition
    have hqueued : start.begun.catalog.queue.contains 0 = true := by
      change start.catalog.queue.contains 0 = true
      rw [hqueue]
      rfl
    have htrue : (Value.number (numberOf "1.0".toList)).isTrue = true := by decide +kernel
    have hholds : (evaluateCondition "hp").run.run start.begun = (.ok true, start.begun) :=
      htrue ▸ run_evaluateCondition_hp hhas hwritten (by cbv) (by decide)
    rw [checkCondition, run_get_bind]
    dsimp only
    split
    · rfl
    · rw [hcard, run_bind_ok hholds, run_get_bind, hqueued]
      rfl
  -- the condition of the first card holds and the second card has none, so the check changes nothing
  have hchecks : checkConditions.run.run start.begun = (.ok (), start.begun) := by
    refine run_checkConditions fun key hkey => ?_
    change key ∈ start.catalog.pool at hkey
    rw [hpool] at hkey
    rcases List.mem_pair.mp hkey with rfl | rfl
    · exact hfirst
    · refine run_checkCondition_blank ?_
      change isBlankText (start.catalog.card 1).condition = true
      rw [hblank]
      decide
  have hdraw : draw.run.run start = (.ok true, start.begun.showing 0) := by
    have hhead : start.begun.catalog.head? = some 0 := congrArg List.head? hqueue
    rw [run_draw_of_checked hchecks, hhead]
  have hcertain : start.Certain := certain_of_builds hbuilds ⟨by decide, by decide⟩
  exact created_of_draw fresh_empty built hdraw (hcertain.showing 0)

/-- What is seen in the session is what its games come to. -/
theorem glimpse_played
    (built : Session.buildGame relapse.deck empty.settings (empty.chance relapse.seed) = .ok start)
    (hpool : start.catalog.pool = [0, 1]) (hqueue : start.catalog.queue = [0, 1])
    (hblank : (start.catalog.card 1).condition = "")
    (hglimpse : glimpse start = ⟨[], "hp", true, "1.0".toList⟩) (calls : List Call) :
    (empty.played? relapse calls).map glimpse = glimpseAfter start calls := by
  rw [played?, created_relapse built hpool hqueue hblank hglimpse, Option.map_map]
  rfl

/-- The first card is presented while its condition holds. -/
theorem relapse_admitted :
    relapse.deck.ChanceFree ∧ ∃ game, empty.played? relapse [] = some game ∧
      game.scheduler.presented = [0] ∧ game.Admits 0 := by
  obtain ⟨start, hbuilt, hpool, hqueue, hblank, hglimpse, hcreated, -, -⟩ := exists_built_relapse
  obtain ⟨⟨game, hgame, hadmits⟩, -⟩ := presented_admitted fresh_empty hbuilt chanceFree_relapse
  rw [← glimpse_played hbuilt hpool hqueue hblank hglimpse, hgame] at hcreated
  have hpresented : game.scheduler.presented = [0] :=
    congrArg Glimpse.presented (Option.some.inj hcreated)
  refine ⟨chanceFree_relapse, game, hgame, hpresented, hadmits 0 ?_⟩
  rw [hpresented]
  exact List.mem_singleton_self 0

/-- A card whose condition holds is presented and discarded; then it is chained, and it is presented
again although its condition does not hold. -/
theorem relapse_not_held :
    (∃ start, Session.buildGame relapse.deck empty.settings (empty.chance relapse.seed) = .ok start) ∧
    relapse.deck.ChanceFree ∧
    ∃ before after, empty.played? relapse visiting = some before ∧
      empty.played? relapse (visiting ++ [.select ⟨some 0⟩]) = some after ∧
      after.scheduler.presented = 0 :: before.scheduler.presented ∧
      ((holds (after.catalog.card 0).condition).run.run after).1 = .ok false := by
  obtain ⟨start, hbuilt, hpool, hqueue, hblank, hglimpse, -, hbefore, hafter⟩ := exists_built_relapse
  rw [← glimpse_played hbuilt hpool hqueue hblank hglimpse] at hbefore hafter
  refine ⟨⟨start, hbuilt⟩, chanceFree_relapse, ?_⟩
  obtain ⟨before, hbefore, hearly⟩ := Option.map_eq_some_iff.mp hbefore
  obtain ⟨after, hafter, hlate⟩ := Option.map_eq_some_iff.mp hafter
  have hpresented : before.scheduler.presented = [1, 0] := congrArg Glimpse.presented hearly
  have hcondition : (after.catalog.card 0).condition = "hp" := congrArg Glimpse.condition hlate
  have hhas : after.store.has "hp" = true := congrArg Glimpse.declared hlate
  have hwritten : storedNames after.store "hp".toList = "0.0".toList :=
    congrArg Glimpse.written hlate
  refine ⟨before, after, hbefore, hafter, ?_, ?_⟩
  · rw [hpresented]
    exact congrArg Glimpse.presented hlate
  · rw [hcondition, holds, if_neg (by decide),
      run_evaluateCondition_hp hhas hwritten (by cbv) (by decide)]
    exact congrArg Except.ok (by decide +kernel)

end Service

end EventDeck
