import EventDeck.Proofs.Service.Head
import EventDeck.Proofs.Service.Presence
import EventDeck.Proofs.Service.Refusals

/-!
# The head of the queue between presses

Whatever happened before, a card that is presented is the first of the queue.  Only special effects of
controls can part the two afterwards, so they are the same as long as every control that was pressed
since then has been refused (`showsHead_of_unpressed`).
-/

namespace EventDeck

open Game

namespace Game

variable {game before after : Game} {key : Nat} {action : Option Action} {call : Call}

/-! ## Requests -/

theorem showsHead_of_phase {phase : Phase} (hphase : game.scheduler.phase = phase)
    (hpresenting : phase ≠ .presenting) (hawaiting : phase ≠ .awaitingAction) :
    game.ShowsHead := by
  rintro (h | h)
  · exact absurd (hphase.symm.trans h) hpresenting
  · exact absurd (hphase.symm.trans h) hawaiting

/-- Nothing about the queue and the scheduler has changed. -/
theorem ShowsHead.of_eq (h : before.ShowsHead) (hcatalog : after.catalog = before.catalog)
    (hscheduler : after.scheduler = before.scheduler) : after.ShowsHead := by
  rw [ShowsHead, hcatalog, hscheduler]
  exact h

theorem showsHead_showing (hhead : game.catalog.head? = some key) : (game.showing key).ShowsHead := by
  intro _
  unfold showing
  cases game.settings.autoReveal <;> exact hhead.symm

/-- Drawing leaves the first card of the queue shown, or none. -/
theorem Draws.showsHead {result : Except Fault Bool} (h : Draws game result after) :
    after.ShowsHead := by
  cases h with
  | broken h | nothing h =>
    exact showsHead_of_phase (congrArg Scheduler.phase h.scheduler) nofun nofun
  | card _ hhead => exact showsHead_showing hhead

/-- A request that draws, and then does something when there was nothing to draw. -/
theorem showsHead_draw_bind {rest : Bool → Play Phase}
    (hdrawn : ∀ after, (rest true).run.run after = (.ok after.scheduler.phase, after))
    (hnothing : ∀ after, ((rest false).run.run after).2.ShowsHead) (game : Game) :
    ((draw >>= rest).run.run game).2.ShowsHead := by
  have hdraws := draws_draw game
  rcases hrun : draw.run.run game with ⟨fault | drawn, after⟩
  · rw [hrun] at hdraws
    rw [run_bind_error hrun]
    exact hdraws.showsHead
  · rw [hrun] at hdraws
    rw [run_bind_ok hrun]
    cases drawn with
    | true =>
      rw [hdrawn]
      exact hdraws.showsHead
    | false => exact hnothing after

/-- Moving on leaves the first card of the queue shown, or none. -/
theorem showsHead_advance (game : Game) : (advance.run.run game).2.ShowsHead := by
  have hhalt : ∀ game : Game,
      ((do halt; return (← get).scheduler.phase : Play Phase).run.run game).2.ShowsHead :=
    fun _ => @showsHead_of_phase _ .halted rfl nofun nofun
  refine showsHead_draw_bind (fun _ => rfl) (fun checked => ?_) game
  rw [if_neg Bool.false_ne_true]
  rcases hrun : reshuffle.run.run checked with ⟨fault | filled, reshuffled⟩
  · rw [run_reshuffle_eq] at hrun
    split at hrun <;> cases hrun
  · rw [run_bind_ok hrun]
    cases filled with
    | false => exact hhalt reshuffled
    | true => exact showsHead_draw_bind (fun _ => rfl) hhalt reshuffled

/-- Resolving a card leaves the first card of the queue shown, or none. -/
theorem showsHead_resolve (haction : ∀ a, action = some a → a ∈ (game.catalog.card key).actions)
    (mark : Nat) : ((resolve silent key action mark).run.run game).2.ShowsHead := by
  have heffects : Runs Affects (outcomeOf action) (game.accepting key) := affects_outcomeOf haction
  rw [run_resolve]
  rcases houtcome : (outcomeOf action).run.run (game.accepting key) with ⟨fault | outcome, resolved⟩
  · have hphase := congrArg Scheduler.phase (heffects.of_error houtcome).scheduler
    rw [run_bind_error houtcome]
    exact showsHead_of_phase hphase nofun nofun
  · rcases hdiscard : (discard key).run.run resolved with ⟨fault | _, asked⟩
    · cases hdiscard
    rw [run_bind_ok houtcome, run_bind_ok hdiscard]
    have hshows := showsHead_advance asked
    rw [run_bind]
    rcases hadvance : advance.run.run asked with ⟨fault | phase, last⟩ <;> rwa [hadvance] at hshows

/-- A selection leaves the shown card at the head of the queue, or another one is shown there. -/
theorem showsHead_select (choice : Choice)
    (h : game.ShowsHead ∨
      ((select silent choice).run.run game).2.scheduler.presented ≠ game.scheduler.presented) :
    ((select silent choice).run.run game).2.ShowsHead := by
  have hevaluates := evaluates_accepted? choice game
  rcases hrun : (select silent choice).run.run game with ⟨result, after⟩
  rw [hrun] at h
  have hquiet : Quiet game after → after.ShowsHead := fun hquiet =>
    (h.resolve_right (not_not_intro (congrArg _ hquiet.scheduler))).of_eq hquiet.catalog
      hquiet.scheduler
  cases selects_select hrun with
  | broken hbroken => exact hquiet (hevaluates.of_error hbroken).toQuiet
  | refused hrefused hrest _ => exact hquiet ((hevaluates.of_ok hrefused).toQuiet.trans hrest)
  | accepted _ _ haction hresolve =>
    have hresolved := showsHead_resolve haction game.diagnostics.mark
    rwa [hresolve] at hresolved

/-! ## Calls -/

/-- A control is not pressed when it is asked for. -/
def RefusesPress (game : Game) (control : String) : Prop :=
  ∃ result after, (press silent control).run.run game = (.ok result, after) ∧
    result.success = false

theorem RefusesPress.unmoved {control : String} (h : game.RefusesPress control) :
    Unmoved game none ((press silent control).run.run game).2 := by
  obtain ⟨result, after, hrun, hrefused⟩ := h
  rw [hrun]
  cases herror : result.error with
  | none =>
    rw [ControlResult.success, herror] at hrefused
    cases hrefused
  | some error => exact press_refused hrun herror

theorem presented_press (control : String) (game : Game) :
    ((press silent control).run.run game).2.scheduler.presented = game.scheduler.presented := by
  have haffects : Affects game _ ((press silent control).run.run game).2 := affects_press control game
  exact congrArg Scheduler.presented haffects.scheduler

/-- A call leaves the shown card at the head of the queue, unless it presses a control, or another one
is shown there. -/
theorem showsHead_played
    (h : game.ShowsHead ∨ (call.played game).scheduler.presented ≠ game.scheduler.presented)
    (hpress : ∀ control, call = .press control → game.RefusesPress control) :
    (call.played game).ShowsHead := by
  -- A call that presents a card shows the head; any other one leaves head and card alone, unless it
  -- presses.
  cases call with
  | look => exact h.resolve_right (not_not_intro rfl)
  | reveal =>
    rw [Call.played, Game.reveal, run_get_bind] at h ⊢
    split at h
    next hphase =>
      have hbefore := h.resolve_right (not_not_intro rfl)
      rw [if_pos hphase]
      exact fun _ => hbefore (.inl hphase)
    next hphase =>
      rw [if_neg hphase]
      exact h.resolve_right (not_not_intro rfl)
  | advance =>
    rw [Call.played] at h ⊢
    split at h
    next hallowed =>
      rw [if_pos hallowed]
      exact showsHead_advance game
    next hallowed =>
      rw [if_neg hallowed]
      exact h.resolve_right (not_not_intro rfl)
  | select request => exact showsHead_select request.choice h
  | press control =>
    have hunmoved := (hpress control rfl).unmoved
    have hbefore := h.resolve_right (not_not_intro (presented_press control game))
    rw [Call.played, hunmoved]
    exact hbefore

end Game

/-! ## Sessions -/

namespace Service

variable {service : Service} {request : CreateRequest} {start : Game} {calls : List Call}

/-- Every control that was pressed since the latest card was presented has been refused. -/
def Unpressed (service : Service) (request : CreateRequest) (calls : List Call) : Prop :=
  ∀ early control late before after, calls = early ++ .press control :: late →
    service.played? request early = some before → service.played? request calls = some after →
    after.scheduler.presented = before.scheduler.presented → before.RefusesPress control

/-- A session in which no control is pressed. -/
theorem unpressed_of_forall (h : ∀ control, Call.press control ∉ calls) :
    Unpressed service request calls := by
  rintro early control late _ _ rfl _ _ _
  exact absurd (List.mem_append_right _ List.mem_cons_self) (h control)

/-- The session before a call that presents no card. -/
theorem Unpressed.of_concat {before after : Game} {call : Call}
    (h : Unpressed service request (calls ++ [call]))
    (hbefore : service.played? request calls = some before)
    (hafter : service.played? request (calls ++ [call]) = some after)
    (hpresented : after.scheduler.presented = before.scheduler.presented) :
    Unpressed service request calls := by
  intro early control late first last hcalls hfirst hlast hsame
  obtain rfl := Option.some.inj (hlast.symm.trans hbefore)
  have hsplit : calls ++ [call] = early ++ .press control :: (late ++ [call]) := by
    rw [hcalls, List.append_assoc, List.cons_append]
  exact h early control _ first after hsplit hfirst hafter (hpresented.trans hsame)

/-- Whatever calls are made, the card that is shown is the head of the queue if every control that was
pressed since it was presented has been refused. -/
theorem showsHead_of_unpressed (fresh : service.find? service.nextId = none)
    (built : Session.buildGame request.deck service.settings (service.chance request.seed) =
      .ok start) (h : Unpressed service request calls) :
    ∃ game, service.played? request calls = some game ∧ game.ShowsHead := by
  induction calls using List.reverseRecOn with
  | nil =>
    obtain ⟨_, hcreated, generator, rfl⟩ := looked_created fresh built
    exact ⟨_, hcreated, showsHead_advance start⟩
  | append_singleton calls call ih =>
    obtain ⟨stages, before, hplays⟩ := exists_plays fresh built calls
    obtain ⟨_, hafter, generator, rfl⟩ := played?_looked hplays.played call
    have hplayed := @showsHead_played before call
    refine ⟨_, hafter, hplayed ?_ ?_⟩
    · by_cases hpresented :
          (call.played before).scheduler.presented = before.scheduler.presented
      · obtain ⟨game, hgame, hshows⟩ := ih (h.of_concat hplays.played hafter hpresented)
        obtain rfl := Option.some.inj (hgame.symm.trans hplays.played)
        exact .inl hshows
      · exact .inr hpresented
    · rintro control rfl
      exact h calls control [] before _ rfl hplays.played hafter (presented_press control before)

end Service

end EventDeck
