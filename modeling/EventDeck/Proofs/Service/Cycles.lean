import EventDeck.Proofs.Reshuffle
import EventDeck.Proofs.Service.Passes
import EventDeck.Proofs.Service.Rest

/-!
# Whole passes

When no event has a condition and nothing has special effects, the queue is only used up by turns and
refilled by reshuffles.  Then the presentations of a session are cut by the reshuffles into whole
passes through the deck, the last of which may still be under way: the first is made of the active
cards alone, and every later one is opened by the inactive sentinel if there is one.  Such a session
only halts when the deck has nothing to show (`passes_complete`).
-/

namespace EventDeck

namespace Catalog

variable {catalog : Catalog} {sentinel : String} {pass : List Nat} {passes : List (List Nat)}

/-- The passes through a deck in their order: the active cards as they were dealt, and after every
reshuffle a new pass. -/
structure ArePasses (catalog : Catalog) (sentinel : String) (passes : List (List Nat)) : Prop where
  first : ∀ pass, passes.head? = some pass → pass.Perm catalog.actives
  later : ∀ pass ∈ passes.tail, catalog.IsPass sentinel pass

/-- There is nothing to show: no card in the game is active, and none is a sentinel. -/
def Bare (catalog : Catalog) (sentinel : String) : Prop :=
  ∀ key ∈ catalog.pool, catalog.active key = false ∧ catalog.named sentinel key = false

theorem actives_eq_nil (h : catalog.Bare sentinel) : catalog.actives = [] :=
  List.filter_eq_nil_iff.mpr fun key hkey => by rw [(h key hkey).1]; exact Bool.false_ne_true

theorem eq_nil_of_perm_nil_actives {catalog : Catalog} (h : [].Perm catalog.actives) :
    ∀ key ∈ catalog.pool, catalog.active key = false := by
  have hnone : catalog.actives = [] := h.symm.eq_nil
  exact fun key hkey => by simpa using List.filter_eq_nil_iff.mp hnone key hkey

/-- A pass is empty exactly when there is nothing to show. -/
theorem IsPass.eq_nil_iff (h : catalog.IsPass sentinel pass) :
    pass = [] ↔ catalog.Bare sentinel := by
  cases h with
  | sentinel hpool hnamed hinactive horder =>
    refine ⟨nofun, fun hbare => ?_⟩
    rw [(hbare _ hpool).2] at hnamed
    cases hnamed
  | plain hnone horder =>
    constructor
    · rintro rfl key hkey
      have hinactive := eq_nil_of_perm_nil_actives horder key hkey
      refine ⟨hinactive, Bool.eq_false_iff.mpr fun hnamed => ?_⟩
      rw [hnone key hkey hnamed] at hinactive
      cases hinactive
    · intro hbare
      rw [actives_eq_nil hbare] at horder
      exact horder.eq_nil

namespace ArePasses

theorem concat (h : catalog.ArePasses sentinel passes) (hne : passes ≠ [])
    (hpass : catalog.IsPass sentinel pass) : catalog.ArePasses sentinel (passes ++ [pass]) := by
  obtain ⟨first, later, rfl⟩ := List.exists_cons_of_ne_nil hne
  exact ⟨h.first, List.forall_mem_append.mpr ⟨h.later, by simpa using hpass⟩⟩

/-- When there is nothing to show, every pass is empty. -/
theorem eq_nil (h : catalog.ArePasses sentinel passes) (hbare : catalog.Bare sentinel)
    (hpass : pass ∈ passes) : pass = [] := by
  cases passes with
  | nil => cases hpass
  | cons first later =>
    rcases List.mem_cons.mp hpass with rfl | hlater
    · have hfirst := h.first _ rfl
      rw [actives_eq_nil hbare] at hfirst
      exact hfirst.eq_nil
    · exact (h.later pass hlater).eq_nil_iff.mpr hbare

end ArePasses

end Catalog

namespace Game

open Text

/-! ## Where a session stands in its passes -/

/-- As many passes are complete as there were reshuffles.  Of the next one `front` has been presented,
up to the current card, and `rest` is still to come. -/
structure InPass (passes : List (List Nat)) (front rest : List Nat) (game : Game) : Prop where
  pass : passes[game.scheduler.reshuffles]? = some (front ++ rest)
  presented : game.scheduler.presented.reverse =
    (passes.take game.scheduler.reshuffles).flatten ++ front
  queue : game.catalog.queue = game.scheduler.current.toList ++ rest
  current : ∀ key, game.scheduler.current = some key → front.getLast? = some key

/-- Nothing but turns and reshuffles moves the cards of a game: no card has a condition, and no action
or control has a special effect. -/
structure Unconditional (game : Game) : Prop where
  conditions : ∀ key, isBlankText (game.catalog.card key).condition = true
  actions : ∀ key, ∀ action ∈ (game.catalog.card key).actions, ∀ text ∈ action.specials,
    isBlankText text = true
  controls : ∀ control ∈ game.panel, ∀ text ∈ control.specials, isBlankText text = true

/-- What can be said of a session at every moment: the cards are those it started with, it has its
place in the passes, and it has only halted if there is nothing to show. -/
structure Passing (start : Game) (passes : List (List Nat)) (game : Game) : Prop where
  roster : start.catalog.SameRoster game.catalog
  place : ∃ front rest, InPass passes front rest game
  halted : game.scheduler.phase = .halted → start.catalog.Bare start.settings.sentinelName

/-- A session is in the last of some passes. -/
structure Latest (start : Game) (passes : List (List Nat)) (game : Game) : Prop
    extends Frame start game, Passing start passes game where
  arePasses : start.catalog.ArePasses start.settings.sentinelName passes
  length : passes.length = game.scheduler.reshuffles + 1

variable {α : Type} {start game before between after : Game} {key : Nat} {front rest : List Nat}
  {passes more : List (List Nat)}

theorem InPass.of_prefix (h : InPass passes front rest game) (hbegins : passes <+: more) :
    InPass more front rest game := by
  obtain ⟨late, rfl⟩ := hbegins
  obtain ⟨hlt, -⟩ := List.getElem?_eq_some_iff.mp h.pass
  refine ⟨?_, ?_, h.queue, h.current⟩
  · rw [List.getElem?_append_left hlt, h.pass]
  · rw [List.take_append_of_le_length (Nat.le_of_lt hlt), h.presented]

theorem Passing.of_prefix (h : Passing start passes game) (hbegins : passes <+: more) :
    Passing start more game := by
  obtain ⟨front, rest, hplace⟩ := h.place
  exact ⟨h.roster, ⟨front, rest, hplace.of_prefix hbegins⟩, h.halted⟩

/-- A card is only current when there is something to show. -/
theorem Passing.not_bare (h : Passing start passes game)
    (hpasses : start.catalog.ArePasses start.settings.sentinelName passes)
    (hcurrent : game.scheduler.current = some key) :
    ¬start.catalog.Bare start.settings.sentinelName := by
  intro hbare
  obtain ⟨front, rest, hplace⟩ := h.place
  have hempty : front ++ rest = [] := hpasses.eq_nil hbare (List.mem_of_getElem? hplace.pass)
  have hlast := hplace.current key hcurrent
  rw [(List.append_eq_nil_iff.mp hempty).1] at hlast
  cases hlast

theorem Unconditional.of_frame (h : before.Unconditional) (hframe : Frame before after) :
    after.Unconditional where
  conditions key := by
    rw [hframe.faces.condition]
    exact h.conditions key
  actions key action haction := h.actions key action (hframe.faces.actions key ▸ haction)
  controls control hcontrol := h.controls control (hframe.panel ▸ hcontrol)

/-! ## Going on through the passes -/

/-- A game goes on through its passes: a new one is begun after the others at most. -/
def Continues (start before : Game) (_ : Option Fault) (after : Game) : Prop :=
  ∀ passes, Latest start passes before → ∃ more, passes <+: more ∧ Latest start more after

theorem Continues.trans {fault : Option Fault} (first : Continues start before none between)
    (second : Continues start between fault after) : Continues start before fault after := by
  intro passes h
  obtain ⟨more, hmore, hbetween⟩ := first passes h
  obtain ⟨most, hmost, hafter⟩ := second more hbetween
  exact ⟨most, hmore.trans hmost, hafter⟩

theorem continues_same {fault : Option Fault} (hframe : Frame before after)
    (hcatalog : after.catalog = before.catalog) (hcurrent : after.scheduler.current = before.scheduler.current)
    (hpresented : after.scheduler.presented = before.scheduler.presented)
    (hreshuffles : after.scheduler.reshuffles = before.scheduler.reshuffles)
    (hphase : after.scheduler.phase = .halted → before.scheduler.phase = .halted) :
    Continues start before fault after := by
  intro passes h
  obtain ⟨front, rest, hplace⟩ := h.place
  refine ⟨passes, List.prefix_refl _, h.toFrame.trans hframe, ⟨hcatalog ▸ h.roster,
    ⟨front, rest, ?_, ?_, ?_, ?_⟩, fun hhalted => h.halted (hphase hhalted)⟩, h.arePasses, ?_⟩
  · rw [hreshuffles, hplace.pass]
  · rw [hreshuffles, hpresented, hplace.presented]
  · rw [hcatalog, hcurrent, hplace.queue]
  · rw [hcurrent]
    exact hplace.current
  · rw [hreshuffles, h.length]

instance allows_continues (start : Game) : Conduct.Allows (Continues start) where
  quiet h := continues_same h.frame h.catalog (congrArg Scheduler.current h.scheduler)
    (congrArg Scheduler.presented h.scheduler) (congrArg Scheduler.reshuffles h.scheduler)
    (fun hhalted => h.scheduler ▸ hhalted)
  next first second := first.trans second
  fault _ := continues_same (.refl _) rfl rfl rfl rfl id

theorem continues_begun : Continues start game none game.begun :=
  continues_same ⟨rfl, .refl _, rfl, rfl⟩ rfl rfl rfl rfl nofun

/-- The next card of a pass is presented. -/
theorem continues_showing (hcurrent : game.scheduler.current = none)
    (hhead : game.catalog.head? = some key) : Continues start game none (game.showing key) := by
  intro passes h
  obtain ⟨front, rest, hplace⟩ := h.place
  have hqueue := hplace.queue
  rw [hcurrent, Option.toList_none, List.nil_append] at hqueue
  obtain ⟨rest, rfl⟩ : ∃ late, rest = key :: late := by
    rw [Catalog.head?, hqueue] at hhead
    exact List.head?_eq_some_iff.mp hhead
  have hscheduler : (game.showing key).scheduler.current = some key ∧
      (game.showing key).scheduler.presented = key :: game.scheduler.presented ∧
      (game.showing key).scheduler.reshuffles = game.scheduler.reshuffles := by
    unfold showing
    cases game.settings.autoReveal <;> exact ⟨rfl, rfl, rfl⟩
  obtain ⟨hshown, hpresented, hreshuffles⟩ := hscheduler
  -- the head of what was left of the pass is presented, and what is left is one card shorter
  refine ⟨passes, List.prefix_refl _, h.toFrame.trans ⟨rfl, .refl _, rfl, rfl⟩, ⟨h.roster,
    ⟨front ++ [key], rest, ?_, ?_, ?_, ?_⟩, fun hhalted => ?_⟩, h.arePasses, ?_⟩
  · rw [hreshuffles, hplace.pass, List.append_assoc, List.singleton_append]
  · rw [hreshuffles, hpresented, List.reverse_cons, hplace.presented, List.append_assoc]
  · rw [hshown]
    exact hqueue
  · rintro other hother
    rw [hshown] at hother
    cases hother
    exact List.getLast?_concat ..
  · rcases shown_showing key game with hphase | hphase <;> rw [hphase] at hhalted <;> cases hhalted
  · rw [hreshuffles, h.length]

/-- What a reshuffle queues is a pass. -/
theorem Latest.isPass (h : Latest start passes game) (hnodup : start.catalog.pool.Nodup)
    (hstep : Step game .reshuffle after) :
    start.catalog.SameRoster after.catalog ∧
      start.catalog.IsPass start.settings.sentinelName after.catalog.queue := by
  obtain ⟨-, generator, hcatalog⟩ := hstep.deals
  have hpool : game.catalog.pool.Nodup := h.roster.pool.nodup_iff.mpr hnodup
  have hroster : start.catalog.SameRoster after.catalog :=
    h.roster.trans (hcatalog ▸ game.catalog.sameRoster_rebuilt ..)
  refine ⟨hroster, hroster.isPass ?_⟩
  rw [hcatalog, ← h.settings]
  exact Catalog.isPass_rebuilt hpool ..

/-- A reshuffle begins a new pass. -/
theorem continues_reshuffle (hnodup : start.catalog.pool.Nodup)
    (hcurrent : game.scheduler.current = none) (hstep : Step game .reshuffle after) :
    Continues start game none after := by
  intro passes h
  obtain ⟨hroster, hpass⟩ := h.isPass hnodup hstep
  obtain ⟨front, rest, hplace⟩ := h.place
  obtain rfl : rest = [] := by
    rw [← hstep.deals.1, hplace.queue, hcurrent, Option.toList_none, List.nil_append]
  have hlength := h.length
  have hne : passes ≠ [] := List.ne_nil_of_length_eq_add_one hlength
  have hreshuffles : after.scheduler.reshuffles = passes.length := by
    rw [hstep.scheduler, hlength]
    rfl
  -- nothing is left of the last pass, so all the passes have been presented
  have hlast : passes = passes.take game.scheduler.reshuffles ++ [front] := by
    have hpass := hplace.pass
    rw [List.append_nil] at hpass
    obtain ⟨hlt, hget⟩ := List.getElem?_eq_some_iff.mp hpass
    rw [← hget, List.take_append_getElem, ← hlength, List.take_length]
  refine ⟨passes ++ [after.catalog.queue], List.prefix_append .., h.toFrame.trans hstep.toFrame,
    ⟨hroster, ⟨[], after.catalog.queue, ?_, ?_, ?_, ?_⟩, ?_⟩, h.arePasses.concat hne hpass, ?_⟩
  · rw [hreshuffles, List.getElem?_concat_length]
    rfl
  · rw [hreshuffles, List.take_left, List.append_nil, hlast, List.flatten_append, hstep.scheduler]
    exact hplace.presented.trans (by simp)
  · rw [hstep.scheduler]
    change _ = game.scheduler.current.toList ++ _
    rw [hcurrent]
    rfl
  · intro key hkey
    rw [hstep.scheduler] at hkey
    change game.scheduler.current = some key at hkey
    rw [hcurrent] at hkey
    cases hkey
  · intro hhalted
    rw [hstep.scheduler] at hhalted
    cases hhalted
  · rw [List.length_append, hreshuffles]
    rfl

/-- Play halts when a reshuffle has found nothing to show. -/
theorem continues_halt (hcurrent : game.scheduler.current = none)
    (hbare : start.catalog.Bare start.settings.sentinelName) :
    Runs (Continues start) (do halt; return (← get).scheduler.phase) game := by
  let halted := { game with scheduler := Act.halt.next game.scheduler }
  have hhalt : Continues start game none halted := by
    intro passes h
    obtain ⟨front, rest, hplace⟩ := h.place
    have hqueue := hplace.queue
    rw [hcurrent] at hqueue
    exact ⟨passes, List.prefix_refl _, h.toFrame.trans ⟨rfl, .refl _, rfl, rfl⟩, ⟨h.roster,
      ⟨front, rest, hplace.pass, hplace.presented, hqueue, nofun⟩, fun _ => hbare⟩, h.arePasses,
      h.length⟩
  exact hhalt

theorem continues_draw {f : Bool → Play α} (hgame : game.Unconditional)
    (hcurrent : game.scheduler.current = none)
    (hshown : ∀ shown, Runs (Continues start) (f true) shown)
    (hempty : game.catalog.queue = [] → Runs (Continues start) (f false) game.begun) :
    Runs (Continues start) (draw >>= f) game := by
  have hdraw := run_draw_unconditional hgame.conditions
  unfold Runs
  cases hhead : game.catalog.head? with
  | some key =>
    rw [hhead] at hdraw
    rw [run_bind_ok hdraw]
    have hshowing : Continues start game.begun none _ := continues_showing hcurrent hhead
    exact (continues_begun.trans hshowing).trans (hshown _)
  | none =>
    rw [hhead] at hdraw
    rw [run_bind_ok hdraw]
    exact continues_begun.trans (hempty (List.head?_eq_none_iff.mp hhead))

theorem runs_of_latest {x : Play α}
    (h : ∀ passes, Latest start passes game → Runs (Continues start) x game) :
    Runs (Continues start) x game :=
  fun passes hlatest => h passes hlatest passes hlatest

section Unconditional

variable (hstart : start.Unconditional) (hnodup : start.catalog.pool.Nodup)

include hstart hnodup

/-- Moving on presents the next card of the pass, or the first of a new one. -/
theorem continues_advance (hcurrent : game.scheduler.current = none) :
    Runs (Continues start) advance game := by
  refine runs_of_latest fun passes h => ?_
  have hgame := hstart.of_frame h.toFrame
  have hend : ∀ shown, Runs (Continues start) (do return (← get).scheduler.phase) shown :=
    fun shown => runs_get_bind (runs_pure _ shown)
  refine continues_draw hgame hcurrent hend fun hqueue => ?_
  have hphase : game.begun.scheduler.phase = .checkingConditions := rfl
  obtain ⟨filled, reshuffled, hrun, hstep, hfilled⟩ := run_reshuffle hphase hqueue
  have hreshuffled : reshuffled.scheduler.current = none := by
    rw [hstep.scheduler]
    exact hcurrent
  obtain ⟨more, -, hbegun⟩ := continues_begun passes h
  have hreshuffle : Continues start game.begun none reshuffled :=
    continues_reshuffle hnodup hcurrent hstep
  have hreshuffles : Runs (Continues start) reshuffle game.begun := by
    unfold Runs
    rwa [hrun]
  refine hreshuffles.bind fun _ _ hresult => ?_
  rw [hrun] at hresult
  cases hresult
  -- An empty new pass is the end of play; a new pass with a card has one to present, since no
  -- conditions thin it out.
  cases filled with
  | false =>
    obtain ⟨-, hpass⟩ := hbegun.isPass hnodup hstep
    exact continues_halt hreshuffled (hpass.eq_nil_iff.mp (hfilled.mp rfl))
  | true =>
    have hplain := (hstart.of_frame hbegun.toFrame).of_frame hstep.toFrame
    refine continues_draw hplain hreshuffled hend fun hempty => ?_
    cases hfilled.mpr hempty

omit hstart hnodup in
/-- Effects without special effects move no cards. -/
theorem evaluates_runEffects {effects specials : List String}
    (hspecials : ∀ text ∈ specials, isBlankText text = true) :
    Runs Evaluates (runEffects silent effects specials) game := by
  have hnone : authored specials = [] :=
    List.filter_eq_nil_iff.mpr fun text htext => by rw [hspecials text htext]; exact Bool.false_ne_true
  refine Runs.then (runs_loop (fun effect game => ?_) game) fun _ between => ?_
  · exact (runs_evaluate runs_silent effect game).then fun _ _ => runs_pure _ _
  · rw [hnone]
    exact runs_pure _ between

/-- The end of a turn: the card goes out of the queue, and play goes on. -/
theorem continues_closing {result : Phase → Game → α} (hcurrent : game.scheduler.current = some key) :
    Runs (Continues start) (do discard key; let phase ← advance; return result phase (← get)) game := by
  let discarded := { game with
    catalog := (game.catalog.setDiscarded key true).dequeue key
    scheduler := (Act.discard key).next game.scheduler }
  have hdiscard : Continues start game none discarded := by
    intro passes h
    obtain ⟨front, rest, hplace⟩ := h.place
    have hqueue := hplace.queue
    rw [hcurrent, Option.toList_some, List.singleton_append] at hqueue
    have hfaces : start.catalog.SameRoster discarded.catalog :=
      (h.roster.trans (.setDiscarded _ key true)).trans (.of_cards rfl (.refl _))
    have hframe : Frame start discarded := ⟨h.settings, hfaces.toSameFaces, h.panel, h.epsilon⟩
    refine ⟨passes, List.prefix_refl _, hframe, ⟨hfaces,
      ⟨front, rest, hplace.pass, hplace.presented, ?_, nofun⟩, h.halted⟩, h.arePasses, h.length⟩
    change game.catalog.queue.erase key = rest
    rw [hqueue, List.erase_cons_head]
  refine hdiscard.trans ?_
  have hadvance : Runs (Continues start) advance discarded :=
    continues_advance hstart hnodup rfl
  exact hadvance.then fun phase after => runs_pure (result phase after) after

theorem continues_resolve {action : Option Action} (mark : Nat)
    (hready : (Act.accept key).Ready game.scheduler)
    (haction : ∀ a, action = some a → ∀ text ∈ a.specials, isBlankText text = true) :
    Runs (Continues start) (resolve silent key action mark) game := by
  have haccept : Continues start game none (game.accepting key) :=
    continues_same ⟨rfl, .refl _, rfl, rfl⟩ rfl rfl rfl rfl nofun
  have heffects : Runs Evaluates (outcomeOf action) (game.accepting key) := by
    cases action with
    | none => exact runs_pure _ _
    | some a => exact evaluates_runEffects (haction a rfl)
  have hcontinues : Runs (Continues start) (outcomeOf action) (game.accepting key) :=
    heffects.of_evaluates
  unfold Runs
  rw [run_resolve]
  refine haccept.trans ?_
  refine hcontinues.bind fun outcome resolved hrun => continues_closing hstart hnodup ?_
  rw [(heffects.of_ok hrun).scheduler]
  exact hready.2.2

theorem continues_select (choice : Choice) :
    Runs (Continues start) (select silent choice) game := by
  refine runs_of_latest fun passes h => ?_
  have hgame := hstart.of_frame h.toFrame
  have hevaluates := evaluates_accepted? choice game
  rcases hrun : (select silent choice).run.run game with ⟨result, after⟩
  unfold Runs
  rw [hrun]
  cases selects_select hrun with
  | broken h => exact (allows_continues start).evaluates (hevaluates.of_error h)
  | refused h hquiet _ =>
    exact (allows_continues start).quiet ((hevaluates.of_ok h).toQuiet.trans hquiet)
  | accepted h hready haction hresolve =>
    have hbetween := hevaluates.of_ok h
    have hplain := hgame.of_frame hbetween.frame
    have hresolves := continues_resolve hstart hnodup game.diagnostics.mark hready
      fun a ha => hplain.actions _ a (haction a ha)
    unfold Runs at hresolves
    rw [hresolve] at hresolves
    exact ((allows_continues start).quiet hbetween.toQuiet).trans hresolves

omit hnodup in
theorem continues_press (control : String) :
    Runs (Continues start) (press silent control) game := by
  refine runs_of_latest fun passes h => ?_
  have hgame := hstart.of_frame h.toFrame
  have hrefused : ∀ message game, Runs (Continues start) (notPressed control message) game :=
    fun message game => (runs_report _ _ game).then fun _ _ => runs_pure _ _
  refine runs_get_bind ?_
  split
  next => exact hrefused _ game
  next button hbutton =>
    refine (runs_holds _ game).then fun pressed between => ?_
    refine runs_ite (fun _ => ?_) fun _ => hrefused _ between
    have hspecials := hgame.controls button (List.mem_of_find?_eq_some hbutton)
    exact (evaluates_runEffects hspecials).of_evaluates.then fun _ _ => runs_pure _ _

theorem continues_start (hcurrent : game.scheduler.current = none) :
    Runs (Continues start) (Session.start silent) game := by
  have hadvance : Runs (Continues start) advance game := continues_advance hstart hnodup hcurrent
  unfold Runs Session.start
  rw [run_bind_ok (run_broadcast_silent game)]
  exact hadvance

end Unconditional

theorem continues_reveal (game : Game) : Runs (Continues start) reveal game := by
  refine runs_get_bind (runs_ite (fun _ => ?_) fun _ => runs_pure _ _)
  have hreveal : Continues start game none
      { game with scheduler := Act.reveal.next game.scheduler } :=
    continues_same ⟨rfl, .refl _, rfl, rfl⟩ rfl rfl rfl rfl nofun
  exact hreveal

end Game

/-! ## Sessions -/

namespace Session

open Game

variable {deck : Deck} {settings : Settings} {generator : Generator} {start : Game}

theorem unconditional_of_builds (built : Builds deck settings generator start)
    (conditions : ∀ event ∈ deck.events, Text.isBlankText event.condition = true)
    (specials : ∀ text ∈ deck.specials, Text.isBlankText text = true) : start.Unconditional where
  conditions := condition_of_builds (P := (Text.isBlankText · = true)) built rfl conditions
  actions key action haction text htext := by
    obtain ⟨event, hevent, hmem⟩ := mem_actions_of_builds built haction
    refine specials text (List.mem_append_left _ ?_)
    exact List.mem_flatMap.mpr ⟨event, hevent, List.mem_flatMap.mpr ⟨action, hmem, htext⟩⟩
  controls control hcontrol text htext := by
    rw [built.panel] at hcontrol
    obtain ⟨written, hwritten, rfl⟩ := List.mem_map.mp (Panel.mem_ofList hcontrol)
    exact specials text (List.mem_append_right _ (List.mem_flatMap.mpr ⟨written, hwritten, htext⟩))

/-- A new game is in its first pass. -/
theorem latest_of_builds (built : Builds deck settings generator start) :
    Latest start [start.catalog.queue] start := by
  have hqueue : start.catalog.queue.Perm start.catalog.actives := by
    rw [built.catalog]
    exact Catalog.perm_queue_ofTemplates ..
  have hplace : InPass [start.catalog.queue] [] start.catalog.queue start := by
    constructor <;> rw [built.scheduler]
    · rfl
    · rfl
    · rfl
    · exact nofun
  have hphase : start.scheduler.phase = .idle := congrArg Scheduler.phase built.scheduler
  refine ⟨.refl _, ⟨.refl _, ⟨_, _, hplace⟩, fun hhalted => ?_⟩, ⟨?_, nofun⟩, ?_⟩
  · rw [hphase] at hhalted
    cases hhalted
  · rintro _ ⟨⟩
    exact hqueue
  · rw [built.scheduler]
    rfl

end Session

namespace Service

open Game

variable {service : Service} {request : CreateRequest} {start game before : Game}
  {calls : List Call} {passes more : List (List Nat)}

/-- A session goes on through its passes when it is created. -/
theorem latest_create (fresh : service.find? service.nextId = none)
    (built : Session.buildGame request.deck service.settings (service.chance request.seed) =
      .ok start) (hstart : start.Unconditional) :
    ∃ game passes, service.played? request [] = some game ∧ Latest start passes game := by
  have hbuilds := Session.builds_of_buildGame built
  have hnodup : start.catalog.pool.Nodup := hbuilds.catalog ▸ Catalog.nodup_pool_ofTemplates ..
  have hcurrent : start.scheduler.current = none := congrArg Scheduler.current hbuilds.scheduler
  obtain ⟨session, hcreated⟩ := played?_nil fresh built
  have hrequest : Runs (Continues start) (do
      let _ ← Session.start silent
      return .session (← view session) : Play Response) start :=
    (continues_start hstart hnodup hcurrent).then fun _ between =>
      (evaluates_view session between).of_evaluates.then fun _ _ => runs_pure _ _
  obtain ⟨passes, -, hlatest⟩ := hrequest _ (Session.latest_of_builds hbuilds)
  exact ⟨_, passes, hcreated, hlatest⟩

/-- One more call leads on through the passes. -/
theorem latest_concat (hstart : start.Unconditional) (hnodup : start.catalog.pool.Nodup)
    (hbefore : service.played? request calls = some before) (h : Latest start passes before)
    (hcurrent : before.scheduler.phase = .idle ∨ before.scheduler.phase = .halted →
      before.scheduler.current = none) (call : Call) :
    ∃ game more, service.played? request (calls ++ [call]) = some game ∧ passes <+: more ∧
      Latest start more game := by
  obtain ⟨session, hsession, rfl⟩ := Option.map_eq_some_iff.mp hbefore
  obtain ⟨game, fault, hgame, hcontinues⟩ := follows_serve call hsession (continues_reveal _)
    (fun hallowed => continues_advance hstart hnodup (hcurrent hallowed))
    (continues_select hstart hnodup) (continues_press hstart)
  obtain ⟨more, hmore, hlatest⟩ := hcontinues passes h
  refine ⟨game, more, ?_, hmore, hlatest⟩
  rw [played?, serveAll, List.foldl_append]
  exact congrArg (Option.map _) hgame

/-- The passes of a session reach over all its moments. -/
theorem exists_passes (fresh : service.find? service.nextId = none)
    (built : Session.buildGame request.deck service.settings (service.chance request.seed) =
      .ok start) (hstart : start.Unconditional) (calls : List Call) :
    ∃ game passes, service.played? request calls = some game ∧ Latest start passes game ∧
      ∀ earlier, earlier <+: calls → ∃ between, service.played? request earlier = some between ∧
        Passing start passes between := by
  have hbuilds := Session.builds_of_buildGame built
  have hnodup : start.catalog.pool.Nodup := hbuilds.catalog ▸ Catalog.nodup_pool_ofTemplates ..
  induction calls using List.reverseRecOn with
  | nil =>
    obtain ⟨game, passes, hgame, hlatest⟩ := latest_create fresh built hstart
    refine ⟨game, passes, hgame, hlatest, fun earlier hearlier => ?_⟩
    obtain rfl := List.prefix_nil.mp hearlier
    exact ⟨game, hgame, hlatest.toPassing⟩
  | append_singleton calls call ih =>
    obtain ⟨before, passes, hbefore, hlatest, hmoments⟩ := ih
    -- between two turns no card is current
    obtain ⟨stages, other, hplays⟩ := exists_plays fresh built calls
    obtain rfl : other = before := Option.some.inj (hplays.played.symm.trans hbefore)
    have haccounted := hplays.course.accounted hbuilds.scheduler
    have hcurrent : other.scheduler.phase = .idle ∨ other.scheduler.phase = .halted →
        other.scheduler.current = none := by
      intro hphase
      refine haccounted.current_eq_none ?_
      rcases hphase with hphase | hphase <;> simp [Shown, hphase]
    obtain ⟨game, more, hgame, hmore, hafter⟩ :=
      latest_concat hstart hnodup hbefore hlatest hcurrent call
    refine ⟨game, more, hgame, hafter, fun earlier hearlier => ?_⟩
    rcases List.prefix_concat_iff.mp hearlier with rfl | hearlier
    · exact ⟨game, hgame, hafter.toPassing⟩
    · obtain ⟨between, hbetween, hpassing⟩ := hmoments earlier hearlier
      exact ⟨between, hbetween, hpassing.of_prefix hmore⟩

/-- In a session of a deck whose events have no conditions and in which nothing has special effects,
whatever calls are made: no card is active twice, and there are passes through the deck, the first of
the active cards alone and every later one opened by the inactive sentinel if there is one, which the
presentations go through, one pass after every reshuffle.  Play only halts when no card is active and
there is no inactive sentinel, and unless a fault has broken off a call, a card is shown exactly when
there is one to show. -/
theorem passes_complete (fresh : service.find? service.nextId = none)
    (built : Session.buildGame request.deck service.settings (service.chance request.seed) =
      .ok start)
    (conditions : ∀ event ∈ request.deck.events, Text.isBlankText event.condition = true)
    (specials : ∀ text ∈ request.deck.specials, Text.isBlankText text = true)
    (calls : List Call) :
    start.catalog.actives.Nodup ∧
    ∃ passes, start.catalog.ArePasses service.settings.sentinelName passes ∧
      ∀ earlier, earlier <+: calls → ∃ game, service.played? request earlier = some game ∧
        start.catalog.SameRoster game.catalog ∧
        (∃ front rest, InPass passes front rest game) ∧
        (game.scheduler.phase = .halted → start.catalog.Bare service.settings.sentinelName) ∧
        ((∀ fault, ¬BrokenOff service request start earlier fault) →
          (Shown game.scheduler ↔ ¬start.catalog.Bare service.settings.sentinelName)) := by
  have hbuilds := Session.builds_of_buildGame built
  have hnodup : start.catalog.pool.Nodup := hbuilds.catalog ▸ Catalog.nodup_pool_ofTemplates ..
  have hstart := Session.unconditional_of_builds hbuilds conditions specials
  obtain ⟨last, passes, hlast, hlatest, hmoments⟩ := exists_passes fresh built hstart calls
  rw [← hbuilds.settings]
  refine ⟨Catalog.nodup_actives hnodup, passes, hlatest.arePasses, fun earlier hearlier => ?_⟩
  obtain ⟨game, hgame, hpassing⟩ := hmoments earlier hearlier
  obtain ⟨other, hother, hstands⟩ := exists_stands fresh built earlier
  obtain rfl : other = game := Option.some.inj (hother.symm.trans hgame)
  -- At each moment: the roster, the place in a pass, a halt only with nothing to show, and a card on
  -- show otherwise.
  refine ⟨other, hgame, hpassing.roster, hpassing.place, hpassing.halted,
    fun hwhole => ⟨fun hshown => ?_, fun hbare => ?_⟩⟩
  · obtain ⟨stages, hcourse⟩ := hstands.leads
    have haccounted := hcourse.accounted hbuilds.scheduler
    obtain ⟨key, hkey⟩ := Option.isSome_iff_exists.mp (haccounted.shown hshown)
    exact hpassing.not_bare hlatest.arePasses hkey
  · exact (hstands.whole hwhole).resolve_right fun hhalted => hbare (hpassing.halted hhalted)

/-- A request for a deck of one event and an inactive sentinel. -/
def circuit : CreateRequest where
  deck := { events := [{ name := "e" }, { name := "last_card", active := false }] }
  seed := none

/-- After the first pass the sentinel comes before the event. -/
theorem circuit_complete :
    ∃ start passes game,
      Session.buildGame circuit.deck empty.settings (empty.chance circuit.seed) = .ok start ∧
      start.catalog.ArePasses "last_card" passes ∧
      empty.played? circuit [.reveal, .select ⟨none⟩, .reveal, .select ⟨none⟩] = some game ∧
      game.scheduler.presented.reverse = [0, 1, 0] ∧
      ∃ front rest, passes[1]? = some (front ++ rest) ∧
        [0, 1, 0] = (passes.take 1).flatten ++ front := by
  let calls : List Call := [.reveal, .select ⟨none⟩, .reveal, .select ⟨none⟩]
  obtain ⟨start, hbuilt⟩ := Session.exists_buildGame (empty.chance circuit.seed)
    (show circuit.deck.findings.errors = [] by decide +kernel)
  obtain ⟨-, passes, hpasses, hmoments⟩ :=
    passes_complete fresh_empty hbuilt (by decide +kernel) (by decide +kernel) calls
  obtain ⟨game, hgame, -, ⟨front, rest, hplace⟩, -⟩ := hmoments calls (List.prefix_refl _)
  -- what the calls come to is computed, and the passes are read off it
  have hchecked : (empty.played? circuit calls).map (fun game =>
      (game.scheduler.presented, game.scheduler.reshuffles)) = some ([0, 1, 0], 1) := by
    decide +kernel
  rw [hgame] at hchecked
  obtain ⟨hshown, hreshuffles⟩ := Prod.mk.inj (Option.some.inj hchecked)
  have hpass := hplace.pass
  have hpresented := hplace.presented
  rw [hreshuffles] at hpass hpresented
  rw [hshown] at hpresented
  exact ⟨start, passes, game, hbuilt, hpasses, hgame, congrArg List.reverse hshown, front, rest,
    hpass, hpresented⟩

end Service

end EventDeck
