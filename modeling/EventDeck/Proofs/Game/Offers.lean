import EventDeck.Proofs.Game.Conditions
import EventDeck.Proofs.Game.Selections

/-!
# Offers

The list of offers and a selection both find out which actions of the current card are available, each
for itself.  When no condition of these actions takes chance they find the same (`openActions`), and
the choices that are offered as available are those that are accepted (`offered_iff_chosen`).  One of
them always is: going on without an action is offered when no action is available.
-/

namespace EventDeck

open Game EventDeck.Expr Text

/-- The choice that an offer is for. -/
def Offer.IsFor (offer : Offer) (choice : Choice) : Prop :=
  match offer.action with
  | none => choice = .goOn
  | some index => choice.index? = some (index : Int)

/-- A choice is offered, and it is available. -/
def Offered (offers : List Offer) (choice : Choice) : Prop :=
  ∃ offer ∈ offers, offer.available = true ∧ offer.IsFor choice

namespace Game

variable {α : Type} {game between : Game} {key : Nat} {choice : Choice} {label : String}
  {actions : List Action} {available : List Nat}

/-! ## Available actions -/

theorem actions_of_current (h : game.scheduler.current = some key) :
    game.actions = (game.catalog.card key).actions := by
  rw [Game.actions, h]

/-- A filter whose tests do not change more than reports. -/
theorem run_filterM {test : α → Play Bool} {passes : α → Bool} {items : List α}
    (htest : ∀ a ∈ items, ∀ earlier, ∃ diagnostics,
      (test a).run.run { game with diagnostics := earlier } =
        (.ok (passes a), { game with diagnostics })) :
    ∃ diagnostics, (items.filterM test).run.run game =
      (.ok (items.filter passes), { game with diagnostics }) := by
  have haux : ∀ found earlier, ∃ diagnostics,
      (items.filterAuxM test found).run.run { game with diagnostics := earlier } =
        (.ok ((items.filter passes).reverse ++ found), { game with diagnostics }) := by
    induction items with
    | nil => exact fun found earlier => ⟨earlier, rfl⟩
    | cons a items ih =>
      obtain ⟨hfirst, hrest⟩ := List.forall_mem_cons.mp htest
      intro found earlier
      obtain ⟨later, hpasses⟩ := hfirst earlier
      obtain ⟨diagnostics, hrun⟩ := ih hrest (cond (passes a) (a :: found) found) later
      refine ⟨diagnostics, ?_⟩
      rw [List.filterAuxM, run_bind_ok hpasses, hrun, List.filter_cons]
      cases passes a <;> simp
  obtain ⟨diagnostics, hrun⟩ := haux [] game.diagnostics
  refine ⟨diagnostics, ?_⟩
  rw [List.filterM, run_bind_ok hrun, List.append_nil, List.reverse_reverse]
  rfl

/-- Whether the condition of an action is blank or has the value true in a store. -/
def isOpen (store : Store) (action : Action) : Bool :=
  isBlankText action.condition || conditionValue store action.condition

/-- The indices of the actions of the current card that are open. -/
def openActions (game : Game) : List Nat :=
  (game.actions.zipIdx.filter fun place => isOpen game.store place.1).map (·.2)

theorem run_availableActions_of_callFree
    (h : ∀ action ∈ game.actions, CallFree (trim action.condition.toList)) :
    ∃ diagnostics, availableActions.run.run game =
      (.ok game.openActions, { game with diagnostics }) := by
  have htest : ∀ place ∈ game.actions.zipIdx, ∀ earlier, ∃ diagnostics,
      (holds place.1.condition).run.run { game with diagnostics := earlier } =
        (.ok (isOpen game.store place.1), { game with diagnostics }) := by
    intro place hplace earlier
    exact run_holds_of_callFree (h place.1 (List.fst_mem_of_mem_zipIdx hplace))
      { game with diagnostics := earlier }
  obtain ⟨diagnostics, hrun⟩ := run_filterM htest
  refine ⟨diagnostics, ?_⟩
  rw [availableActions, run_bind_ok (run_currentActions game)]
  exact run_map_ok hrun _

/-! ## What is offered -/

/-- What is offered of some actions, of which some are available. -/
def offersOf (label : String) (actions : List Action) (available : List Nat) : List Offer :=
  (actions.zipIdx.map fun (action, index) =>
    { action := some index, description := action.description,
      available := available.contains index : Offer }) ++
    if available.isEmpty then [{ action := none, description := label, available := true }] else []

theorem run_choices (hcurrent : game.scheduler.current = some key)
    (hrun : availableActions.run.run game = (.ok available, between)) :
    choices.run.run game =
      (.ok (offersOf between.settings.continueLabel between.actions available), between) := by
  rw [choices, run_get_bind, hcurrent]
  dsimp only [Option.isNone_some]
  rw [if_neg Bool.false_ne_true, run_bind_ok hrun, run_bind_ok (run_currentActions between),
    offersOf]
  cases available.isEmpty with
  | true => rfl
  | false =>
    rw [if_neg Bool.false_ne_true, if_neg Bool.false_ne_true, List.append_nil]
    rfl

theorem lt_of_openActions : ∀ n ∈ game.openActions, n < game.actions.length := by
  intro n hn
  obtain ⟨⟨action, index⟩, hplace, rfl⟩ := List.mem_map.mp hn
  have hindex := List.mk_mem_zipIdx_iff_getElem?.mp (List.mem_filter.mp hplace).1
  exact (List.getElem?_eq_some_iff.mp hindex).1

/-- Something is always available. -/
theorem exists_available (h : ∀ n ∈ available, n < actions.length) :
    ∃ offer ∈ offersOf label actions available, offer.available = true := by
  cases available with
  | nil => exact ⟨⟨none, label, true⟩, List.mem_append_right _ List.mem_cons_self, rfl⟩
  | cons n rest =>
    have hn : n < actions.length := h n List.mem_cons_self
    have hplace : (actions[n], n) ∈ actions.zipIdx :=
      List.mk_mem_zipIdx_iff_getElem?.mpr (List.getElem?_eq_getElem hn)
    exact ⟨_, List.mem_append_left _ (List.mem_map_of_mem hplace), by simp⟩

/-- What is offered as available: the actions that are, and going on without one when there are
none. -/
theorem offered_offersOf (h : ∀ n ∈ available, n < actions.length) :
    Offered (offersOf label actions available) choice ↔
      (∃ n ∈ available, choice.index? = some (n : Int)) ∨ available = [] ∧ choice = .goOn := by
  constructor
  · rintro ⟨offer, hoffer, havailable, hfor⟩
    rcases List.mem_append.mp hoffer with haction | hlast
    · obtain ⟨⟨action, n⟩, -, rfl⟩ := List.mem_map.mp haction
      exact .inl ⟨n, by simpa using havailable, hfor⟩
    · cases available with
      | nil =>
        obtain rfl := List.mem_singleton.mp hlast
        exact .inr ⟨rfl, hfor⟩
      | cons => cases hlast
  · rintro (⟨n, hn, hindex⟩ | ⟨rfl, rfl⟩)
    · have hlt : n < actions.length := h n hn
      have hplace : (actions[n], n) ∈ actions.zipIdx :=
        List.mk_mem_zipIdx_iff_getElem?.mpr (List.getElem?_eq_getElem hlt)
      exact ⟨_, List.mem_append_left _ (List.mem_map_of_mem hplace), by simpa using hn, hindex⟩
    · exact ⟨⟨none, label, true⟩, List.mem_append_right _ List.mem_cons_self, rfl, rfl⟩

/-- The choices that are offered as available are those that mean something. -/
theorem offered_iff_chosen (h : ∀ n ∈ available, n < actions.length) :
    Offered (offersOf label actions available) choice ↔
      ∃ action, chosen choice actions available = .ok action := by
  rw [offered_offersOf h, chosen]
  by_cases hgoOn : choice = .goOn
  · rw [if_pos hgoOn, hgoOn]
    cases available <;> simp [Choice.index?]
  · rw [if_neg hgoOn]
    cases hindex : choice.index? with
    | none => simp [hgoOn]
    | some index =>
      by_cases hany : ∃ n ∈ available, (n : Int) = index
      · obtain ⟨n, hn, rfl⟩ := hany
        simp [hn, h n hn]
      · have hnot : ∀ n ∈ available, ¬index = (n : Int) :=
          fun n hn heq => hany ⟨n, hn, heq.symm⟩
        simpa [hany, hgoOn] using hnot

/-! ## What is accepted -/

/-- A selection is answered, and it succeeds. -/
def Succeeds (game : Game) (choice : Choice) : Prop :=
  ∃ result after, (select silent choice).run.run game = (.ok result, after) ∧ result.success = true

/-- A selection is answered, and it does not succeed; nothing has changed but the reports. -/
def Refuses (game : Game) (choice : Choice) : Prop :=
  ∃ result diagnostics, (select silent choice).run.run game =
    (.ok result, { game with diagnostics }) ∧ result.success = false

/-- A choice that means something is resolved. -/
theorem run_select_of_ok {action : Option Action} (hready : (Act.accept key).Ready game.scheduler)
    (hrun : availableActions.run.run game = (.ok available, between))
    (hchosen : chosen choice between.actions available = .ok action) :
    (select silent choice).run.run game =
      (resolve silent key action game.diagnostics.mark).run.run between := by
  rw [(run_select_open silent hready).1, run_bind_ok hrun, run_bind_ok (run_currentActions between),
    hchosen]

/-- A choice that means nothing is reported. -/
theorem run_select_of_error {message : String} (hready : (Act.accept key).Ready game.scheduler)
    (hrun : availableActions.run.run game = (.ok available, between))
    (hchosen : chosen choice between.actions available = .error message) :
    (select silent choice).run.run game = (invalid message).run.run between := by
  rw [(run_select_open silent hready).1, run_bind_ok hrun, run_bind_ok (run_currentActions between),
    hchosen]

/-- A card that is resolved without a fault is resolved with success. -/
theorem success_of_resolve {action : Option Action} {mark : Nat} {result : TurnResult} {after : Game}
    (hrun : (resolve silent key action mark).run.run game = (.ok result, after)) :
    result.success = true := by
  obtain ⟨before, outcome, phase, rfl⟩ := turnResult_of_resolve hrun
  rfl

theorem Refuses.not_succeeds (h : game.Refuses choice) : ¬game.Succeeds choice := by
  obtain ⟨refused, _, hrefuse, hfailure⟩ := h
  rintro ⟨result, _, hrun, hsuccess⟩
  rw [hrefuse] at hrun
  cases hrun
  rw [hfailure] at hsuccess
  cases hsuccess

/-- While input is open and no condition of the actions of the current card takes chance, something is
offered as available; the choices that are not are refused, and the others succeed unless a fault ends
the selection. -/
theorem exists_offers (hready : (Act.accept key).Ready game.scheduler)
    (hfree : ∀ action ∈ game.actions, CallFree (trim action.condition.toList)) :
    ∃ offers diagnostics, choices.run.run game = (.ok offers, { game with diagnostics }) ∧
      (∃ offer ∈ offers, offer.available = true) ∧
      ∀ choice, (¬Offered offers choice → game.Refuses choice) ∧
        (game.Succeeds choice ↔ Offered offers choice ∧
          ∀ fault, ((select silent choice).run.run game).1 ≠ .error fault) := by
  obtain ⟨diagnostics, hrun⟩ := run_availableActions_of_callFree hfree
  refine ⟨offersOf game.settings.continueLabel game.actions game.openActions, diagnostics,
    run_choices hready.2.2 hrun, exists_available lt_of_openActions, fun choice => ?_⟩
  rw [offered_iff_chosen lt_of_openActions]
  -- what is offered and what a selection accepts are read off the same list of open actions
  cases hchosen : chosen choice game.actions game.openActions with
  | ok action =>
    refine ⟨fun hnot => absurd ⟨action, rfl⟩ hnot, ?_, fun ⟨_, hwhole⟩ => ?_⟩
    · rintro ⟨result, after, hselect, -⟩
      exact ⟨⟨action, rfl⟩, by simp [hselect]⟩
    · rcases hselect : (select silent choice).run.run game with ⟨fault | result, after⟩
      · exact absurd (congrArg Prod.fst hselect) (hwhole fault)
      · have hresolve := hselect
        rw [run_select_of_ok hready hrun hchosen] at hresolve
        exact ⟨result, after, hselect, success_of_resolve hresolve⟩
  | error message =>
    have hrefuses : game.Refuses choice :=
      ⟨_, diagnostics.report ⟨.invalidAction, message⟩,
        (run_select_of_error hready hrun hchosen).trans rfl, rfl⟩
    exact ⟨fun _ => hrefuses, fun h => absurd h hrefuses.not_succeeds,
      fun ⟨⟨action, haction⟩, _⟩ => nomatch haction⟩

end Game

end EventDeck
