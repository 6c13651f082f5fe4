import EventDeck.Session

/-!
# Building a game

A game is built from a deck without errors.  Its cards are dealt, its controls are put up, and its
scheduler has not moved yet (`builds_of_buildGame`).
-/

namespace EventDeck

namespace Panel

theorem mem_put {control other : Control} {panel : Panel} (h : control ∈ put other panel) :
    control = other ∨ control ∈ panel := by
  induction panel with
  | nil => exact .inl (List.mem_singleton.mp h)
  | cons first rest ih =>
    rw [put] at h
    split at h
    · exact (List.mem_cons.mp h).imp_right (List.mem_cons_of_mem _)
    · rcases List.mem_cons.mp h with rfl | h
      · exact .inr List.mem_cons_self
      · exact (ih h).imp_right (List.mem_cons_of_mem _)

/-- The controls of a panel are those that it was made of. -/
theorem mem_ofList {control : Control} {controls : List Control}
    (h : control ∈ ofList controls) : control ∈ controls := by
  have hfold : ∀ (controls : List Control) (panel : Panel),
      control ∈ controls.foldl (fun panel control => put control panel) panel →
      control ∈ panel ∨ control ∈ controls := by
    intro controls
    induction controls with
    | nil => exact fun _ h => .inl h
    | cons first rest ih =>
      intro panel h
      rcases ih _ h with hput | hrest
      · rcases mem_put hput with rfl | hpanel
        · exact .inr List.mem_cons_self
        · exact .inl hpanel
      · exact .inr (List.mem_cons_of_mem _ hrest)
  exact (hfold controls [] h).resolve_left List.not_mem_nil

end Panel

namespace Session

/-- What the game of a deck starts with. -/
structure Builds (deck : Deck) (settings : Settings) (generator : Generator) (game : Game) :
    Prop where
  store : game.store = deck.declarations.foldl (fun store d => store.define d.name d.value d.max)
    { epsilon := settings.epsilon }
  epsilon : game.store.epsilon = settings.epsilon
  settings : game.settings = settings
  catalog : game.catalog = (Catalog.ofTemplates deck.templates generator).1
  generator : game.generator = (Catalog.ofTemplates deck.templates generator).2
  panel : game.panel = Panel.ofList deck.buttons
  scheduler : game.scheduler = {}

variable {deck : Deck} {settings : Settings} {generator : Generator} {game start : Game}

theorem epsilon_declare (game : Game) (declarations : List Declaration) :
    (declare game declarations).store.epsilon = game.store.epsilon := by
  have hfold : ∀ (declarations : List Declaration) (store : Store),
      (declarations.foldl (fun store d => store.define d.name d.value d.max) store).epsilon =
        store.epsilon := by
    intro declarations
    induction declarations with
    | nil => exact fun _ => rfl
    | cons d declarations ih =>
      intro store
      have hdefine : (store.define d.name d.value d.max).epsilon = store.epsilon := by
        unfold Store.define
        dsimp only
        split <;> rfl
      exact (ih _).trans hdefine
  exact hfold declarations game.store

theorem builds_of_buildGame (built : buildGame deck settings generator = .ok game) :
    Builds deck settings generator game := by
  unfold buildGame at built
  dsimp only at built
  split at built
  next =>
    rcases hlimit : (Diagnostics.withLimit settings.diagnosticsLimit).mapError BuildError.fault
      with error | diagnostics
    · rw [hlimit] at built
      cases built
    · rw [hlimit] at built
      cases built
      exact ⟨rfl, epsilon_declare .., rfl, rfl, rfl, rfl, rfl⟩
  next => cases built

/-- Only a deck without errors is built. -/
theorem errors_of_buildGame (built : buildGame deck settings generator = .ok game) :
    deck.findings.errors = [] := by
  unfold buildGame at built
  dsimp only at built
  split at built
  next herrors => exact List.isEmpty_iff.mp herrors
  next => cases built

/-- With the default limit for diagnostics a game is built from every deck without errors. -/
theorem exists_buildGame_of_limit (generator : Generator) (h : deck.findings.errors = [])
    (hlimit : settings.diagnosticsLimit = ({} : Settings).diagnosticsLimit) :
    ∃ game, buildGame deck settings generator = .ok game := by
  rw [buildGame, h, hlimit]
  exact ⟨_, rfl⟩

/-- With the default settings a game is built from every deck without errors. -/
theorem exists_buildGame (generator : Generator) (h : deck.findings.errors = []) :
    ∃ game, buildGame deck {} generator = .ok game :=
  exists_buildGame_of_limit generator h rfl

/-- The cards of a new game are copies of the templates of its deck; a key beyond them has an empty
card. -/
theorem card_of_builds (built : Builds deck settings generator start) (key : Nat) :
    start.catalog.card key = { name := "", copy := 0 } ∨
      ∃ template ∈ deck.templates, ∃ copy, start.catalog.card key = .ofTemplate template copy := by
  have hcards : start.catalog.cards = (deck.templates.flatMap Template.cards).toArray := by
    rw [built.catalog]
    rfl
  rw [Catalog.card, hcards, Array.getD_eq_getD_getElem?, List.getElem?_toArray]
  rcases hcard : (deck.templates.flatMap Template.cards)[key]? with _ | card
  · exact .inl rfl
  · obtain ⟨template, htemplate, hcard⟩ := List.mem_flatMap.mp (List.mem_of_getElem? hcard)
    obtain ⟨copy, -, rfl⟩ := List.mem_map.mp hcard
    exact .inr ⟨template, htemplate, _, rfl⟩

/-- What is so of a blank condition and of the conditions of all events is so of those of all cards. -/
theorem condition_of_builds {P : String → Prop} (built : Builds deck settings generator start)
    (hnone : P "") (hdeck : ∀ event ∈ deck.events, P event.condition) (key : Nat) :
    P (start.catalog.card key).condition := by
  rcases card_of_builds built key with hempty | ⟨template, htemplate, copy, hcard⟩
  · rw [hempty]
    exact hnone
  · obtain ⟨event, hevent, rfl⟩ := List.mem_map.mp htemplate
    rw [hcard]
    exact hdeck event hevent

/-- The actions of a card are actions of an event of the deck. -/
theorem mem_actions_of_builds (built : Builds deck settings generator start) {key : Nat}
    {action : Action} (h : action ∈ (start.catalog.card key).actions) :
    ∃ event ∈ deck.events, action ∈ event.actions := by
  rcases card_of_builds built key with hempty | ⟨template, htemplate, copy, hcard⟩
  · rw [hempty] at h
    exact absurd h List.not_mem_nil
  · rw [hcard] at h
    obtain ⟨event, hevent, rfl⟩ := List.mem_map.mp htemplate
    exact ⟨event, hevent, h⟩

end Session

end EventDeck
