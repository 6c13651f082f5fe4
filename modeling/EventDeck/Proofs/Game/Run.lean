import EventDeck.Game.Evaluation

/-!
# Running requests

A request is run on a game and gives a result and the game afterwards.  What a composed request does
is read off step by step from what its parts do; a part that ends in a fault ends the request, and a
part that fails ends the attempt it belongs to.
-/

namespace EventDeck.Game

open EventDeck.Expr

variable {α β : Type} {game after : Game}

/-! ## Requests -/

/-- A composed request, of a game or of a service. -/
theorem run_bind {σ : Type} (x : ExceptT Fault (StateM σ) α) (f : α → ExceptT Fault (StateM σ) β)
    (state : σ) :
    (x >>= f).run.run state =
      match x.run.run state with
      | (.ok a, after) => (f a).run.run after
      | (.error fault, after) => (.error fault, after) := by
  change (StateT.run (ExceptT.run x >>= ExceptT.bindCont f) state : Id _) = _
  rw [StateT.run_bind]
  rcases h : (x.run.run state : Except Fault α × σ) with ⟨fault | a, after⟩
  · change (match (x.run.run state : Except Fault α × σ) with | (r, g) => _) = _
    rw [h]
    rfl
  · change (match (x.run.run state : Except Fault α × σ) with | (r, g) => _) = _
    rw [h]
    rfl

/-- A composed request goes on with what the first part has come to, and ends with its fault. -/
theorem run_bind_ok {σ : Type} {state after : σ} {x : ExceptT Fault (StateM σ) α} {a : α}
    (hx : x.run.run state = (.ok a, after)) (f : α → ExceptT Fault (StateM σ) β) :
    (x >>= f).run.run state = (f a).run.run after := by
  rw [run_bind, hx]

theorem run_bind_error {x : Play α} {fault : Fault} (hx : x.run.run game = (.error fault, after))
    (f : α → Play β) : (x >>= f).run.run game = (.error fault, after) := by
  rw [run_bind, hx]

/-- A composed request that ends without a fault has two parts that do. -/
theorem exists_run_of_bind {x : Play α} {f : α → Play β} {b : β}
    (hrun : (x >>= f).run.run game = (.ok b, after)) :
    ∃ a between, x.run.run game = (.ok a, between) ∧ (f a).run.run between = (.ok b, after) := by
  rcases hx : x.run.run game with ⟨fault | a, between⟩
  · rw [run_bind_error hx] at hrun
    cases hrun
  · rw [run_bind_ok hx] at hrun
    exact ⟨a, between, rfl, hrun⟩

/-- A request that depends on the state it is run on. -/
theorem run_get_bind {σ : Type} (f : σ → ExceptT Fault (StateM σ) α) (state : σ) :
    (get >>= f).run.run state = (f state).run.run state := rfl

theorem run_map_ok {x : Play α} {a : α} (hx : x.run.run game = (.ok a, after)) (f : α → β) :
    (f <$> x).run.run game = (.ok (f a), after) := by
  rw [map_eq_pure_bind, run_bind_ok hx]
  rfl

/-- A loop in which nothing happens. -/
theorem run_loop {items : List α} {round : α → PUnit → Play (ForInStep PUnit)}
    (hround : ∀ a ∈ items, (round a ⟨⟩).run.run game = (.ok (.yield ⟨⟩), game)) :
    (forIn items ⟨⟩ round).run.run game = (.ok ⟨⟩, game) := by
  induction items with
  | nil => rfl
  | cons a items ih =>
    rw [List.forIn_cons, run_bind_ok (hround a List.mem_cons_self)]
    exact ih fun b hb => hround b (List.mem_cons_of_mem _ hb)

/-! ## Attempts -/

/-- An attempt has three ends: a value, an error and a fault. -/
theorem attempt_bind (x : Attempt α) (f : α → Attempt β) (game : Game) :
    (x >>= f).run.run.run game =
      match x.run.run.run game with
      | (.ok (.ok a), after) => (f a).run.run.run after
      | (.ok (.error e), after) => (.ok (.error e), after)
      | (.error fault, after) => (.error fault, after) := by
  change (x.run >>= ExceptT.bindCont f : Play _).run.run game = _
  rw [run_bind]
  rcases x.run.run.run game with ⟨fault | e | a, after⟩ <;> rfl

theorem attempt_bind_ok {x : Attempt α} {a : α} (hx : x.run.run.run game = (.ok (.ok a), after))
    (f : α → Attempt β) : (x >>= f).run.run.run game = (f a).run.run.run after := by
  rw [attempt_bind, hx]

theorem attempt_bind_failed {x : Attempt α} {e : ExprError}
    (hx : x.run.run.run game = (.ok (.error e), after)) (f : α → Attempt β) :
    (x >>= f).run.run.run game = (.ok (.error e), after) := by
  rw [attempt_bind, hx]

/-- A part that cannot fail. -/
theorem attempt_lift (x : Play α) (game : Game) :
    (liftM x : Attempt α).run.run.run game =
      match x.run.run game with
      | (.ok a, after) => (.ok (.ok a), after)
      | (.error fault, after) => (.error fault, after) := by
  change (x >>= fun a => pure (Except.ok a) : Play _).run.run game = _
  rw [run_bind]
  rcases x.run.run game with ⟨fault | a, after⟩ <;> rfl

theorem attempt_lift_ok {x : Play α} {a : α} (hx : x.run.run game = (.ok a, after)) :
    (liftM x : Attempt α).run.run.run game = (.ok (.ok a), after) := by
  rw [attempt_lift, hx]

/-- A part that does not depend on the game. -/
theorem attempt_except (x : Except ExprError α) (game : Game) :
    (liftM x : Attempt α).run.run.run game = (.ok x, game) := by
  cases x <;> rfl

/-! ## Steps of evaluation -/

/-- The value of a variable as the store has it; zero for an unknown name. -/
def storedValue (store : Store) (name : String) : Float :=
  ((store.find? name).map (·.value)).getD 0.0

/-- What is reported about a name that no variable has. -/
def unboundReport (name : String) : Diagnostic :=
  ⟨.unboundVariable, s!"Variable '{name}' not found, reading 0"⟩

/-- The diagnostics after a name was read: an unknown one is reported. -/
def afterReading (store : Store) (diagnostics : Diagnostics) (name : String) : Diagnostics :=
  if store.has name then diagnostics else diagnostics.report (unboundReport name)

/-- A name that no variable has stands for zero, and is reported. -/
theorem run_valueOf (name : String) (game : Game) :
    (valueOf name).run.run game =
      (.ok (storedValue game.store name),
        { game with diagnostics := afterReading game.store game.diagnostics name }) := by
  rw [valueOf, run_get_bind, storedValue, afterReading, Store.has]
  cases game.store.find? name <;> rfl

theorem run_startingValue (name : String) (game : Game) :
    (startingValue name).run.run game = (.ok (storedValue game.store name), game) := rfl

/-- What is reported about a text that cannot be evaluated. -/
def malformedReport (text : List Char) (e : ExprError) : Diagnostic :=
  ⟨.malformedExpression, s!"Cannot evaluate '{String.ofList text}': {e.message}"⟩

theorem run_orReport {text : List Char} {otherwise : α} {attempt : Attempt α} (game : Game) :
    (orReport text otherwise attempt).run.run game =
      match attempt.run.run.run game with
      | (.ok (.ok a), after) => (.ok a, after)
      | (.ok (.error e), after) =>
        (.ok otherwise,
          { after with diagnostics := after.diagnostics.report (malformedReport text e) })
      | (.error fault, after) => (.error fault, after) := by
  rw [orReport, run_bind]
  rcases attempt.run.run.run game with ⟨fault | e | a, after⟩ <;> rfl

end EventDeck.Game
