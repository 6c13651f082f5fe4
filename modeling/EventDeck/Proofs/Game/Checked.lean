import EventDeck.Proofs.Expr.Chance
import EventDeck.Proofs.Expr.Checked
import EventDeck.Proofs.Game.Written

/-!
# Running accepted texts

A text that the check accepts is run with the values of variables and with drawn numbers.  A sturdy
text has a value of the kind that the check has seen, whatever the values and whatever is drawn,
unless it divides by zero or draws between bounds without a floor.  A text that is not sturdy fails
when every variable in it has the value of the probe.

The main statements are `ends_evaluateValue_of_sturdy` and, for texts that are not sturdy,
`ComesTo.sturdy`.
-/

namespace EventDeck.Game

open EventDeck.Expr Text Decimal

variable {α β : Type} {game : Game}

/-! ## How attempts end -/

/-- What an attempt comes to: a value, a failure or a fault. -/
def EndsWith (good : α → Prop) (wrong : ExprError → Prop) (broken : Fault → Prop)
    (attempt : Attempt α) (game : Game) : Prop :=
  match (attempt.run.run.run game).1 with
  | .ok (.ok a) => good a
  | .ok (.error e) => wrong e
  | .error fault => broken fault

section EndsWith

variable {good : α → Prop} {good' : β → Prop} {wrong : ExprError → Prop} {broken : Fault → Prop}

theorem EndsWith.mono {good' : α → Prop} {wrong' : ExprError → Prop} {broken' : Fault → Prop}
    {x : Attempt α} (h : EndsWith good wrong broken x game) (hgood : ∀ a, good a → good' a)
    (hwrong : ∀ e, wrong e → wrong' e) (hbroken : ∀ fault, broken fault → broken' fault) :
    EndsWith good' wrong' broken' x game := by
  unfold EndsWith at h ⊢
  rcases hrun : x.run.run.run game with ⟨fault | e | a, after⟩
  all_goals rw [hrun] at h
  · exact hbroken fault h
  · exact hwrong e h
  · exact hgood a h

theorem ends_pure {a : α} (h : good a) : EndsWith good wrong broken (pure a : Attempt α) game := h

theorem EndsWith.bind {x : Attempt α} {f : α → Attempt β} (hx : EndsWith good wrong broken x game)
    (hf : ∀ a, good a → ∀ game, EndsWith good' wrong broken (f a) game) :
    EndsWith good' wrong broken (x >>= f) game := by
  unfold EndsWith at hx ⊢
  rw [attempt_bind]
  rcases hrun : x.run.run.run game with ⟨fault | e | a, after⟩
  all_goals rw [hrun] at hx
  · exact hx
  · exact hx
  · exact hf a hx after

/-- A part that does not depend on the game. -/
theorem ends_except {x : Except ExprError α} (hok : ∀ a, x = .ok a → good a)
    (herror : ∀ e, x = .error e → wrong e) :
    EndsWith good wrong broken (liftM x : Attempt α) game := by
  unfold EndsWith
  rw [attempt_except]
  cases x with
  | error e => exact herror e rfl
  | ok a => exact hok a rfl

/-- A part that cannot fail. -/
theorem ends_lift {x : Play α} (hok : ∀ a after, x.run.run game = (.ok a, after) → good a)
    (hfault : ∀ fault after, x.run.run game = (.error fault, after) → broken fault) :
    EndsWith good wrong broken (liftM x : Attempt α) game := by
  unfold EndsWith
  rw [attempt_lift]
  rcases hrun : x.run.run game with ⟨fault | a, after⟩
  · exact hfault fault after hrun
  · exact hok a after hrun

/-- An attempt with a value had its good end. -/
theorem EndsWith.of_ok {x : Attempt α} {a : α} {after : Game} (h : EndsWith good wrong broken x game)
    (hrun : x.run.run.run game = (.ok (.ok a), after)) : good a := by
  unfold EndsWith at h
  rw [hrun] at h
  exact h

/-- An attempt that fails had its wrong end. -/
theorem EndsWith.of_error {x : Attempt α} {e : ExprError} {after : Game}
    (h : EndsWith good wrong broken x game) (hrun : x.run.run.run game = (.ok (.error e), after)) :
    wrong e := by
  unfold EndsWith at h
  rw [hrun] at h
  exact h

end EndsWith

/-! ## Drawn numbers -/

/-- The number that lies between two bounds by the next draw, and the generator afterwards; the lower
bound when there is nothing between them. -/
def drawBetween (low high : Float) (generator : Generator) : Float × Generator :=
  if high ≤ low then (low, generator)
  else
    let (u, later) := generator.uniform
    (low + u * (high - low), later)

theorem run_randomBetween (low high : Float) (game : Game) :
    (randomBetween low high).run.run game =
      (Decimal.floor (drawBetween low high game.generator).1,
        { game with generator := (drawBetween low high game.generator).2 }) := by
  have hfloor : ∀ x (game : Game),
      (liftM (Decimal.floor x) : Play Int).run.run game = (Decimal.floor x, game) := by
    intro x game
    cases Decimal.floor x <;> rfl
  unfold randomBetween drawBetween
  split
  · exact hfloor low game
  · have hdraw : drawUniform.run.run game = (.ok game.generator.uniform.1,
        { game with generator := game.generator.uniform.2 }) := rfl
    rw [run_bind_ok hdraw]
    exact hfloor _ _

variable {wrong : ExprError → Prop} {broken : Fault → Prop}

/-- What takes the place of names in a run. -/
def storedNames (store : Store) (word : List Char) : List Char :=
  write (storedValue store (String.ofList word))

theorem keepsCalls_storedNames (store : Store) : KeepsCalls (storedNames store) :=
  keepsCalls_write fun name => storedValue store (String.ofList name)

theorem Finite.writesNumbers {store : Store} (h : Finite store) :
    WritesNumbers (storedNames store) := fun word =>
  exists_write_eq (isFinite_storedValue h (String.ofList word))

/-- The names of variables in a text, from left to right. -/
def namesIn (text : List Char) : List String :=
  ((runs text).filter isVariableRun).map String.ofList

/-- Names are replaced by what is stored, and the unknown ones are reported. -/
theorem run_substitute_names (text : List Char) (game : Game) :
    (substitute text).run.run game =
      (.ok (render (storedNames game.store) (cells text)), afterNames (namesIn text) game) := by
  -- run by run: the name of a variable is looked up and reported if it is unknown, any other run is
  -- left alone
  have hruns : ∀ (runs : List (List Char)) (game : Game),
      (runs.mapM (replaceRun pasteName)).run.run game =
        (.ok (runs.map fun run => if isVariableRun run then storedNames game.store run else run),
          afterNames ((runs.filter isVariableRun).map String.ofList) game) := by
    intro runs
    induction runs with
    | nil => exact fun game => rfl
    | cons run runs ih =>
      intro game
      rw [List.mapM_cons, replaceRun]
      cases hrun : isVariableRun run with
      | true =>
        have hname : (pasteName run).run.run game =
            (.ok (storedNames game.store run), afterNames [String.ofList run] game) := by
          rw [pasteName, run_bind_ok (run_valueOf _ game)]
          rfl
        rw [if_pos rfl, run_bind_ok hname, run_bind_ok (ih _), List.map_cons, hrun,
          List.filter_cons_of_pos hrun]
        rfl
      | false =>
        rw [if_neg Bool.false_ne_true, pure_bind, run_bind_ok (ih game), List.map_cons, hrun,
          List.filter_cons_of_neg (by simp [hrun])]
        rfl
  change (replaceNames pasteName text).run.run game = _
  rw [replaceNames_eq, run_map_ok (hruns (runs text) game), flatten_runs_render]
  rfl

/-- Only reports are added while names are replaced. -/
theorem run_substitute (text : List Char) (game : Game) : ∃ diagnostics,
    (substitute text).run.run game =
      (.ok (render (storedNames game.store) (cells text)), { game with diagnostics }) :=
  ⟨_, run_substitute_names text game⟩

/-- A store in which words have the value of the probe. -/
def probeStore (words : List (List Char)) : Store where
  epsilon := 0.0
  vars := words.map fun word => { name := String.ofList word, value := probe }

theorem finite_probeStore (words : List (List Char)) : Finite (probeStore words) := by
  intro v hv
  obtain ⟨word, -, rfl⟩ := List.mem_map.1 hv
  change isFinite probe = true
  decide +kernel

/-- The words of the store have the value of the probe. -/
theorem storedNames_probeStore {words : List (List Char)} {word : List Char} (h : word ∈ words) :
    storedNames (probeStore words) word = probeText := by
  have hvalue : storedValue (probeStore words) (String.ofList word) = probe := by
    unfold storedValue Store.find?
    cases hfind : (probeStore words).vars.find? (·.name = String.ofList word) with
    | none =>
      have hnone := List.find?_eq_none.1 hfind _ (List.mem_map_of_mem h)
      exact absurd (decide_eq_true rfl) hnone
    | some v =>
      obtain ⟨other, -, rfl⟩ := List.mem_map.1 (List.mem_of_find?_eq_some hfind)
      rfl
  rw [storedNames, hvalue, write_probe]

end EventDeck.Game
