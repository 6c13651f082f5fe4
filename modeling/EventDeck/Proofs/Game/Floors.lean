import EventDeck.Proofs.Game.Forms

/-!
# Numbers without a floor

A random call draws a number between its bounds and takes the floor of it.  Between bounds that are
infinite, or so far apart that their distance is infinite, it may draw a number that has no floor, and
then the evaluation of the text ends in a fault (`Bottomless`, `Sinks`).

Whatever else is wrong with a text or with the values in it is reported; the result is zero or false and
nothing is written, whatever doubles are stored and whatever is drawn.  The main statement is
`evaluation_concludes`.
-/

namespace EventDeck

open Game EventDeck.Expr Text Decimal

namespace Decimal

/-- The finite doubles are those with a floor. -/
theorem exists_floor_eq_error_iff (x : Float) :
    (∃ fault, floor x = .error fault) ↔ isFinite x = false := by
  unfold floor isFinite
  rcases Binary.ofFloat x with _ | _ | _ <;> simp

theorem isFinite_of_floor {x : Float} {n : Int} (h : floor x = .ok n) : isFinite x = true := by
  by_contra hnot
  obtain ⟨fault, hfault⟩ := (exists_floor_eq_error_iff x).2 (Bool.eq_false_iff.2 hnot)
  cases h.symm.trans hfault

end Decimal

namespace Game

variable {α β : Type} {game : Game} {names : List Char → List Char} {tell : Tell} {s : Statement}

/-! ## Drawn numbers -/

/-- The number whose floor takes the place of a random call, and the generator afterwards. -/
def drawn (names : List Char → List Char) (call : CellCall) (generator : Generator) :
    Except ExprError (Float × Generator) := do
  let low ← evaluateNumber .evaluating (render names call.low)
  let high ← evaluateNumber .evaluating (render names call.high)
  return drawBetween low high generator

/-- A call with a bad bound fails before anything is drawn. -/
theorem run_drawCall_of_error {call : CellCall} {e : ExprError}
    (h : drawn names call game.generator = .error e) :
    (drawCall (call.render names)).run.run.run game = (.ok (.error e), game) := by
  unfold drawn at h
  unfold drawCall CellCall.render
  cases hlow : evaluateNumber .evaluating (render names call.low) with
  | error e' =>
    rw [hlow] at h
    cases h
    rw [attempt_bind_failed (attempt_except _ game)]
  | ok low =>
    rw [hlow] at h
    rw [attempt_bind_ok (attempt_except _ game)]
    cases hhigh : evaluateNumber .evaluating (render names call.high) with
    | error e' =>
      rw [hhigh] at h
      cases h
      rw [attempt_bind_failed (attempt_except _ game)]
    | ok high =>
      rw [hhigh] at h
      cases h

/-- Otherwise its place is taken by the floor of the number that is drawn. -/
theorem run_drawCall_of_ok {call : CellCall} {x : Float} {generator : Generator}
    (h : drawn names call game.generator = .ok (x, generator)) :
    (drawCall (call.render names)).run.run.run game =
      ((floor x).map fun n => .ok (integer n), { game with generator }) := by
  obtain ⟨low, hlow, h⟩ := bind_eq_ok h
  obtain ⟨high, hhigh, h⟩ := bind_eq_ok h
  have hbetween : drawBetween low high game.generator = (x, generator) := Except.ok.inj h
  have hdraw : (randomBetween low high).run.run game = (floor x, { game with generator }) := by
    rw [run_randomBetween, hbetween]
  rw [drawCall, CellCall.render, hlow, hhigh, attempt_bind_ok (attempt_except _ game),
    attempt_bind_ok (attempt_except _ game), attempt_bind, attempt_lift, hdraw]
  cases floor x <;> rfl

/-- One of the random calls among atoms comes to a number without a floor, once the numbers of the calls
before it are drawn. -/
inductive Bottomless (names : List Char → List Char) (x : Float) : List Atom → Generator → Prop
  | char {c : Char} {atoms : List Atom} {generator : Generator}
      (later : Bottomless names x atoms generator) :
      Bottomless names x (.char c :: atoms) generator
  | name {word : List Char} {atoms : List Atom} {generator : Generator}
      (later : Bottomless names x atoms generator) :
      Bottomless names x (.name word :: atoms) generator
  | drawn {call : CellCall} {y : Float} {atoms : List Atom} {generator next : Generator}
      (hdrawn : drawn names call generator = .ok (y, next)) (hfinite : isFinite y = true)
      (later : Bottomless names x atoms next) : Bottomless names x (.call call :: atoms) generator
  | here {call : CellCall} {atoms : List Atom} {generator next : Generator}
      (hdrawn : drawn names call generator = .ok (x, next)) (hfinite : isFinite x = false) :
      Bottomless names x (.call call :: atoms) generator

section Bottomless

variable {x : Float} {call : CellCall} {atoms : List Atom} {generator : Generator}

theorem bottomless_char_iff {c : Char} :
    Bottomless names x (.char c :: atoms) generator ↔ Bottomless names x atoms generator := by
  refine ⟨fun h => ?_, .char⟩
  cases h
  assumption

theorem bottomless_name_iff {word : List Char} :
    Bottomless names x (.name word :: atoms) generator ↔ Bottomless names x atoms generator := by
  refine ⟨fun h => ?_, .name⟩
  cases h
  assumption

/-- Once the number for a call has a floor, the other calls matter. -/
theorem bottomless_call_iff {y : Float} {next : Generator}
    (hdrawn : drawn names call generator = .ok (y, next)) (hfinite : isFinite y = true) :
    Bottomless names x (.call call :: atoms) generator ↔ Bottomless names x atoms next := by
  refine ⟨fun h => ?_, .drawn hdrawn hfinite⟩
  cases h with
  | drawn hok _ later =>
    cases hdrawn.symm.trans hok
    exact later
  | here hok hinfinite =>
    cases hdrawn.symm.trans hok
    cases hfinite.symm.trans hinfinite

/-- A call with a bad bound has no number. -/
theorem not_bottomless_of_error {e : ExprError} (h : drawn names call generator = .error e) :
    ¬Bottomless names x (.call call :: atoms) generator := by
  rintro (_ | _ | ⟨hok, -, -⟩ | ⟨hok, -⟩) <;> cases h.symm.trans hok

end Bottomless

/-! ## Settling -/

/-- At most one value has been written, and to the target. -/
def Written (target : Option (List Char)) (store after : Store) : Prop :=
  after = store ∨ ∃ text name x write,
    target = some text ∧ targetName text = .ok name ∧ store.write name x = .ok (after, write)

/-- How an attempt ends that may come to a number without a floor, and that may write to a target in the
end.  Nothing is written where there is no value. -/
inductive Settles (bottomless : Float → Prop) (target : Option (List Char)) (store : Store) :
    Except Fault (Except ExprError α) × Game → Prop
  | value {a : α} {after : Game} (grounded : ∀ x, ¬bottomless x)
      (hwritten : Written target store after.store) :
      Settles bottomless target store (.ok (.ok a), after)
  | failure {e : ExprError} {after : Game} (grounded : ∀ x, ¬bottomless x)
      (hstore : after.store = store) : Settles bottomless target store (.ok (.error e), after)
  | breaks {x : Float} {fault : Fault} {after : Game} (hx : bottomless x)
      (hfloor : floor x = .error fault) (hstore : after.store = store) :
      Settles bottomless target store (.error fault, after)
  | intolerant {after : Game} (grounded : ∀ x, ¬bottomless x) (htarget : target.isSome)
      (hepsilon : store.epsilon < 0) (hstore : after.store = store) :
      Settles bottomless target store (.error .negativeTolerance, after)

section Settles

variable {bottomless other : Float → Prop} {target : Option (List Char)} {store : Store}
  {result : Except Fault (Except ExprError α) × Game}

theorem Settles.congr (h : Settles bottomless target store result)
    (hiff : ∀ x, bottomless x ↔ other x) : Settles other target store result := by
  have hsame : bottomless = other := funext fun x => propext (hiff x)
  exact hsame ▸ h

/-- What follows a part that only reads writes at the end. -/
theorem Settles.bind {x : Attempt β} {f : β → Attempt α}
    (h : Settles bottomless none store (x.run.run.run game))
    (hf : ∀ b after, after.store = store →
      Settles (fun _ => False) target store ((f b).run.run.run after)) :
    Settles bottomless target store ((x >>= f).run.run.run game) := by
  rw [attempt_bind]
  generalize x.run.run.run game = ending at h
  cases h with
  | @value b after grounded hwritten =>
    -- without a target nothing can have been written so far
    have hstore : after.store = store := by
      rcases hwritten with hsame | ⟨_, _, _, _, hnone, -⟩
      · exact hsame
      · cases hnone
    dsimp only
    generalize hrest : (f b).run.run.run after = ending
    have hsettles := hf b after hstore
    rw [hrest] at hsettles
    cases hsettles with
    | value _ hwritten => exact .value grounded hwritten
    | failure _ hlater => exact .failure grounded hlater
    | breaks hx => exact hx.elim
    | intolerant _ htarget hepsilon hlater => exact .intolerant grounded htarget hepsilon hlater
  | failure grounded hstore => exact .failure grounded hstore
  | breaks hx hfloor hstore => exact .breaks hx hfloor hstore
  | intolerant _ hnone => cases hnone

/-- A part that neither reads nor writes. -/
theorem settles_except_bind {x : Except ExprError β} {f : β → Attempt α}
    (hstore : game.store = store)
    (hf : ∀ b, x = .ok b → Settles (fun _ => False) target store ((f b).run.run.run game)) :
    Settles (fun _ => False) target store ((liftM x >>= f : Attempt α).run.run.run game) := by
  cases x with
  | error e =>
    rw [attempt_bind_failed (attempt_except _ game)]
    exact .failure (fun _ h => h) hstore
  | ok b =>
    rw [attempt_bind_ok (attempt_except _ game)]
    exact hf b rfl

theorem settles_pure (a : α) (hstore : game.store = store) :
    Settles (fun _ => False) target store ((pure a : Attempt α).run.run.run game) :=
  .value (fun _ h => h) (.inl hstore)

/-- A write to the target. -/
theorem settles_setVariable {text : List Char} {name : String} (x : Float)
    (hquiet : ∀ name, store.observersOf name = []) (hstore : game.store = store)
    (htarget : target = some text) (hname : targetName text = .ok name) :
    Settles (fun _ => False) target store
      ((liftM (setVariable tell name x) : Attempt Float).run.run.run game) := by
  subst hstore
  rw [attempt_setVariable tell name x hquiet]
  cases hwrite : game.store.write name x with
  | ok written =>
    obtain ⟨store, write⟩ := written
    exact .value (fun _ h => h) (.inr ⟨text, name, x, write, htarget, hname, hwrite⟩)
  | error fault =>
    obtain ⟨rfl, hepsilon⟩ := Store.write_eq_error hwrite
    exact .intolerant (fun _ h => h) (htarget ▸ rfl) hepsilon rfl

end Settles

/-! ## Expressions -/

/-- What is pasted for atoms. -/
theorem settles_replace (atoms : List Atom) (game : Game) :
    Settles (Bottomless names · atoms game.generator) none game.store
      ((atoms.mapM (Atom.replace names drawCall)).run.run.run game) := by
  induction atoms generalizing game with
  | nil => exact .value (fun _ h => nomatch h) (.inl rfl)
  | cons atom atoms ih =>
    rw [List.mapM_cons]
    -- a text that stands before what is pasted for the others
    have hothers : ∀ (text : List Char) (game : Game),
        Settles (Bottomless names · atoms game.generator) none game.store
          ((do return text :: (← atoms.mapM (Atom.replace names drawCall)) :
            Attempt (List (List Char))).run.run.run game) :=
      fun text game => (ih game).bind fun _ _ => settles_pure _
    cases atom with
    | char c => exact (hothers [c] game).congr fun _ => bottomless_char_iff.symm
    | name word => exact (hothers (names word) game).congr fun _ => bottomless_name_iff.symm
    | call call =>
      change Settles _ none _ ((drawCall (call.render names) >>= _ : Attempt _).run.run.run game)
      cases hdrawn : drawn names call game.generator with
      | error e =>
        rw [attempt_bind_failed (run_drawCall_of_error hdrawn)]
        exact .failure (fun _ => not_bottomless_of_error hdrawn) rfl
      | ok number =>
        obtain ⟨y, next⟩ := number
        have hrun := run_drawCall_of_ok hdrawn
        cases hfloor : floor y with
        | error fault =>
          rw [hfloor] at hrun
          rw [attempt_bind, hrun]
          have hfinite : isFinite y = false := (exists_floor_eq_error_iff y).1 ⟨fault, hfloor⟩
          exact .breaks (.here hdrawn hfinite) hfloor rfl
        | ok n =>
          rw [hfloor] at hrun
          rw [attempt_bind_ok hrun]
          have hfinite : isFinite y = true := isFinite_of_floor hfloor
          exact (hothers (integer n) { game with generator := next }).congr fun _ =>
            (bottomless_call_iff hdrawn hfinite).symm

theorem settles_evaluateValue (text : List Char) (game : Game) :
    Settles (Bottomless (storedNames game.store) · (pieces text) game.generator) none game.store
      ((evaluateValue text).run.run.run game) := by
  obtain ⟨diagnostics, hsubstitute⟩ := run_substitute text game
  rw [evaluateValue, attempt_bind_ok (attempt_lift_ok hsubstitute), replaceRandoms_render (keepsCalls_storedNames _),
    bind_map_left]
  refine (settles_replace (pieces text) { game with diagnostics }).bind fun texts after hstore => ?_
  rw [attempt_except]
  cases evaluateText .evaluating texts.flatten with
  | error e => exact .failure (fun _ h => h) hstore
  | ok v => exact .value (fun _ h => h) (.inl hstore)

/-! ## Statements -/

/-- What a statement evaluates comes to a number without a floor.  A target that is no name keeps it
from being evaluated. -/
def Sinks (s : Statement) (game : Game) (x : Float) : Prop :=
  (∀ target, target? s = some target → ∃ name, targetName target = .ok name) ∧
    ∃ body wanted, evaluated? s = some (body, wanted) ∧
      Bottomless (storedNames game.store) x (pieces body) game.generator

/-- An expression has no target. -/
theorem named_expression (body : List Char) : ∀ target, target? (.expression body) = some target →
    ∃ name, targetName target = .ok name := by
  rintro _ ⟨⟩

theorem sinks_iff {body : List Char} {wanted : Kind → Prop} {x : Float}
    (htarget : ∀ target, target? s = some target → ∃ name, targetName target = .ok name)
    (hbody : evaluated? s = some (body, wanted)) :
    Sinks s game x ↔ Bottomless (storedNames game.store) x (pieces body) game.generator := by
  constructor
  · rintro ⟨-, other, _, hother, hx⟩
    cases hbody.symm.trans hother
    exact hx
  · exact fun hx => ⟨htarget, body, wanted, hbody, hx⟩

/-- What a statement does with the value of its expression. -/
theorem settles_of_evaluated {body : List Char} {wanted : Kind → Prop} {f : Value → Attempt α}
    (htarget : ∀ target, target? s = some target → ∃ name, targetName target = .ok name)
    (hbody : evaluated? s = some (body, wanted))
    (hf : ∀ v after, after.store = game.store →
      Settles (fun _ => False) (target? s) game.store ((f v).run.run.run after)) :
    Settles (Sinks s game) (target? s) game.store ((evaluateValue body >>= f).run.run.run game) :=
  ((settles_evaluateValue body game).bind hf).congr fun _ => (sinks_iff htarget hbody).symm

/-- A target that is no name is the first thing that is found wrong. -/
theorem settles_of_target {target : List Char} {f : String → Attempt α}
    (htarget : target? s = some target)
    (hf : ∀ name, targetName target = .ok name →
      Settles (Sinks s game) (target? s) game.store ((f name).run.run.run game)) :
    Settles (Sinks s game) (target? s) game.store
      ((liftM (targetName target) >>= f : Attempt α).run.run.run game) := by
  cases hname : targetName target with
  | error e =>
    rw [attempt_bind_failed (attempt_except _ game)]
    refine .failure ?_ rfl
    rintro x ⟨hnamed, -⟩
    obtain ⟨name, hok⟩ := hnamed target htarget
    cases hname.symm.trans hok
  | ok name =>
    rw [attempt_bind_ok (attempt_except _ game)]
    exact hf name hname

theorem settles_evaluateStatement (tell : Tell) (text : List Char)
    (hquiet : ∀ name, game.store.observersOf name = []) :
    Settles (Sinks (.ofText text) game) (target? (.ofText text)) game.store
      ((evaluateStatement tell text).run.run.run game) := by
  have hnamed : ∀ {target name}, targetName target = .ok name →
      ∀ other, some target = some other → ∃ name, targetName other = .ok name := by
    rintro target name hname _ ⟨⟩
    exact ⟨name, hname⟩
  rw [evaluateStatement]
  cases Statement.ofText text with
  | expression body =>
    exact settles_of_evaluated (named_expression body) rfl fun _ _ => settles_pure _
  | step up target =>
    refine settles_of_target rfl fun name hname => ?_
    rw [attempt_bind_ok (attempt_lift_ok (run_startingValue name game))]
    -- a step evaluates nothing, so there is nothing to draw
    refine (settles_setVariable _ hquiet rfl rfl hname).congr fun x => ⟨False.elim, ?_⟩
    rintro ⟨-, _, _, hbody, -⟩
    cases hbody
  | update operation target body =>
    refine settles_of_target rfl fun name hname => ?_
    rw [attempt_bind_ok (attempt_lift_ok (run_startingValue name game))]
    refine settles_of_evaluated (hnamed hname) rfl fun v after hstore => ?_
    refine settles_except_bind hstore fun y _ => settles_except_bind hstore fun z _ => ?_
    exact settles_setVariable z hquiet hstore rfl hname
  | assignment target body =>
    refine settles_of_target rfl fun name hname => ?_
    refine settles_of_evaluated (hnamed hname) rfl fun v after hstore => ?_
    exact settles_except_bind hstore fun x _ => settles_setVariable x hquiet hstore rfl hname

theorem settles_conditionAttempt (text : List Char) (game : Game) :
    Settles (Sinks (.expression text) game) none game.store
      ((conditionAttempt text).run.run.run game) :=
  settles_of_evaluated (named_expression text) rfl fun _ _ => settles_pure _

/-! ## Effects and conditions -/

/-- How the evaluation of a text ends.  Whatever is wrong with it is reported, and then nothing is
written; a fault comes from a number without a floor or from a negative tolerance. -/
inductive Concludes (s : Statement) (text : List Char) (otherwise : α) (attempt : Attempt α)
    (game : Game) : Except Fault α × Game → Prop
  | value {a : α} {after : Game} (grounded : ∀ x, ¬Sinks s game x)
      (hrun : attempt.run.run.run game = (.ok (.ok a), after))
      (hwritten : Written (target? s) game.store after.store) :
      Concludes s text otherwise attempt game (.ok a, after)
  | reported {e : ExprError} {after : Game} (grounded : ∀ x, ¬Sinks s game x)
      (hrun : attempt.run.run.run game = (.ok (.error e), after))
      (hstore : after.store = game.store) :
      Concludes s text otherwise attempt game (.ok otherwise,
        { after with diagnostics := after.diagnostics.report (malformedReport text e) })
  | sinks {x : Float} {fault : Fault} {after : Game} (hx : Sinks s game x)
      (hfloor : floor x = .error fault) (hrun : attempt.run.run.run game = (.error fault, after))
      (hstore : after.store = game.store) :
      Concludes s text otherwise attempt game (.error fault, after)
  | intolerant {after : Game} (grounded : ∀ x, ¬Sinks s game x) (htarget : (target? s).isSome)
      (hepsilon : game.store.epsilon < 0)
      (hrun : attempt.run.run.run game = (.error .negativeTolerance, after))
      (hstore : after.store = game.store) :
      Concludes s text otherwise attempt game (.error .negativeTolerance, after)

theorem Settles.concludes {attempt : Attempt α}
    (h : Settles (Sinks s game) (target? s) game.store (attempt.run.run.run game))
    (text : List Char) (otherwise : α) :
    Concludes s text otherwise attempt game ((orReport text otherwise attempt).run.run game) := by
  rw [run_orReport]
  generalize hrun : attempt.run.run.run game = ending at h
  cases h with
  | value grounded hwritten => exact .value grounded hrun hwritten
  | failure grounded hstore => exact .reported grounded hrun hstore
  | breaks hx hfloor hstore => exact .sinks hx hfloor hrun hstore
  | intolerant grounded htarget hepsilon hstore =>
    exact .intolerant grounded htarget hepsilon hrun hstore

section Concludes

variable {text : List Char} {otherwise : α} {attempt : Attempt α} {result : Except Fault α × Game}

/-- What is wrong is reported, and nothing is written. -/
theorem Concludes.of_failure {e : ExprError} {after : Game}
    (h : Concludes s text otherwise attempt game result)
    (hfails : attempt.run.run.run game = (.ok (.error e), after)) :
    result = (.ok otherwise,
        { after with diagnostics := after.diagnostics.report (malformedReport text e) }) ∧
      after.store = game.store := by
  cases h with
  | value _ hrun | sinks _ _ hrun | intolerant _ _ _ hrun => cases hrun.symm.trans hfails
  | reported _ hrun hstore =>
    cases hrun.symm.trans hfails
    exact ⟨rfl, hstore⟩

end Concludes

/-- Whatever doubles are stored and whatever is drawn, evaluating an effect or a condition gives a
value or a report of what is wrong, unless a random call comes to a number without a floor or a write is
compared with a negative tolerance. -/
theorem evaluation_concludes (tell : Tell) (text : String) (game : Game)
    (hquiet : ∀ name, game.store.observersOf name = []) :
    Concludes (.ofText (trim text.toList)) (trim text.toList) 0.0
        (evaluateStatement tell (trim text.toList)) game ((evaluate tell text).run.run game) ∧
      Concludes (.expression (trim text.toList)) (trim text.toList) false
        (conditionAttempt (trim text.toList)) game ((evaluateCondition text).run.run game) :=
  ⟨(settles_evaluateStatement tell _ hquiet).concludes _ _,
    (settles_conditionAttempt _ game).concludes _ _⟩

/-- A comparison to which a number is added. -/
def mixedText : String := "(hp > 1) + 2"

/-- It, with a debt in the place of the name. -/
def mixedTree : Tree (List Char) .loosest :=
  let debt : Tree (List Char) (.joined .sum) :=
    .single <| .single <| .sign true <| .unsigned <| .operand ['7', '.', '5']
  let comparison : Tree (List Char) .loosest :=
    .single <| .single <| .plain <|
      .compare (rfl : Operator.comparison? .greater = some .greater) debt (numberTree ['1'])
  .single <| .single <| .plain <| .sum <|
    .join (rfl : Joint.operation? .sum .plus = some .plus)
      (.single <| .single <| .unsigned <| .group comparison)
      (.single <| .unsigned <| .operand ['2'])

theorem run_mixed_debt : ∃ after, (evaluateValue mixedText.toList).run.run.run debtGame =
    (.ok (.error .booleanArithmetic), after) := by
  have hrender : render (storedNames debtGame.store) (cells mixedText.toList) =
      "(-7.5 > 1) + 2".toList := by
    have hcells : cells mixedText.toList =
      .char '(' :: .name ['h', 'p'] :: " > 1) + 2".toList.map .char := by cbv
    rw [hcells]
    decide +kernel
  have htokens : tokenize "(-7.5 > 1) + 2".toList = .ok mixedTree.tokens := by cbv
  have hvalue : ∀ number, mixedTree.value .evaluating number = .error .booleanArithmetic :=
    fun _ => rfl
  have hfree : CallFree mixedText.toList := callFree_of_wordless (by decide)
  have hrun := run_evaluateValue hfree debtGame
  rw [hrender, evaluateText_of_tokenize htokens, hvalue] at hrun
  exact ⟨_, hrun⟩

/-- What is wrong with the text is reported, with zero or false for its value, and nothing is written. -/
theorem debt_concludes :
    (∀ name, debtGame.store.observersOf name = []) ∧
      (∃ after, (evaluate silent mixedText).run.run debtGame = (.ok 0.0, after) ∧
        after.store = debtGame.store) ∧
      ∃ after, (evaluateCondition mixedText).run.run debtGame = (.ok false, after) ∧
        after.store = debtGame.store := by
  have hquiet : ∀ name, debtGame.store.observersOf name = [] := fun _ => rfl
  have htrim : trim mixedText.toList = mixedText.toList := by cbv
  have hstatement : Statement.ofText mixedText.toList = .expression mixedText.toList := by cbv
  obtain ⟨after, hvalue⟩ := run_mixed_debt
  have hstatementFails : (evaluateStatement silent mixedText.toList).run.run.run debtGame =
      (.ok (.error .booleanArithmetic), after) := by
    rw [evaluateStatement, hstatement]
    exact attempt_bind_failed hvalue _
  have hconditionFails : (conditionAttempt mixedText.toList).run.run.run debtGame =
    (.ok (.error .booleanArithmetic), after) := attempt_bind_failed hvalue _
  obtain ⟨heffect, hcondition⟩ := evaluation_concludes silent mixedText debtGame hquiet
  rw [htrim] at heffect hcondition
  exact ⟨hquiet, ⟨_, heffect.of_failure hstatementFails⟩, ⟨_, hcondition.of_failure hconditionFails⟩⟩

/-! ## Bounds too far apart -/

/-- Two numbers whose distance is too large for a number. -/
def vastText : String := "Random(-1e308, 1e308)"

/-- What is drawn in it. -/
def vastCall : CellCall :=
  ⟨"-1e308".toList.map .char, "1e308".toList.map .char⟩

theorem pieces_vast : pieces vastText.toList = [.call vastCall] := by cbv

theorem trim_vast : trim vastText.toList = vastText.toList := by cbv

theorem ofText_vast : Statement.ofText vastText.toList = .expression vastText.toList := by cbv

/-- The lower bound, as a tree. -/
def vastTree : Tree (List Char) .loosest :=
  .single <| .single <| .plain <| .sum <| .single <| .single <|
    .sign true <| .unsigned <| .operand "1e308".toList

/-- The upper bound; the lower one is its opposite. -/
def vastBound : Float :=
  numberOf "1e308".toList

/-- The number that is drawn for the lower end of the unit interval. -/
def vastNumber : Float :=
  -vastBound + 0.0 * (vastBound - -vastBound)

theorem drawn_vast (names : List Char → List Char) :
    drawn names vastCall (.ofScript []) = .ok (vastNumber, .scripted [0.0] []) := by
  have hvalue : ∀ number, vastTree.value .evaluating number =
      .ok (.number (-number "1e308".toList)) := fun _ => rfl
  have htokens : tokenize "-1e308".toList = .ok vastTree.tokens := by cbv
  have hlow : evaluateNumber .evaluating "-1e308".toList = .ok (-vastBound) := by
    rw [evaluateNumber, evaluateText_of_tokenize htokens, hvalue, vastBound]
    -- it does not matter which number it is, and it is too large to be unfolded
    generalize numberOf "1e308".toList = x
    rfl
  have hhigh : evaluateNumber .evaluating "1e308".toList = .ok vastBound :=
    evaluateNumber_literal (by cbv)
  have hapart : ¬vastBound ≤ -vastBound := by decide +kernel
  have hbetween : drawBetween (-vastBound) vastBound (.ofScript []) =
      (vastNumber, .scripted [0.0] []) := by
    rw [drawBetween, if_neg hapart, vastNumber]
    generalize vastBound = x
    rfl
  have hrender : render names vastCall.low = "-1e308".toList ∧
    render names vastCall.high = "1e308".toList := ⟨rfl, rfl⟩
  rw [drawn, hrender.1, hrender.2, hlow, hhigh]
  exact congrArg Except.ok hbetween

theorem sinks_vast : Sinks (.expression vastText.toList) debtGame vastNumber := by
  have hinfinite : isFinite vastNumber = false := by decide +kernel
  refine ⟨named_expression _, _, _, rfl, ?_⟩
  rw [pieces_vast]
  exact .here (drawn_vast _) hinfinite

/-- Finite values and finite bounds do not keep a random call from ending in a fault. -/
theorem vast_sinks :
    Finite debtGame.store ∧ (∀ name, debtGame.store.observersOf name = []) ∧
      (∃ fault, ((evaluate silent vastText).run.run debtGame).1 = .error fault) ∧
      ∃ fault, ((evaluateCondition vastText).run.run debtGame).1 = .error fault := by
  have hquiet : ∀ name, debtGame.store.observersOf name = [] := fun _ => rfl
  have hfault : ∀ {α : Type} {text : List Char} {otherwise : α} {attempt : Attempt α} {result},
      Concludes (.expression vastText.toList) text otherwise attempt debtGame result →
        ∃ fault, result.1 = .error fault := by
    intro α text otherwise attempt result h
    cases h with
    | value grounded | reported grounded => exact absurd sinks_vast (grounded _)
    | sinks | intolerant => exact ⟨_, rfl⟩
  have heffect := settles_evaluateStatement silent vastText.toList hquiet
  have hcondition := settles_conditionAttempt vastText.toList debtGame
  rw [ofText_vast] at heffect
  rw [evaluate, evaluateCondition, trim_vast]
  exact ⟨finite_debtGame, hquiet, hfault (heffect.concludes _ _),
    hfault (hcondition.concludes _ _)⟩

end Game

end EventDeck
