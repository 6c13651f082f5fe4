import EventDeck.Proofs.Decimal.Readback
import EventDeck.Proofs.Expr.Chance
import EventDeck.Proofs.Game.Accepted
import EventDeck.Proofs.Values

/-!
# Reading variables by their names

The name of a variable is a text that is evaluated like any other: the value is written in the place
of the name, and what is written is read again.  This gives the value back, bit for bit, whenever it
is finite.  Infinities and not-a-number are written as words, and no expression has words, so a
variable with such a value cannot be read (`Game.run_evaluate_name`).

Effects compute such values out of finite ones.  What can be read after some effects is said by
`Session.recalled_afterInputs`.
-/

namespace EventDeck

open Game EventDeck.Expr Text Decimal

namespace Expr

variable {mode : Mode} {x : Float}

/-- A number has the value that is read from it. -/
theorem evaluateText_of_read? {number : List Char} {negative : Bool} (h : IsNumber number)
    (hread : read? (signed negative number) = some x) :
    evaluateText mode (signed negative number) = .ok (.number x) := by
  rw [evaluateText_signed h]
  cases negative with
  | false =>
    rw [signed, if_neg (by decide), h.read?_eq] at hread
    rw [if_neg (by decide), Option.some.inj hread]
  | true =>
    rw [signed, if_pos rfl, h.read?_minus, h.read?_eq] at hread
    rw [if_pos rfl, ← Option.some.inj hread]

/-- A finite value is the value of what is written of it. -/
theorem evaluateText_write (h : isFinite x = true) :
    evaluateText mode (write x) = .ok (.number x) := by
  obtain ⟨negative, body, hwrite, hbody⟩ := exists_write_eq h
  have hread := read?_write h
  rw [hwrite] at hread ⊢
  exact evaluateText_of_read? hbody.isNumber hread

/-- The word, without a sign, for a value that is not finite. -/
def specialWord (x : Float) : String :=
  match Binary.ofFloat x with
  | .notANumber => "nan"
  | _ => "inf"

/-- A value that is not finite is written as a word, and words are no expressions. -/
theorem evaluateText_write_of_not_finite (h : isFinite x = false) :
    evaluateText mode (write x) = .error (.unexpectedInput (specialWord x)) := by
  have hnan : tokenize ['n', 'a', 'n'] = .error (.unexpectedInput "nan") := by cbv
  have hinf : ∀ negative, tokenize (signed negative ['i', 'n', 'f']) =
      .error (.unexpectedInput "inf") := by
    intro negative
    cases negative <;> cbv
  rw [isFinite] at h
  rw [evaluateText, write, writeWith, specialWord]
  rcases hparts : Binary.ofFloat x with ⟨negative, m, e⟩ | negative | _
  · rw [hparts] at h
    cases h
  · dsimp only
    rw [hinf negative]
    rfl
  · dsimp only
    rw [hnan]
    rfl

end Expr

/-! ## Names -/

namespace Game

variable {game : Game} {v : Variable}

/-- What comes of reading a variable by its name: its value, or a report that it cannot be read. -/
def recalled (name : List Char) (x : Float) (game : Game) : Except Fault Float × Game :=
  if isFinite x then (.ok x, game)
  else
    (.ok 0.0, { game with
      diagnostics :=
        game.diagnostics.report (malformedReport name (.unexpectedInput (specialWord x))) })

/-- A name is an expression. -/
def nameTree (n : VariableName) : Tree Operand .loosest :=
  .single <| .single <| .plain <| .sum <| .single <| .single <| .unsigned <| .operand (.name n)

theorem ofText_name (n : VariableName) : Statement.ofText n.text = .expression n.text := by
  have hline : line (WrittenStatement.bodyWords (nameTree n)) = n.text := by
    change line [n.text] = n.text
    rw [line_cons]
    exact List.append_nil _
  have hform : Statement.ofText (line (WrittenStatement.bodyWords (nameTree n))) =
      .expression (line (WrittenStatement.bodyWords (nameTree n))) := ofText_expression (nameTree n)
  rwa [hline] at hform

/-- A name that is known is replaced by its value, and nothing is reported. -/
theorem run_substitute_name (n : VariableName) (h : game.store.find? (String.ofList n.text) = some v) :
    (substitute n.text).run.run game = (.ok (write v.value), game) := by
  have hname : (pasteName n.text).run.run game = (.ok (write v.value), game) := by
    have hread := run_valueOf (String.ofList n.text) game
    rw [storedValue, afterReading, Store.has, h] at hread
    rw [pasteName, run_bind_ok hread]
    rfl
  have hreplace : replaceNames pasteName ((Word.operand (.name n)).text ++ []) = _ :=
    replaceNames_word _ (apart_spaced [])
  rw [replaceNames_nil] at hreplace
  change (replaceNames pasteName n.text).run.run game = _
  rw [← List.append_nil n.text]
  change (replaceNames pasteName ((Word.operand (.name n)).text ++ [])).run.run game = _
  rw [hreplace, Word.replace, run_bind_ok hname, pure_bind, List.append_nil]
  rfl

/-- A variable is read by its name: a finite value as it is, and any other as a malformed text. -/
theorem run_evaluate_name (tell : Tell) (n : VariableName)
    (h : game.store.find? (String.ofList n.text) = some v) :
    (evaluate tell (String.ofList n.text)).run.run game = recalled n.text v.value game := by
  have hwordless : 'R' ∉ write v.value := (keepsCalls_write fun _ => v.value).first []
  have hbody : (evaluateValue n.text).run.run.run game =
      (.ok (evaluateText .evaluating (write v.value)), game) := by
    rw [evaluateValue, attempt_bind_ok (attempt_lift_ok (run_substitute_name n h)),
      replaceRandoms_of_not_mem hwordless, pure_bind, attempt_except]
  rw [evaluate, String.toList_ofList, (trim_name n).1, run_orReport, evaluateStatement, ofText_name,
    recalled]
  dsimp only
  cases hfinite : isFinite v.value with
  | true =>
    rw [evaluateText_write hfinite] at hbody
    rw [attempt_bind_ok hbody]
    rfl
  | false =>
    rw [evaluateText_write_of_not_finite hfinite] at hbody
    rw [attempt_bind_failed hbody]
    rfl

end Game

/-! ## Where values come from -/

namespace Store

variable {store before after : Store} {v : Variable} {name : String} {x : Float}

/-- What stands for a value in a variable: itself, zero or the maximum. -/
theorem clamp_eq (v : Variable) (x : Float) : v.clamp x = x ∨ v.clamp x = 0.0 ∨ v.clamp x = v.max := by
  rw [Variable.clamp]
  cases v.place x
  · exact .inl rfl
  · exact .inr (.inl rfl)
  · exact .inr (.inr rfl)

/-- Every variable with a value that is not finite owes it to its maximum, or to a number that was
written to it. -/
def Owed (writes : List (String × Float)) (store : Store) : Prop :=
  ∀ name v, store.find? name = some v → isFinite v.value = false →
    isFinite v.max = false ∨ ∃ x, (name, x) ∈ writes ∧ isFinite x = false

theorem Owed.mono {writes more : List (String × Float)} (h : Owed writes store)
    (hsub : writes ⊆ more) : Owed more store := by
  intro name v hfind hvalue
  exact (h name v hfind hvalue).imp_right fun ⟨x, hx, hfinite⟩ => ⟨x, hsub hx, hfinite⟩

theorem Owed.of_write {writes : List (String × Float)} {write : Write} (h : Owed writes store)
    (hwrite : store.write name x = .ok (after, write)) : Owed (writes ++ [(name, x)]) after := by
  have hold := h.mono (List.subset_append_left writes [(name, x)])
  have hnew : (name, x) ∈ writes ++ [(name, x)] := List.mem_append_right _ (List.mem_singleton_self _)
  intro other w hfind hvalue
  -- Only the written variable may be owed to this write: to its number, or to the maximum that it was
  -- clamped to.
  by_cases hother : other = name
  · subst hother
    rw [Store.write] at hwrite
    cases hbefore : store.find? other with
    | none =>
      rw [hbefore] at hwrite
      cases hwrite
      rw [find?, append, List.find?_append, ← find?, hbefore] at hfind
      obtain rfl : { name := other, value := x } = w := by simpa using hfind
      exact .inr ⟨x, hnew, hvalue⟩
    | some v =>
      rw [hbefore] at hwrite
      dsimp only at hwrite
      split at hwrite
      next => cases hwrite
      next =>
        split at hwrite
        next =>
          cases hwrite
          exact hold other w hfind hvalue
        next =>
          cases hwrite
          rw [find?_assign_self hbefore] at hfind
          obtain rfl := Option.some.inj hfind
          change isFinite (v.clamp x) = false at hvalue
          rcases clamp_eq v x with heq | heq | heq
          · exact .inr ⟨x, hnew, heq ▸ hvalue⟩
          · rw [heq, show isFinite 0.0 = true from by decide +kernel] at hvalue
            cases hvalue
          · exact .inl (heq ▸ hvalue)
  · rw [(writes_of_write hwrite).others other hother] at hfind
    exact hold other w hfind hvalue

theorem Owed.of_writeAll {early late : List (String × Float)} (h : Owed early before)
    (hwrites : before.writeAll late = .ok after) : Owed (early ++ late) after := by
  induction late generalizing early before with
  | nil =>
    cases hwrites
    rwa [List.append_nil]
  | cons write late ih =>
    obtain ⟨name, x⟩ := write
    rw [writeAll, List.foldlM_cons] at hwrites
    rcases hwrite : before.write name x with fault | ⟨between, outcome⟩
    · rw [hwrite] at hwrites
      cases hwrites
    · rw [hwrite] at hwrites
      rw [← List.singleton_append, ← List.append_assoc]
      exact ih (h.of_write hwrite) hwrites

theorem owed_of_finite (h : Game.Finite store) : Owed [] store := by
  intro name v hfind hvalue
  rw [h v (List.mem_of_find?_eq_some hfind)] at hvalue
  cases hvalue

end Store

/-! ## After some effects -/

namespace Session

variable {tell : Tell} {start : Game} {v : Variable}

/-- After any effects on finite values, a variable whose name can stand in an expression is read by its
name, with nothing else changed, if its value is finite.  Where a value cannot be read, a number that
is not finite was written to the variable, or its maximum is not finite. -/
theorem recalled_afterInputs
    (htell : ∀ observer change game, Runs Rewrites (tell observer change) game)
    (hfinite : Game.Finite start.store) (texts : List String) (n : VariableName)
    (hfind : (afterInputs tell (texts.map .effect) start).store.find? (String.ofList n.text) = some v) :
    let after := afterInputs tell (texts.map .effect) start
    (evaluate tell (String.ofList n.text)).run.run after = recalled n.text v.value after ∧
      ∃ writes, start.store.writeAll writes = .ok after.store ∧ (isFinite v.value = false →
        isFinite v.max = false ∨ ∃ x, (String.ofList n.text, x) ∈ writes ∧ isFinite x = false) := by
  obtain ⟨writes, hwrites⟩ := rewrites_afterInputs htell (texts.map .effect) start
  have howed := (Store.owed_of_finite hfinite).of_writeAll hwrites
  exact ⟨run_evaluate_name tell n hfind, writes, hwrites, howed _ v hfind⟩

/-- The game in debt after a number was written that is too great for a double. -/
def overflown : Game :=
  afterInputs silent (["x = 1e999"].map .effect) debtGame

/-- The text is that of a statement, and what it does to the debt is nothing. -/
theorem exists_hugeStatement :
    ∃ s : WrittenStatement, String.ofList s.text = "x = 1e999" ∧
      ((storeAfter s debtGame.store).find? "hp").any (fun v => isFinite v.value) = true ∧
      ((storeAfter s debtGame.store).find? "x").any
        (fun v => Binary.ofFloat v.value = .infinite false) = true := by
  let huge : Literal :=
    ⟨.whole ⟨['1'], by decide, by decide⟩,
      some ⟨false, none, ⟨['9', '9', '9'], by decide, by decide⟩⟩⟩
  let body : Tree Operand .loosest :=
    .single <| .single <| .plain <| .sum <| .single <| .single <| .unsigned <|
      .operand (.literal huge)
  refine ⟨.assignment ⟨['x'], by decide, by decide⟩ body, ?_, ?_, ?_⟩ <;> decide +kernel

theorem exists_overflown : ∃ hp x, overflown.store.find? "hp" = some hp ∧ isFinite hp.value = true ∧
    overflown.store.find? "x" = some x ∧ Binary.ofFloat x.value = .infinite false := by
  obtain ⟨s, htext, hhp, hx⟩ := exists_hugeStatement
  have hstore : overflown.store = storeAfter s debtGame.store := by
    rw [← store_evaluate finite_debtGame fun _ => rfl, htext]
    rfl
  rw [← hstore] at hhp hx
  obtain ⟨hp, hfind, hfinite⟩ := (Option.any_eq_true _ _).1 hhp
  obtain ⟨x, hfind', hinfinite⟩ := (Option.any_eq_true _ _).1 hx
  exact ⟨hp, x, hfind, hfinite, hfind', of_decide_eq_true hinfinite⟩

/-- A finite variable reads back also after an infinite one has been written. -/
theorem debt_recalled_overflown :
    (∀ observer change game, Runs Rewrites (silent observer change) game) ∧
      Game.Finite debtGame.store ∧ ∃ v, overflown.store.find? "hp" = some v ∧
        (evaluate silent "hp").run.run overflown = (.ok v.value, overflown) ∧
        ∃ writes, debtGame.store.writeAll writes = .ok overflown.store := by
  obtain ⟨hp, -, hfind, hfinite, -⟩ := exists_overflown
  refine ⟨runs_silent, finite_debtGame, hp, hfind, ?_⟩
  obtain ⟨hrun, writes, hwrites, -⟩ := recalled_afterInputs runs_silent finite_debtGame ["x = 1e999"]
    ⟨['h', 'p'], by decide, by decide⟩ hfind
  rw [recalled, if_pos hfinite] at hrun
  exact ⟨hrun, writes, hwrites⟩

/-- An infinite value is stored, but reading it gives zero and is reported. -/
theorem infinity_not_recalled :
    Game.Finite debtGame.store ∧ ∃ v, overflown.store.find? "x" = some v ∧
      Binary.ofFloat v.value = .infinite false ∧
      (evaluate silent "x").run.run overflown = (.ok 0.0, { overflown with
        diagnostics := overflown.diagnostics.report
          ⟨.malformedExpression, "Cannot evaluate 'x': unexpected input at 'inf'"⟩ }) := by
  obtain ⟨-, x, -, -, hfind, hinfinite⟩ := exists_overflown
  refine ⟨finite_debtGame, x, hfind, hinfinite, ?_⟩
  have hrun := run_evaluate_name silent ⟨['x'], by decide, by decide⟩ hfind
  rw [recalled, isFinite, specialWord, hinfinite] at hrun
  exact hrun

end Session

end EventDeck
