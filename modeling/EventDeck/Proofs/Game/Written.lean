import EventDeck.Proofs.Decimal.Readback
import EventDeck.Proofs.Expr.Pasting
import EventDeck.Proofs.Expr.Written
import EventDeck.Proofs.Game.Run
import EventDeck.Proofs.Store

/-!
# Evaluating written statements

A statement that is written down from a syntax tree is evaluated by pasting the values of variables
into its text and reading the text again.  Here it is shown that this comes to the same as computing
with the tree: `WrittenStatement.effect` says what a statement does with a store, and
`evaluate_text` that its evaluation does exactly that.

The values of the variables have to be finite: then what is pasted for them reads as the same values.
-/

namespace EventDeck.Game

open EventDeck.Expr Text Decimal

/-! ## What a written statement does -/

/-- The number that an operand stands for; an unknown name stands for zero. -/
def meaning (store : Store) : Operand → Float
  | .name n => storedValue store (String.ofList n.text)
  | .literal l => numberOf l.text

/-- What a statement comes to: a value, or one write. -/
inductive Effect
  | value (x : Float)
  | write (name : String) (x : Float)
deriving DecidableEq

/-- The name that an operand is. -/
def Operand.name? : Operand → Option String
  | .name n => some (String.ofList n.text)
  | .literal _ => none

/-- What a statement does with a store, or how it fails. -/
def effect (store : Store) : WrittenStatement → Except ExprError Effect
  | .expression body => do
    let v ← body.value .evaluating (meaning store)
    return .value v.toFloat
  | @WrittenStatement.update _ operation _ target body => do
    let v ← body.value .evaluating (meaning store)
    let name := String.ofList target.text
    return .write name (← combine operation (storedValue store name) (← v.toNumber))
  | .step up target => do
    let name := String.ofList target.text
    let x := storedValue store name
    return .write name (if up then x + 1.0 else x - 1.0)
  | .assignment target body => do
    let v ← body.value .evaluating (meaning store)
    return .write (String.ofList target.text) (← v.toNumber)

/-- The names that the evaluation of a statement reads, in order. -/
def namesRead : WrittenStatement → List String
  | .expression body | .update _ _ body | .assignment _ body =>
    body.operands.filterMap Operand.name?
  | .step _ _ => []

/-- Every value in a store is finite. -/
def Finite (store : Store) : Prop :=
  ∀ v ∈ store.vars, isFinite v.value = true

/-! ## Written values -/

variable {store : Store}

/-- With finite values, unknown names read a finite value as well. -/
theorem isFinite_storedValue (h : Finite store) (name : String) :
    isFinite (storedValue store name) = true := by
  unfold storedValue Store.find?
  cases hfind : store.vars.find? (·.name = name) with
  | none => decide +kernel
  | some v => exact h v (List.mem_of_find?_eq_some hfind)

/-- What is pasted for an operand. -/
def pastedText (store : Store) : Operand → List Char
  | .name n => write (storedValue store (String.ofList n.text))
  | .literal l => l.text

/-- Whether a minus is pasted for an operand. -/
def pastedMinus (store : Store) (o : Operand) : Bool :=
  (takeSign (pastedText store o)).1

/-- What is pasted for an operand, without its minus. -/
def pastedDigits (store : Store) (o : Operand) : List Char :=
  (takeSign (pastedText store o)).2

theorem takeSign_of_isNumber {number : List Char} (h : IsNumber number) :
    takeSign number = (false, number) := by
  rcases number with _ | ⟨c, cs⟩
  · rfl
  · refine takeSign_of_head ?_
    rcases h.head with hdigit | rfl
    · constructor <;> rintro rfl <;> exact absurd hdigit (by decide)
    · decide

/-- What is pasted for an operand is an optional minus and a number, and reads as the meaning of the
operand. -/
theorem pasted_spec (h : Finite store) (o : Operand) :
    pastedText store o = signed (pastedMinus store o) (pastedDigits store o) ∧
      IsNumber (pastedDigits store o) ∧
      meaning store o = if pastedMinus store o then -numberOf (pastedDigits store o)
        else numberOf (pastedDigits store o) := by
  unfold pastedMinus pastedDigits
  rcases o with n | l
  · have hfinite := isFinite_storedValue h (String.ofList n.text)
    -- a finite value is written as an optional minus and a numeral, and reads back as itself
    have hreads := read?_write hfinite
    obtain ⟨negative, body, hwrite, hbody⟩ := exists_write_eq hfinite
    rw [pastedText, meaning]
    generalize storedValue store (String.ofList n.text) = x at hreads hwrite
    rw [hwrite] at hreads ⊢
    have hnumber := hbody.isNumber
    cases negative with
    | false =>
      rw [signed, if_neg (by decide)] at hreads ⊢
      rw [hnumber.read?_eq] at hreads
      rw [takeSign_of_isNumber hnumber]
      exact ⟨rfl, hnumber, (Option.some.inj hreads).symm⟩
    | true =>
      rw [signed, if_pos rfl] at hreads ⊢
      rw [hnumber.read?_minus, hnumber.read?_eq] at hreads
      exact ⟨rfl, hnumber, (Option.some.inj hreads).symm⟩
  · rw [pastedText, meaning, takeSign_of_isNumber l.isNumber]
    exact ⟨rfl, l.isNumber, rfl⟩

/-! ## Reading the words of a tree -/

/-- What the name in a word is replaced by. -/
def pasteName (name : List Char) : Play (List Char) :=
  return write (← valueOf (String.ofList name))

/-- The names among words, in order. -/
def wordNames (words : List Word) : List String :=
  words.filterMap fun
    | .operand o => Operand.name? o
    | .operator _ => none

theorem namesRead_body (body : Tree Operand .loosest) :
    body.operands.filterMap Operand.name? = wordNames body.words := by
  have key : ∀ words : List Word, wordNames words =
      (words.flatMap fun | .operand o => [o] | .operator _ => []).filterMap Operand.name? := by
    intro words
    induction words with
    | nil => rfl
    | cons word words ih =>
      rw [List.flatMap_cons, List.filterMap_append, ← ih, wordNames, List.filterMap_cons]
      rcases word with (n | l) | op <;> rfl
  rw [key, Tree.words, Tree.flatMap_spell]
  rfl

/-- The game after names were read: the unknown ones are reported. -/
def afterNames (names : List String) (game : Game) : Game :=
  { game with diagnostics := names.foldl (afterReading game.store) game.diagnostics }

/-- Every word is replaced by what is pasted for it, and unknown names are reported. -/
theorem run_replace_words (words : List Word) (game : Game) :
    (words.mapM (Word.replace pasteName)).run.run game =
      (.ok (words.map fun
          | .operand o => pastedText game.store o
          | .operator op => op.symbol),
        afterNames (wordNames words) game) := by
  induction words generalizing game with
  | nil => rfl
  | cons word words ih =>
    rw [List.mapM_cons]
    rcases word with (n | l) | op
    · have hname : (pasteName n.text).run.run game = (.ok (pastedText game.store (.name n)),
          afterNames [String.ofList n.text] game) := by
        rw [pasteName, run_bind_ok (run_valueOf _ game)]
        rfl
      rw [Word.replace, run_bind_ok hname, run_bind_ok (ih _)]
      rfl
    · rw [Word.replace, pure_bind, run_bind_ok (ih game)]
      rfl
    · rw [Word.replace, pure_bind, run_bind_ok (ih game)]
      rfl

/-- The line of a tree with the values of its names. -/
def pastedLine (store : Store) (body : Tree Operand .loosest) : List Char :=
  line (body.words.map (Word.pasted (pastedMinus store) (pastedDigits store)))

theorem run_substitute_line (body : Tree Operand .loosest) (game : Game)
    (h : Finite game.store) :
    (substitute (line (WrittenStatement.bodyWords body))).run.run game =
      (.ok (pastedLine game.store body),
        afterNames (body.operands.filterMap Operand.name?) game) := by
  have hpasted : (body.words.map fun
        | .operand o => pastedText game.store o
        | .operator op => op.symbol) =
      body.words.map (Word.pasted (pastedMinus game.store) (pastedDigits game.store)) := by
    refine List.map_congr_left fun word _ => ?_
    rcases word with o | op
    · exact (pasted_spec h o).1
    · rfl
  change (replaceNames pasteName _).run.run game = _
  rw [WrittenStatement.bodyWords, replaceNames_line,
    run_map_ok (run_replace_words body.words game), hpasted, namesRead_body]
  rfl

/-- Numbers in the place of operands begin no random call. -/
theorem not_mem_line_pasted {minus : Operand → Bool} {digits : Operand → List Char}
    (hdigits : ∀ o, IsNumber (digits o)) (words : List Word) :
    'R' ∉ line (words.map (Word.pasted minus digits)) := by
  -- neither numerals nor operators have the letter in them, and between words there are spaces
  have hword : ∀ word : Word, 'R' ∉ word.pasted minus digits := by
    intro word hmem
    rcases word with o | op
    · have hnumber : 'R' ∉ digits o := (hdigits o).not_mem (by decide)
      rw [Word.pasted, signed] at hmem
      split at hmem
      · rcases List.mem_cons.1 hmem with heq | hmem
        · exact absurd heq (by decide)
        · exact hnumber hmem
      · exact hnumber hmem
    · have hsymbol : 'R' ∉ op.symbol := by cases op <;> decide
      exact hsymbol hmem
  have hspaced : ∀ words : List Word, 'R' ∉ spaced (words.map (Word.pasted minus digits)) := by
    intro words hmem
    obtain ⟨text, htext, hmem⟩ := List.mem_flatMap.1 hmem
    obtain ⟨word, -, rfl⟩ := List.mem_map.1 htext
    rcases List.mem_cons.1 hmem with heq | hmem
    · exact absurd heq (by decide)
    · exact hword word hmem
  intro hmem
  rcases words with _ | ⟨word, words⟩
  · cases hmem
  · rw [List.map_cons, line_cons, List.mem_append] at hmem
    exact hmem.elim (hword word) (hspaced words)

/-- Nothing that is pasted begins a random call. -/
theorem not_mem_pastedLine (h : Finite store) (body : Tree Operand .loosest) :
    'R' ∉ pastedLine store body :=
  not_mem_line_pasted (fun o => (pasted_spec h o).2.1) body.words

/-- The value of a written tree is what the tree comes to with the values of its names. -/
theorem run_evaluateValue_line (body : Tree Operand .loosest) (game : Game)
    (h : Finite game.store) :
    (evaluateValue (line (WrittenStatement.bodyWords body))).run.run.run game =
      (.ok (body.value .evaluating (meaning game.store)),
        afterNames (body.operands.filterMap Operand.name?) game) := by
  rw [evaluateValue, attempt_bind_ok (attempt_lift_ok (run_substitute_line body game h)),
    replaceRandoms_of_not_mem (not_mem_pastedLine h body), pure_bind, attempt_except]
  rw [pastedLine, evaluateText_pasted body (fun o _ => (pasted_spec h o).2.1)
    fun o _ => (pasted_spec h o).2.2]

/-! ## Writing -/

theorem run_tellObservers {tell : Tell} {v : Variable} {old : Float} {game : Game}
    (h : game.store.observersOf v.name = []) :
    (tellObservers tell v old).run.run game = (.ok (), game) := by
  change (forIn (game.store.observersOf v.name) PUnit.unit _ >>= _ : Play Unit).run.run game = _
  rw [h]
  rfl

/-- Without observers, a write changes the store and nothing else. -/
theorem run_setVariable (tell : Tell) (name : String) (x : Float) {game : Game}
    (h : ∀ name, game.store.observersOf name = []) :
    (setVariable tell name x).run.run game =
      match game.store.write name x with
      | .ok (store, write) => (.ok (write.value x), { game with store })
      | .error fault => (.error fault, game) := by
  change (liftM (game.store.write name x) >>= _ : Play Float).run.run game = _
  cases hwrite : game.store.write name x with
  | error fault => rfl
  | ok result =>
    obtain ⟨store, write⟩ := result
    have hstore : ∀ name, store.observersOf name = [] := by
      intro other
      rw [Store.observersOf, (Store.writes_of_write hwrite).subscriptions]
      exact h other
    -- only a changed variable is told, and there is nobody to tell
    cases write with
    | created => rfl
    | kept value => rfl
    | changed v old =>
      change (tellObservers tell v old >>= fun _ => pure v.value : Play Float).run.run
        { game with store := store } = _
      rw [run_bind_ok (run_tellObservers (hstore v.name))]
      rfl

/-! ## Statements -/

theorem trim_name (n : VariableName) :
    trim n.text = n.text ∧ trim (n.text ++ [' ']) = n.text := by
  have htrim : trim n.text = n.text :=
    trim_of_not_isBlank fun c hc => isBlank_of_isNameChar (n.isNameChar c hc)
  exact ⟨htrim, (trim_append_space n.text).trans htrim⟩

theorem targetName_of_trim {n : VariableName} {text : List Char} (h : trim text = n.text) :
    targetName text = .ok (String.ofList n.text) := by
  have hidentifier : (isIdentifier n.text && n.text != randomWord) = true := by
    rw [isIdentifier, n.isName, Bool.true_or, Bool.true_and]
    exact bne_iff_ne.2 n.ne_random
  rw [targetName, h, if_pos hidentifier]

/-- The signs of a step are no blanks. -/
theorem trim_append_signs (up : Bool) {front : List Char} (hne : front ≠ [])
    (hhead : ∀ c, front.head? = some c → isBlank c = false) :
    trim (front ++ if up then ['+', '+'] else ['-', '-']) =
      front ++ if up then ['+', '+'] else ['-', '-'] := by
  refine trim_eq_self ?_ ?_
  · intro c hc
    rcases front with _ | ⟨d, ds⟩
    · exact absurd rfl hne
    · exact hhead c hc
  · intro c hc
    rw [List.getLast?_append] at hc
    cases up <;> cases hc <;> decide

/-- The blanks at the ends of a written statement are none. -/
theorem trim_text (s : WrittenStatement) : trim s.text = s.text := by
  have hname : ∀ n : VariableName, n.text ≠ [] ∧ ∀ c ∈ n.text, isBlank c = false := fun n =>
    (Word.operand (.name n)).ne_nil |> fun h => ⟨h, (Word.operand (.name n)).not_isBlank⟩
  -- Each form is a line of words without blanks, except the step, whose signs are written right behind
  -- the name.
  cases s with
  | expression body => exact trim_line (bodyWords_spec body)
  | @update symbol operation known target body =>
    have hsymbol : symbol ≠ [] ∧ ∀ c ∈ symbol, isBlank c = false := by
      simp only [Statement.compounds, List.mem_cons, Prod.mk.injEq, List.not_mem_nil, or_false]
        at known
      have hall : symbol.all (fun c => !isBlank c) = true := by
        rcases known with ⟨rfl, -⟩ | ⟨rfl, -⟩ | ⟨rfl, -⟩ | ⟨rfl, -⟩ <;> rfl
      refine ⟨?_, by simpa using hall⟩
      rcases known with ⟨rfl, -⟩ | ⟨rfl, -⟩ | ⟨rfl, -⟩ | ⟨rfl, -⟩ <;> simp
    refine trim_line ?_
    rintro word (_ | ⟨_, _ | ⟨_, hmem⟩⟩)
    · exact hname target
    · exact hsymbol
    · exact bodyWords_spec body word hmem
  | step up target =>
    exact trim_append_signs up target.ne_nil fun c hc => (hname target).2 c (List.mem_of_head? hc)
  | assignment target body =>
    refine trim_line ?_
    rintro word (_ | ⟨_, _ | ⟨_, hmem⟩⟩)
    · exact hname target
    · refine ⟨by simp, fun c hc => ?_⟩
      rw [List.mem_singleton.1 hc]
      rfl
    · exact bodyWords_spec body word hmem

/-- The same for the attempt that a statement is, before a failure is reported. -/
def attempted (s : WrittenStatement) (game : Game) : Except Fault (Except ExprError Float) × Game :=
  let read := afterNames (namesRead s) game
  match effect game.store s with
  | .error e => (.ok (.error e), read)
  | .ok (.value x) => (.ok (.ok x), read)
  | .ok (.write name x) =>
    match game.store.write name x with
    | .ok (store, write) => (.ok (.ok (write.value x)), { read with store })
    | .error fault => (.error fault, read)

theorem attempt_setVariable (tell : Tell) (name : String) (x : Float) {game : Game}
    (h : ∀ name, game.store.observersOf name = []) :
    (liftM (setVariable tell name x) : Attempt Float).run.run.run game =
      match game.store.write name x with
      | .ok (store, write) => (.ok (.ok (write.value x)), { game with store })
      | .error fault => (.error fault, game) := by
  rw [attempt_lift, run_setVariable tell name x h]
  cases game.store.write name x <;> rfl

theorem observersOf_afterNames {game : Game} (h : ∀ name, game.store.observersOf name = [])
    (names : List String) : ∀ name, (afterNames names game).store.observersOf name = [] := h

theorem attempt_number (x : Float) (game : Game) :
    (liftM (Value.number x).toNumber : Attempt Float).run.run.run game = (.ok (.ok x), game) := rfl

/-- A name that is written down is found where a statement looks for its target. -/
theorem attempt_targetName {n : VariableName} {text : List Char} (h : trim text = n.text)
    (game : Game) : (liftM (targetName text) : Attempt String).run.run.run game =
      (.ok (.ok (String.ofList n.text)), game) := by
  rw [attempt_except, targetName_of_trim h]

section Forms

variable (tell : Tell) {game : Game}

theorem run_evaluateStatement_expression (body : Tree Operand .loosest) (h : Finite game.store) :
    (evaluateStatement tell (WrittenStatement.expression body).text).run.run.run game =
      attempted (.expression body) game := by
  have hbody := run_evaluateValue_line body game h
  rw [evaluateStatement, ofText_text]
  change (evaluateValue (line (WrittenStatement.bodyWords body)) >>= _).run.run.run game = _
  rw [attempted, effect]
  cases hvalue : body.value .evaluating (meaning game.store) with
  | error e =>
    rw [hvalue] at hbody
    exact attempt_bind_failed hbody _
  | ok v =>
    rw [hvalue] at hbody
    exact attempt_bind_ok hbody _

theorem run_evaluateStatement_update {symbol : List Char} {operation : BinaryOp}
    (known : (symbol, operation) ∈ Statement.compounds) (target : VariableName)
    (body : Tree Operand .loosest) (h : Finite game.store)
    (hobservers : ∀ name, game.store.observersOf name = []) :
    (evaluateStatement tell (WrittenStatement.update known target body).text).run.run.run game =
      attempted (.update known target body) game := by
  have htarget := attempt_targetName (trim_name target).2 game
  have hstart := attempt_lift_ok (run_startingValue (String.ofList target.text) game)
  have hbody := run_evaluateValue_line body game h
  rw [evaluateStatement, ofText_text]
  change ((liftM (targetName (target.text ++ [' '])) : Attempt String) >>= _).run.run.run game = _
  rw [attempt_bind_ok htarget, attempt_bind_ok hstart, attempted, effect]
  -- The value of the body decides: an error, a truth value that is refused, or a number that is
  -- combined with the old one.
  cases hvalue : body.value .evaluating (meaning game.store) with
  | error e =>
    rw [hvalue] at hbody
    exact attempt_bind_failed hbody _
  | ok v =>
    rw [hvalue] at hbody
    rw [attempt_bind_ok hbody]
    cases v with
    | truth b => exact attempt_bind_failed (attempt_except _ _) _
    | number y =>
      rw [attempt_bind_ok (attempt_number y _)]
      cases hcombine : combine operation
          (storedValue game.store (String.ofList target.text)) y with
      | error e =>
        rw [attempt_bind_failed (attempt_except _ _)]
        simp [bind, Except.bind, Value.toNumber, hcombine, namesRead]
      | ok z =>
        rw [attempt_bind_ok (attempt_except (.ok z) _),
          attempt_setVariable tell _ z (observersOf_afterNames hobservers _)]
        simp [bind, Except.bind, Value.toNumber, hcombine, namesRead]
        rfl

theorem run_evaluateStatement_step (up : Bool) (target : VariableName)
    (hobservers : ∀ name, game.store.observersOf name = []) :
    (evaluateStatement tell (WrittenStatement.step up target).text).run.run.run game =
      attempted (.step up target) game := by
  have htarget := attempt_targetName (trim_name target).1 game
  have hstart := attempt_lift_ok (run_startingValue (String.ofList target.text) game)
  rw [evaluateStatement, ofText_text]
  change ((liftM (targetName target.text) : Attempt String) >>= _).run.run.run game = _
  rw [attempt_bind_ok htarget, attempt_bind_ok hstart, attempt_setVariable tell _ _ hobservers]
  rfl

theorem run_evaluateStatement_assignment (target : VariableName) (body : Tree Operand .loosest)
    (h : Finite game.store) (hobservers : ∀ name, game.store.observersOf name = []) :
    (evaluateStatement tell (WrittenStatement.assignment target body).text).run.run.run game =
      attempted (.assignment target body) game := by
  have htarget := attempt_targetName (trim_name target).2 game
  have hbody := run_evaluateValue_line body game h
  rw [evaluateStatement, ofText_text]
  change ((liftM (targetName (target.text ++ [' '])) : Attempt String) >>= _).run.run.run game = _
  rw [attempt_bind_ok htarget, attempted, effect]
  cases hvalue : body.value .evaluating (meaning game.store) with
  | error e =>
    rw [hvalue] at hbody
    exact attempt_bind_failed hbody _
  | ok v =>
    rw [hvalue] at hbody
    rw [attempt_bind_ok hbody]
    cases v with
    | truth b => exact attempt_bind_failed (attempt_except _ _) _
    | number y =>
      rw [attempt_bind_ok (attempt_number y _),
        attempt_setVariable tell _ y (observersOf_afterNames hobservers _)]
      rfl

end Forms

theorem run_evaluateStatement_text (tell : Tell) (s : WrittenStatement) {game : Game}
    (h : Finite game.store) (hobservers : ∀ name, game.store.observersOf name = []) :
    (evaluateStatement tell s.text).run.run.run game = attempted s game := by
  cases s with
  | expression body => exact run_evaluateStatement_expression tell body h
  | update known target body => exact run_evaluateStatement_update tell known target body h hobservers
  | step up target => exact run_evaluateStatement_step tell up target hobservers
  | assignment target body => exact run_evaluateStatement_assignment tell target body h hobservers

/-- A game with one variable in debt. -/
def debtGame : Game :=
  { Game.empty {} ⟨none, [], 0, 0⟩ (.ofScript []) with
    store := { epsilon := 0.0, vars := [{ name := "hp", value := -7.5 }] } }

end EventDeck.Game
