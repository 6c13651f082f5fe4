import EventDeck.Proofs.Expr.CallText
import EventDeck.Proofs.Expr.Nesting
import EventDeck.Proofs.Game.Between
import EventDeck.Proofs.Game.Floors
import EventDeck.Proofs.Recall

/-!
# Expressions as bounds of random calls

The bounds of a random call are expressions.  The call has the value that is drawn between their values,
and at most one number is drawn for it, whatever the lower bound looks like.  The upper bound is read up
to the first closing parenthesis, so it has no parentheses; one that has some is cut off inside them, and
the call is malformed.  The main statement is `run_evaluate_random`.
-/

namespace EventDeck

open Game EventDeck.Expr Text Decimal

namespace Decimal

variable {x : Float}

/-- The floor of a double has no more digits than the greatest double. -/
theorem length_digitsOf_floor (x : Float) : (digitsOf ⌊rational x⌋.natAbs).length ≤ 310 := by
  have hlength : ∀ k : ℕ, (2 : ℚ) ^ (1024 : ℤ) ≤ 10 ^ (k : ℤ) →
      (digitsOf ⌊rational x⌋.natAbs).length ≤ k + 1 := by
    intro k hk
    have hbound : |rational x| < ((10 ^ k : ℕ) : ℤ) := by
      push_cast
      exact ((abs_rational_le x).trans_lt (sub_lt_self _ (two_zpow_pos _))).trans_le hk
    obtain ⟨hlow, hhigh⟩ := abs_lt.mp hbound
    have habs : |⌊rational x⌋| ≤ ((10 ^ k : ℕ) : ℤ) := by
      refine abs_le.mpr ⟨Int.le_floor.mpr ?_, (Int.floor_lt.mpr hhigh).le⟩
      rw [Int.cast_neg]
      exact hlow.le
    rw [Int.abs_eq_natAbs] at habs
    exact (Nat.length_toDigits_le_iff (by decide) k.succ_pos).2
      ((Int.ofNat_le.mp habs).trans_lt (Nat.pow_lt_pow_right (by decide) k.lt_succ_self))
  exact hlength 309 two_zpow_le_ten_zpow

/-- The floor of a finite number is read back from what is written of it. -/
theorem exists_floor_read (h : isFinite x = true) : ∃ n, floor x = .ok n ∧
    evaluateText .evaluating (integer n) = .ok (.number (Float.ofInt n)) := by
  refine ⟨⌊rational x⌋, floor_eq h, ?_⟩
  obtain ⟨negative, digits, hinteger, hall, hne⟩ := exists_integer_eq ⌊rational x⌋
  have hread := read?_integer (length_digitsOf_floor x)
  rw [hinteger] at hread ⊢
  exact evaluateText_of_read? ⟨_, Stage.follow?_digits hall hne .start, rfl⟩ hread

end Decimal

namespace Game

variable {game : Game} {low high : String} {x y : Float}

/-- A text without commas has no random calls. -/
theorem callFree_of_commaless {text : List Char} (h : ',' ∉ text) : CallFree text :=
  fun _ hcall => h (mem_of_char_mem_cells (comma_mem_of_call_mem hcall))

/-- A text without commas that is an expression with a finite number as its value. -/
structure IsBound (game : Game) (text : String) (x : Float) : Prop where
  commaless : ',' ∉ text.toList
  value : ∃ after, (evaluateValue (trim text.toList)).run.run.run game = (.ok (.ok (.number x)), after)
  isFinite : isFinite x = true

namespace IsBound

variable {text : String}

theorem evaluateText_eq (h : IsBound game text x) :
    evaluateText .evaluating (render (storedNames game.store) (cells (trim text.toList))) =
      .ok (.number x) := by
  have hcallFree : CallFree (trim text.toList) :=
    callFree_of_commaless fun hmem => h.commaless ((infix_trim _).subset hmem)
  obtain ⟨after, hvalue⟩ := h.value
  rw [run_evaluateValue hcallFree game] at hvalue
  exact Except.ok.inj (congrArg Prod.fst hvalue)

theorem toList_ne_nil (h : IsBound game text x) : text.toList ≠ [] := by
  intro hnil
  have hvalue := h.evaluateText_eq
  rw [hnil, evaluateText] at hvalue
  change (tokenize [] >>= _) = _ at hvalue
  rw [tokenize_of_all_isBlank rfl] at hvalue
  cases hvalue

theorem not_equals (h : IsBound game text x) : '=' ∉ text.toList := by
  intro hmem
  have htrim : '=' ∈ (trim text.toList).filter (!isBlank ·) := by
    rw [filter_trim]
    exact List.mem_filter.2 ⟨hmem, by decide⟩
  exact not_equals_of_evaluateText h.evaluateText_eq
    (mem_render_cells (List.mem_of_mem_filter htrim) (by decide) _)

end IsBound

/-- The number that is drawn between finite bounds that are not too far apart is finite. -/
theorem isFinite_drawBetween (hlow : isFinite x = true) (hhigh : isFinite y = true)
    (hdistance : isFinite (y - x) = true) (hu : InUnit game.generator.uniform.1) :
    isFinite (drawBetween x y game.generator).1 = true := by
  rw [drawBetween]
  split
  next => exact hlow
  next hlt =>
    rw [le_iff_rational hhigh hlow, not_le] at hlt
    exact (rational_between hlow hhigh hdistance hlt.le hu).1

/-- The random call with two bounds. -/
def randomText (low high : String) : String :=
  "Random(" ++ low ++ ", " ++ high ++ ")"

theorem toList_randomText (low high : String) :
    (randomText low high).toList = callText low.toList high.toList := by
  simp [randomText, callText, randomWord]

section Run

variable {found : CellCall} {others : List Cell} {e : ExprError}

/-- The call is evaluated as an expression. -/
theorem run_evaluate_callText (tell : Tell) (hlow : IsBound game low x) (hhigh : IsBound game high y) :
    (evaluate tell (randomText low high)).run.run game =
      match (evaluateValue (callText low.toList high.toList)).run.run.run game with
      | (.ok (.ok v), after) => (.ok v.toFloat, after)
      | (.ok (.error e), after) =>
        (.ok 0.0, { after with diagnostics :=
          after.diagnostics.report (malformedReport (callText low.toList high.toList) e) })
      | (.error fault, after) => (.error fault, after) := by
  rw [evaluate, toList_randomText, trim_callText, run_orReport, evaluateStatement,
    ofText_callText hlow.not_equals hhigh.not_equals]
  dsimp only
  rw [attempt_bind]
  rcases (evaluateValue (callText low.toList high.toList)).run.run.run game with
    ⟨fault | e | v, after⟩ <;> rfl

/-- A call at the front of the text is made before what follows it is read. -/
theorem run_evaluateValue_of_call {text : List Char}
    (hcall : cellCall? (cells text) = some (found, others)) :
    (evaluateValue text).run.run.run game = (do
      let number ← drawCall (found.render (storedNames game.store))
      let rest ← replaceRandoms drawCall (render (storedNames game.store) others)
      evaluateText .evaluating (number ++ rest) : Attempt Value).run.run.run
        (afterNames (namesIn text) game) := by
  have hrandom := (keepsCalls_storedNames game.store).calls (cells text)
  rw [hcall] at hrandom
  rw [evaluateValue, attempt_bind_ok (attempt_lift_ok (run_substitute_names text game)),
    replaceRandoms_of_call hrandom]
  simp only [bind_assoc, pure_bind]

/-- A call that is the whole text has the number that is drawn for it as its value. -/
theorem run_evaluateValue_call {text : List Char} {n : ℤ} {z : Float} {later : Generator}
    (hcall : cellCall? (cells text) = some (found, []))
    (hdrawn : drawn (storedNames game.store) found game.generator = .ok (z, later))
    (hfloor : floor z = .ok n)
    (hread : evaluateText .evaluating (integer n) = .ok (.number (Float.ofInt n))) :
    (evaluateValue text).run.run.run game =
      (.ok (.ok (.number (Float.ofInt n))),
        { afterNames (namesIn text) game with generator := later }) := by
  have hrun : (drawCall (found.render (storedNames game.store))).run.run.run
      (afterNames (namesIn text) game) = _ := run_drawCall_of_ok hdrawn
  rw [hfloor] at hrun
  rw [run_evaluateValue_of_call hcall, attempt_bind_ok hrun, render_nil, replaceRandoms, pure_bind,
    List.append_nil, attempt_except, hread]

/-- A call at the front of the text fails when one of its bounds does. -/
theorem run_evaluateValue_call_failed {text : List Char}
    (hcall : cellCall? (cells text) = some (found, others))
    (hdrawn : drawn (storedNames game.store) found game.generator = .error e) :
    (evaluateValue text).run.run.run game = (.ok (.error e), afterNames (namesIn text) game) := by
  have hrun : (drawCall (found.render (storedNames game.store))).run.run.run
      (afterNames (namesIn text) game) = _ := run_drawCall_of_error hdrawn
  rw [run_evaluateValue_of_call hcall, attempt_bind_failed hrun]

end Run

theorem drawn_eq {names : List Char → List Char} {bounds : CellCall} {generator : Generator}
    (hlow : evaluateText .evaluating (render names bounds.low) = .ok (.number x))
    (hhigh : evaluateText .evaluating (render names bounds.high) = .ok (.number y)) :
    drawn names bounds generator = .ok (drawBetween x y generator) := by
  rw [drawn, evaluateNumber_eq_ok_iff.2 hlow, evaluateNumber_eq_ok_iff.2 hhigh]
  rfl

/-- An upper bound that is cut off at a closing parenthesis fails. -/
theorem exists_drawn_error {store : Store} {bounds : List Cell} {front rest : List Char}
    (hlow : evaluateText .evaluating (render (storedNames store) bounds) = .ok (.number x))
    (hhigh : evaluateText .evaluating
      (render (storedNames store) (cells (trim (front ++ ')' :: rest)))) = .ok (.number y))
    (generator : Generator) :
    ∃ e, drawn (storedNames store) ⟨bounds, cells (trim front)⟩ generator = .error e := by
  have htrim : ∀ text, trim (render (storedNames store) (cells text)) =
      render (storedNames store) (cells (trim text)) := trim_render_cells _
  rw [← htrim, cells_append_cons front (by decide), render, List.flatMap_append] at hhigh
  obtain ⟨e, he⟩ := evaluateText_before_closing hhigh
  change evaluateText .evaluating (trim (render _ (cells front))) = .error e at he
  rw [htrim] at he
  refine ⟨e, ?_⟩
  rw [drawn, evaluateNumber_eq_ok_iff.2 hlow]
  change (evaluateNumber .evaluating (render _ (cells (trim front))) >>= _) = _
  rw [evaluateNumber, he]
  rfl

/-- A random call between two expressions has the number between their values as its value, if the upper
one has no closing parenthesis, and at most one number is drawn for it.  If it has one, the call is
malformed. -/
theorem run_evaluate_random (tell : Tell) (hlow : IsBound game low x) (hhigh : IsBound game high y)
    (hdistance : isFinite (y - x) = true) (hu : InUnit game.generator.uniform.1) :
    let text := randomText low high
    let read := afterNames (namesIn text.toList) game
    (')' ∉ high.toList → ∃ n later,
      (later = game.generator ∨ later = game.generator.uniform.2) ∧
      (randomBetween x y).run.run game = (.ok n, { game with generator := later }) ∧
      (evaluate tell text).run.run game = (.ok (Float.ofInt n), { read with generator := later })) ∧
    (')' ∈ high.toList → ∃ e, (evaluate tell text).run.run game =
      (.ok 0.0, { read with
        diagnostics := read.diagnostics.report (malformedReport text.toList e) })) := by
  intro text read
  have htext : text.toList = callText low.toList high.toList := toList_randomText low high
  constructor
  · intro hclosing
    have hcall := cellCall?_whole hlow.toList_ne_nil hlow.commaless hclosing
    obtain ⟨n, hfloor, hread⟩ :=
      exists_floor_read (isFinite_drawBetween hlow.isFinite hhigh.isFinite hdistance hu)
    have hvalue := run_evaluateValue_call hcall (drawn_eq hlow.evaluateText_eq hhigh.evaluateText_eq)
      hfloor hread
    refine ⟨n, (drawBetween x y game.generator).2, ?_, ?_, ?_⟩
    · rw [drawBetween]
      split
      · exact .inl rfl
      · exact .inr rfl
    · rw [run_randomBetween, hfloor]
    · rw [run_evaluate_callText tell hlow hhigh, hvalue, ← htext]
      rfl
  · intro hclosing
    -- the first closing parenthesis ends the bound
    obtain ⟨front, rest, hparts, hfirst⟩ := List.eq_append_cons_of_mem hclosing
    have hbound := hhigh.evaluateText_eq
    rw [hparts] at hbound
    obtain ⟨others, hcall⟩ := cellCall?_cut rest hlow.toList_ne_nil hlow.commaless hfirst
    rw [← hparts] at hcall
    obtain ⟨e, hdrawn⟩ := exists_drawn_error hlow.evaluateText_eq hbound game.generator
    refine ⟨e, ?_⟩
    rw [run_evaluate_callText tell hlow hhigh, run_evaluateValue_call_failed hcall hdrawn, ← htext]

/-! ## Bounds without names -/

/-- A number as an expression. -/
def literalTree (number : List Char) : Tree (List Char) .loosest :=
  .single <| .single <| .plain <| .sum <| numberTree number

/-- An expression in parentheses. -/
def groupTree (tree : Tree (List Char) .loosest) : Tree (List Char) .loosest :=
  .single <| .single <| .plain <| .sum <| .single <| .single <| .unsigned <| .group tree

/-- A text without names is a bound if it has the tokens of a tree with a finite number as its value. -/
theorem isBound_of_tokenize {text : String} (tree : Tree (List Char) .loosest)
    (hcells : cells (trim text.toList) = (trim text.toList).map .char) (hcomma : ',' ∉ text.toList)
    (htokens : tokenize (trim text.toList) = .ok tree.tokens)
    (hvalue : tree.value .evaluating numberOf = .ok (.number x)) (hfinite : isFinite x = true)
    (game : Game) : IsBound game text x where
  commaless := hcomma
  isFinite := hfinite
  value := by
    have hcallFree : CallFree (trim text.toList) :=
      callFree_of_commaless fun hmem => hcomma ((infix_trim _).subset hmem)
    have hrun := run_evaluateValue hcallFree game
    have hrender : render (storedNames game.store) (cells (trim text.toList)) = trim text.toList := by
      rw [hcells, ← List.append_nil (List.map _ _), render_chars_append, render_nil, List.append_nil]
    rw [hrender, evaluateText_of_tokenize htokens, hvalue] at hrun
    exact ⟨_, hrun⟩

/-- The numbers of the texts `1` and `3`. -/
def one : Float := numberOf ['1']

def three : Float := numberOf ['3']

theorem isBound_group_one (game : Game) : IsBound game "(1)" one :=
  isBound_of_tokenize (groupTree (literalTree ['1'])) (by cbv) (by decide) (by cbv) rfl
    (by decide +kernel) game

theorem isBound_three (game : Game) : IsBound game "3" three :=
  isBound_of_tokenize (literalTree ['3']) (by cbv) (by decide) (by cbv) rfl
    (by decide +kernel) game

theorem isBound_group_three (game : Game) : IsBound game "(3)" three :=
  isBound_of_tokenize (groupTree (literalTree ['3'])) (by cbv) (by decide) (by cbv) rfl
    (by decide +kernel) game

theorem inUnit_half : InUnit (chanceGame 0.5).generator.uniform.1 := by
  rw [uniform_chanceGame]
  constructor <;> decide +kernel

theorem isFinite_three_sub_one : Decimal.isFinite (three - one) = true := by decide +kernel

/-- Parentheses around the lower bound do no harm. -/
theorem run_evaluate_random_group :
    IsBound (chanceGame 0.5) "(1)" one ∧ IsBound (chanceGame 0.5) "3" three ∧
      Decimal.isFinite (three - one) = true ∧ InUnit (chanceGame 0.5).generator.uniform.1 ∧
      ∃ n, ((randomBetween one three).run.run (chanceGame 0.5)).1 = .ok n ∧
        ((evaluate silent "Random((1), 3)").run.run (chanceGame 0.5)).1 = .ok (Float.ofInt n) := by
  obtain ⟨n, later, -, hdraw, hrun⟩ := (run_evaluate_random silent
    (isBound_group_one (chanceGame 0.5)) (isBound_three (chanceGame 0.5)) isFinite_three_sub_one
    inUnit_half).1 (by decide)
  refine ⟨isBound_group_one _, isBound_three _, isFinite_three_sub_one, inUnit_half, n, ?_, ?_⟩
  · rw [hdraw]
  · exact congrArg Prod.fst hrun

/-- Parentheses around the upper bound do. -/
theorem random_group_malformed :
    IsBound (chanceGame 0.5) "(1)" one ∧ IsBound (chanceGame 0.5) "(3)" three ∧
      Decimal.isFinite (three - one) = true ∧ InUnit (chanceGame 0.5).generator.uniform.1 ∧
      ((randomBetween one three).run.run (chanceGame 0.5)).1 = .ok 2 ∧
      (evaluate silent "Random((1), (3))").run.run (chanceGame 0.5) =
        (.ok 0.0, { chanceGame 0.5 with
          diagnostics := (chanceGame 0.5).diagnostics.report ⟨.malformedExpression,
            "Cannot evaluate 'Random((1), (3))': missing closing parenthesis"⟩ }) := by
  refine ⟨isBound_group_one _, isBound_group_three _, isFinite_three_sub_one, inUnit_half, ?_, ?_⟩
  · have hapart : ¬three ≤ one := by decide +kernel
    have hfloor : (floor (one + 0.5 * (three - one))).toOption = some 2 := by decide +kernel
    rw [run_randomBetween, drawBetween, if_neg hapart]
    exact ok_of_toOption hfloor
  · have htext : "Random((1), (3))" = randomText "(1)" "(3)" := by decide
    have hcall : cellCall? (cells (callText "(1)".toList "(3)".toList)) =
      some (⟨"(1)".toList.map .char, "(3".toList.map .char⟩, [.char ')']) := by cbv
    have hnames : namesIn (callText "(1)".toList "(3)".toList) = [] := by cbv
    -- the upper bound is cut at the first closing parenthesis, which is its own
    have hdrawn : drawn (storedNames (chanceGame 0.5).store)
        ⟨"(1)".toList.map .char, "(3".toList.map .char⟩ (chanceGame 0.5).generator =
          .error .unclosedParenthesis := by
      have hlow := (isBound_group_one (chanceGame 0.5)).evaluateText_eq
      have hcells : cells (trim "(1)".toList) = "(1)".toList.map .char := by cbv
      have htokens : tokenize "(3".toList = .ok (.operator .opening :: (literalTree ['3']).tokens) := by
        cbv
      have hopening : evaluateText .evaluating "(3".toList = .error .unclosedParenthesis := by
        rw [evaluateText, htokens]
        exact evaluateTokens_opening (v := .number three) rfl
      have hhigh : evaluateNumber .evaluating "(3".toList = .error .unclosedParenthesis := by
        rw [evaluateNumber, hopening]
        rfl
      rw [hcells] at hlow
      rw [drawn, evaluateNumber_eq_ok_iff.2 hlow]
      change (evaluateNumber .evaluating "(3".toList >>= _) = _
      rw [hhigh]
      rfl
    rw [htext, run_evaluate_callText silent (isBound_group_one _) (isBound_group_three _),
      run_evaluateValue_call_failed hcall hdrawn, hnames]
    rfl

end Game

end EventDeck
