import EventDeck.Proofs.Expr.Lexemes
import EventDeck.Proofs.Game.Conditions
import EventDeck.Proofs.Game.RandomBounds

/-!
# Comparisons of expressions

A condition can compare two expressions.  The orderings are those of the exact values, but two values
count as equal when they are close to each other.  So the orderings and the equality agree with each
other exactly when values that are close are the same.

The main statement is `comparisons_coherent`.
-/

namespace EventDeck

open Game EventDeck.Expr Text Decimal

/-! ## Comparisons of numbers -/

namespace Expr

variable {x y : Float}

/-- Finite doubles are compared as their values; only equality is not, since it has a tolerance. -/
theorem holds_less_iff (hx : isFinite x = true) (hy : isFinite y = true) :
    Comparison.less.holds x y = true ↔ rational x < rational y :=
  decide_eq_true_iff.trans (lt_iff_rational hx hy)

theorem holds_greater_iff (hx : isFinite x = true) (hy : isFinite y = true) :
    Comparison.greater.holds x y = true ↔ rational y < rational x :=
  holds_less_iff hy hx

theorem holds_lessEqual_iff (hx : isFinite x = true) (hy : isFinite y = true) :
    Comparison.lessEqual.holds x y = true ↔ rational x ≤ rational y :=
  decide_eq_true_iff.trans (le_iff_rational hx hy)

theorem holds_greaterEqual_iff (hx : isFinite x = true) (hy : isFinite y = true) :
    Comparison.greaterEqual.holds x y = true ↔ rational y ≤ rational x :=
  holds_lessEqual_iff hy hx

/-- Inequality is the negation of equality, tolerance included. -/
theorem holds_unequal_iff :
    Comparison.unequal.holds x y = true ↔ ¬ Comparison.equal.holds x y = true := by
  rw [Comparison.holds, Comparison.holds, Bool.not_eq_true, Bool.not_eq_true']

/-- Doubles with the same value are equal. -/
theorem holds_equal_of_rational (hx : isFinite x = true) (hy : isFinite y = true)
    (h : rational x = rational y) : Comparison.equal.holds x y = true := by
  rw [Comparison.holds, Tolerance.equates, if_pos ((beq_iff_rational hx hy).2 h)]

/-! ## Expressions that are compared -/

namespace Tree

/-- A tree is written like a sum with a number as its value. -/
def IsSum {level : Level} (tree : Tree (List Char) level) (x : Float) : Prop :=
  ∃ terms : Tree (List Char) (.joined .sum), tree.tokens = terms.tokens ∧
    terms.value .evaluating numberOf = .ok (.number x)

/-- A tree whose value is a number has a sum at its bottom: nothing in it negates, compares or joins
truth values. -/
theorem isSum_comparison {tree : Tree (List Char) .comparison}
    (h : tree.value .evaluating numberOf = .ok (.number x)) : tree.IsSum x := by
  cases tree with
  | sum terms => exact ⟨terms, rfl, h⟩
  | compare known left right =>
    obtain ⟨a, b, -, -, hvalue⟩ := value_compare_eq_ok_iff.1 h
    obtain ⟨_, _, -, -, htruth⟩ := comparison_eq_ok_iff.1 hvalue
    cases htruth

theorem isSum_negation {tree : Tree (List Char) .negation}
    (h : tree.value .evaluating numberOf = .ok (.number x)) : tree.IsSum x := by
  cases tree with
  | plain inner =>
    have hinner : inner.IsSum x := isSum_comparison h
    exact hinner
  | not inner =>
    obtain ⟨a, -, htruth⟩ := value_not_eq_ok_iff.1 h
    cases htruth

/-- Logic does not give numbers. -/
theorem value_join_ne_number {joint : Joint} {op : Operator} {operation : BinaryOp}
    {known : joint.operation? op = some operation} {left : Tree (List Char) (.joined joint)}
    {right : Tree (List Char) joint.operand} (hjoint : joint = .disjunction ∨ joint = .conjunction) :
    (join known left right).value .evaluating numberOf ≠ .ok (.number x) := by
  intro h
  obtain ⟨a, b, -, -, happly⟩ := value_join_eq_ok_iff.1 h
  clear h
  rcases hjoint with rfl | rfl <;> cases op <;> cases known <;> cases happly

theorem isSum_conjunction {tree : Tree (List Char) (.joined .conjunction)}
    (h : tree.value .evaluating numberOf = .ok (.number x)) : tree.IsSum x := by
  cases tree with
  | single inner =>
    have hinner : IsSum inner x := isSum_negation h
    exact hinner
  | join known left right => exact absurd h (value_join_ne_number (.inr rfl))

/-- An expression with a number as its value is a sum. -/
theorem isSum_of_number {tree : Tree (List Char) .loosest}
    (h : tree.value .evaluating numberOf = .ok (.number x)) : tree.IsSum x := by
  cases tree with
  | single inner =>
    have hinner : IsSum inner x := isSum_conjunction h
    exact hinner
  | join known left right => exact absurd h (value_join_ne_number (.inl rfl))

end Tree

/-- Two expressions with a comparison between them, and a space on either side of it. -/
def comparedText (a : List Char) (op : Operator) (b : List Char) : List Char :=
  a ++ ' ' :: (op.symbol ++ ' ' :: b)

/-- The tokens of a comparison are those of its sides with the operator between. -/
theorem tokenize_comparedText {a b : List Char} {left right : List Token}
    (ha : tokenize a = .ok left) (hb : tokenize b = .ok right) (op : Operator) :
    tokenize (comparedText a op b) = .ok (left ++ .operator op :: right) := by
  have hspace : isBlank ' ' = true := by decide
  have hop : tokenize (op.symbol ++ ' ' :: b) = .ok (.operator op :: right) := by
    rw [tokenize_symbol_append fun _ => by simp, tokenize_cons_of_isBlank hspace, hb]
    rfl
  exact tokenize_eq_ok_iff.2 ((tokenize_eq_ok_iff.1 ha).append hspace (tokenize_eq_ok_iff.1 hop))

/-- What is evaluated to a number is spelled as a sum. -/
theorem evaluateText_eq_number_iff {text : List Char} :
    evaluateText .evaluating text = .ok (.number x) ↔
      ∃ terms : Tree (List Char) (.joined .sum), tokenize text = .ok terms.tokens ∧
        terms.value .evaluating numberOf = .ok (.number x) := by
  constructor
  · intro h
    obtain ⟨tree, htokens, hvalue⟩ := exists_tree_of_evaluateText h
    obtain ⟨terms, hterms, hnumber⟩ := Tree.isSum_of_number hvalue
    exact ⟨terms, by rw [htokens, hterms], hnumber⟩
  · rintro ⟨terms, htokens, hnumber⟩
    let tree : Tree (List Char) .loosest := .single (.single (.plain (.sum terms)))
    have htree : tokenize text = .ok tree.tokens := htokens
    rw [evaluateText_of_tokenize htree]
    exact hnumber

/-- Numbers with a comparison between them are compared. -/
theorem evaluateText_compared {a b : List Char} {op : Operator} {comparison : Comparison}
    (known : op.comparison? = some comparison)
    (ha : evaluateText .evaluating a = .ok (.number x))
    (hb : evaluateText .evaluating b = .ok (.number y)) :
    evaluateText .evaluating (comparedText a op b) = .ok (.truth (comparison.holds x y)) := by
  obtain ⟨left, hleft, hx⟩ := evaluateText_eq_number_iff.1 ha
  obtain ⟨right, hright, hy⟩ := evaluateText_eq_number_iff.1 hb
  let tree : Tree (List Char) .loosest := .single (.single (.plain (.compare known left right)))
  have htree : tokenize (comparedText a op b) = .ok tree.tokens :=
    tokenize_comparedText hleft hright op
  have hvalue : (Tree.compare known left right).value .evaluating numberOf =
      .ok (.truth (comparison.holds x y)) :=
    Tree.value_compare_eq_ok_iff.2 ⟨_, _, hx, hy, rfl⟩
  rw [evaluateText_of_tokenize htree]
  exact hvalue

theorem evaluateText_eq_ok_iff {text : List Char} {v : Value} :
    evaluateText .evaluating text = .ok v ↔
      ∃ tokens, tokenize text = .ok tokens ∧ evaluateTokens .evaluating tokens = .ok v := by
  rw [evaluateText]
  constructor
  · exact bind_eq_ok
  · rintro ⟨tokens, htokens, hvalue⟩
    rw [htokens]
    exact hvalue

/-- Blanks around a text do not change its value. -/
theorem evaluateText_trim {text : List Char} {v : Value} :
    evaluateText .evaluating (trim text) = .ok v ↔ evaluateText .evaluating text = .ok v := by
  rw [evaluateText_eq_ok_iff, evaluateText_eq_ok_iff]
  exact exists_congr fun tokens => and_congr_left fun _ => tokenize_trim_eq_ok_iff

theorem cells_chars_append {chars : List Char} (h : ∀ c ∈ chars, isNameChar c = false)
    (rest : List Char) : cells (chars ++ rest) = chars.map .char ++ cells rest := by
  induction chars with
  | nil => rfl
  | cons c cs ih =>
    obtain ⟨hc, hcs⟩ := List.forall_mem_cons.1 h
    rw [List.cons_append, cells_cons hc, ih hcs]
    rfl

/-- A comparison has no part in the names around it. -/
theorem render_cells_comparedText (f : List Char → List Char) (a b : List Char) (op : Operator) :
    render f (cells (comparedText a op b)) =
      comparedText (render f (cells a)) op (render f (cells b)) := by
  have hsymbol : ∀ c ∈ op.symbol, isNameChar c = false := by
    have hall : op.symbol.all (fun c => !isNameChar c) = true := by cases op <;> decide
    simpa using hall
  have happend : ∀ first second, render f (first ++ second) = render f first ++ render f second :=
    fun _ _ => List.flatMap_append
  rw [comparedText, cells_append_cons a (by decide), cells_chars_append hsymbol,
    cells_cons (by decide), happend, render_cons, render_chars_append, render_cons]
  rfl

end Expr

namespace Game

variable {game : Game} {a b : String} {x y : Float}

/-- A text without random calls that is an expression with a finite number as its value. -/
structure IsNumeric (game : Game) (text : String) (x : Float) : Prop where
  callFree : CallFree (trim text.toList)
  value : ∃ after, (evaluateValue (trim text.toList)).run.run.run game = (.ok (.ok (.number x)), after)
  isFinite : isFinite x = true

namespace IsNumeric

variable {text : String}

theorem evaluateText_eq (h : IsNumeric game text x) :
    evaluateText .evaluating (render (storedNames game.store) (cells text.toList)) =
      .ok (.number x) := by
  obtain ⟨after, hvalue⟩ := h.value
  rw [run_evaluateValue h.callFree game] at hvalue
  have htrim : trim (render (storedNames game.store) (cells text.toList)) =
      render (storedNames game.store) (cells (trim text.toList)) := trim_render_cells _ _
  rw [← evaluateText_trim, htrim]
  exact Except.ok.inj (congrArg Prod.fst hvalue)

/-- A comma would be left in the text when its names are replaced. -/
theorem commaless (h : IsNumeric game text x) : ',' ∉ text.toList := by
  intro hmem
  obtain ⟨tree, htokens, -⟩ := exists_tree_of_evaluateText h.evaluateText_eq
  have hcomma : ',' ∈ (render (storedNames game.store) (cells text.toList)).filter (!isBlank ·) :=
    List.mem_filter.2 ⟨mem_render_cells hmem (by decide) _, by decide⟩
  rw [filter_of_tokenize htokens] at hcomma
  obtain ⟨token, htoken, hchar⟩ := List.mem_flatMap.1 hcomma
  cases token with
  | number number => exact (isNumber_of_mem_tokenize htokens htoken).not_mem (by decide) hchar
  | operator op =>
    have hop : ',' ∉ op.symbol := by cases op <;> decide
    exact hop hchar

end IsNumeric

/-- A condition that compares two expressions. -/
def compared (a : String) (op : Operator) (b : String) : String :=
  a ++ " " ++ String.ofList op.symbol ++ " " ++ b

theorem toList_compared (a : String) (op : Operator) (b : String) :
    (compared a op b).toList = comparedText a.toList op b.toList := by
  simp [compared, comparedText]

/-- A condition is true. -/
def Holds (game : Game) (condition : String) : Prop :=
  ((evaluateCondition condition).run.run game).1 = .ok true

/-- A comparison of two expressions is a comparison of their values, and the unknown names in them are
reported. -/
theorem run_evaluateCondition_compared (ha : IsNumeric game a x) (hb : IsNumeric game b y)
    {op : Operator} {comparison : Comparison} (known : op.comparison? = some comparison) :
    (evaluateCondition (compared a op b)).run.run game =
      (.ok (comparison.holds x y), afterNames (namesIn (trim (compared a op b).toList)) game) := by
  have hcomma : ',' ∉ (compared a op b).toList := by
    have hop : ',' ∉ op.symbol := by cases op <;> decide
    rw [toList_compared, comparedText]
    simp [ha.commaless, hb.commaless, hop]
  have hcallFree : CallFree (trim (compared a op b).toList) :=
    callFree_of_commaless fun hmem => hcomma ((infix_trim _).subset hmem)
  have htrim : trim (render (storedNames game.store) (cells (compared a op b).toList)) =
      render (storedNames game.store) (cells (trim (compared a op b).toList)) := trim_render_cells _ _
  have htruth := evaluateText_compared known ha.evaluateText_eq hb.evaluateText_eq
  rw [← render_cells_comparedText, ← toList_compared, ← evaluateText_trim, htrim] at htruth
  exact run_evaluateCondition_of_value hcallFree htruth

/-- A comparison of numeric texts holds as its operator holds for their values. -/
theorem holds_compared_iff (ha : IsNumeric game a x) (hb : IsNumeric game b y) {op : Operator}
    {comparison : Comparison} (known : op.comparison? = some comparison) :
    Holds game (compared a op b) ↔ comparison.holds x y = true := by
  rw [Holds, run_evaluateCondition_compared ha hb known]
  exact ⟨Except.ok.inj, congrArg Except.ok⟩

/-- The comparisons of two expressions agree with each other: exactly one of less, equal and greater is
true, and the others are made of these. -/
structure Coherent (game : Game) (a b : String) : Prop where
  total : Holds game (compared a .less b) ∨ Holds game (compared a .equal b) ∨
    Holds game (compared a .greater b)
  less_equal : ¬ (Holds game (compared a .less b) ∧ Holds game (compared a .equal b))
  less_greater : ¬ (Holds game (compared a .less b) ∧ Holds game (compared a .greater b))
  equal_greater : ¬ (Holds game (compared a .equal b) ∧ Holds game (compared a .greater b))
  lessEqual : Holds game (compared a .lessEqual b) ↔
    Holds game (compared a .less b) ∨ Holds game (compared a .equal b)
  greaterEqual : Holds game (compared a .greaterEqual b) ↔
    Holds game (compared a .greater b) ∨ Holds game (compared a .equal b)
  unequal : Holds game (compared a .unequal b) ↔ ¬ Holds game (compared a .equal b)

/-- What the comparisons say about the values of two expressions. -/
structure Compares (game : Game) (a b : String) (x y : Float) : Prop where
  less : Holds game (compared a .less b) ↔ rational x < rational y
  greater : Holds game (compared a .greater b) ↔ rational y < rational x
  lessEqual : Holds game (compared a .lessEqual b) ↔ rational x ≤ rational y
  greaterEqual : Holds game (compared a .greaterEqual b) ↔ rational y ≤ rational x
  equal : Holds game (compared a .equal b) ↔ Tolerance.comparison.equates x y = true
  unequal : Holds game (compared a .unequal b) ↔ ¬ Holds game (compared a .equal b)
  equal_of_eq : rational x = rational y → Holds game (compared a .equal b)

/-- All six operators on one pair of texts. -/
theorem compares_of_isNumeric (ha : IsNumeric game a x) (hb : IsNumeric game b y) :
    Compares game a b x y := by
  have hholds : ∀ op comparison, op.comparison? = some comparison →
      (Holds game (compared a op b) ↔ comparison.holds x y = true) := fun _ _ known =>
    holds_compared_iff ha hb known
  have hequal := hholds .equal .equal rfl
  exact
    { less := (hholds .less .less rfl).trans (holds_less_iff ha.isFinite hb.isFinite)
      greater := (hholds .greater .greater rfl).trans (holds_greater_iff ha.isFinite hb.isFinite)
      lessEqual :=
        (hholds .lessEqual .lessEqual rfl).trans (holds_lessEqual_iff ha.isFinite hb.isFinite)
      greaterEqual :=
        (hholds .greaterEqual .greaterEqual rfl).trans (holds_greaterEqual_iff ha.isFinite hb.isFinite)
      equal := hequal
      unequal := (hholds .unequal .unequal rfl).trans (holds_unequal_iff.trans (not_congr hequal.symm))
      equal_of_eq := fun h => hequal.2 (holds_equal_of_rational ha.isFinite hb.isFinite h) }

/-- The comparisons agree with each other unless the values are close without being the same. -/
theorem Compares.coherent_iff (h : Compares game a b x y) :
    Coherent game a b ↔ (Holds game (compared a .equal b) → rational x = rational y) := by
  constructor
  · intro hcoherent hequal
    rcases lt_trichotomy (rational x) (rational y) with hlt | heq | hgt
    · exact absurd ⟨h.less.2 hlt, hequal⟩ hcoherent.less_equal
    · exact heq
    · exact absurd ⟨hequal, h.greater.2 hgt⟩ hcoherent.equal_greater
  · intro hsame
    have hequal : Holds game (compared a .equal b) ↔ rational x = rational y :=
      ⟨hsame, h.equal_of_eq⟩
    refine ⟨?_, ?_, ?_, ?_, ?_, ?_, h.unequal⟩
    · rw [h.less, hequal, h.greater]
      exact lt_trichotomy _ _
    · rw [h.less, hequal]
      exact fun hboth => hboth.1.ne hboth.2
    · rw [h.less, h.greater]
      exact fun hboth => hboth.1.asymm hboth.2
    · rw [h.greater, hequal]
      exact fun hboth => hboth.2.ne' hboth.1
    · rw [h.lessEqual, h.less, hequal, le_iff_lt_or_eq]
    · rw [h.greaterEqual, h.greater, hequal, le_iff_lt_or_eq, eq_comm]

/-- Comparisons of numeric expressions have a truth value, and change nothing but that unknown names are
reported.  The orderings are those of the exact values, and equality is closeness, which the same values
have.  The comparisons agree with each other exactly when the values are not close without being the
same. -/
theorem comparisons_coherent (ha : IsNumeric game a x) (hb : IsNumeric game b y) :
    (∀ op comparison, op.comparison? = some comparison → ∃ truth,
      (evaluateCondition (compared a op b)).run.run game =
        (.ok truth, afterNames (namesIn (trim (compared a op b).toList)) game)) ∧
    Compares game a b x y ∧
    (Coherent game a b ↔ (Holds game (compared a .equal b) → rational x = rational y)) := by
  have hcompares := compares_of_isNumeric ha hb
  refine ⟨fun op comparison known => ⟨comparison.holds x y, ?_⟩, hcompares, hcompares.coherent_iff⟩
  exact run_evaluateCondition_compared ha hb known

/-! ## Values that are close -/

/-- What may stand in a call as a bound may be compared too. -/
theorem IsBound.isNumeric {text : String} (h : IsBound game text x) : IsNumeric game text x where
  callFree := callFree_of_commaless fun hmem => h.commaless ((infix_trim _).subset hmem)
  value := h.value
  isFinite := h.isFinite

/-- The numbers of the texts `0.1`, `0.2` and `0.3`. -/
def tenth : Float := numberOf "0.1".toList

def fifth : Float := numberOf "0.2".toList

def threeTenths : Float := numberOf "0.3".toList

/-- A plus between terms adds. -/
theorem plus_known : Joint.operation? .sum .plus = some .plus := rfl

/-- The sum of two numbers as an expression. -/
def sumTree (first second : List Char) : Tree (List Char) .loosest :=
  .single <| .single <| .plain <| .sum <|
    .join plus_known (numberTree first)
      (.single (.unsigned (.operand second)))

/-- Both sides have values in every game, since they name no variables. -/
theorem isNumeric_sum : IsNumeric debtGame "0.1 + 0.2" (tenth + fifth) :=
  (isBound_of_tokenize (sumTree "0.1".toList "0.2".toList) (by cbv) (by decide) (by cbv) rfl
    (by decide +kernel) debtGame).isNumeric

theorem isNumeric_threeTenths : IsNumeric debtGame "0.3" threeTenths :=
  (isBound_of_tokenize (literalTree "0.3".toList) (by cbv) (by decide) (by cbv) rfl
    (by decide +kernel) debtGame).isNumeric

/-- Comparisons of numbers that are not close agree with each other. -/
theorem comparisons_coherent_apart :
    IsNumeric debtGame "(1)" one ∧ IsNumeric debtGame "3" three ∧
      Compares debtGame "(1)" "3" one three ∧ Coherent debtGame "(1)" "3" := by
  have hone := (isBound_group_one debtGame).isNumeric
  have hthree := (isBound_three debtGame).isNumeric
  obtain ⟨-, hcompares, hcoherent⟩ := comparisons_coherent hone hthree
  have hapart : ¬ Tolerance.comparison.equates one three = true := by decide +kernel
  exact ⟨hone, hthree, hcompares, hcoherent.2 fun hequal => absurd (hcompares.equal.1 hequal) hapart⟩

/-- A rounding error makes a number greater than one that it still counts as equal to. -/
theorem sum_not_coherent :
    (∀ v ∈ debtGame.store.vars, isFinite v.value = true) ∧
      IsNumeric debtGame "0.1 + 0.2" (tenth + fifth) ∧ IsNumeric debtGame "0.3" threeTenths ∧
      Holds debtGame "0.1 + 0.2 == 0.3" ∧ Holds debtGame "0.1 + 0.2 > 0.3" ∧
      ¬ Holds debtGame "0.1 + 0.2 <= 0.3" ∧ ¬ Coherent debtGame "0.1 + 0.2" "0.3" := by
  have hholds : ∀ op comparison, op.comparison? = some comparison →
      (Holds debtGame (compared "0.1 + 0.2" op "0.3") ↔
        comparison.holds (tenth + fifth) threeTenths = true) := fun _ _ known =>
    holds_compared_iff isNumeric_sum isNumeric_threeTenths known
  have hequal := (hholds .equal .equal rfl).2 (by decide +kernel)
  have hgreater := (hholds .greater .greater rfl).2 (by decide +kernel)
  have hlessEqual := mt (hholds .lessEqual .lessEqual rfl).1 (by decide +kernel)
  refine ⟨by decide +kernel, isNumeric_sum, isNumeric_threeTenths, hequal, hgreater, hlessEqual,
    fun hcoherent => ?_⟩
  exact hcoherent.equal_greater ⟨hequal, hgreater⟩

end Game

end EventDeck
