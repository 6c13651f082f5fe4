import EventDeck.Proofs.Expr.Division
import EventDeck.Proofs.Expr.Kinds

/-!
# Parentheses of texts that have a value

In a text that has a value every closing parenthesis closes one that is open, and none is left open
(`closed_of_evaluateText`).  So the part before a closing parenthesis is no text with a value,
though it is the part that is taken when the first one is looked for
(`evaluateText_before_closing`).

A text whose value is a number compares nothing outside of values, so it has no equals sign
(`not_equals_of_evaluateText`).
-/

namespace EventDeck.Expr

open Text

variable {mode : Mode} {text front rest : List Char} {tokens : List Token} {v w : Value}

/-! ## Texts without their blanks -/

/-- Tokens have no blanks in them. -/
theorem Token.not_isBlank {token : Token} (h : ∀ number, token = .number number → IsNumber number) :
    ∀ c ∈ token.text, isBlank c = false := by
  cases token with
  | number number => exact fun c hc => ((h number rfl).isNumberChar c hc).not_isBlank
  | operator op =>
    have hall : op.symbol.all (fun c => !isBlank c) = true := by cases op <;> rfl
    change ∀ c ∈ op.symbol, isBlank c = false
    simpa using hall

theorem filter_dropWhile (text : List Char) :
    (text.dropWhile isBlank).filter (!isBlank ·) = text.filter (!isBlank ·) := by
  induction text with
  | nil => rfl
  | cons c cs ih =>
    cases hc : isBlank c with
    | true => rw [List.dropWhile_cons_of_pos hc, ih, List.filter_cons_of_neg (by simp [hc])]
    | false => rw [List.dropWhile_cons_of_neg (by simp [hc])]

/-- Trimming takes nothing but blanks. -/
theorem filter_trim (text : List Char) :
    (trim text).filter (!isBlank ·) = text.filter (!isBlank ·) := by
  rw [trim, trimBy, List.filter_reverse, filter_dropWhile, List.filter_reverse, List.reverse_reverse,
    filter_dropWhile]

/-- Nothing but blanks is lost when a text is divided into tokens. -/
theorem filter_of_tokenize {text : List Char} {tokens : List Token} (h : tokenize text = .ok tokens) :
    text.filter (!isBlank ·) = tokens.flatMap Token.text := by
  rw [← filter_dropWhile]
  rcases tokenize_eq_ok_cases h with ⟨hblank, rfl⟩ | ⟨token, rest, more, hnext, hmore, rfl⟩
  · rw [filter_dropWhile, List.filter_eq_nil_iff.2 fun c hc => by simp [List.all_eq_true.1 hblank c hc]]
    rfl
  · have hlt := length_lt_of_nextToken? hnext
    have hle : (text.dropWhile isBlank).length ≤ text.length :=
      (List.dropWhile_sublist isBlank).length_le
    have htoken : ∀ c ∈ token.text, isBlank c = false := by
      refine Token.not_isBlank ?_
      rintro number rfl
      exact isNumber_of_nextToken? hnext
    rw [(nextToken?_append hnext).2, List.filter_append, filter_of_tokenize hmore, List.flatMap_cons,
      List.filter_eq_self.2 fun c hc => by rw [htoken c hc]; rfl]
termination_by text.length
decreasing_by exact Nat.lt_of_lt_of_le hlt hle

/-! ## Parentheses -/

/-- How many parentheses are open after a character; none when one is closed that is not open. -/
def openBehind? : Nat → Char → Option Nat
  | depth, '(' => some (depth + 1)
  | 0, ')' => none
  | depth + 1, ')' => some depth
  | depth, _ => some depth

/-- How many parentheses are open after a text, given how many are open before it. -/
def openAfter? (depth : Nat) (text : List Char) : Option Nat :=
  text.foldlM openBehind? depth

/-- What is open behind two texts, one after the other. -/
theorem openAfter?_append (depth : Nat) (front rest : List Char) :
    openAfter? depth (front ++ rest) = (openAfter? depth front).bind (openAfter? · rest) :=
  List.foldlM_append

/-- Only brackets open and close. -/
theorem openBehind?_of_ne {c : Char} (h : c ≠ '(' ∧ c ≠ ')') (depth : Nat) :
    openBehind? depth c = some depth := by
  unfold openBehind?
  split
  · exact absurd rfl h.1
  · exact absurd rfl h.2
  · exact absurd rfl h.2
  · rfl

/-- Blanks do not matter to the brackets. -/
theorem openAfter?_filter (depth : Nat) (text : List Char) :
    openAfter? depth (text.filter (!isBlank ·)) = openAfter? depth text := by
  induction text generalizing depth with
  | nil => rfl
  | cons c cs ih =>
    cases hc : isBlank c with
    | true =>
      have hne : c ≠ '(' ∧ c ≠ ')' := by constructor <;> rintro rfl <;> exact absurd hc (by decide)
      rw [List.filter_cons_of_neg (by simp [hc]), ih, openAfter?, openAfter?, List.foldlM_cons,
        openBehind?_of_ne hne]
      rfl
    | false =>
      rw [List.filter_cons_of_pos (by simp [hc]), openAfter?, openAfter?, List.foldlM_cons,
        List.foldlM_cons]
      exact congrArg (openBehind? depth c).bind (funext fun depth => ih depth)

/-- A text closes as many parentheses as it opens, and only such as are open. -/
def Closed (text : List Char) : Prop :=
  ∀ depth, openAfter? depth text = some depth

theorem closed_of_not_mem (hopening : '(' ∉ text) (hclosing : ')' ∉ text) : Closed text := by
  intro depth
  induction text with
  | nil => rfl
  | cons c cs ih =>
    rw [List.mem_cons, not_or] at hopening hclosing
    rw [openAfter?, List.foldlM_cons, openBehind?_of_ne ⟨Ne.symm hopening.1, Ne.symm hclosing.1⟩]
    exact ih hopening.2 hclosing.2

/-- Closed texts, one after the other. -/
theorem Closed.append (hfront : Closed front) (hrest : Closed rest) : Closed (front ++ rest) := by
  intro depth
  rw [openAfter?_append, hfront depth]
  exact hrest depth

/-- A closed text in brackets. -/
theorem Closed.group (h : Closed text) : Closed ('(' :: (text ++ [')'])) := by
  intro depth
  change openAfter? (depth + 1) (text ++ [')']) = _
  rw [openAfter?_append, h (depth + 1)]
  rfl

/-- There are no brackets in numerals, nor in operators other than the brackets. -/
theorem IsNumber.closed {number : List Char} (h : IsNumber number) : Closed number :=
  closed_of_not_mem (h.not_mem (by decide)) (h.not_mem (by decide))

theorem Operator.closed {op : Operator} (hopening : op ≠ .opening) (hclosing : op ≠ .closing) :
    Closed op.symbol := by
  cases op with
  | opening => exact absurd rfl hopening
  | closing => exact absurd rfl hclosing
  | _ => exact closed_of_not_mem (by decide) (by decide)

/-- The tokens of a tree close what they open. -/
theorem Tree.closed {level : Level} (tree : Tree (List Char) level)
    (h : ∀ number, .number number ∈ tree.tokens → IsNumber number) :
    Closed (tree.tokens.flatMap Token.text) := by
  -- an operator between two parts of a tree is no parenthesis
  have hjoin : ∀ (left : List Token) {right : List Token} {op : Operator}, op ≠ .opening →
      op ≠ .closing → Closed (left.flatMap Token.text) → Closed (right.flatMap Token.text) →
      Closed ((left ++ .operator op :: right).flatMap Token.text) := by
    intro left right op hopening hclosing hleft hright
    rw [List.flatMap_append]
    exact hleft.append ((op.closed hopening hclosing).append hright)
  induction tree with
  | operand number =>
    change Closed (number ++ [])
    rw [List.append_nil]
    exact (h number (List.mem_singleton_self _)).closed
  | group inner ih =>
    have hinner : Closed (inner.tokens.flatMap Token.text) := ih fun number hmem =>
      h number (List.mem_append_right _ (List.mem_append_left _ hmem))
    change Closed ('(' :: (inner.tokens ++ [Token.operator .closing]).flatMap Token.text)
    rw [List.flatMap_append]
    exact hinner.group
  | unsigned inner ih | single inner ih | sum inner ih | plain inner ih => exact ih h
  | sign negative inner ih =>
    have hinner := ih fun number hmem => h number (List.mem_append_right _ hmem)
    have hsign : signOperator negative ≠ .opening ∧ signOperator negative ≠ .closing := by
      cases negative <;> decide
    exact hjoin [] hsign.1 hsign.2 (closed_of_not_mem nofun nofun) hinner
  | not inner ih =>
    have hinner := ih fun number hmem => h number (List.mem_append_right _ hmem)
    exact hjoin [] nofun nofun (closed_of_not_mem nofun nofun) hinner
  | @join joint op operation known left right ihl ihr =>
    have hop : op ≠ .opening ∧ op ≠ .closing := by
      constructor <;> rintro rfl <;> cases joint <;> cases known
    exact hjoin _ hop.1 hop.2 (ihl fun number hmem => h number (List.mem_append_left _ hmem))
      (ihr fun number hmem => h number (List.mem_append_right _ (List.mem_append_right _ hmem)))
  | @compare op comparison known left right ihl ihr =>
    have hop : op ≠ .opening ∧ op ≠ .closing := by
      constructor <;> rintro rfl <;> cases known
    exact hjoin _ hop.1 hop.2 (ihl fun number hmem => h number (List.mem_append_left _ hmem))
      (ihr fun number hmem => h number (List.mem_append_right _ (List.mem_append_right _ hmem)))

/-- What can be evaluated has all its brackets closed. -/
theorem closed_of_evaluateText (h : evaluateText mode text = .ok v) : Closed text := by
  obtain ⟨tree, htokens, -⟩ := exists_tree_of_evaluateText h
  intro depth
  rw [← openAfter?_filter, filter_of_tokenize htokens]
  exact tree.closed (fun number hmem => isNumber_of_mem_tokenize htokens hmem) depth

theorem closed_trim_iff : Closed (trim text) ↔ Closed text := by
  refine forall_congr' fun depth => ?_
  rw [← openAfter?_filter, filter_trim, openAfter?_filter]

/-- What stands before a closing parenthesis of a text with a value has no value itself. -/
theorem evaluateText_before_closing
    (h : evaluateText mode (trim (front ++ ')' :: rest)) = .ok v) :
    ∃ e, evaluateText mode (trim front) = .error e := by
  have hall := closed_trim_iff.1 (closed_of_evaluateText h) 0
  cases hfront : evaluateText mode (trim front) with
  | error e => exact ⟨e, rfl⟩
  | ok w =>
    -- the parenthesis would close one before the text
    have hopen := closed_trim_iff.1 (closed_of_evaluateText hfront) 0
    rw [openAfter?_append, hopen] at hall
    cases hall

/-- A chain of operands fails with its first one. -/
theorem readOff_joined_of_error (joint : Joint) {e : ExprError}
    (h : readOff mode joint.operand tokens = .error e) :
    readOff mode (.joined joint) tokens = .error e := by
  rw [readOff_joined, h]
  rfl

/-- A parenthesis that is opened before an expression is missed at its end. -/
theorem evaluateTokens_opening {tree : Tree (List Char) .loosest}
    (h : tree.value mode numberOf = .ok v) :
    evaluateTokens mode (.operator .opening :: tree.tokens) = .error .unclosedParenthesis := by
  have hinner : readOff mode .loosest (tree.tokens ++ []) = _ := tree.readsOff.complete (ends_nil _)
  rw [List.append_nil, h] at hinner
  have hatom : readOff mode .atom (.operator .opening :: tree.tokens) =
      .error .unclosedParenthesis := by
    rw [readOff_opening, hinner]
    rfl
  have hsigned : readOff mode .signed (.operator .opening :: tree.tokens) =
      .error .unclosedParenthesis := by
    rw [readOff_unsigned, hatom]
    rintro (_ | _) rest ⟨⟩
  -- nothing is read on any level
  have hsum := readOff_joined_of_error .sum (readOff_joined_of_error .product hsigned)
  have hnegation : readOff mode .negation (.operator .opening :: tree.tokens) =
      .error .unclosedParenthesis := by
    rw [readOff_plain (by rintro rest ⟨⟩), readOff_comparison, hsum]
    rfl
  have hloosest := readOff_joined_of_error .disjunction (readOff_joined_of_error .conjunction hnegation)
  rw [evaluateTokens_eq (List.cons_ne_nil _ _), hloosest]
  rfl

/-! ## Equals signs -/

/-- A number is computed without comparing anything. -/
theorem Tree.not_equals_of_kind? {level : Level} {tree : Tree (List Char) level}
    (h : tree.kind? = some .number) (hnumber : ∀ number, .number number ∈ tree.tokens → IsNumber number) :
    '=' ∉ tree.tokens.flatMap Token.text := by
  have happend : ∀ {left right : List Token}, '=' ∉ left.flatMap Token.text →
      '=' ∉ right.flatMap Token.text → '=' ∉ (left ++ right).flatMap Token.text := by
    intro left right hleft hright
    rw [List.flatMap_append, List.mem_append, not_or]
    exact ⟨hleft, hright⟩
  have hmark : ∀ op : Operator, '=' ∉ op.symbol → '=' ∉ [Token.operator op].flatMap Token.text := by
    intro op hop
    rw [List.flatMap_singleton]
    exact hop
  induction tree with
  | operand number =>
    change '=' ∉ number ++ []
    rw [List.append_nil]
    exact (hnumber number (List.mem_singleton_self _)).not_mem (by decide)
  | group inner ih =>
    have hinner := ih h fun number hmem =>
      hnumber number (List.mem_append_right _ (List.mem_append_left _ hmem))
    exact happend (hmark .opening (by decide)) (happend hinner (hmark .closing (by decide)))
  | unsigned inner ih | single inner ih | sum inner ih | plain inner ih => exact ih h hnumber
  | sign negative inner ih =>
    have hinner := ih (arithmetic?_eq_some_iff.1 h).2.1 fun number hmem =>
      hnumber number (List.mem_append_right _ hmem)
    have hsign : '=' ∉ (signOperator negative).symbol := by cases negative <;> decide
    exact happend (hmark _ hsign) hinner
  | @join joint op operation known left right ihl ihr =>
    have hop : '=' ∉ op.symbol := by
      cases joint <;> cases op <;> first | decide | cases known
    -- a truth value comes of operations on truth values, and a number of those on numbers
    obtain ⟨hleft, hright⟩ : left.kind? = some .number ∧ right.kind? = some .number := by
      cases operation with
      | or | and =>
        obtain ⟨a, b, ha, hb⟩ := BinaryOp.kind?_eq_some h
        rw [kind?, ha, hb] at h
        cases h
      | plus | minus | times | divide =>
        obtain ⟨hleft, hright, -⟩ := arithmetic?_eq_some_iff.1 h
        exact ⟨hleft, hright⟩
    refine happend (ihl hleft fun number hmem => ?_)
      (happend (hmark op hop) (ihr hright fun number hmem => ?_))
    · exact hnumber number (List.mem_append_left _ hmem)
    · exact hnumber number (List.mem_append_right _ (List.mem_append_right _ hmem))
  | not inner ih | compare known left right ihl ihr =>
    obtain ⟨_, -, hkind⟩ := Option.map_eq_some_iff.1 h
    cases hkind

/-- What is evaluated to a number has no comparison in it, so no sign of equality either. -/
theorem not_equals_of_evaluateText {x : Float}
    (h : evaluateText .evaluating text = .ok (.number x)) : '=' ∉ text := by
  obtain ⟨tree, htokens, hvalue⟩ := exists_tree_of_evaluateText h
  intro hmem
  have hmem : '=' ∈ text.filter (!isBlank ·) := List.mem_filter.2 ⟨hmem, by decide⟩
  rw [filter_of_tokenize htokens] at hmem
  exact Tree.not_equals_of_kind? (Tree.kind?_of_value hvalue)
    (fun number hmem => isNumber_of_mem_tokenize htokens hmem) hmem

end EventDeck.Expr
