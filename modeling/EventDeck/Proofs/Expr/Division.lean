import EventDeck.Proofs.Expr.Reading
import EventDeck.Proofs.Expr.Tokens

/-!
# Only a division divides by zero

A text fails with a division by zero only when it holds the sign of a division
(`divide_mem_of_evaluateText`).  The parser evaluates as it reads, so this is a fact about every
step of it.
-/

namespace EventDeck.Expr

open Text

variable {mode : Mode}

/-- A step that fails has a first part that fails, or a second one. -/
theorem bind_eq_error {α β : Type} {x : Except ExprError α} {f : α → Except ExprError β}
    {e : ExprError} (h : x >>= f = .error e) :
    x = .error e ∨ ∃ a, x = .ok a ∧ f a = .error e := by
  cases x with
  | error e' =>
    cases h
    exact .inl rfl
  | ok a => exact .inr ⟨a, rfl, h⟩

/-- Only the computation itself can fail. -/
theorem map_eq_error {α β : Type} {x : Except ExprError α} {f : α → β} {e : ExprError}
    (h : x.map f = .error e) : x = .error e := by
  cases x with
  | error e' =>
    cases h
    rfl
  | ok a => cases h

/-! ## Operations -/

theorem Value.toNumber_ne_zero (v : Value) : v.toNumber ≠ .error .divisionByZero := by
  cases v <;> simp [toNumber]

/-- Arithmetic on numbers does not divide by zero unless its operation does. -/
theorem onNumbers_ne_zero {calculate : Float → Float → Except ExprError Float}
    (hcalculate : ∀ x y, calculate x y ≠ .error .divisionByZero) (a b : Value) :
    BinaryOp.onNumbers calculate a b ≠ .error .divisionByZero := by
  intro h
  rcases bind_eq_error h with h | ⟨x, -, h⟩
  · exact a.toNumber_ne_zero h
  · rcases bind_eq_error h with h | ⟨y, -, h⟩
    · exact b.toNumber_ne_zero h
    · rcases bind_eq_error h with h | ⟨z, -, h⟩
      · exact hcalculate x y h
      · cases h

/-- An operation that fails with a division by zero is a division. -/
theorem BinaryOp.eq_divide_of_apply {operation : BinaryOp} {a b : Value}
    (h : operation.apply mode a b = .error .divisionByZero) : operation = .divide := by
  cases operation with
  | divide => rfl
  | or | and => cases h
  | plus | minus | times => exact absurd h (onNumbers_ne_zero (fun _ _ => by simp) a b)

theorem Comparison.apply_ne_zero (comparison : Comparison) (a b : Value) :
    comparison.apply a b ≠ .error .divisionByZero := by
  intro h
  rcases bind_eq_error h with h | ⟨x, -, h⟩
  · exact a.toNumber_ne_zero h
  · rcases bind_eq_error h with h | ⟨y, -, h⟩
    · exact b.toNumber_ne_zero h
    · cases h

/-- Division has one sign. -/
theorem Joint.eq_divide_of_operation? {joint : Joint} {op : Operator}
    (h : joint.operation? op = some .divide) : op = .divide := by
  cases joint <;> cases op <;> first | rfl | cases h

/-! ## Reading -/

/-- What is left unread was there before. -/
theorem subset_of_readOff {level : Level} {tokens rest : List Token} {v : Value}
    (h : readOff mode level tokens = .ok (v, rest)) : rest ⊆ tokens := by
  obtain ⟨tree, rfl, -⟩ := exists_tree_of_readOff h
  exact List.subset_append_right _ _

mutual

/-- Reading fails with a division by zero only at a division. -/
theorem divide_mem_of_readOff {level : Level} {tokens : List Token}
    (h : readOff mode level tokens = .error .divisionByZero) : .operator .divide ∈ tokens := by
  match level, tokens with
  | .atom, [] =>
    rw [readOff, read] at h
    cases h
  | .atom, .number text :: after =>
    rw [readOff_number] at h
    cases h
  | .atom, .operator op :: after =>
    by_cases hop : op = .opening
    · subst hop
      rw [readOff_opening] at h
      rcases bind_eq_error h with h | ⟨⟨w, more⟩, -, h⟩
      · exact List.mem_cons_of_mem _ (divide_mem_of_readOff h)
      · split at h <;> cases h
    · rw [readOff, read] at h
      · cases h
      · exact hop
  | .signed, tokens =>
    by_cases hsign : ∃ negative after, tokens = .operator (signOperator negative) :: after
    · obtain ⟨negative, after, rfl⟩ := hsign
      rw [readOff_sign] at h
      rcases bind_eq_error h with h | ⟨⟨w, more⟩, -, h⟩
      · exact List.mem_cons_of_mem _ (divide_mem_of_readOff h)
      · exact absurd (map_eq_error h) w.toNumber_ne_zero
    · rw [readOff_unsigned fun negative after heq => hsign ⟨negative, after, heq⟩] at h
      exact divide_mem_of_readOff h
  | .joined joint, tokens =>
    -- the first operand fails, or what is joined to it, which is read from a rest of the tokens
    rw [readOff_joined] at h
    rcases bind_eq_error h with h | ⟨⟨w, more⟩, hw, h⟩
    · exact divide_mem_of_readOff h
    · have hlt := length_lt_of_readOff hw
      exact subset_of_readOff hw (divide_mem_of_joinOff h)
  | .comparison, tokens =>
    rw [readOff_comparison] at h
    rcases bind_eq_error h with h | ⟨⟨w, more⟩, hw, h⟩
    · exact divide_mem_of_readOff h
    · have hlt := length_lt_of_readOff hw
      refine subset_of_readOff hw ?_
      rcases more with _ | ⟨_ | op, after⟩
      · cases h
      · cases h
      · dsimp only at h
        cases known : op.comparison? with
        | none =>
          rw [known] at h
          cases h
        | some comparison =>
          rw [known] at h
          rcases bind_eq_error h with h | ⟨⟨u, last⟩, -, h⟩
          · exact List.mem_cons_of_mem _ (divide_mem_of_readOff h)
          · exact absurd (map_eq_error h) (comparison.apply_ne_zero w u)
  | .negation, tokens =>
    by_cases hnot : ∃ after, tokens = .operator .not :: after
    · obtain ⟨after, rfl⟩ := hnot
      rw [readOff_not] at h
      rcases bind_eq_error h with h | ⟨⟨w, more⟩, -, h⟩
      · exact List.mem_cons_of_mem _ (divide_mem_of_readOff h)
      · cases h
    · rw [readOff_plain fun after heq => hnot ⟨after, heq⟩] at h
      exact divide_mem_of_readOff h
termination_by (tokens.length, level.rank)
decreasing_by
  all_goals subst_vars
  all_goals first
    | exact Prod.Lex.right _ (Level.rank_operand_lt joint)
    | exact Prod.Lex.right _ (by decide)
    | exact Prod.Lex.left _ _ (by simp only [List.length_cons] at *; omega)

/-- So does reading what is joined to a first operand. -/
theorem divide_mem_of_joinOff {joint : Joint} {tokens : List Token} {a : Value}
    (h : joinOff mode joint a tokens = .error .divisionByZero) : .operator .divide ∈ tokens := by
  match tokens with
  | [] =>
    rw [joinOff_eq_ok (by simp)] at h
    cases h
  | .number text :: after =>
    rw [joinOff_eq_ok (by simp)] at h
    cases h
  | .operator op :: after =>
    cases known : joint.operation? op with
    | none =>
      rw [joinOff_eq_ok (by rintro _ _ ⟨⟩; exact known)] at h
      cases h
    | some operation =>
      rw [joinOff_operator known] at h
      -- the error comes from the next operand, from the operation itself, or from what is joined later
      rcases bind_eq_error h with h | ⟨⟨b, more⟩, hb, h⟩
      · exact List.mem_cons_of_mem _ (divide_mem_of_readOff h)
      · have hlt := length_lt_of_readOff hb
        rcases bind_eq_error h with h | ⟨c, -, h⟩
        · rw [BinaryOp.eq_divide_of_apply h] at known
          rw [Joint.eq_divide_of_operation? known]
          exact List.mem_cons_self
        · exact List.mem_cons_of_mem _ (subset_of_readOff hb (divide_mem_of_joinOff h))
termination_by (tokens.length, 0)
decreasing_by
  all_goals exact Prod.Lex.left _ _ (by simp only [List.length_cons] at *; omega)

end

/-! ## Texts -/

/-- The characters of a token are in the text. -/
theorem text_subset_of_mem_tokenize {text : List Char} {tokens : List Token} {token : Token}
    (h : tokenize text = .ok tokens) (hmem : token ∈ tokens) : token.text ⊆ text := by
  rcases tokenize_eq_ok_cases h with ⟨-, rfl⟩ | ⟨first, rest, more, hnext, hmore, rfl⟩
  · cases hmem
  · obtain ⟨-, hfront⟩ := nextToken?_append hnext
    have hdrop : text.dropWhile isBlank ⊆ text := (List.dropWhile_sublist isBlank).subset
    rw [hfront] at hdrop
    rcases List.mem_cons.1 hmem with rfl | hmem
    · exact fun _ hc => hdrop (List.mem_append_left _ hc)
    · have hlt := length_lt_of_nextToken? hnext
      have hle : (text.dropWhile isBlank).length ≤ text.length :=
        (List.dropWhile_sublist isBlank).length_le
      exact fun _ hc => hdrop (List.mem_append_right _ (text_subset_of_mem_tokenize hmore hmem hc))
termination_by text.length

/-- The tokenizer complains about the text. -/
theorem tokenize_ne_zero (text : List Char) : tokenize text ≠ .error .divisionByZero := by
  intro h
  rcases hnext : nextToken? (text.dropWhile isBlank) with _ | ⟨token, rest⟩
  · rw [tokenize_of_none hnext] at h
    split at h <;> cases h
  · rw [tokenize_of_nextToken? hnext] at h
    have hlt := length_lt_of_nextToken? hnext
    have hle : (text.dropWhile isBlank).length ≤ text.length :=
      (List.dropWhile_sublist isBlank).length_le
    exact tokenize_ne_zero rest (map_eq_error h)
termination_by text.length

/-- A text fails with a division by zero only when it holds the sign of a division. -/
theorem divide_mem_of_evaluateText {text : List Char}
    (h : evaluateText mode text = .error .divisionByZero) : '/' ∈ text := by
  rw [evaluateText] at h
  rcases bind_eq_error h with h | ⟨tokens, htokens, h⟩
  · exact absurd h (tokenize_ne_zero text)
  · have hne : tokens ≠ [] := by
      rintro rfl
      cases h
    rw [evaluateTokens_eq hne] at h
    have hmem : .operator .divide ∈ tokens := by
      rcases bind_eq_error h with h | ⟨⟨v, _ | ⟨token, rest⟩⟩, -, h⟩
      · exact divide_mem_of_readOff h
      · cases h
      · cases h
    exact text_subset_of_mem_tokenize htokens hmem (List.mem_singleton_self '/')

end EventDeck.Expr
