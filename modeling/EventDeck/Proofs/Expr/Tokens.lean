import EventDeck.Expr.Parser
import EventDeck.Proofs.Expr.Numeral

/-!
# Tokens one by one

What the tokenizer does with the front of a text: blanks are skipped, a number that does not go on
is a token, and so is an operator that no longer one begins with.  Every number token has the form
of a number and stands for the number that it is read as (`IsNumber.read?_eq`,
`isNumber_of_mem_tokenize`).
-/

namespace EventDeck.Expr

open Text

variable {text rest : List Char} {token : Token} {tokens : List Token}

/-! ## The front of a text -/

theorem tokenize_of_nextToken? (h : nextToken? (text.dropWhile isBlank) = some (token, rest)) :
    tokenize text = (tokenize rest).map (token :: ·) := by
  rw [tokenize]
  split
  · next heq =>
    rw [h] at heq
    cases heq
    rfl
  · next heq =>
    rw [h] at heq
    cases heq

theorem tokenize_of_none (h : nextToken? (text.dropWhile isBlank) = none) :
    tokenize text = if text.all isBlank then .ok []
      else .error (.unexpectedInput (String.ofList (trim text))) := by
  rw [tokenize]
  split
  · next heq =>
    rw [h] at heq
    cases heq
  · rfl

theorem tokenize_of_all_isBlank (h : text.all isBlank = true) : tokenize text = .ok [] := by
  have hdrop : text.dropWhile isBlank = [] := by
    rw [← List.append_nil text, List.dropWhile_append_of_pos (List.all_eq_true.1 h)]
    rfl
  rw [tokenize_of_none (by rw [hdrop]; rfl), if_pos h]

/-- Tokens are read one after the other until nothing but blanks is left. -/
theorem tokenize_eq_ok_cases (h : tokenize text = .ok tokens) :
    (text.all isBlank = true ∧ tokens = []) ∨
      ∃ token rest more, nextToken? (text.dropWhile isBlank) = some (token, rest) ∧
        tokenize rest = .ok more ∧ tokens = token :: more := by
  rcases hnext : nextToken? (text.dropWhile isBlank) with _ | ⟨token, rest⟩
  · rw [tokenize_of_none hnext] at h
    split at h
    · next hblank =>
      cases h
      exact .inl ⟨hblank, rfl⟩
    · cases h
  · rw [tokenize_of_nextToken? hnext] at h
    rcases hmore : tokenize rest with e | more
    · rw [hmore] at h
      cases h
    · rw [hmore] at h
      cases h
      exact .inr ⟨token, rest, more, rfl, hmore, rfl⟩

/-- A blank before a text does not matter. -/
theorem tokenize_cons_of_isBlank {c : Char} (hc : isBlank c = true) (rest : List Char) :
    tokenize (c :: rest) = tokenize rest := by
  have hdrop : (c :: rest).dropWhile isBlank = rest.dropWhile isBlank :=
    List.dropWhile_cons_of_pos hc
  have htrim : trim (c :: rest) = trim rest := by rw [trim, trimBy, hdrop, trim, trimBy]
  rcases hnext : nextToken? (rest.dropWhile isBlank) with _ | ⟨token, after⟩
  · rw [tokenize_of_none hnext, tokenize_of_none (by rw [hdrop]; exact hnext), htrim, List.all_cons,
      hc, Bool.true_and]
  · rw [tokenize_of_nextToken? hnext, tokenize_of_nextToken? (by rw [hdrop]; exact hnext)]

/-- Before the rest of a text with tokens stands a blank, or the first token. -/
theorem tokenize_cons_eq_ok_cases {c : Char} {cs : List Char} (h : tokenize (c :: cs) = .ok tokens) :
    (isBlank c = true ∧ tokenize cs = .ok tokens) ∨
      isBlank c = false ∧ ∃ token rest more, nextToken? (c :: cs) = some (token, rest) ∧
        tokenize rest = .ok more ∧ tokens = token :: more := by
  by_cases hc : isBlank c = true
  · rw [tokenize_cons_of_isBlank hc] at h
    exact .inl ⟨hc, h⟩
  · rcases tokenize_eq_ok_cases h with ⟨hblank, -⟩ | hnext
    · rw [List.all_cons, Bool.and_eq_true] at hblank
      exact absurd hblank.1 hc
    · rw [List.dropWhile_cons_of_neg hc] at hnext
      exact .inr ⟨Bool.eq_false_iff.2 hc, hnext⟩

/-- A number that does not go on is a token. -/
theorem tokenize_number_append {number : List Char} {last : Stage}
    (hfollow : Stage.start.follow? number = some last) (hlast : last.complete = true)
    (hrest : last.Stops rest) :
    tokenize (number ++ rest) = (tokenize rest).map (.number number :: ·) := by
  have hnumber : IsNumber number := ⟨last, hfollow, hlast⟩
  have hdrop : (number ++ rest).dropWhile isBlank = number ++ rest := by
    rcases number with _ | ⟨c, cs⟩
    · exact absurd rfl hnumber.ne_nil
    · have := (hnumber.isNumberChar c List.mem_cons_self).not_isBlank
      rw [List.cons_append, List.dropWhile_cons_of_neg (by simp [this])]
  refine tokenize_of_nextToken? ?_
  rw [hdrop, nextToken?, scanNumber?_append_of_stops hfollow hlast hrest]

/-- No number begins with the characters of an operator. -/
theorem scanNumber?_symbol_append (op : Operator) (rest : List Char) :
    scanNumber? (op.symbol ++ rest) = none := by
  have key : ∀ c : Char, ∀ cs, isDecimalDigit c = false → c ≠ '.' → scanNumber? (c :: cs) = none := by
    intro c cs hc hpoint
    rw [scanNumber?, scanDigits?, List.takeWhile_cons_of_neg (by simp [hc]),
      List.dropWhile_cons_of_neg (by simp [hc])]
    dsimp only
    split
    · next heq => cases heq; exact absurd rfl hpoint
    · rfl
  cases op <;> exact key _ _ (by decide) (by decide)

/-- Whether an operator followed by `=` is the beginning of another operator. -/
def Operator.opensEquals : Operator → Bool
  | less | greater | not => true
  | _ => false

/-- An operator is taken as it is when what follows does not make it a longer one. -/
theorem scanOperator?_symbol_append {op : Operator}
    (h : op.opensEquals = true → rest.head? ≠ some '=') :
    scanOperator? (op.symbol ++ rest) = some (op, rest) := by
  rcases rest with _ | ⟨c, cs⟩
  · cases op <;> rfl
  · by_cases hop : op.opensEquals = true
    · have hc : c ≠ '=' := by
        rintro rfl
        exact h hop rfl
      cases op <;> first
        | exact absurd hop (by decide)
        | simp [Operator.symbol, scanOperator?, hc]
    · cases op <;> first
        | rfl
        | exact absurd rfl hop

/-- An operator that does not go on is a token. -/
theorem tokenize_symbol_append {op : Operator}
    (h : op.opensEquals = true → rest.head? ≠ some '=') :
    tokenize (op.symbol ++ rest) = (tokenize rest).map (.operator op :: ·) := by
  have hdrop : (op.symbol ++ rest).dropWhile isBlank = op.symbol ++ rest := by
    cases op <;> rfl
  refine tokenize_of_nextToken? ?_
  rw [hdrop, nextToken?, scanNumber?_symbol_append, scanOperator?_symbol_append h]
  rfl

/-! ## Number tokens -/

theorem isNumber_of_nextToken? {number : List Char}
    (h : nextToken? text = some (.number number, rest)) : IsNumber number := by
  unfold nextToken? at h
  split at h
  · next hscan =>
    cases h
    exact .of_scanNumber? hscan
  · obtain ⟨⟨op, after⟩, -, heq⟩ := Option.map_eq_some_iff.1 h
    cases heq

/-- Every number token has the form of a number. -/
theorem isNumber_of_mem_tokenize {text number : List Char} {tokens : List Token}
    (h : tokenize text = .ok tokens)
    (hmem : .number number ∈ tokens) : IsNumber number := by
  rcases tokenize_eq_ok_cases h with ⟨-, rfl⟩ | ⟨token, rest, more, hnext, hmore, rfl⟩
  · cases hmem
  · rcases List.mem_cons.1 hmem with rfl | hmem
    · exact isNumber_of_nextToken? hnext
    · have hlt := length_lt_of_nextToken? hnext
      have hle : (text.dropWhile isBlank).length ≤ text.length :=
        (List.dropWhile_sublist isBlank).length_le
      exact isNumber_of_mem_tokenize hmore hmem
termination_by text.length

/-- A number token stands for the number that it is read as. -/
theorem IsNumber.read?_eq {number : List Char} (h : IsNumber number) :
    Decimal.read? number = some (numberOf number) := by
  obtain ⟨x, hx⟩ := h.exists_read?
  rw [numberOf, hx]
  rfl

end EventDeck.Expr
