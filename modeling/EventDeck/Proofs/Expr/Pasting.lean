import EventDeck.Decimal.Notation
import EventDeck.Proofs.Expr.Reading
import EventDeck.Proofs.Expr.Words

/-!
# Numbers in the place of operands

When the names of a written tree are replaced by numbers, the text that results is read as a tree
again.  A number without minus takes the place of its operand; a minus becomes a sign before it, and
since an operand of a product is a signed atom, no other part of the tree moves.

The main statement is `evaluateText_pasted`: the text has the value of the tree, with the numbers in
the place of the operands.
-/

namespace EventDeck.Expr

open Text Decimal

/-! ## Trees with other operands -/

namespace Tree

variable {α β γ : Type} {level : Level}

/-- A tree that is an operand and nothing else. -/
def Bare : {level : Level} → Tree α level → Prop
  | _, operand _ => True
  | _, _ => False

/-- The tree with written numbers in the place of its operands; the minus of a number becomes a
sign. -/
def fill (minus : α → Bool) (digits : α → List Char) :
    {level : Level} → Tree α level → Tree (List Char) level
  | _, operand a => operand (digits a)
  | _, group inner => group (inner.fill minus digits)
  | _, unsigned (operand a) =>
    if minus a then sign true (unsigned (operand (digits a))) else unsigned (operand (digits a))
  | _, unsigned (group inner) => unsigned (group (inner.fill minus digits))
  | _, sign negative inner => sign negative (inner.fill minus digits)
  | _, single inner => single (inner.fill minus digits)
  | _, join known left right => join known (left.fill minus digits) (right.fill minus digits)
  | _, sum inner => sum (inner.fill minus digits)
  | _, compare known left right =>
    compare known (left.fill minus digits) (right.fill minus digits)
  | _, plain inner => plain (inner.fill minus digits)
  | _, not inner => not (inner.fill minus digits)

/-- Spelling a spelling once more is spelling with longer words. -/
theorem flatMap_spell (tree : Tree α level) (word : α → List β) (mark : Operator → List β)
    (f : β → List γ) :
    (tree.spell word mark).flatMap f =
      tree.spell (fun a => (word a).flatMap f) fun op => (mark op).flatMap f := by
  induction tree with
  | operand a => rfl
  | group inner ih =>
    rw [spell, List.flatMap_append, List.flatMap_append, ih, spell]
  | sign negative inner ih | not inner ih =>
    rw [spell, List.flatMap_append, ih, spell]
  | join known left right ihl ihr | compare known left right ihl ihr =>
    rw [spell, List.flatMap_append, List.flatMap_append, ihl, ihr, spell]
  | unsigned inner ih | single inner ih | sum inner ih | plain inner ih => exact ih

/-- The tokens of an operand that was replaced by a number. -/
def numberTokens (minus : Bool) (digits : List Char) : List Token :=
  if minus then [.operator .minus, .number digits] else [.number digits]

theorem not_bare {tree : Tree α level} (h : level ≠ .atom) : ¬ tree.Bare := by
  cases tree with
  | operand a => exact absurd rfl h
  | _ => exact id

/-- Only an atom can be a bare operand. -/
theorem not_bare_operand {joint : Joint} {tree : Tree α joint.operand} : ¬ tree.Bare := by
  refine not_bare ?_
  cases joint <;> decide

/-- The tokens of a tree with numbers are those of the tree, with the numbers in place. -/
theorem tokens_fill {minus : α → Bool} {digits : α → List Char} {tree : Tree α level}
    (h : ¬ tree.Bare) :
    (tree.fill minus digits).tokens =
      tree.spell (fun a => numberTokens (minus a) (digits a)) fun op => [.operator op] := by
  induction tree with
  | operand a => exact absurd trivial h
  | group inner ih =>
    have ih := ih (not_bare (by decide))
    exact congrArg (fun l => [Token.operator .opening] ++ (l ++ [.operator .closing])) ih
  | unsigned inner ih =>
    -- the only place where an operand can stand, and where its minus becomes a sign
    cases inner with
    | operand a =>
      rw [fill]
      cases hminus : minus a with
      | true => simp [tokens, spell, numberTokens, hminus, signOperator]
      | false => simp [tokens, spell, numberTokens, hminus]
    | group inner => exact ih id
  | sign negative inner ih =>
    exact congrArg ([Token.operator (signOperator negative)] ++ ·) (ih (not_bare (by decide)))
  | not inner ih => exact congrArg ([Token.operator .not] ++ ·) (ih (not_bare (by decide)))
  | @join joint op operation known left right ihl ihr =>
    have ihl := ihl (not_bare (by simp))
    have ihr := ihr not_bare_operand
    rw [spell, ← ihl, ← ihr]
    rfl
  | compare known left right ihl ihr =>
    have ihl := ihl (not_bare (by decide))
    have ihr := ihr (not_bare (by decide))
    rw [spell, ← ihl, ← ihr]
    rfl
  | single inner ih => exact ih not_bare_operand
  | sum inner ih | plain inner ih => exact ih (not_bare (by decide))

/-- A tree with numbers has the value of the tree, with what the numbers stand for. -/
theorem value_fill {mode : Mode} {minus : α → Bool} {digits : α → List Char} {number : α → Float}
    {tree : Tree α level} (h : ¬ tree.Bare)
    (hnumber : ∀ a ∈ tree.operands,
      number a = if minus a then -numberOf (digits a) else numberOf (digits a)) :
    (tree.fill minus digits).value mode numberOf = tree.value mode number := by
  induction tree with
  | operand a => exact absurd trivial h
  | group inner ih =>
    exact ih (not_bare (by decide)) (by simpa [operands, spell] using hnumber)
  | unsigned inner ih =>
    -- an operand may come with a minus; it is the innermost sign, so it applies to the number alone
    cases inner with
    | operand a =>
      have ha := hnumber a (by simp [operands, spell])
      rw [fill]
      cases hminus : minus a with
      | true =>
        rw [hminus, if_pos rfl] at ha
        change Except.ok (Value.number (-numberOf (digits a))) = Except.ok (.number (number a))
        rw [ha]
      | false =>
        rw [hminus, if_neg (by decide)] at ha
        change Except.ok (Value.number (numberOf (digits a))) = Except.ok (.number (number a))
        rw [ha]
    | group inner => exact ih id hnumber
  | sign negative inner ih =>
    rw [fill, value, value, ih (not_bare (by decide)) hnumber]
  | not inner ih => rw [fill, value, value, ih (not_bare (by decide)) hnumber]
  | join known left right ihl ihr =>
    have hleft := ihl (not_bare (by simp)) fun a ha => hnumber a (List.mem_append_left _ ha)
    have hright := ihr not_bare_operand fun a ha =>
      hnumber a (List.mem_append_right _ (List.mem_append_right _ ha))
    rw [fill, value, value, hleft, hright]
  | compare known left right ihl ihr =>
    have hleft := ihl (not_bare (by decide)) fun a ha => hnumber a (List.mem_append_left _ ha)
    have hright := ihr (not_bare (by decide)) fun a ha =>
      hnumber a (List.mem_append_right _ (List.mem_append_right _ ha))
    rw [fill, value, value, hleft, hright]
  | single inner ih => exact ih not_bare_operand hnumber
  | sum inner ih | plain inner ih => exact ih (not_bare (by decide)) hnumber

end Tree

/-! ## Lines with numbers -/

section Lines

variable {minus : Operand → Bool} {digits : Operand → List Char} {rest : List Char}

/-- A word with a number in the place of an operand. -/
def Word.pasted (minus : Operand → Bool) (digits : Operand → List Char) : Word → List Char
  | operand o => signed (minus o) (digits o)
  | operator op => op.symbol

/-- The tokens of a word with a number in the place of an operand. -/
def Word.tokens (minus : Operand → Bool) (digits : Operand → List Char) : Word → List Token
  | operand o => Tree.numberTokens (minus o) (digits o)
  | operator op => [.operator op]

theorem Apart.stops (h : Apart rest) (stage : Stage) : stage.Stops rest := by
  intro c cs heq
  rw [h c cs heq]
  cases stage <;> decide

/-- A number between spaces is a token. -/
theorem tokenize_isNumber_append {number : List Char} (h : IsNumber number) (hrest : Apart rest) :
    tokenize (number ++ rest) = (tokenize rest).map (.number number :: ·) := by
  obtain ⟨last, hfollow, hlast⟩ := h
  exact tokenize_number_append hfollow hlast (hrest.stops last)

theorem tokenize_word_append (word : Word)
    (hnumber : ∀ o, word = .operand o → IsNumber (digits o)) (hrest : Apart rest)
    {tokens : List Token} (h : tokenize rest = .ok tokens) :
    tokenize (word.pasted minus digits ++ rest) = .ok (word.tokens minus digits ++ tokens) := by
  rcases word with o | op
  · have ho := hnumber o rfl
    have htoken := tokenize_isNumber_append ho hrest
    rw [h] at htoken
    rw [Word.pasted, Word.tokens, Tree.numberTokens]
    cases minus o with
    | false => exact htoken
    | true =>
      change tokenize (Operator.minus.symbol ++ (digits o ++ rest)) = _
      rw [tokenize_symbol_append fun h => absurd h (by decide), htoken]
      rfl
  · rw [Word.pasted, tokenize_symbol_append fun _ => head?_of_apart hrest, h]
    rfl

theorem tokenize_spaced (words : List Word)
    (hnumber : ∀ o, .operand o ∈ words → IsNumber (digits o)) :
    tokenize (spaced (words.map (Word.pasted minus digits))) =
      .ok (words.flatMap (Word.tokens minus digits)) := by
  induction words with
  | nil => exact tokenize_of_all_isBlank rfl
  | cons word words ih =>
    have ih := ih fun o ho => hnumber o (List.mem_cons_of_mem _ ho)
    rw [List.map_cons, spaced_cons, List.flatMap_cons]
    rw [tokenize_cons_of_isBlank (by decide)]
    refine tokenize_word_append word ?_ (apart_spaced _) ih
    rintro o rfl
    exact hnumber o List.mem_cons_self

theorem tokenize_line (words : List Word)
    (hnumber : ∀ o, .operand o ∈ words → IsNumber (digits o)) :
    tokenize (line (words.map (Word.pasted minus digits))) =
      .ok (words.flatMap (Word.tokens minus digits)) := by
  rcases words with _ | ⟨word, words⟩
  · exact tokenize_of_all_isBlank rfl
  · rw [List.map_cons, line_cons, List.flatMap_cons]
    refine tokenize_word_append word ?_ (apart_spaced _)
      (tokenize_spaced words fun o ho => hnumber o (List.mem_cons_of_mem _ ho))
    rintro o rfl
    exact hnumber o List.mem_cons_self

/-- The operands among the words of a tree are the operands of the tree. -/
theorem Tree.mem_words_iff {level : Level} {tree : Tree Operand level} {o : Operand} :
    .operand o ∈ tree.words ↔ o ∈ tree.operands := by
  have hoperands : tree.operands = tree.words.flatMap fun
      | .operand o => [o]
      | .operator _ => [] := by
    rw [words, flatMap_spell]
    rfl
  rw [hoperands, List.mem_flatMap]
  constructor
  · intro h
    exact ⟨_, h, List.mem_singleton_self o⟩
  · rintro ⟨word, hmem, ho⟩
    cases word with
    | operand a =>
      rw [List.mem_singleton] at ho
      rw [ho]
      exact hmem
    | operator op => cases ho

/-- A tree that is written with numbers in the place of its operands has the value of the tree. -/
theorem evaluateText_pasted {mode : Mode} (tree : Tree Operand .loosest) {number : Operand → Float}
    (hform : ∀ o ∈ tree.operands, IsNumber (digits o))
    (hnumber : ∀ o ∈ tree.operands,
      number o = if minus o then -numberOf (digits o) else numberOf (digits o)) :
    evaluateText mode (line (tree.words.map (Word.pasted minus digits))) =
      tree.value mode number := by
  have hbare : ¬ tree.Bare := Tree.not_bare (by decide)
  have htokens : tree.words.flatMap (Word.tokens minus digits) =
      (tree.fill minus digits).tokens := by
    rw [Tree.tokens_fill hbare, Tree.words, Tree.flatMap_spell]
    simp only [List.flatMap_cons, List.flatMap_nil, List.append_nil]
    rfl
  rw [evaluateText, tokenize_line tree.words fun o ho => hform o (Tree.mem_words_iff.1 ho), htokens]
  change evaluateTokens mode (tree.fill minus digits).tokens = _
  rw [evaluateTokens_tokens, Tree.value_fill hbare hnumber]

end Lines

/-- A number is an expression of its own, and so is one with a minus. -/
theorem evaluateText_signed {mode : Mode} {number : List Char} (h : IsNumber number)
    (negative : Bool) : evaluateText mode (signed negative number) =
      .ok (.number (if negative then -numberOf number else numberOf number)) := by
  have htokens : tokenize number = .ok [.number number] := by
    have hnone : tokenize [] = .ok [] := tokenize_of_all_isBlank rfl
    have hnumber : tokenize (number ++ []) = _ := tokenize_isNumber_append h nofun
    rwa [List.append_nil, hnone] at hnumber
  let factor : Tree (List Char) .signed :=
    if negative then .sign true (.unsigned (.operand number)) else .unsigned (.operand number)
  let tree : Tree (List Char) .loosest :=
    .single (.single (.plain (.sum (.single (.single factor)))))
  have htree : tokenize (signed negative number) = .ok tree.tokens := by
    cases negative with
    | false => exact htokens
    | true =>
      change tokenize (Operator.minus.symbol ++ number) = _
      rw [tokenize_symbol_append fun h => absurd h (by decide), htokens]
      rfl
  rw [evaluateText_of_tokenize htree]
  cases negative <;> rfl

end EventDeck.Expr
