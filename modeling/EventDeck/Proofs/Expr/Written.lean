import EventDeck.Expr.Statement
import EventDeck.Proofs.Expr.Words

/-!
# Written statements

A statement is written down as a line of words, and a name that is stepped has its sign directly
behind it.  A statement is recognized by the signs that are looked for in its text one after the
other, so for every sign it has to be shown where it stands in a line and where it does not.

The main statement is `ofText_text`: a statement that is written down is recognized in its form, with
its parts.
-/

namespace EventDeck.Expr

open Text Decimal

/-! ## Recognizing written statements -/

/-- A statement over written trees.  An update has one of the compound operators. -/
inductive WrittenStatement
  | expression (body : Tree Operand .loosest)
  | update {symbol : List Char} {operation : BinaryOp}
      (known : (symbol, operation) ∈ Statement.compounds)
      (target : VariableName) (body : Tree Operand .loosest)
  | step (up : Bool) (target : VariableName)
  | assignment (target : VariableName) (body : Tree Operand .loosest)

namespace WrittenStatement

/-- The words of a tree as they are written. -/
def bodyWords (body : Tree Operand .loosest) : List (List Char) :=
  body.words.map Word.text

/-- A statement as it is written: with one space between words, and steps directly after the
name. -/
def text : WrittenStatement → List Char
  | expression body => line (bodyWords body)
  | @update symbol _ _ target body => line (target.text :: symbol :: bodyWords body)
  | step up target => target.text ++ if up then ['+', '+'] else ['-', '-']
  | assignment target body => line (target.text :: ['='] :: bodyWords body)

/-- The form of a statement, with its parts. -/
def form : WrittenStatement → Statement
  | expression body => .expression (line (bodyWords body))
  | @update _ operation _ target body =>
    .update operation (target.text ++ [' ']) (line (bodyWords body))
  | step up target => .step up target.text
  | assignment target body => .assignment (target.text ++ [' ']) (line (bodyWords body))

end WrittenStatement

section Statements

variable {rest : List Char} {a : Char}

/-- A separator of two characters that a text does not hold is looked for behind the text. -/
theorem cut_append {text : List Char} (hrest : rest.head? ≠ some '=')
    (h : ¬ [a, '='] <:+: text) :
    cut [a, '='] (text ++ rest) =
      (cut [a, '='] rest).map fun (before, after) => (text ++ before, after) := by
  induction text with
  | nil => simp
  | cons c cs ih =>
    have hcs : ¬ [a, '='] <:+: cs := fun hin => h (hin.trans (List.suffix_cons c cs).isInfix)
    -- an occurrence at the front would lie in the text, or end with the first character of the rest
    have hnone : after? [a, '='] (c :: (cs ++ rest)) = none := by
      cases hafter : after? [a, '='] (c :: (cs ++ rest)) with
      | none => rfl
      | some more =>
        injection after?_eq_some hafter with hhead htail
        subst hhead
        rcases cs with _ | ⟨d, ds⟩
        · rw [List.nil_append] at htail
          rw [htail] at hrest
          exact absurd rfl hrest
        · injection htail with hhead
          subst hhead
          exact absurd ⟨[], ds, rfl⟩ h
    rw [List.cons_append, cut, hnone, ih hcs, Option.map_map]
    rfl

theorem not_infix_of_not_mem {text : List Char} (h : '=' ∉ text) : ¬ [a, '='] <:+: text :=
  fun hin => h (hin.subset (by simp))

/-- The characters that make compound operators. -/
def compoundChars : List Char := ['+', '-', '*', '/']

/-- The characters that begin a compound sign are no blanks and no signs of equality. -/
theorem ne_of_mem_compoundChars (ha : a ∈ compoundChars) : a ≠ ' ' ∧ a ≠ '=' := by
  constructor <;> rintro rfl <;> exact absurd ha (by decide)

/-- No word holds a compound operator. -/
theorem Word.not_compound (word : Word) (ha : a ∈ compoundChars) : ¬ [a, '='] <:+: word.text := by
  rcases word with o | op
  · exact not_infix_of_not_mem o.not_equals
  · have hsymbol : ['+', '-', '*', '/'].all (fun a => !decide ([a, '='] <:+: op.symbol)) = true := by
      cases op <;> rfl
    rw [List.all_eq_true] at hsymbol
    change ¬ [a, '='] <:+: op.symbol
    simpa using hsymbol a ha

theorem cut_spaced (ha : a ∈ compoundChars) (words : List Word) :
    cut [a, '='] (spaced (words.map Word.text)) = none := by
  induction words with
  | nil => rfl
  | cons word words ih =>
    have hnot : ¬ [a, '='] <:+: ' ' :: word.text := by
      rintro ⟨front, back, heq⟩
      rcases front with _ | ⟨c, cs⟩
      · injection heq with hhead
        exact absurd hhead (ne_of_mem_compoundChars ha).1
      · injection heq with _ htail
        exact word.not_compound ha ⟨cs, back, htail⟩
    rw [List.map_cons, spaced_cons, ← List.cons_append,
      cut_append (head?_of_apart (apart_spaced _)) hnot, ih]
    rfl

/-- No two words next to each other make a compound sign: there is a space between them, and no word has
one in it. -/
theorem cut_line (ha : a ∈ compoundChars) (words : List Word) :
    cut [a, '='] (line (words.map Word.text)) = none := by
  rcases words with _ | ⟨word, words⟩
  · rfl
  · rw [List.map_cons, line_cons, cut_append (head?_of_apart (apart_spaced _))
      (word.not_compound ha), cut_spaced ha]
    rfl

/-- A text without compound signs is no compound assignment. -/
theorem update?_eq_none {text : List Char} (h : ∀ a ∈ compoundChars, cut [a, '='] text = none) :
    Statement.update? text = none := by
  have hplus := h '+' (by decide)
  have hminus := h '-' (by decide)
  have htimes := h '*' (by decide)
  have hdivide := h '/' (by decide)
  simp [Statement.update?, Statement.compounds, hplus, hminus, htimes, hdivide]

/-- A text that does not end with a sign is no step. -/
theorem step?_eq_none {front : List Char} {c : Char} (h : c ≠ '+' ∧ c ≠ '-') :
    Statement.step? (front ++ [c]) = none := by
  have key : ∀ s : Char, c ≠ s → before? [s, s] (front ++ [c]) = none := by
    intro s hs
    have hafter : after? [s, s].reverse (front ++ [c]).reverse = none := by
      rw [List.reverse_append]
      exact if_neg (Ne.symm hs)
    rw [before?, hafter]
    rfl
  rw [Statement.step?, key '+' h.1, key '-' h.2]
  rfl

/-- A text without `=` is passed over in the search for an assignment. -/
theorem cutEquals_append {text : List Char} (h : '=' ∉ text)
    (hrest : ∀ previous, Statement.cutEquals previous rest = none) (previous : Option Char) :
    Statement.cutEquals previous (text ++ rest) = none := by
  induction text generalizing previous with
  | nil => exact hrest previous
  | cons c cs ih =>
    rw [List.mem_cons, not_or] at h
    rw [List.cons_append, Statement.cutEquals, ih h.2, if_neg]
    · rfl
    · simp [Ne.symm h.1]

/-- No word is or begins with the sign of an assignment. -/
theorem cutEquals_word (word : Word)
    (hrest : ∀ previous, Statement.cutEquals previous rest = none) (previous : Option Char) :
    Statement.cutEquals previous (word.text ++ rest) = none := by
  rcases word with o | op
  · exact cutEquals_append o.not_equals hrest _
  · cases op <;>
      simp [Word.text, Operator.symbol, Statement.cutEquals, Statement.joinsEquals, hrest]

theorem cutEquals_spaced (words : List Word) (previous : Option Char) :
    Statement.cutEquals previous (spaced (words.map Word.text)) = none := by
  induction words generalizing previous with
  | nil => rfl
  | cons word words ih =>
    rw [List.map_cons, spaced_cons, Statement.cutEquals, if_neg (by simp),
      cutEquals_word word ih]
    rfl

/-- A sign of equality in a written expression is part of a comparison, and none of these is taken for
an assignment. -/
theorem cutEquals_line (words : List Word) :
    Statement.cutEquals none (line (words.map Word.text)) = none := by
  rcases words with _ | ⟨word, words⟩
  · rfl
  · rw [List.map_cons, line_cons]
    exact cutEquals_word word (cutEquals_spaced words) none

theorem VariableName.not_equals (n : VariableName) : '=' ∉ n.text :=
  (Operand.name n).not_equals

/-- The target of a statement is cut off at the first sign that follows it. -/
theorem cut_target (n : VariableName) {b : Char} (ha : a ∈ compoundChars)
    (hb : b ∈ compoundChars) (words : List Word) :
    cut [a, '='] (n.text ++ ' ' :: b :: '=' :: spaced (words.map Word.text)) =
      if a = b then some (n.text ++ [' '], spaced (words.map Word.text)) else none := by
  rw [cut_append (by simp) (not_infix_of_not_mem n.not_equals)]
  obtain ⟨hspace, hequals⟩ := ne_of_mem_compoundChars ha
  split
  · next hab =>
    subst hab
    simp [cut, after?, hspace]
  · next hab => simp [cut, after?, hspace, hab, hequals, cut_spaced ha]

theorem line_target (n : VariableName) (symbol : List Char) (words : List (List Char)) :
    line (n.text :: symbol :: words) = n.text ++ ' ' :: (symbol ++ spaced words) := by
  rw [line_cons, spaced_cons]

/-- The sign of equality behind the target is the first one. -/
theorem cutEquals_target (n : VariableName) (rest : List Char) :
    Statement.cutEquals none (n.text ++ ' ' :: '=' :: ' ' :: rest) =
      some (n.text ++ [' '], ' ' :: rest) := by
  have key : ∀ text : List Char, '=' ∉ text → ∀ previous,
      Statement.cutEquals previous (text ++ ' ' :: '=' :: ' ' :: rest) =
        some (text ++ [' '], ' ' :: rest) := by
    intro text
    induction text with
    | nil => simp [Statement.cutEquals, Statement.joinsEquals]
    | cons c cs ih =>
      intro h previous
      rw [List.mem_cons, not_or] at h
      rw [List.cons_append, Statement.cutEquals, if_neg (by simp [Ne.symm h.1]), ih h.2]
      rfl
  exact key n.text n.not_equals none

/-- A line of words is trimmed when it is taken from behind a sign. -/
theorem trim_spaced {words : List (List Char)} (hne : words ≠ [])
    (h : ∀ word ∈ words, word ≠ [] ∧ ∀ c ∈ word, isBlank c = false) :
    trim (spaced words) = line words := by
  rcases words with _ | ⟨word, words⟩
  · exact absurd rfl hne
  · rw [spaced_cons, trim_cons_space, ← line_cons]
    exact trim_line h

/-- A written expression is made of words without blanks, and there is one. -/
theorem bodyWords_spec (body : Tree Operand .loosest) :
    ∀ word ∈ WrittenStatement.bodyWords body, word ≠ [] ∧ ∀ c ∈ word, isBlank c = false := by
  intro text htext
  obtain ⟨word, -, rfl⟩ := List.mem_map.1 htext
  exact ⟨word.ne_nil, word.not_isBlank⟩

theorem bodyWords_ne_nil (body : Tree Operand .loosest) : WrittenStatement.bodyWords body ≠ [] := by
  obtain ⟨front, word, heq, -⟩ := body.exists_words_concat
  rw [WrittenStatement.bodyWords, heq]
  simp

/-- Each of the written forms is told from the others. -/
theorem ofText_expression (body : Tree Operand .loosest) :
    Statement.ofText (line (WrittenStatement.bodyWords body)) =
      .expression (line (WrittenStatement.bodyWords body)) := by
  obtain ⟨front, c, hline, hc⟩ := body.exists_line_concat []
  have hupdate : Statement.update? (line (WrittenStatement.bodyWords body)) = none :=
    update?_eq_none fun a ha => cut_line ha body.words
  have hstep : Statement.step? (line (WrittenStatement.bodyWords body)) = none := by
    rw [show line (WrittenStatement.bodyWords body) = front ++ [c] from hline]
    exact step?_eq_none hc
  have hassignment : Statement.assignment? (line (WrittenStatement.bodyWords body)) = none := by
    rw [Statement.assignment?, WrittenStatement.bodyWords, cutEquals_line]
    rfl
  rw [Statement.ofText, hupdate, hstep, hassignment]
  rfl

theorem ofText_update {b : Char} {operation : BinaryOp}
    (known : ([b, '='], operation) ∈ Statement.compounds) (target : VariableName)
    (body : Tree Operand .loosest) :
    Statement.ofText (line (target.text :: [b, '='] :: WrittenStatement.bodyWords body)) =
      .update operation (target.text ++ [' ']) (line (WrittenStatement.bodyWords body)) := by
  have hcut : ∀ a ∈ compoundChars, ∀ b ∈ compoundChars,
      cut [a, '='] (line (target.text :: [b, '='] :: WrittenStatement.bodyWords body)) =
        if a = b then some (target.text ++ [' '], spaced (WrittenStatement.bodyWords body))
        else none := by
    intro a ha b hb
    rw [line_target]
    exact cut_target target ha hb body.words
  have htrim := trim_spaced (bodyWords_ne_nil body) (bodyWords_spec body)
  have hupdate : Statement.update?
      (line (target.text :: [b, '='] :: WrittenStatement.bodyWords body)) =
        some (.update operation (target.text ++ [' ']) (line (WrittenStatement.bodyWords body))) := by
    have hplus := hcut '+' (by decide)
    have hminus := hcut '-' (by decide)
    have htimes := hcut '*' (by decide)
    have hdivide := hcut '/' (by decide)
    simp only [Statement.compounds, List.mem_cons, Prod.mk.injEq, List.cons.injEq, and_true,
      List.not_mem_nil, or_false] at known
    -- the operators that are looked for before the right one are not found
    rcases known with ⟨rfl, rfl⟩ | ⟨rfl, rfl⟩ | ⟨rfl, rfl⟩ | ⟨rfl, rfl⟩
    · simp [Statement.update?, Statement.compounds, hplus '+' (by decide), htrim]
    · simp [Statement.update?, Statement.compounds, hplus '-' (by decide),
        hminus '-' (by decide), htrim]
    · simp [Statement.update?, Statement.compounds, hplus '*' (by decide),
        hminus '*' (by decide), htimes '*' (by decide), htrim]
    · simp [Statement.update?, Statement.compounds, hplus '/' (by decide),
        hminus '/' (by decide), htimes '/' (by decide), hdivide '/' (by decide), htrim]
  rw [Statement.ofText, hupdate]
  rfl

/-- A text with the signs of a step at its end, and no other sign of a statement, is a step. -/
theorem ofText_signs (up : Bool) {front : List Char} (h : '=' ∉ front) :
    Statement.ofText (front ++ if up then ['+', '+'] else ['-', '-']) = .step up front := by
  have hequals : '=' ∉ front ++ if up then ['+', '+'] else ['-', '-'] := by
    rw [List.mem_append, not_or]
    refine ⟨h, ?_⟩
    cases up <;> decide
  have hupdate : Statement.update? (front ++ if up then ['+', '+'] else ['-', '-']) = none := by
    refine update?_eq_none fun a _ => ?_
    rw [← List.append_nil (front ++ _), cut_append (by simp) (not_infix_of_not_mem hequals)]
    rfl
  rw [Statement.ofText, hupdate]
  cases up with
  | true => simp [Statement.step?, before?, after?]
  | false => simp [Statement.step?, before?, after?]

theorem ofText_assignment (target : VariableName) (body : Tree Operand .loosest) :
    Statement.ofText (line (target.text :: ['='] :: WrittenStatement.bodyWords body)) =
      .assignment (target.text ++ [' ']) (line (WrittenStatement.bodyWords body)) := by
  obtain ⟨front, c, hline, hc⟩ := body.exists_line_concat [target.text, ['=']]
  -- neither a step nor a compound sign is found, and the first sign of equality is that of the
  -- assignment
  have hstep : Statement.step? (line (target.text :: ['='] :: WrittenStatement.bodyWords body)) =
      none := by
    rw [show line (target.text :: ['='] :: WrittenStatement.bodyWords body) = front ++ [c] from
      hline]
    exact step?_eq_none hc
  have hupdate : Statement.update?
      (line (target.text :: ['='] :: WrittenStatement.bodyWords body)) = none := by
    refine update?_eq_none fun a ha => ?_
    obtain ⟨hspace, hequals⟩ := ne_of_mem_compoundChars ha
    have hcut : cut [a, '='] (spaced (WrittenStatement.bodyWords body)) = none :=
      cut_spaced ha body.words
    rw [line_target, cut_append (by simp) (not_infix_of_not_mem target.not_equals)]
    simp [cut, after?, hspace, hequals, hcut]
  have htrim := trim_spaced (bodyWords_ne_nil body) (bodyWords_spec body)
  have hassignment : Statement.assignment?
      (line (target.text :: ['='] :: WrittenStatement.bodyWords body)) =
        some (.assignment (target.text ++ [' ']) (line (WrittenStatement.bodyWords body))) := by
    rcases hbody : WrittenStatement.bodyWords body with _ | ⟨word, words⟩
    · exact absurd hbody (bodyWords_ne_nil body)
    · rw [hbody] at htrim
      rw [line_target, Statement.assignment?]
      change (Statement.cutEquals none (target.text ++ ' ' :: '=' :: spaced (word :: words))).map
        _ = _
      rw [spaced_cons] at htrim ⊢
      rw [cutEquals_target]
      change some (Statement.assignment _ (trim (' ' :: (word ++ spaced words)))) = _
      rw [htrim]
  rw [Statement.ofText, hupdate, hstep, hassignment]
  rfl

/-- A written statement is recognized in its form, with its parts. -/
theorem ofText_text (s : WrittenStatement) : Statement.ofText s.text = s.form := by
  cases s with
  | expression body => exact ofText_expression body
  | @update symbol operation known target body =>
    have hsymbol : ∃ b, symbol = [b, '='] := by
      simp only [Statement.compounds, List.mem_cons, Prod.mk.injEq, List.not_mem_nil, or_false]
        at known
      rcases known with ⟨rfl, -⟩ | ⟨rfl, -⟩ | ⟨rfl, -⟩ | ⟨rfl, -⟩ <;> exact ⟨_, rfl⟩
    obtain ⟨b, rfl⟩ := hsymbol
    exact ofText_update known target body
  | step up target => exact ofText_signs up target.not_equals
  | assignment target body => exact ofText_assignment target body

end Statements

end EventDeck.Expr
