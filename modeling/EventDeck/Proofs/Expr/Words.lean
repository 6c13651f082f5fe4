import EventDeck.Expr.Statement
import EventDeck.Proofs.Expr.Names
import EventDeck.Proofs.Expr.Tokens
import EventDeck.Proofs.Expr.Tree
import EventDeck.Proofs.Text.Padded

/-!
# Lines of words

A syntax tree over names and literals is written down as words with one space between them.  The
words are the operands and operators of the tree; `line` writes them in a line.

The main statement is `replaceNames_line`: in a line of words, names are replaced word by word.
-/

namespace EventDeck.Expr

open Text Decimal

/-! ## Literals and names -/

/-- ASCII digits, at least one. -/
structure Digits where
  text : List Char
  plain : text.all isPlainDigit = true
  ne_nil : text ≠ []

/-- The digits of a literal before its exponent: `d`, `d.d` or `.d`. -/
inductive Mantissa
  | whole (digits : Digits)
  | pointed (before : Option Digits) (places : Digits)

/-- The exponent of a literal; a sign says whether it is negative. -/
structure Exponent where
  upper : Bool
  sign : Option Bool
  digits : Digits

/-- A number that is written in an expression. -/
structure Literal where
  mantissa : Mantissa
  exponent : Option Exponent

/-- The name of a variable. -/
structure VariableName where
  text : List Char
  isName : isName text = true
  ne_random : text ≠ randomWord

/-- An operand of a written expression. -/
inductive Operand
  | name (name : VariableName)
  | literal (literal : Literal)

/-- How the part before an exponent is written. -/
def Mantissa.text : Mantissa → List Char
  | whole digits => digits.text
  | pointed none places => '.' :: places.text
  | pointed (some before) places => before.text ++ '.' :: places.text

/-- How the sign of an exponent is written. -/
def signText : Option Bool → List Char
  | none => []
  | some negative => [if negative then '-' else '+']

/-- How an exponent is written. -/
def Exponent.text (e : Exponent) : List Char :=
  (if e.upper then 'E' else 'e') :: (signText e.sign ++ e.digits.text)

/-- How a literal is written. -/
def Literal.text (l : Literal) : List Char :=
  l.mantissa.text ++ (l.exponent.map Exponent.text).getD []

/-- How an operand is written. -/
def Operand.text : Operand → List Char
  | name n => n.text
  | literal l => l.text

/-! ## Literals are numbers -/

theorem Digits.decimal (d : Digits) : d.text.all isDecimalDigit = true := by
  have h := d.plain
  rw [List.all_eq_true] at h ⊢
  exact fun c hc => isDecimalDigit_of_isPlainDigit (h c hc)

/-- Digits lead on to the stage of a digit. -/
theorem Digits.follow? (d : Digits) (stage : Stage) : stage.follow? d.text = some stage.digit :=
  Stage.follow?_digits d.decimal d.ne_nil stage

theorem Mantissa.exists_follow? (m : Mantissa) :
    ∃ stage, Stage.start.follow? m.text = some stage ∧ (stage = .whole ∨ stage = .places) := by
  rcases m with digits | ⟨_ | before, places⟩
  · exact ⟨.whole, digits.follow? _, .inl rfl⟩
  · exact ⟨.places, places.follow? .point, .inr rfl⟩
  · refine ⟨.places, ?_, .inr rfl⟩
    rw [Mantissa.text, Stage.follow?_append, before.follow?]
    exact places.follow? .places

theorem Exponent.follow? (e : Exponent) {stage : Stage} (h : stage = .whole ∨ stage = .places) :
    stage.follow? e.text = some .power := by
  have hmark : stage.step? (if e.upper then 'E' else 'e') = some .mark := by
    rcases h with rfl | rfl <;> split <;> decide
  rw [Exponent.text, Stage.follow?, hmark, Option.bind_some, Stage.follow?_append]
  rcases e.sign with _ | _ | _
  · exact e.digits.follow? .mark
  · exact e.digits.follow? .sign
  · exact e.digits.follow? .sign

/-- A literal is a number for the scanner. -/
theorem Literal.isNumber (l : Literal) : IsNumber l.text := by
  obtain ⟨stage, hfollow, hstage⟩ := l.mantissa.exists_follow?
  rw [IsNumber, Literal.text]
  rcases l.exponent with _ | e
  · refine ⟨stage, ?_, by rcases hstage with rfl | rfl <;> rfl⟩
    rw [Option.map_none, Option.getD_none, List.append_nil, hfollow]
  · refine ⟨.power, ?_, rfl⟩
    rw [Option.map_some, Option.getD_some, Stage.follow?_append, hfollow, Option.bind_some,
      e.follow? hstage]

/-! ## Words -/

/-- A word of a written expression: an operand or an operator. -/
inductive Word
  | operand (operand : Operand)
  | operator (op : Operator)

/-- How a word is written. -/
def Word.text : Word → List Char
  | operand o => o.text
  | operator op => op.symbol

/-- The words of a tree, from left to right. -/
def Tree.words {level : Level} (tree : Tree Operand level) : List Word :=
  tree.spell (fun o => [.operand o]) fun op => [.operator op]

/-- Words in a line, with one space between them. -/
def line (words : List (List Char)) : List Char :=
  [' '].intercalate words

/-- Words in a line, with a space before each of them. -/
def spaced (words : List (List Char)) : List Char :=
  words.flatMap (' ' :: ·)

theorem line_cons (word : List Char) (words : List (List Char)) :
    line (word :: words) = word ++ spaced words := by
  induction words generalizing word with
  | nil => simp [line, spaced, List.intercalate]
  | cons next words ih =>
    have hline : line (word :: next :: words) = word ++ ' ' :: line (next :: words) := by
      simp [line, List.intercalate]
    rw [hline, ih, spaced, spaced, List.flatMap_cons, List.cons_append]

theorem spaced_cons (word : List Char) (words : List (List Char)) :
    spaced (word :: words) = ' ' :: (word ++ spaced words) := by
  rw [spaced, List.flatMap_cons]
  rfl

/-- What follows a word is nothing, or a space and the next word. -/
def Apart (rest : List Char) : Prop :=
  ∀ c cs, rest = c :: cs → c = ' '

/-- Words stand apart from each other by a space. -/
theorem apart_spaced (words : List (List Char)) : Apart (spaced words) := by
  intro c cs h
  rcases words with _ | ⟨word, words⟩
  · cases h
  · rw [spaced_cons] at h
    cases h
    rfl

theorem head?_of_apart {rest : List Char} (h : Apart rest) : rest.head? ≠ some '=' := by
  rcases rest with _ | ⟨c, cs⟩
  · simp
  · rw [h c cs rfl]
    simp

/-! ## The characters of words -/

/-- The characters of names are among those between the digits and the letters. -/
theorem toNat_of_isNameChar {c : Char} (h : isNameChar c = true) :
    48 ≤ c.toNat ∧ c.toNat ≤ 122 := by
  have key : ∀ a b : Char, (a ≤ b) = (a.toNat ≤ b.toNat) := fun _ _ => rfl
  simp only [isNameChar, isNameStart, Bool.or_eq_true, Bool.and_eq_true, decide_eq_true_eq, key,
    beq_iff_eq] at h
  rcases h with ((⟨h₁, h₂⟩ | ⟨h₁, h₂⟩) | rfl) | ⟨h₁, h₂⟩
  · exact ⟨Nat.le_trans (by decide) h₁, h₂⟩
  · exact ⟨Nat.le_trans (by decide) h₁, Nat.le_trans h₂ (by decide)⟩
  · decide
  · exact ⟨h₁, Nat.le_trans h₂ (by decide)⟩

theorem isNameChar_of_isName {text : List Char} (h : isName text = true) :
    ∀ c ∈ text, isNameChar c = true := by
  rcases text with _ | ⟨c, cs⟩
  · simp
  · rw [isName, Bool.and_eq_true, List.all_eq_true] at h
    rintro d (_ | ⟨_, hd⟩)
    · exact isNameChar_of_isNameStart h.1
    · exact h.2 d hd

theorem VariableName.isNameChar (n : VariableName) : ∀ c ∈ n.text, isNameChar c = true :=
  isNameChar_of_isName n.isName

theorem VariableName.ne_nil (n : VariableName) : n.text ≠ [] := by
  have h := n.isName
  intro hnil
  rw [hnil] at h
  cases h

/-- An operand is written with name characters or with the characters of numbers. -/
theorem Operand.mem_text {o : Operand} {c : Char} (h : c ∈ o.text) :
    EventDeck.Text.isNameChar c = true ∨ IsNumberChar c := by
  rcases o with n | l
  · exact .inl (n.isNameChar c h)
  · exact .inr (l.isNumber.isNumberChar c h)

theorem Operand.not_equals (o : Operand) : '=' ∉ o.text := by
  intro h
  rcases o.mem_text h with h | h
  · exact absurd h (by decide)
  · exact absurd h (by decide)

theorem isBlank_of_isNameChar {c : Char} (h : isNameChar c = true) : isBlank c = false := by
  obtain ⟨hlo, hhi⟩ := toNat_of_isNameChar h
  simp only [isBlank, isWhiteSpace, Bool.or_eq_false_iff, Bool.and_eq_false_iff, beq_eq_false_iff_ne,
    decide_eq_false_iff_not, ne_eq]
  omega

theorem Word.ne_nil (w : Word) : w.text ≠ [] := by
  rcases w with (n | l) | op
  · exact n.ne_nil
  · exact l.isNumber.ne_nil
  · exact op.symbol_ne_nil

/-- No word has a blank in it. -/
theorem Word.not_isBlank (w : Word) : ∀ c ∈ w.text, isBlank c = false := by
  rcases w with o | op
  · intro c hc
    rcases o.mem_text hc with h | h
    · exact isBlank_of_isNameChar h
    · exact h.not_isBlank
  · have hall : op.symbol.all (fun c => !isBlank c) = true := by cases op <;> rfl
    change ∀ c ∈ op.symbol, isBlank c = false
    simpa using hall

/-! ## Replacing names in a line -/

section Replace

variable {m : Type → Type} [Monad m] [LawfulMonad m] {f : List Char → m (List Char)}
variable {rest : List Char}

theorem Apart.not_isNameChar (h : Apart rest) :
    ∀ c cs, rest = c :: cs → isNameChar c = false := by
  intro c cs heq
  rw [h c cs heq]
  decide

theorem Digits.isNameChar (d : Digits) : d.text.all isNameChar = true := by
  have h := d.plain
  rw [List.all_eq_true] at h ⊢
  intro c hc
  have hplain : ('0' ≤ c && c ≤ '9') = true := h c hc
  rw [EventDeck.Text.isNameChar, hplain, Bool.or_true]

/-- A digit of whatever script begins no name. -/
theorem not_isNameStart_of_isDecimalDigit {c : Char} (h : isDecimalDigit c = true) :
    isNameStart c = false := by
  have hrange : c.toNat ≤ 57 ∨ 128 ≤ c.toNat :=
    (isDecimalDigit_cases h).imp (fun h => (toNat_of_isPlainDigit h).2) And.left
  cases hstart : isNameStart c with
  | false => rfl
  | true =>
    have key : ∀ a b : Char, (a ≤ b) = (a.toNat ≤ b.toNat) := fun _ _ => rfl
    simp only [isNameStart, Bool.or_eq_true, Bool.and_eq_true, decide_eq_true_eq, key,
      beq_iff_eq] at hstart
    rcases hstart with (⟨hlo, hhi⟩ | ⟨hlo, hhi⟩) | rfl
    · have hlo : 97 ≤ c.toNat := hlo
      have hhi : c.toNat ≤ 122 := hhi
      omega
    · have hlo : 65 ≤ c.toNat := hlo
      have hhi : c.toNat ≤ 90 := hhi
      omega
    · exact absurd hrange (by decide)

theorem Digits.exists_cons (d : Digits) : ∃ c cs, d.text = c :: cs ∧ isNameStart c = false := by
  rcases h : d.text with _ | ⟨c, cs⟩
  · exact absurd h d.ne_nil
  · have hdecimal := d.decimal
    rw [h, List.all_cons, Bool.and_eq_true] at hdecimal
    exact ⟨c, cs, rfl, not_isNameStart_of_isDecimalDigit hdecimal.1⟩

/-- A run of name characters that begins with digits stays. -/
theorem replaceNames_digits (d : Digits) (more : List Char)
    (hmore : more.all isNameChar = true)
    (hrest : ∀ c cs, rest = c :: cs → isNameChar c = false) :
    replaceNames f (d.text ++ (more ++ rest)) = (d.text ++ more ++ ·) <$> replaceNames f rest := by
  obtain ⟨c, cs, heq, hstart⟩ := d.exists_cons
  rw [← List.append_assoc, replaceNames_append _ _ hrest]
  · rw [heq, List.cons_append, replaceRun_of_not hstart, pure_bind, map_eq_pure_bind]
  · rw [List.all_append, d.isNameChar, hmore]
    rfl
  · intro hnil
    exact d.ne_nil (List.append_eq_nil_iff.1 hnil).1

/-- Digits with an exponent stay. -/
theorem replaceNames_exponent (d : Digits) (e : Option Exponent) (hrest : Apart rest) :
    replaceNames f (d.text ++ ((e.map Exponent.text).getD [] ++ rest)) =
      (d.text ++ (e.map Exponent.text).getD [] ++ ·) <$> replaceNames f rest := by
  rcases e with _ | ⟨upper, sign, digits⟩
  · exact replaceNames_digits d [] rfl hrest.not_isNameChar
  · have hmark : isNameChar (if upper then 'E' else 'e') = true := by cases upper <;> decide
    rcases sign with _ | negative
    · refine replaceNames_digits d _ ?_ hrest.not_isNameChar
      change (_ && digits.text.all isNameChar) = true
      rw [hmark, digits.isNameChar]
      rfl
    · -- the sign of the exponent divides the literal into two runs
      have hsign : isNameChar (if negative then '-' else '+') = false := by
        cases negative <;> decide
      have hdivide : ∀ c cs, (if negative then '-' else '+') :: (digits.text ++ rest) = c :: cs →
          isNameChar c = false := by
        rintro _ _ ⟨⟩
        exact hsign
      have hdigits : replaceNames f (digits.text ++ rest) =
          (digits.text ++ ·) <$> replaceNames f rest := by
        have h := replaceNames_digits (f := f) digits [] rfl hrest.not_isNameChar
        rwa [List.nil_append, List.append_nil] at h
      change replaceNames f (d.text ++ ([if upper then 'E' else 'e'] ++
        (if negative then '-' else '+') :: (digits.text ++ rest))) = _
      rw [replaceNames_digits d _ (by simp [hmark]) hdivide, replaceNames_cons hsign, hdigits]
      simp [Exponent.text, signText]

/-- A literal keeps its letters, since they follow a digit. -/
theorem replaceNames_literal (l : Literal) (hrest : Apart rest) :
    replaceNames f (l.text ++ rest) = (l.text ++ ·) <$> replaceNames f rest := by
  obtain ⟨mantissa, exponent⟩ := l
  have hpoint : isNameChar '.' = false := by decide
  rw [Literal.text, List.append_assoc]
  rcases mantissa with digits | ⟨_ | before, places⟩
  · exact replaceNames_exponent digits exponent hrest
  · change replaceNames f ('.' :: (places.text ++ _)) = _
    rw [replaceNames_cons hpoint, replaceNames_exponent places exponent hrest, Functor.map_map]
    rfl
  · have hdivide : ∀ c cs, '.' :: (places.text ++ ((exponent.map Exponent.text).getD [] ++ rest)) =
        c :: cs → isNameChar c = false := by
      rintro _ _ ⟨⟩
      exact hpoint
    -- the point divides the literal into two runs
    change replaceNames f ((before.text ++ '.' :: places.text) ++ _) = _
    rw [List.append_assoc]
    refine (replaceNames_digits before [] rfl hdivide).trans ?_
    rw [replaceNames_cons hpoint, replaceNames_exponent places exponent hrest]
    simp [Mantissa.text]

/-- What takes the place of a word. -/
def Word.replace (f : List Char → m (List Char)) : Word → m (List Char)
  | operand (.name n) => f n.text
  | operand (.literal l) => pure l.text
  | operator op => pure op.symbol

theorem replaceNames_symbol (op : Operator) :
    replaceNames f (op.symbol ++ rest) = (op.symbol ++ ·) <$> replaceNames f rest := by
  have key : ∀ symbol : List Char, (∀ c ∈ symbol, isNameChar c = false) →
      replaceNames f (symbol ++ rest) = (symbol ++ ·) <$> replaceNames f rest := by
    intro symbol
    induction symbol with
    | nil => simp
    | cons c cs ih =>
      intro h
      rw [List.cons_append, replaceNames_cons (h c List.mem_cons_self),
        ih fun d hd => h d (List.mem_cons_of_mem _ hd)]
      simp
  have hsymbol : op.symbol.all (fun c => !isNameChar c) = true := by cases op <;> rfl
  exact key op.symbol (by simpa using hsymbol)

/-- A word is replaced as a whole. -/
theorem replaceNames_word (word : Word) (hrest : Apart rest) :
    replaceNames f (word.text ++ rest) = do
      let first ← word.replace f
      let others ← replaceNames f rest
      return first ++ others := by
  rcases word with (n | l) | op
  · have hvariable : isVariableRun n.text = true := by
      have h := n.isName
      rcases hn : n.text with _ | ⟨c, cs⟩
      · exact absurd hn n.ne_nil
      · rw [hn, isName, Bool.and_eq_true] at h
        have hne := n.ne_random
        rw [hn] at hne
        rw [isVariableRun, List.head?_cons, Option.any_some, h.1, bne_iff_ne.2 hne]
        rfl
    change replaceNames f (n.text ++ rest) = _
    rw [replaceNames_append (List.all_eq_true.2 n.isNameChar) n.ne_nil hrest.not_isNameChar,
      replaceRun, if_pos hvariable]
    rfl
  · change replaceNames f (l.text ++ rest) = _
    rw [replaceNames_literal l hrest, Word.replace, pure_bind, map_eq_pure_bind]
  · change replaceNames f (op.symbol ++ rest) = _
    rw [replaceNames_symbol, Word.replace, pure_bind, map_eq_pure_bind]

/-- The words of a line are replaced one by one. -/
theorem replaceNames_spaced (words : List Word) :
    replaceNames f (spaced (words.map Word.text)) = spaced <$> words.mapM (Word.replace f) := by
  induction words with
  | nil => simp [spaced]
  | cons word words ih =>
    rw [List.map_cons, spaced_cons, replaceNames_cons (by decide),
      replaceNames_word word (apart_spaced _), ih, List.mapM_cons]
    simp [spaced]

/-- In a line every word is replaced as a whole. -/
theorem replaceNames_line (words : List Word) :
    replaceNames f (line (words.map Word.text)) = line <$> words.mapM (Word.replace f) := by
  rcases words with _ | ⟨word, words⟩
  · simp [line, List.intercalate]
  · rw [List.map_cons, line_cons, replaceNames_word word (apart_spaced _), replaceNames_spaced,
      List.mapM_cons]
    simp [line_cons]

end Replace

/-! ## The ends of a line -/

/-- A line ends with its last word. -/
theorem exists_line_concat (words : List (List Char)) (word : List Char) :
    ∃ front, line (words ++ [word]) = front ++ word := by
  rcases words with _ | ⟨first, others⟩
  · exact ⟨[], by simp [line_cons, spaced]⟩
  · refine ⟨first ++ (spaced others ++ [' ']), ?_⟩
    rw [List.cons_append, line_cons]
    simp [spaced]

/-- A line of words without blanks has none at its ends. -/
theorem trim_line {words : List (List Char)}
    (h : ∀ word ∈ words, word ≠ [] ∧ ∀ c ∈ word, isBlank c = false) :
    trim (line words) = line words := by
  refine trim_eq_self ?_ ?_
  · intro c hc
    -- the first character of a line is that of its first word
    rcases words with _ | ⟨word, words⟩
    · cases hc
    · obtain ⟨hne, hblank⟩ := h word List.mem_cons_self
      rcases word with _ | ⟨d, ds⟩
      · exact absurd rfl hne
      · rw [line_cons] at hc
        cases hc
        exact hblank c List.mem_cons_self
  · intro c hc
    -- and the last one that of its last word
    rcases List.eq_nil_or_concat words with rfl | ⟨front, word, rfl⟩
    · cases hc
    · rw [List.concat_eq_append] at h hc
      obtain ⟨hne, hblank⟩ := h word (by simp)
      obtain ⟨before, heq⟩ := exists_line_concat front word
      rw [heq, List.getLast?_append] at hc
      cases hlast : word.getLast? with
      | none => exact absurd (List.getLast?_eq_none_iff.1 hlast) hne
      | some d =>
        rw [hlast] at hc
        cases hc
        exact hblank c (List.mem_of_getLast? hlast)

/-- The last word of a tree is an operand or a closing parenthesis. -/
theorem Tree.exists_words_concat {level : Level} (tree : Tree Operand level) :
    ∃ front word, tree.words = front ++ [word] ∧
      ((∃ o, word = .operand o) ∨ word = .operator .closing) := by
  induction tree with
  | operand o => exact ⟨[], _, rfl, .inl ⟨o, rfl⟩⟩
  | group inner =>
    refine ⟨.operator .opening :: inner.words, _, ?_, .inr rfl⟩
    rfl
  | sign negative inner ih =>
    obtain ⟨front, word, heq, hword⟩ := ih
    exact ⟨.operator (signOperator negative) :: front, word, congrArg (_ :: ·) heq, hword⟩
  | not inner ih =>
    obtain ⟨front, word, heq, hword⟩ := ih
    exact ⟨.operator .not :: front, word, congrArg (_ :: ·) heq, hword⟩
  | @join _ op _ _ left right _ ih | @compare op _ _ left right _ ih =>
    obtain ⟨front, word, heq, hword⟩ := ih
    refine ⟨left.words ++ .operator op :: front, word, ?_, hword⟩
    change left.words ++ .operator op :: right.words = _
    rw [heq, List.append_assoc]
    rfl
  | unsigned inner ih | single inner ih | sum inner ih | plain inner ih => exact ih

theorem Digits.exists_concat (d : Digits) :
    ∃ front c, d.text = front ++ [c] ∧ c ≠ '+' ∧ c ≠ '-' := by
  rcases List.eq_nil_or_concat d.text with h | ⟨front, c, h⟩
  · exact absurd h d.ne_nil
  · rw [List.concat_eq_append] at h
    have hc : isPlainDigit c = true := by
      have hplain := d.plain
      rw [List.all_eq_true] at hplain
      exact hplain c (by rw [h]; simp)
    refine ⟨front, c, h, ?_, ?_⟩ <;> rintro rfl <;> exact absurd hc (by decide)

theorem Literal.exists_concat (l : Literal) : ∃ front d, l.text = front ++ Digits.text d := by
  obtain ⟨mantissa, _ | e⟩ := l
  · change ∃ front d, mantissa.text ++ [] = front ++ Digits.text d
    rw [List.append_nil]
    rcases mantissa with digits | ⟨_ | before, places⟩
    · exact ⟨[], digits, rfl⟩
    · exact ⟨['.'], places, rfl⟩
    · exact ⟨before.text ++ ['.'], places, by simp [Mantissa.text]⟩
  · refine ⟨mantissa.text ++ (if e.upper then 'E' else 'e') :: signText e.sign, e.digits, ?_⟩
    simp [Literal.text, Exponent.text]

/-- A written tree does not end with a sign. -/
theorem Tree.exists_line_concat {level : Level} (tree : Tree Operand level)
    (words : List (List Char)) :
    ∃ front c, line (words ++ tree.words.map Word.text) = front ++ [c] ∧ c ≠ '+' ∧ c ≠ '-' := by
  obtain ⟨others, word, hwords, hword⟩ := tree.exists_words_concat
  -- the last word is a name, a number or a closing bracket
  have hend : ∃ front c, word.text = front ++ [c] ∧ c ≠ '+' ∧ c ≠ '-' := by
    rcases hword with ⟨n | l, rfl⟩ | rfl
    · rcases List.eq_nil_or_concat n.text with h | ⟨front, c, h⟩
      · exact absurd h n.ne_nil
      · rw [List.concat_eq_append] at h
        have hc := n.isNameChar c (by rw [h]; simp)
        refine ⟨front, c, h, ?_, ?_⟩ <;> rintro rfl <;> exact absurd hc (by decide)
    · obtain ⟨front, d, hd⟩ := l.exists_concat
      obtain ⟨more, c, hc, hne⟩ := d.exists_concat
      refine ⟨front ++ more, c, ?_, hne⟩
      change l.text = _
      rw [hd, hc, List.append_assoc]
    · exact ⟨[], ')', rfl, by decide, by decide⟩
  obtain ⟨front, c, hc, hne⟩ := hend
  obtain ⟨before, hline⟩ := EventDeck.Expr.exists_line_concat (words ++ others.map Word.text)
    word.text
  refine ⟨before ++ front, c, ?_, hne⟩
  rw [hwords, List.map_append, ← List.append_assoc]
  change line (_ ++ [word.text]) = _
  rw [hline, hc, List.append_assoc]

end EventDeck.Expr
