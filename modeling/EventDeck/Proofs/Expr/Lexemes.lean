import EventDeck.Proofs.Expr.Nesting
import EventDeck.Proofs.Expr.Pasting

/-!
# The lexemes of expressions

A lexeme is a numeral or one of fifteen symbols.  `Lexes` says what dividing a text into lexemes
means, without a scanner: blanks are skipped, and of the lexemes that begin a text the longest is
taken.

The main statements are `tokenize_eq_ok_iff` and `tokenize_eq_error_iff`, which say that the
tokenizer divides a text so, and `tokenize_lossless`: it loses nothing but blanks, and its tokens,
written with spaces between them, are the same tokens again.
-/

namespace EventDeck.Expr

open Text

/-- The symbols of expressions. -/
def symbols : List (List Char) :=
  ["||", "&&", "==", "!=", "<=", ">=", "<", ">", "!", "+", "-", "*", "/", "(", ")"].map String.toList

/-- The written form of a token: a numeral is digits with an optional point and an optional exponent,
and a symbol is one of the list. -/
def Token.IsLexeme : Token → Prop
  | number text => ∃ whole fraction exponent, text = whole ++ (fraction ++ exponent) ∧
      IsMantissa whole fraction ∧ (exponent = [] ∨ IsExponent exponent)
  | operator op => op.symbol ∈ symbols

/-- A token is the longest lexeme that a text begins with. -/
structure Token.Longest (token : Token) (text : List Char) : Prop where
  lexeme : token.IsLexeme
  begins : token.text <+: text
  longest : ∀ other : Token, other.IsLexeme → other.text <+: text →
    other.text.length ≤ token.text.length

/-- A text that begins neither with a blank nor with a lexeme. -/
structure Barren (text : List Char) : Prop where
  begins : ∀ c cs, text = c :: cs → isBlank c = false
  barren : ∀ token : Token, token.IsLexeme → ¬ token.text <+: text

/-- A text is divided into tokens until no lexeme begins what is left. -/
inductive Lexes : List Char → List Token → List Char → Prop
  | stop {blanks left : List Char} (hblanks : blanks.all isBlank = true) (hleft : Barren left) :
      Lexes (blanks ++ left) [] left
  | next {blanks rest left : List Char} {token : Token} {tokens : List Token}
      (hblanks : blanks.all isBlank = true) (htoken : token.Longest (token.text ++ rest))
      (h : Lexes rest tokens left) : Lexes (blanks ++ (token.text ++ rest)) (token :: tokens) left

example : symbols.length = 15 ∧ symbols.Nodup := by decide

/-! ## Lexemes -/

variable {text rest more left : List Char} {token : Token} {tokens : List Token}

theorem Operator.mem_symbols (op : Operator) : op.symbol ∈ symbols := by
  cases op <;> decide

/-- Numerals are the texts that the stages of a number lead through. -/
theorem Token.isLexeme_number_iff {number : List Char} :
    (Token.number number).IsLexeme ↔ IsNumber number := by
  constructor
  · rintro ⟨whole, fraction, exponent, rfl, hmantissa, hexponent⟩
    -- the parts of a numeral are scanned one after the other, and nothing is left
    have hdigits : scanDigits? (whole ++ (fraction ++ exponent)) =
        some (whole ++ fraction, exponent) := by
      refine scanDigits?_append_of_isMantissa hmantissa ?_
      rintro c cs rfl
      obtain heq | ⟨mark, sign, digits, heq, hmark, -⟩ := hexponent
      · cases heq
      · cases heq
        rcases hmark with rfl | rfl <;> exact ⟨by decide, fun _ => by decide⟩
    have hscan : scanExponent exponent = (exponent, []) := by
      rcases hexponent with rfl | hexponent
      · rfl
      · have h : scanExponent (exponent ++ []) = _ :=
          scanExponent_append_of_isExponent hexponent nofun
        rwa [List.append_nil] at h
    have hnumber : scanNumber? (whole ++ (fraction ++ exponent)) =
        some (whole ++ (fraction ++ exponent), []) := by
      rw [scanNumber?, hdigits]
      change some (whole ++ fraction ++ (scanExponent exponent).1, (scanExponent exponent).2) = _
      rw [hscan, List.append_assoc]
    exact .of_scanNumber? hnumber
  · rintro ⟨last, hfollow, hlast⟩
    obtain ⟨whole, fraction, exponent, htext, hmantissa, hend⟩ :=
      Stage.exists_parts_of_follow? hfollow hlast
    exact ⟨whole, fraction, exponent, htext, hmantissa, hend.imp And.left And.left⟩

theorem Token.IsLexeme.isNumber (h : token.IsLexeme) :
    ∀ number, token = .number number → IsNumber number := by
  rintro number rfl
  exact isLexeme_number_iff.1 h

theorem Token.IsLexeme.ne_nil (h : token.IsLexeme) : token.text ≠ [] := by
  cases token with
  | number number => exact (isLexeme_number_iff.1 h).ne_nil
  | operator op => exact op.symbol_ne_nil

theorem isLexeme_of_nextToken? (h : nextToken? text = some (token, rest)) : token.IsLexeme := by
  cases token with
  | number number => exact Token.isLexeme_number_iff.2 (isNumber_of_nextToken? h)
  | operator op => exact op.mem_symbols

/-! ## The longest lexeme -/

/-- Of the digits at the front of a text at least those of any whole part and places are taken. -/
theorem exists_scanDigits?_of_isMantissa {whole fraction : List Char}
    (h : IsMantissa whole fraction) (more : List Char) :
    ∃ digits rest, scanDigits? (whole ++ (fraction ++ more)) = some (digits, rest) ∧
      (whole ++ fraction).length ≤ digits.length := by
  obtain ⟨hwhole, hfraction⟩ := h
  have hall : ∀ c ∈ whole, isDecimalDigit c = true := List.all_eq_true.1 hwhole
  rw [scanDigits?, List.takeWhile_append_of_pos hall, List.dropWhile_append_of_pos hall]
  dsimp only
  -- There may be more digits in the text behind; what is taken is the longest run of them.
  rcases hfraction with ⟨rfl, hne⟩ | ⟨places, rfl, hplaces, hne⟩
  · have hne : (whole ++ ([] ++ more).takeWhile isDecimalDigit).isEmpty = false := by simp [hne]
    split
    · exact ⟨_, _, by rw [hne]; rfl, by simp⟩
    · exact ⟨_, _, by rw [hne]; rfl, by simp⟩
  · have hplaces : (places ++ more).takeWhile isDecimalDigit =
        places ++ more.takeWhile isDecimalDigit :=
      List.takeWhile_append_of_pos (List.all_eq_true.1 hplaces)
    rw [List.cons_append, List.takeWhile_cons_of_neg (by decide), List.dropWhile_cons_of_neg (by decide),
      List.append_nil]
    change ∃ digits rest, (if (whole.isEmpty && ((places ++ more).takeWhile isDecimalDigit).isEmpty) =
      true then none else some (whole ++ '.' :: (places ++ more).takeWhile isDecimalDigit,
        (places ++ more).dropWhile isDecimalDigit)) = some (digits, rest) ∧ _
    rw [hplaces, if_neg]
    · exact ⟨_, _, rfl, by simp⟩
    · rcases hne with hne | hne <;> simp [hne]

/-- Of the exponent at the front of a text at least any exponent that begins it is taken. -/
theorem length_le_scanExponent {exponent : List Char} (h : IsExponent exponent) (more : List Char) :
    exponent.length ≤ (scanExponent (exponent ++ more)).1.length := by
  obtain ⟨mark, sign, digits, rfl, hmark, hsign, hne, hall⟩ := h
  -- the digits go on as far as there are any
  have hlonger : IsExponent (mark :: (sign ++ (digits ++ more.takeWhile isDecimalDigit))) :=
    ⟨mark, sign, _, rfl, hmark, hsign, by simp [hne], by simp [hall]⟩
  have hrest : ∀ c cs, more.dropWhile isDecimalDigit = c :: cs → isDecimalDigit c = false :=
    fun c cs heq => not_of_dropWhile heq
  have hscan := scanExponent_append_of_isExponent hlonger hrest
  simp only [List.cons_append, List.append_assoc, List.takeWhile_append_dropWhile] at hscan ⊢
  rw [hscan]
  simp

/-- A number at the front of a text is part of the number that is taken. -/
theorem exists_scanNumber?_of_isNumber {number : List Char} (h : IsNumber number)
    (more : List Char) :
    ∃ longer rest, scanNumber? (number ++ more) = some (longer, rest) ∧
      number.length ≤ longer.length := by
  obtain ⟨whole, fraction, exponent, rfl, hmantissa, rfl | hexponent⟩ :=
    Token.isLexeme_number_iff.2 h
  · obtain ⟨digits, rest, hdigits, hle⟩ := exists_scanDigits?_of_isMantissa hmantissa more
    rw [List.append_nil, List.append_assoc, scanNumber?, hdigits]
    exact ⟨_, _, rfl, hle.trans (by simp)⟩
  · have hdigits : scanDigits? (whole ++ (fraction ++ (exponent ++ more))) =
        some (whole ++ fraction, exponent ++ more) := by
      refine scanDigits?_append_of_isMantissa hmantissa ?_
      obtain ⟨mark, sign, digits, rfl, hmark, -⟩ := hexponent
      rintro c cs ⟨⟩
      rcases hmark with rfl | rfl <;> exact ⟨by decide, fun _ => by decide⟩
    have hle := length_le_scanExponent hexponent more
    rw [List.append_assoc, List.append_assoc, scanNumber?, hdigits]
    refine ⟨_, _, rfl, ?_⟩
    simp only [List.length_append] at hle ⊢
    omega

/-- A symbol at the front of a text is part of the symbol that is taken. -/
theorem exists_scanOperator?_of_symbol (op : Operator) (more : List Char) :
    ∃ longer rest, scanOperator? (op.symbol ++ more) = some (longer, rest) ∧
      op.symbol.length ≤ longer.symbol.length := by
  by_cases hhead : more.head? = some '='
  · obtain ⟨cs, rfl⟩ := List.head?_eq_some_iff.1 hhead
    cases op <;> exact ⟨_, _, rfl, by decide⟩
  · exact ⟨op, more, scanOperator?_symbol_append fun _ => hhead, le_rfl⟩

/-- A lexeme at the front of a text is part of the token that is taken. -/
theorem exists_nextToken?_of_isLexeme (h : token.IsLexeme) (more : List Char) :
    ∃ longer rest, nextToken? (token.text ++ more) = some (longer, rest) ∧
      token.text.length ≤ longer.text.length := by
  cases token with
  | number number =>
    obtain ⟨longer, rest, hscan, hle⟩ :=
      exists_scanNumber?_of_isNumber (Token.isLexeme_number_iff.1 h) more
    exact ⟨.number longer, rest, by rw [Token.text, nextToken?, hscan], hle⟩
  | operator op =>
    obtain ⟨longer, rest, hscan, hle⟩ := exists_scanOperator?_of_symbol op more
    refine ⟨.operator longer, rest, ?_, hle⟩
    rw [Token.text, nextToken?, scanNumber?_symbol_append, hscan]
    rfl

/-- What is taken off the front of a text is the longest lexeme that begins it. -/
theorem longest_of_nextToken? (h : nextToken? text = some (token, rest)) : token.Longest text where
  lexeme := isLexeme_of_nextToken? h
  begins := ⟨rest, (nextToken?_append h).2.symm⟩
  longest := by
    rintro other hother ⟨more, rfl⟩
    obtain ⟨longer, rest, hnext, hle⟩ := exists_nextToken?_of_isLexeme hother more
    rw [h] at hnext
    cases hnext
    exact hle

/-- A lexeme is known by its characters: no numeral begins like a symbol. -/
theorem Token.IsLexeme.eq_of_text {other : Token} (h : token.IsLexeme) (hother : other.IsLexeme)
    (htext : token.text = other.text) : token = other := by
  have hapart : ∀ {number : List Char} {op : Operator}, (Token.number number).IsLexeme →
      number ≠ op.symbol := by
    rintro number op hnumber rfl
    obtain ⟨longer, rest, hscan, -⟩ :=
      exists_scanNumber?_of_isNumber (Token.isLexeme_number_iff.1 hnumber) []
    rw [scanNumber?_symbol_append] at hscan
    cases hscan
  cases token with
  | number number => cases other with
    | number number' => exact congrArg Token.number htext
    | operator op => exact absurd htext (hapart h)
  | operator op => cases other with
    | number number => exact absurd htext.symm (hapart hother)
    | operator op' =>
      have hsymbol : op.symbol = op'.symbol := htext
      revert hsymbol
      cases op <;> cases op' <;> decide

/-- The token at the front of a text is the longest lexeme that begins it. -/
theorem nextToken?_eq_some_iff :
    nextToken? text = some (token, rest) ↔ text = token.text ++ rest ∧ token.Longest text := by
  refine ⟨fun h => ⟨(nextToken?_append h).2, longest_of_nextToken? h⟩, ?_⟩
  rintro ⟨rfl, hlongest⟩
  obtain ⟨other, after, hnext, hle⟩ := exists_nextToken?_of_isLexeme hlongest.lexeme rest
  have hother := longest_of_nextToken? hnext
  have hlength : other.text.length = token.text.length :=
    Nat.le_antisymm (hlongest.longest other hother.lexeme hother.begins) hle
  obtain ⟨htext, rfl⟩ := List.append_inj (nextToken?_append hnext).2 hlength.symm
  rw [hnext, hlongest.lexeme.eq_of_text hother.lexeme htext]

/-- No token is taken exactly when no lexeme begins the text. -/
theorem nextToken?_eq_none_iff :
    nextToken? text = none ↔ ∀ token : Token, token.IsLexeme → ¬ token.text <+: text := by
  constructor
  · rintro h token htoken ⟨more, rfl⟩
    obtain ⟨longer, rest, hnext, -⟩ := exists_nextToken?_of_isLexeme htoken more
    rw [h] at hnext
    cases hnext
  · intro h
    rcases hnext : nextToken? text with _ | ⟨token, rest⟩
    · rfl
    · exact absurd ⟨rest, (nextToken?_append hnext).2.symm⟩ (h token (isLexeme_of_nextToken? hnext))

/-! ## Texts as lexemes -/

theorem Token.Longest.not_isBlank (h : token.Longest text) : ∀ c ∈ token.text, isBlank c = false :=
  Token.not_isBlank h.lexeme.isNumber

/-- What is left of a text behind its blanks begins with something else. -/
theorem dropWhile_isBlank {blanks : List Char} (hblanks : blanks.all isBlank = true)
    (h : ∀ c cs, rest = c :: cs → isBlank c = false) :
    (blanks ++ rest).dropWhile isBlank = rest :=
  (span_append hblanks h).2

theorem Token.Longest.dropWhile_isBlank {blanks : List Char} (hblanks : blanks.all isBlank = true)
    (h : token.Longest (token.text ++ rest)) :
    (blanks ++ (token.text ++ rest)).dropWhile isBlank = token.text ++ rest := by
  refine Expr.dropWhile_isBlank hblanks fun c cs heq => ?_
  rcases htext : token.text with _ | ⟨d, ds⟩
  · exact absurd htext h.lexeme.ne_nil
  · rw [htext] at heq
    cases heq
    exact h.not_isBlank c (by rw [htext]; exact List.mem_cons_self)

theorem barren_nil : Barren [] where
  begins := nofun
  barren := fun _ htoken hbegins => htoken.ne_nil (List.prefix_nil.1 hbegins)

/-- What a division of a text into lexemes says about the tokenizer. -/
theorem tokenize_of_lexes (h : Lexes text tokens left) :
    tokenize text = if left = [] then .ok tokens
      else .error (.unexpectedInput (String.ofList (trim left))) := by
  induction h with
  | @stop blanks left hblanks hleft =>
    have hdrop : (blanks ++ left).dropWhile isBlank = left := dropWhile_isBlank hblanks hleft.begins
    have hnone : nextToken? ((blanks ++ left).dropWhile isBlank) = none := by
      rw [hdrop]
      exact nextToken?_eq_none_iff.2 hleft.barren
    rw [tokenize_of_none hnone]
    rcases left with _ | ⟨c, cs⟩
    · rw [List.append_nil, if_pos hblanks, if_pos rfl]
    · have htrim : trim (blanks ++ c :: cs) = trim (c :: cs) := by
        rw [trim, trimBy, hdrop, trim, trimBy,
          List.dropWhile_cons_of_neg (by simp [hleft.begins c cs rfl])]
      rw [if_neg (by simp [hleft.begins c cs rfl]), if_neg (List.cons_ne_nil _ _), htrim]
  | @next blanks rest left token tokens hblanks htoken h ih =>
    have hnext : nextToken? ((blanks ++ (token.text ++ rest)).dropWhile isBlank) =
        some (token, rest) := by
      rw [htoken.dropWhile_isBlank hblanks]
      exact nextToken?_eq_some_iff.2 ⟨rfl, htoken⟩
    rw [tokenize_of_nextToken? hnext, ih]
    split <;> rfl

/-- Every text is divided into lexemes in some way, up to where no lexeme begins. -/
theorem exists_lexes (text : List Char) : ∃ tokens left, Lexes text tokens left := by
  have hblanks : (text.takeWhile isBlank).all isBlank = true := by simp
  have hbegins : ∀ c cs, text.dropWhile isBlank = c :: cs → isBlank c = false :=
    fun c cs heq => not_of_dropWhile heq
  have hsplit : text.takeWhile isBlank ++ text.dropWhile isBlank = text :=
    List.takeWhile_append_dropWhile
  rcases hnext : nextToken? (text.dropWhile isBlank) with _ | ⟨token, rest⟩
  · have hstop := Lexes.stop hblanks ⟨hbegins, nextToken?_eq_none_iff.1 hnext⟩
    rw [hsplit] at hstop
    exact ⟨[], _, hstop⟩
  · have hlt := length_lt_of_nextToken? hnext
    have hle : (text.dropWhile isBlank).length ≤ text.length :=
      (List.dropWhile_sublist isBlank).length_le
    obtain ⟨htext, hlongest⟩ := nextToken?_eq_some_iff.1 hnext
    obtain ⟨tokens, left, hrest⟩ := exists_lexes rest
    rw [htext] at hlongest
    have h := Lexes.next hblanks hlongest hrest
    rw [← htext, hsplit] at h
    exact ⟨token :: tokens, left, h⟩
termination_by text.length

/-- A text has tokens exactly when it can be divided into longest lexemes, and these are its
tokens. -/
theorem tokenize_eq_ok_iff : tokenize text = .ok tokens ↔ Lexes text tokens [] := by
  refine ⟨fun h => ?_, fun h => by rw [tokenize_of_lexes h, if_pos rfl]⟩
  obtain ⟨tokens', left, hlexes⟩ := exists_lexes text
  rw [tokenize_of_lexes hlexes] at h
  split at h
  · next hleft =>
    cases h
    rwa [hleft] at hlexes
  · cases h

/-- A text has no tokens exactly when its lexemes end before something that is not blank, and the
error tells what that is. -/
theorem tokenize_eq_error_iff {e : ExprError} :
    tokenize text = .error e ↔ ∃ tokens left, Lexes text tokens left ∧ left ≠ [] ∧
      e = .unexpectedInput (String.ofList (trim left)) := by
  constructor
  · intro h
    obtain ⟨tokens, left, hlexes⟩ := exists_lexes text
    rw [tokenize_of_lexes hlexes] at h
    split at h
    · cases h
    · next hleft =>
      cases h
      exact ⟨tokens, left, hlexes, hleft, rfl⟩
  · rintro ⟨tokens, left, hlexes, hleft, rfl⟩
    rw [tokenize_of_lexes hlexes, if_neg hleft]

/-! ## Lexemes of joined texts -/

/-- A lexeme that begins a text ends before the first blank. -/
theorem Token.IsLexeme.prefix_of_append {c : Char} (h : token.IsLexeme) (hc : isBlank c = true)
    (hbegins : token.text <+: text ++ c :: rest) : token.text <+: text := by
  rcases List.prefix_or_prefix_of_prefix hbegins (List.prefix_append text (c :: rest)) with
    hshort | ⟨more, hmore⟩
  · exact hshort
  · rw [← hmore, List.prefix_append_right_inj] at hbegins
    rcases more with _ | ⟨d, ds⟩
    · exact ⟨[], by rw [List.append_nil, ← hmore, List.append_nil]⟩
    · -- the blank would be part of the lexeme
      obtain ⟨rfl, -⟩ := List.cons_prefix_cons.1 hbegins
      have hnot := Token.not_isBlank h.isNumber d
        (by rw [← hmore]; exact List.mem_append_right _ List.mem_cons_self)
      rw [hc] at hnot
      cases hnot

theorem Token.Longest.append {c : Char} (h : token.Longest text) (hc : isBlank c = true)
    (rest : List Char) : token.Longest (text ++ c :: rest) where
  lexeme := h.lexeme
  begins := h.begins.trans (List.prefix_append _ _)
  longest := fun other hother hbegins =>
    h.longest other hother (hother.prefix_of_append hc hbegins)

theorem Barren.append {c : Char} (h : Barren text) (hne : text ≠ []) (hc : isBlank c = true)
    (rest : List Char) : Barren (text ++ c :: rest) where
  begins := by
    intro d ds heq
    obtain ⟨e, es, rfl⟩ := List.exists_cons_of_ne_nil hne
    cases heq
    exact h.begins _ _ rfl
  barren := fun token htoken hbegins => h.barren token htoken (htoken.prefix_of_append hc hbegins)

theorem Lexes.blanks {blanks : List Char} (hblanks : blanks.all isBlank = true)
    (h : Lexes text tokens left) : Lexes (blanks ++ text) tokens left := by
  have hall : ∀ {more : List Char}, more.all isBlank = true → (blanks ++ more).all isBlank = true := by
    intro more hmore
    rw [List.all_append, hblanks, hmore]
    rfl
  cases h with
  | stop hmore hleft =>
    rw [← List.append_assoc]
    exact .stop (hall hmore) hleft
  | next hmore htoken h =>
    rw [← List.append_assoc]
    exact .next (hall hmore) htoken h

/-- The tokens of two texts with a blank between them are those of the one and those of the other. -/
theorem Lexes.append {c : Char} {more : List Token} (h : Lexes text tokens [])
    (hc : isBlank c = true) (hrest : Lexes rest more left) :
    Lexes (text ++ c :: rest) (tokens ++ more) left := by
  generalize hnil : ([] : List Char) = nothing at h
  induction h with
  | stop hblanks hleft =>
    subst hnil
    rw [List.append_nil, List.nil_append]
    have hone : [c].all isBlank = true := by rw [List.all_cons, hc]; rfl
    exact (hrest.blanks hone).blanks hblanks
  | @next blanks after _ token tokens hblanks htoken h ih =>
    have hlonger := htoken.append hc rest
    rw [List.append_assoc] at hlonger
    rw [List.append_assoc, List.append_assoc]
    exact .next hblanks hlonger (ih hnil)

/-- What follows a blank behind something that is no lexeme is not read. -/
theorem Lexes.extend {c : Char} (h : Lexes text tokens left) (hne : left ≠ []) (hc : isBlank c = true)
    (rest : List Char) : Lexes (text ++ c :: rest) tokens (left ++ c :: rest) := by
  induction h with
  | stop hblanks hleft =>
    rw [List.append_assoc]
    exact .stop hblanks (hleft.append hne hc rest)
  | next hblanks htoken h ih =>
    have hlonger := htoken.append hc rest
    rw [List.append_assoc] at hlonger
    rw [List.append_assoc, List.append_assoc]
    exact .next hblanks hlonger (ih hne)

/-- Blanks around a text do not matter. -/
theorem tokenize_trim_eq_ok_iff : tokenize (trim text) = .ok tokens ↔ tokenize text = .ok tokens := by
  obtain ⟨before, after, hbefore, hafter, heq⟩ := padded_trim text
  -- the text is divided as the trimmed one is
  have hdivided : ∀ {tokens left}, Lexes (trim text) tokens left →
      ∃ left', Lexes text tokens left' ∧ (left' = [] ↔ left = []) := by
    intro tokens left h
    rw [heq, List.append_assoc]
    rcases after with _ | ⟨c, cs⟩
    · rw [List.append_nil]
      exact ⟨left, h.blanks hbefore, Iff.rfl⟩
    · rw [List.all_cons, Bool.and_eq_true] at hafter
      by_cases hne : left = []
      · subst hne
        have hcs := Lexes.stop hafter.2 barren_nil
        rw [List.append_nil] at hcs
        have happend := h.append hafter.1 hcs
        rw [List.append_nil] at happend
        exact ⟨[], happend.blanks hbefore, Iff.rfl⟩
      · exact ⟨_, (h.extend hne hafter.1 cs).blanks hbefore, by simp [hne]⟩
  obtain ⟨found, left, hlexes⟩ := exists_lexes (trim text)
  obtain ⟨left', hlexes', hleft⟩ := hdivided hlexes
  rw [tokenize_of_lexes hlexes, tokenize_of_lexes hlexes']
  by_cases hnil : left = []
  · rw [if_pos hnil, if_pos (hleft.2 hnil)]
  · rw [if_neg hnil, if_neg fun h => hnil (hleft.1 h)]
    exact ⟨nofun, nofun⟩

/-! ## Lexemes written again -/

theorem Lexes.isLexeme (h : Lexes text tokens left) : ∀ token ∈ tokens, token.IsLexeme := by
  induction h with
  | stop => exact nofun
  | next hblanks htoken h ih => exact List.forall_mem_cons.2 ⟨htoken.lexeme, ih⟩

/-- A lexeme before a space is a token of its own. -/
theorem tokenize_isLexeme_append (h : token.IsLexeme) (hrest : Apart rest) :
    tokenize (token.text ++ rest) = (tokenize rest).map (token :: ·) := by
  cases token with
  | number number => exact tokenize_isNumber_append (Token.isLexeme_number_iff.1 h) hrest
  | operator op => exact tokenize_symbol_append fun _ => head?_of_apart hrest

theorem tokenize_spaced_isLexeme (h : ∀ token ∈ tokens, token.IsLexeme) :
    tokenize (spaced (tokens.map Token.text)) = .ok tokens := by
  induction tokens with
  | nil => exact tokenize_of_all_isBlank rfl
  | cons token tokens ih =>
    obtain ⟨htoken, htokens⟩ := List.forall_mem_cons.1 h
    rw [List.map_cons, spaced_cons, tokenize_cons_of_isBlank (by decide),
      tokenize_isLexeme_append htoken (apart_spaced _), ih htokens]
    rfl

/-- Lexemes in a line with spaces between them are read as they are. -/
theorem tokenize_line_isLexeme (h : ∀ token ∈ tokens, token.IsLexeme) :
    tokenize (line (tokens.map Token.text)) = .ok tokens := by
  rcases tokens with _ | ⟨token, tokens⟩
  · exact tokenize_of_all_isBlank rfl
  · obtain ⟨htoken, htokens⟩ := List.forall_mem_cons.1 h
    rw [List.map_cons, line_cons, tokenize_isLexeme_append htoken (apart_spaced _),
      tokenize_spaced_isLexeme htokens]
    rfl

/-- A text is either divided into longest lexemes up to something else, which the error tells, or
all of it: then every token is a lexeme without blanks, the tokens are the text without its blanks,
and written with spaces between them they are the same tokens again. -/
theorem tokenize_lossless (text : List Char) :
    (∃ tokens left, Lexes text tokens left ∧ left ≠ [] ∧
      tokenize text = .error (.unexpectedInput (String.ofList (trim left)))) ∨
    ∃ tokens, tokenize text = .ok tokens ∧ Lexes text tokens [] ∧
      (∀ token ∈ tokens, token.IsLexeme ∧ ∀ c ∈ token.text, isBlank c = false) ∧
      tokens.flatMap Token.text = text.filter (!isBlank ·) ∧
      tokenize (line (tokens.map Token.text)) = .ok tokens := by
  rcases htokens : tokenize text with e | tokens
  · obtain ⟨tokens, left, hlexes, hleft, rfl⟩ := tokenize_eq_error_iff.1 htokens
    exact .inl ⟨tokens, left, hlexes, hleft, rfl⟩
  · have hlexes := tokenize_eq_ok_iff.1 htokens
    have hlexemes := hlexes.isLexeme
    refine .inr ⟨tokens, rfl, hlexes, fun token hmem => ?_, (filter_of_tokenize htokens).symm,
      tokenize_line_isLexeme hlexemes⟩
    exact ⟨hlexemes token hmem, Token.not_isBlank (hlexemes token hmem).isNumber⟩

end EventDeck.Expr
