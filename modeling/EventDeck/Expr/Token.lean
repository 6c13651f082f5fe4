import EventDeck.Expr.Error
import EventDeck.Text.Digit
import EventDeck.Text.Split

/-!
# Tokens of expressions

An expression without names is a sequence of numbers and operators with blanks between them.  A
number is digits with an optional point, or a point and digits, and an optional exponent; digits
of every script are accepted.  The longest number or operator at the front of the text is taken.

The main statement is `nextToken?_append`: a token is a nonempty piece off the front of the text.
It makes the tokenizer end.
-/

namespace EventDeck.Expr

open Text

/-! ## Operators and tokens -/

/-- The operators of expressions, parentheses included. -/
inductive Operator
  | or | and | equal | unequal | lessEqual | greaterEqual | less | greater
  | not | plus | minus | times | divide | opening | closing
deriving DecidableEq, Repr

/-- How an operator is written. -/
def Operator.symbol : Operator → List Char
  | or => ['|', '|']
  | and => ['&', '&']
  | equal => ['=', '=']
  | unequal => ['!', '=']
  | lessEqual => ['<', '=']
  | greaterEqual => ['>', '=']
  | less => ['<']
  | greater => ['>']
  | not => ['!']
  | plus => ['+']
  | minus => ['-']
  | times => ['*']
  | divide => ['/']
  | opening => ['(']
  | closing => [')']

/-- A token: a number as it is written, or an operator. -/
inductive Token
  | number (text : List Char)
  | operator (op : Operator)
deriving DecidableEq, Repr

/-- The characters of a token. -/
def Token.text : Token → List Char
  | number text => text
  | operator op => op.symbol

/-! ## Numbers -/

/-- A sign at the front of a text, with the rest; nothing is taken when there is none. -/
def scanSign : List Char → List Char × List Char
  | [] => ([], [])
  | s :: rest => if s = '+' || s = '-' then ([s], rest) else ([], s :: rest)

/-- An exponent at the front of a text, with the rest; nothing is taken when there is none. -/
def scanExponent : List Char → List Char × List Char
  | [] => ([], [])
  | e :: rest =>
    -- the letter alone does not belong to the number
    if (e = 'e' || e = 'E') && !((scanSign rest).2.takeWhile isDecimalDigit).isEmpty then
      (e :: (scanSign rest).1 ++ (scanSign rest).2.takeWhile isDecimalDigit,
        (scanSign rest).2.dropWhile isDecimalDigit)
    else ([], e :: rest)

/-- The digits of a number at the front of a text, with the rest. -/
def scanDigits? (text : List Char) : Option (List Char × List Char) :=
  let whole := text.takeWhile isDecimalDigit
  match text.dropWhile isDecimalDigit with
  | '.' :: rest =>
    let places := rest.takeWhile isDecimalDigit
    if whole.isEmpty && places.isEmpty then none
    else some (whole ++ '.' :: places, rest.dropWhile isDecimalDigit)
  | rest => if whole.isEmpty then none else some (whole, rest)

/-- A number at the front of a text, with the rest. -/
def scanNumber? (text : List Char) : Option (List Char × List Char) :=
  (scanDigits? text).map fun (digits, rest) =>
    (digits ++ (scanExponent rest).1, (scanExponent rest).2)

theorem scanSign_append (text : List Char) : (scanSign text).1 ++ (scanSign text).2 = text := by
  unfold scanSign
  split
  · rfl
  · split <;> simp

theorem scanExponent_append (text : List Char) :
    (scanExponent text).1 ++ (scanExponent text).2 = text := by
  unfold scanExponent
  split
  · rfl
  · split
    · simp [scanSign_append]
    · simp

theorem scanDigits?_append {text digits rest : List Char}
    (h : scanDigits? text = some (digits, rest)) : digits ≠ [] ∧ text = digits ++ rest := by
  have key : text = text.takeWhile isDecimalDigit ++ text.dropWhile isDecimalDigit := by simp
  unfold scanDigits? at h
  simp only at h
  split at h
  · next more hd =>
    split at h
    · cases h
    · cases h
      refine ⟨by simp, ?_⟩
      rw [hd] at key
      simpa using key
  · split at h
    · cases h
    · next hne =>
      cases h
      exact ⟨by simpa using hne, key⟩

/-- A number is a nonempty piece off the front of the text. -/
theorem scanNumber?_append {text number rest : List Char}
    (h : scanNumber? text = some (number, rest)) : number ≠ [] ∧ text = number ++ rest := by
  obtain ⟨⟨digits, more⟩, hd, heq⟩ := Option.map_eq_some_iff.1 h
  obtain ⟨hne, htext⟩ := scanDigits?_append hd
  cases heq
  refine ⟨by simp [hne], ?_⟩
  rw [htext, List.append_assoc, scanExponent_append]

/-! ## Tokens off the front -/

/-- An operator at the front of a text, with the rest; the longer of two is taken. -/
def scanOperator? : List Char → Option (Operator × List Char)
  | '|' :: '|' :: rest => some (.or, rest)
  | '&' :: '&' :: rest => some (.and, rest)
  | '=' :: '=' :: rest => some (.equal, rest)
  | '!' :: '=' :: rest => some (.unequal, rest)
  | '<' :: '=' :: rest => some (.lessEqual, rest)
  | '>' :: '=' :: rest => some (.greaterEqual, rest)
  | '<' :: rest => some (.less, rest)
  | '>' :: rest => some (.greater, rest)
  | '!' :: rest => some (.not, rest)
  | '+' :: rest => some (.plus, rest)
  | '-' :: rest => some (.minus, rest)
  | '*' :: rest => some (.times, rest)
  | '/' :: rest => some (.divide, rest)
  | '(' :: rest => some (.opening, rest)
  | ')' :: rest => some (.closing, rest)
  | _ => none

/-- An operator is its symbol off the front of the text. -/
theorem scanOperator?_append {text rest : List Char} {op : Operator}
    (h : scanOperator? text = some (op, rest)) : text = op.symbol ++ rest := by
  unfold scanOperator? at h
  split at h <;> first | cases h; rfl | cases h

/-- The token at the front of a text, with the rest. -/
def nextToken? (text : List Char) : Option (Token × List Char) :=
  match scanNumber? text with
  | some (number, rest) => some (.number number, rest)
  | none => (scanOperator? text).map fun (op, rest) => (.operator op, rest)

theorem Operator.symbol_ne_nil (op : Operator) : op.symbol ≠ [] := by
  cases op <;> simp [symbol]

/-- A token is a nonempty piece off the front of the text. -/
theorem nextToken?_append {text rest : List Char} {token : Token}
    (h : nextToken? text = some (token, rest)) : token.text ≠ [] ∧ text = token.text ++ rest := by
  unfold nextToken? at h
  split at h
  · next hn =>
    cases h
    exact scanNumber?_append hn
  · obtain ⟨⟨op, r⟩, ho, heq⟩ := Option.map_eq_some_iff.1 h
    cases heq
    exact ⟨op.symbol_ne_nil, scanOperator?_append ho⟩

theorem length_lt_of_nextToken? {text rest : List Char} {token : Token}
    (h : nextToken? text = some (token, rest)) : rest.length < text.length := by
  obtain ⟨hne, htext⟩ := nextToken?_append h
  have := List.length_pos_iff.2 hne
  rw [htext, List.length_append]
  omega

/-! ## The tokenizer -/

/-- The tokens of a text, or what stands where a token should begin. -/
def tokenize (text : List Char) : Except ExprError (List Token) :=
  match _h : nextToken? (text.dropWhile isBlank) with
  | some (token, rest) => (tokenize rest).map (token :: ·)
  | none =>
    if text.all isBlank then .ok [] else .error (.unexpectedInput (String.ofList (trim text)))
termination_by text.length
decreasing_by
  have hlt := length_lt_of_nextToken? ‹nextToken? _ = _›
  have hle := (List.dropWhile_sublist isBlank (l := text)).length_le
  omega

example : tokenize "1.5e3>=(.5".toList =
    .ok [.number "1.5e3".toList, .operator .greaterEqual, .operator .opening,
      .number ".5".toList] := by cbv

end EventDeck.Expr
