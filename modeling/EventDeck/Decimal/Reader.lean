import EventDeck.Decimal.Numeral
import EventDeck.Text.Digit
import EventDeck.Text.Split

/-!
# Reading numbers

A number is an optional sign and a numeral, `inf`, `infinity` or `nan`.  A numeral has digits
before or after an optional point and an optional exponent.  The free form also accepts white
space around the number, digits of every script, and single underscores between digits.
-/

namespace EventDeck.Decimal

open Text

/-! ## Plain numbers -/

/-- An ASCII digit. -/
def isPlainDigit (c : Char) : Bool :=
  '0' ≤ c && c ≤ '9'

/-- The value of a run of digits. -/
def natOfDigits (digits : List Char) : Nat :=
  digits.foldl (fun value c => 10 * value + (c.toNat - 48)) 0

/-- Takes a sign off the front of a text; whether it is a minus, and the rest. -/
def takeSign : List Char → Bool × List Char
  | '-' :: rest => (true, rest)
  | '+' :: rest => (false, rest)
  | text => (false, text)

/-- The exponent after the digits of a numeral: none at the end of the text, and otherwise an `e`
and a signed run of digits that reaches to the end. -/
def exponent? : List Char → Option Int
  | [] => some 0
  | c :: rest =>
    if c = 'e' || c = 'E' then
      let (negative, digits) := takeSign rest
      if digits.isEmpty || !digits.all isPlainDigit then none
      else some (if negative then -(natOfDigits digits : Int) else natOfDigits digits)
    else none

/-- A numeral without sign. -/
def numeral? (text : List Char) : Option Numeral :=
  let before := text.takeWhile isPlainDigit
  let (after, rest) :=
    match text.dropWhile isPlainDigit with
    | '.' :: rest => (rest.takeWhile isPlainDigit, rest.dropWhile isPlainDigit)
    | rest => ([], rest)
  -- a point alone is no numeral
  if before.isEmpty && after.isEmpty then none
  else (exponent? rest).map fun exponent =>
    ⟨natOfDigits (before ++ after), exponent - after.length⟩

/-- The words for the numbers that have no digits, in any case. -/
def word? (text : List Char) : Option Float :=
  let word := text.map Char.toLower
  if word = "inf".toList || word = "infinity".toList then some (1.0 / 0.0)
  else if word = "nan".toList then some (0.0 / 0.0)
  else none

/-- A number in plain form: an optional sign and a word or a numeral, and nothing else. -/
def readPlain? (text : List Char) : Option Float :=
  let (negative, rest) := takeSign text
  ((word? rest).or ((numeral? rest).map Numeral.toFloat)).map fun x => if negative then -x else x

/-! ## Free form -/

/-- Decimal digits of every script become ASCII digits. -/
def plainDigit (c : Char) : Char :=
  match digitValue? c with
  | some value => Char.ofNat (48 + value)
  | none => c

/-- Removes underscores, each of which must stand between two digits. -/
def dropUnderscores? : List Char → Option (List Char)
  | [] => some []
  | '_' :: _ => none
  | a :: '_' :: b :: rest =>
    if isPlainDigit a && isPlainDigit b then (dropUnderscores? (b :: rest)).map (a :: ·) else none
  | a :: rest => (dropUnderscores? rest).map (a :: ·)

/-- A text prepared for reading a number in free form. -/
def freeForm? (text : List Char) : Option (List Char) :=
  dropUnderscores? ((trimBy isWhiteSpace text).map plainDigit)

/-- A number in free form. -/
def read? (text : List Char) : Option Float :=
  (freeForm? text).bind readPlain?

/-- The most digits that a whole number may be written with. -/
def digitLimit : Nat := 4300

/-- A whole number in free form: an optional sign and digits. -/
def readInteger? (text : List Char) : Option Int :=
  (freeForm? text).bind fun plain =>
    let (negative, digits) := takeSign plain
    if digits.isEmpty || !digits.all isPlainDigit then none
    else some (if negative then -(natOfDigits digits : Int) else natOfDigits digits)

end EventDeck.Decimal
