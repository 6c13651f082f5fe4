import EventDeck.Decimal.Reader
import EventDeck.Json.Basic

/-!
# Reading JSON

The texts that are read are those of the standard, and besides them the numbers `NaN`, `Infinity`
and `-Infinity`.  A text that is not JSON is refused at the position where reading stopped, which
is part of the answer: a string that never ends is refused where it begins, a bad escape at its
backslash or at its `u`, everything else at the character that cannot stand where it stands.

Positions are counted from the end while reading, as the number of characters left.
-/

namespace EventDeck.Json

open Decimal

/-- Why a text is refused. -/
inductive ReadError
  /-- The text is not JSON from here on: so many characters are left. -/
  | malformed (left : Nat)
  /-- An integer has more digits than are read. -/
  | tooManyDigits

/-- The white space of JSON. -/
def isSpace (c : Char) : Bool :=
  c = ' ' || c = '\t' || c = '\n' || c = '\r'

/-- A text without the white space at its front. -/
def skip (text : List Char) : List Char :=
  text.dropWhile isSpace

/-! ## Numbers -/

/-- The integer digits at the front of a text: a zero, or digits that do not begin with one. -/
def wholeDigits (text : List Char) : List Char :=
  match text with
  | '0' :: _ => ['0']
  | _ => text.takeWhile isPlainDigit

/-- The point and the digits after it at the front of a text. -/
def fractionDigits (text : List Char) : List Char :=
  match text with
  | '.' :: rest => rest.takeWhile isPlainDigit
  | _ => []

/-- The exponent at the front of a text, with the number of its characters. -/
def exponentPart (text : List Char) : Option (Int × Nat) :=
  match text with
  | e :: rest =>
    let digits := (takeSign rest).2.takeWhile isPlainDigit
    if (e = 'e' || e = 'E') && !digits.isEmpty then
      let magnitude : Int := natOfDigits digits
      some (if (takeSign rest).1 then -magnitude else magnitude,
        1 + (rest.length - (takeSign rest).2.length) + digits.length)
    else none
  | [] => none

/-- Reads a number off the front of a text. -/
def readNumber (text : List Char) : Except ReadError (Json × List Char) :=
  let negative := text.head? = some '-'
  let unsigned := if negative then text.drop 1 else text
  let whole := wholeDigits unsigned
  if whole.isEmpty then .error (.malformed text.length)
  else
    let afterWhole := unsigned.drop whole.length
    let fraction := fractionDigits afterWhole
    let afterFraction :=
      if fraction.isEmpty then afterWhole else afterWhole.drop (fraction.length + 1)
    let exponent := exponentPart afterFraction
    let rest := afterFraction.drop ((exponent.map (·.2)).getD 0)
    -- a point or a letter without digits behind it has been left unread
    if fraction.isEmpty && exponent.isNone then
      if digitLimit < whole.length then .error .tooManyDigits
      else
        let magnitude : Int := natOfDigits whole
        .ok (.int (if negative then -magnitude else magnitude), rest)
    else
      let numeral : Numeral := ⟨natOfDigits (whole ++ fraction),
        (exponent.map (·.1)).getD 0 - fraction.length⟩
      .ok (.float (if negative then -numeral.toFloat else numeral.toFloat), rest)

/-! ## Strings -/

/-- The number that hexadecimal digits stand for. -/
def hexNumber? (digits : List Char) : Option Nat :=
  digits.foldlM (fun value c => (Text.hexValue? c).map (16 * value + ·)) 0

/-- The character of an escape with a single letter. -/
def simpleEscape? : Char → Option Char
  | '"' => some '"'
  | '\\' => some '\\'
  | '/' => some '/'
  | 'b' => some '\x08'
  | 'f' => some '\x0c'
  | 'n' => some '\n'
  | 'r' => some '\r'
  | 't' => some '\t'
  | _ => none

/-- The characters of a string that have been read, the last one first, and the first half of a
surrogate pair that stands behind them. -/
structure Prefix where
  chars : List Char := []
  half : Option Nat := none

namespace Prefix

/-- Half of a pair without the other half is no character, and is replaced. -/
def close (read : Prefix) : List Char :=
  match read.half with
  | none => read.chars
  | some _ => '\ufffd' :: read.chars

/-- One more character. -/
def addChar (read : Prefix) (c : Char) : Prefix :=
  ⟨c :: read.close, none⟩

/-- One more code unit. -/
def addUnit (read : Prefix) (code : Nat) : Prefix :=
  if 0xD800 ≤ code && code < 0xDC00 then ⟨read.close, some code⟩
  else if 0xDC00 ≤ code && code < 0xE000 then
    match read.half with
    | some high =>
      ⟨Char.ofNat (0x10000 + (high - 0xD800) * 0x400 + (code - 0xDC00)) :: read.chars, none⟩
    | none => read.addChar '\ufffd'
  else read.addChar (Char.ofNat code)

end Prefix

/-- Reads the rest of a string whose opening quote had `start` characters from it to the end.  An
escape with four digits must be followed by something. -/
def readString (start : Nat) (read : Prefix) : List Char → Except ReadError (String × List Char)
  | [] => .error (.malformed start)
  | '"' :: rest => .ok (String.ofList read.close.reverse, rest)
  | ['\\'] => .error (.malformed start)
  | '\\' :: 'u' :: a :: b :: c :: d :: e :: rest =>
    match hexNumber? [a, b, c, d] with
    | none => .error (.malformed (rest.length + 6))
    | some code => readString start (read.addUnit code) (e :: rest)
  | '\\' :: 'u' :: rest => .error (.malformed (rest.length + 1))
  | '\\' :: c :: rest =>
    match simpleEscape? c with
    | none => .error (.malformed (rest.length + 2))
    | some escaped => readString start (read.addChar escaped) rest
  | c :: rest =>
    if c.toNat < 32 then .error (.malformed (rest.length + 1))
    else readString start (read.addChar c) rest

/-! ## Values -/

/-- The words that stand for values. -/
def words : List (List Char × Json) :=
  [(['n', 'u', 'l', 'l'], .null), (['t', 'r', 'u', 'e'], .bool true),
   (['f', 'a', 'l', 's', 'e'], .bool false), (['N', 'a', 'N'], .float (0.0 / 0.0)),
   (['I', 'n', 'f', 'i', 'n', 'i', 't', 'y'], .float (1.0 / 0.0)),
   (['-', 'I', 'n', 'f', 'i', 'n', 'i', 't', 'y'], .float (-1.0 / 0.0))]

/-- A word at the front of a text, with the rest. -/
def word? (text : List Char) : Option (Json × List Char) :=
  words.findSome? fun (word, value) => (Text.after? word text).map (value, ·)

/-- Reads a word or a number off the front of a text. -/
def readWord (text : List Char) : Except ReadError (Json × List Char) :=
  match word? text with
  | some found => .ok found
  | none => readNumber text

/-- Reads the name of a field and the colon behind it. -/
def readKey (text : List Char) : Except ReadError (String × List Char) :=
  match text with
  | '"' :: rest => do
    let (key, rest) ← readString (rest.length + 1) {} rest
    match skip rest with
    | ':' :: more => return (key, skip more)
    | other => throw (.malformed other.length)
  | other => throw (.malformed other.length)

mutual

/-- Reads a value off the front of a text.  The first argument bounds the number of steps. -/
def readValue : Nat → List Char → Except ReadError (Json × List Char)
  | 0, text => .error (.malformed text.length)
  | fuel + 1, text =>
    match text with
    | '"' :: rest =>
      (readString (rest.length + 1) {} rest).map fun (text, rest) => (.string text, rest)
    | '[' :: rest =>
      match skip rest with
      | ']' :: after => .ok (.array [], after)
      | items => (readItems fuel items).map fun (items, rest) => (.array items, rest)
    | '\x7b' :: rest =>
      match skip rest with
      | '\x7d' :: after => .ok (.object [], after)
      | fields => (readFields fuel [] fields).map fun (fields, rest) => (.object fields, rest)
    | text => readWord text

/-- Reads the items of an array that is not empty, and its closing bracket. -/
def readItems : Nat → List Char → Except ReadError (List Json × List Char)
  | 0, text => .error (.malformed text.length)
  | fuel + 1, text => do
    let (item, rest) ← readValue fuel text
    match skip rest with
    | ']' :: after => return ([item], after)
    | ',' :: more =>
      let (items, rest) ← readItems fuel (skip more)
      return (item :: items, rest)
    | other => throw (.malformed other.length)

/-- Reads the fields of an object that is not empty, and its closing brace.  The fields read so far
are given. -/
def readFields : Nat → List (String × Json) → List Char →
    Except ReadError (List (String × Json) × List Char)
  | 0, _, text => .error (.malformed text.length)
  | fuel + 1, read, text => do
    let (key, rest) ← readKey text
    let (value, rest) ← readValue fuel rest
    match skip rest with
    | '\x7d' :: after => return (setField key value read, after)
    | ',' :: more => readFields fuel (setField key value read) (skip more)
    | other => throw (.malformed other.length)

end

/-- Reads a whole text.  Two steps at most are made for each character. -/
def readAll (text : List Char) : Except ReadError Json := do
  let (value, rest) ← readValue (2 * text.length + 1) (skip text)
  match skip rest with
  | [] => return value
  | other => throw (.malformed other.length)

end EventDeck.Json
