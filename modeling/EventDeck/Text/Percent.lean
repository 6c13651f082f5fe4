import EventDeck.Text.Digit
import EventDeck.Text.Utf8

/-!
# Percent-encoded texts

A percent sign with two hexadecimal digits stands for a byte; other percent signs stand for
themselves.  The bytes of the whole text are read as UTF-8.
-/

namespace EventDeck.Text

/-- The bytes that a percent-encoded text stands for. -/
def percentBytes : List Char → List Nat
  | '%' :: a :: b :: rest =>
    match hexValue? a, hexValue? b with
    | some high, some low => (high * 16 + low) :: percentBytes rest
    | _, _ => utf8Bytes '%' ++ percentBytes (a :: b :: rest)
  | c :: rest => utf8Bytes c ++ percentBytes rest
  | [] => []

/-- The text that a percent-encoded text stands for. -/
def decodePercent (text : List Char) : List Char :=
  decodeUtf8 (percentBytes text)

end EventDeck.Text
