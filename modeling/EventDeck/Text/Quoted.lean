import EventDeck.Text.Printable

/-!
# Quoted texts

A text in a message is quoted so that it can be read off unambiguously: between single quotes, or
between double quotes when it holds a single quote and no double one; the quote in use and the
backslash are escaped, and so is every character that is not printable.
-/

namespace EventDeck.Text

/-- The hexadecimal digits of a number, lower case, padded with zeros to a width. -/
def hexadecimal (width n : Nat) : List Char :=
  let digits := Nat.toDigits 16 n
  List.replicate (width - digits.length) '0' ++ digits

/-- One character of a quoted text. -/
def escaped (quote c : Char) : List Char :=
  if c = quote || c = '\\' then ['\\', c]
  else if c = '\t' then ['\\', 't']
  else if c = '\n' then ['\\', 'n']
  else if c = '\r' then ['\\', 'r']
  else if isPrintable c then [c]
  else if c.toNat < 0x100 then ['\\', 'x'] ++ hexadecimal 2 c.toNat
  else if c.toNat < 0x10000 then ['\\', 'u'] ++ hexadecimal 4 c.toNat
  else ['\\', 'U'] ++ hexadecimal 8 c.toNat

/-- The quote that a text is written between. -/
def quoteOf (text : List Char) : Char :=
  if text.contains '\'' && !text.contains '"' then '"' else '\''

/-- The quoted form of a text. -/
def quoted (text : String) : String :=
  let quote := quoteOf text.toList
  String.ofList (quote :: text.toList.flatMap (escaped quote) ++ [quote])

example : quoted "it's" = "\"it's\"" := by decide +kernel
example : quoted "a\"b'c" = "'a\"b\\'c'" := by decide +kernel
example : quoted "\n\x7f" = "'\\n\\x7f'" := by decide +kernel

end EventDeck.Text
