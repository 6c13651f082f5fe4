/-!
# Blank characters

Two sets of blank characters are in use.  *White space* is the property of that name in the
character standard; numbers may be surrounded by it.  *Blank* characters are white space and the
four information separators U+001C to U+001F; they are what is trimmed from texts and skipped
between the tokens of an expression.  The zero-width space and the byte order mark are neither.
-/

namespace EventDeck.Text

/-- The white space of the character standard. -/
def isWhiteSpace (c : Char) : Bool :=
  let n := c.toNat
  (9 ≤ n && n ≤ 13) || n == 32 || n == 0x85 || n == 0xA0 || n == 0x1680 ||
    (0x2000 ≤ n && n ≤ 0x200A) || n == 0x2028 || n == 0x2029 || n == 0x202F || n == 0x205F ||
    n == 0x3000

/-- White space or one of the four information separators. -/
def isBlank (c : Char) : Bool :=
  isWhiteSpace c || (0x1C ≤ c.toNat && c.toNat ≤ 0x1F)

end EventDeck.Text
