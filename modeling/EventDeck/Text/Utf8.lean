/-!
# Reading UTF-8

Bytes are read as characters one after the other.  Bytes that no character begins with, and
characters that break off, are replaced: the longest part that could have become a character is
read as one replacement character.
-/

namespace EventDeck.Text

/-- What stands for bytes that are no character. -/
def replacement : Char := '\ufffd'

/-- A character of which some bytes were read: the bits so far, the bounds of the next byte, and how
many bytes are missing. -/
structure Started where
  bits : Nat
  low : Nat
  high : Nat
  missing : Nat

/-- The start of a character of several bytes.  The bounds of the second byte leave out characters
that have a shorter form, halves of surrogate pairs, and numbers beyond the last character. -/
def started? (byte : Nat) : Option Started :=
  if 0xC2 ≤ byte && byte ≤ 0xDF then some ⟨byte - 0xC0, 0x80, 0xBF, 1⟩
  else if 0xE0 ≤ byte && byte ≤ 0xEF then
    some ⟨byte - 0xE0, if byte = 0xE0 then 0xA0 else 0x80, if byte = 0xED then 0x9F else 0xBF, 2⟩
  else if 0xF0 ≤ byte && byte ≤ 0xF4 then
    some ⟨byte - 0xF0, if byte = 0xF0 then 0x90 else 0x80, if byte = 0xF4 then 0x8F else 0xBF, 3⟩
  else none

/-- The next byte between characters: the character that it is, or the character that it starts. -/
def beginning (byte : Nat) : List Char × Option Started :=
  if byte < 0x80 then ([Char.ofNat byte], none)
  else match started? byte with
    | some started => ([], some started)
    | none => ([replacement], none)

/-- Reads bytes, the first of which may belong to a character that was started. -/
def readBytes : Option Started → List Nat → List Char
  | none, [] => []
  | some _, [] => [replacement]
  | none, byte :: bytes =>
    let (done, next) := beginning byte
    done ++ readBytes next bytes
  | some started, byte :: bytes =>
    if started.low ≤ byte && byte ≤ started.high then
      let bits := started.bits * 64 + (byte - 0x80)
      if started.missing ≤ 1 then Char.ofNat bits :: readBytes none bytes
      else readBytes (some ⟨bits, 0x80, 0xBF, started.missing - 1⟩) bytes
    else
      let (done, next) := beginning byte
      replacement :: (done ++ readBytes next bytes)

/-- The characters that bytes stand for. -/
def decodeUtf8 (bytes : List Nat) : List Char :=
  readBytes none bytes

/-- The bytes of a character. -/
def utf8Bytes (c : Char) : List Nat :=
  (String.utf8EncodeChar c).map (·.toNat)

end EventDeck.Text
