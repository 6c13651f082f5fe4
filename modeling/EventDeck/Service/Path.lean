import EventDeck.Text.Percent
import EventDeck.Text.Split

/-!
# Paths

The target of a request is a path that may be followed by a query or a fragment, which do not
matter.  Dots for the same and the parent directory are resolved before percent-encoding is undone;
a client may have encoded a path that was encoded already, so that it is undone twice.
-/

namespace EventDeck.Path

open Text

/-- The path of a target. -/
def ofTarget (target : List Char) : List Char :=
  target.takeWhile fun c => c != '?' && c != '#'

/-- The segments read so far, the last one first, after one more.  A parent of the first one is not
looked for. -/
def addSegment (read : List (List Char)) (segment : List Char) : List (List Char) :=
  if segment = ['.'] then read
  else if segment = ['.', '.'] then
    match read with
    | [] => []
    | _ :: others => others
  else segment :: read

/-- Resolves the dots in the segments of a path. -/
def resolveDots (segments : List (List Char)) : List (List Char) :=
  (segments.foldl addSegment []).reverse

/-- The segments of the path of a target.  Slashes in front do not matter. -/
def segments (target : String) : List String :=
  let path := (ofTarget target.toList).dropWhile (· = '/')
  let resolved := ['/'].intercalate (resolveDots (pieces '/' path))
  (pieces '/' (decodePercent (decodePercent resolved))).map String.ofList

/-- The segments without empty ones at the end. -/
def withoutEnd (segments : List String) : List String :=
  (segments.reverse.dropWhile String.isEmpty).reverse

end EventDeck.Path
