import EventDeck.Text.Split
import EventDeck.Text.Word

/-!
# Names in expressions

A name is a run of ASCII letters, digits and underscores that does not begin with a digit.  A text
is divided into runs of such characters and runs of others; the first sort are the names of the
text, apart from runs that begin with a digit.  The word `Random` is not the name of a variable.
-/

namespace EventDeck.Expr

open Text

/-- The word that introduces a random number. -/
def randomWord : List Char := ['R', 'a', 'n', 'd', 'o', 'm']

/-- Whether a text is a name and nothing else. -/
def isName : List Char → Bool
  | [] => false
  | c :: rest => isNameStart c && rest.all isNameChar

/-- Whether a text names a variable; one line break at its end does not matter. -/
def isIdentifier (text : List Char) : Bool :=
  isName text || ((before? ['\n'] text).any isName)

/-- The runs of name characters and of other characters that make up a text. -/
def runs : List Char → List (List Char)
  | [] => []
  | c :: cs =>
    match runs cs with
    | (d :: run) :: others =>
      if isNameChar c == isNameChar d then (c :: d :: run) :: others
      else [c] :: (d :: run) :: others
    | others => [c] :: others

/-- Nothing is lost in the division of a text into runs. -/
theorem flatten_runs (text : List Char) : (runs text).flatten = text := by
  induction text with
  | nil => rfl
  | cons c cs ih =>
    rw [runs]
    split
    · next h =>
      rw [h] at ih
      split <;> simpa using ih
    · simpa using ih

/-- Whether a run of a text is the name of a variable. -/
def isVariableRun (run : List Char) : Bool :=
  run.head?.any isNameStart && run != randomWord

/-- A text in which every name of a variable is replaced, from left to right. -/
def replaceNames {m : Type → Type} [Monad m] (replace : List Char → m (List Char))
    (text : List Char) : m (List Char) := do
  let parts ← (runs text).mapM fun run => if isVariableRun run then replace run else pure run
  return parts.flatten

end EventDeck.Expr
