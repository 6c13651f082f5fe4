import EventDeck.Expr.Name

/-!
# Random numbers in expressions

A random call is the word `Random`, and in parentheses a lower bound, a comma and an upper bound;
blanks may surround every part.  The lower bound reaches to the first comma and the upper one to
the first closing parenthesis after it, so neither bound is empty, and the upper one holds no
parentheses of its own.  Calls are looked for from left to right and do not overlap.
-/

namespace EventDeck.Expr

open Text

/-- The two bounds of a random call, as they are written. -/
structure RandomCall where
  low : List Char
  high : List Char

/-- A bound is not empty; blanks around it do not belong to it. -/
def bound? (text : List Char) : Option (List Char) :=
  if text.isEmpty then none else some (trim text)

/-- What follows a character that may have blanks before it. -/
def afterBlanks? (c : Char) (text : List Char) : Option (List Char) :=
  after? [c] (text.dropWhile isBlank)

/-- A random call at the front of a text, with the rest. -/
def randomCall? (text : List Char) : Option (RandomCall × List Char) := do
  let inside ← afterBlanks? '(' (← after? randomWord text)
  let (low, more) ← cut [','] inside
  let (high, rest) ← cut [')'] more
  return (⟨← bound? low, ← bound? high⟩, rest)

theorem length_le_of_after? {start text rest : List Char} (h : after? start text = some rest) :
    rest.length + start.length = text.length := by
  rw [after?_eq_some h, List.length_append, Nat.add_comm]

theorem length_le_of_cut {separator text before rest : List Char}
    (h : cut separator text = some (before, rest)) : rest.length ≤ text.length := by
  rw [cut_eq_some h, List.length_append]
  exact Nat.le_add_left ..

/-- A random call takes something off the front of the text. -/
theorem length_lt_of_randomCall? {text rest : List Char} {call : RandomCall}
    (h : randomCall? text = some (call, rest)) : rest.length < text.length := by
  simp only [randomCall?, bind, Option.bind_eq_some_iff] at h
  obtain ⟨a, ha, b, hb, ⟨_, c⟩, hc, ⟨_, d⟩, hd, _, _, _, _, heq⟩ := h
  cases heq
  have h1 := length_le_of_after? ha
  have h2 := length_le_of_after? hb
  have h3 := (List.dropWhile_sublist isBlank (l := a)).length_le
  have h4 := length_le_of_cut hc
  have h5 := length_le_of_cut hd
  simp only [randomWord, List.length_cons, List.length_nil] at h1 h2 h4 h5
  change d.length < text.length
  omega

/-- A text in which every random call is replaced, from left to right. -/
def replaceRandoms {m : Type → Type} [Monad m] (replace : RandomCall → m (List Char))
    (text : List Char) : m (List Char) :=
  match text with
  | [] => pure []
  | c :: cs =>
    match _h : randomCall? (c :: cs) with
    | some (call, rest) => do
      let number ← replace call
      return number ++ (← replaceRandoms replace rest)
    | none => return c :: (← replaceRandoms replace cs)
termination_by text.length
decreasing_by
  · exact length_lt_of_randomCall? ‹_›
  · exact Nat.lt_succ_self _

end EventDeck.Expr
