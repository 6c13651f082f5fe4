import EventDeck.Text.Blank

/-!
# Trimming and splitting

Texts are worked on as lists of characters.  `trim` takes the blanks off both ends, `cut` splits
at the first occurrence of a separator, `pieces` at every occurrence of a character.  The main
statements say that nothing but blanks or separators is lost: `cut_eq_some`, `intercalate_pieces`.
-/

namespace EventDeck.Text

/-! ## Trimming -/

/-- The text without the characters of a class at either end. -/
def trimBy (drop : Char → Bool) (text : List Char) : List Char :=
  ((text.dropWhile drop).reverse.dropWhile drop).reverse

/-- The text without blanks at either end. -/
def trim (text : List Char) : List Char :=
  trimBy isBlank text

/-- The text without blanks at either end, as a string. -/
def trimmed (text : String) : String :=
  String.ofList (trim text.toList)

/-- A text is blank when it holds nothing but blank characters. -/
def isBlankText (text : String) : Bool :=
  text.toList.all isBlank

@[simp] theorem trim_nil : trim [] = [] := rfl

/-! ## Splitting at the first separator -/

/-- The text after a given beginning, when it begins so. -/
def after? : List Char → List Char → Option (List Char)
  | [], text => some text
  | _ :: _, [] => none
  | p :: ps, c :: cs => if p = c then after? ps cs else none

theorem after?_eq_some {start text rest : List Char} (h : after? start text = some rest) :
    text = start ++ rest := by
  induction start generalizing text with
  | nil => simpa [after?] using h
  | cons p ps ih =>
    cases text with
    | nil => simp [after?] at h
    | cons c cs =>
      by_cases hpc : p = c
      · subst hpc
        simp only [after?, if_true] at h
        rw [ih h, List.cons_append]
      · simp [after?, hpc] at h

/-- The parts before and after the first occurrence of a separator. -/
def cut (separator : List Char) : List Char → Option (List Char × List Char)
  | [] => (after? separator []).map ([], ·)
  | c :: cs =>
    match after? separator (c :: cs) with
    | some rest => some ([], rest)
    | none => (cut separator cs).map fun (before, rest) => (c :: before, rest)

/-- Cutting removes one separator and keeps everything else in its place. -/
theorem cut_eq_some {separator text before rest : List Char}
    (h : cut separator text = some (before, rest)) : text = before ++ separator ++ rest := by
  induction text generalizing before with
  | nil =>
    obtain ⟨r, hr, heq⟩ := Option.map_eq_some_iff.1 h
    cases heq
    simpa using after?_eq_some hr
  | cons c cs ih =>
    rw [cut] at h
    split at h
    · next r hr =>
      cases h
      simpa using after?_eq_some hr
    · obtain ⟨⟨b, r⟩, hb, heq⟩ := Option.map_eq_some_iff.1 h
      cases heq
      simp [ih hb]

/-- A text ends with the given ending; the part before the ending. -/
def before? (ending text : List Char) : Option (List Char) :=
  (after? ending.reverse text.reverse).map List.reverse

theorem before?_eq_some {ending text rest : List Char} (h : before? ending text = some rest) :
    text = rest ++ ending := by
  obtain ⟨r, hr, rfl⟩ := Option.map_eq_some_iff.1 h
  have := congrArg List.reverse (after?_eq_some hr)
  simpa using this

/-! ## Splitting at every separator -/

/-- The pieces of a text between the occurrences of a character; there is always at least one. -/
def pieces (separator : Char) : List Char → List (List Char)
  | [] => [[]]
  | c :: cs =>
    if c = separator then [] :: pieces separator cs
    else match pieces separator cs with
      | [] => [[c]]
      | piece :: others => (c :: piece) :: others

theorem pieces_ne_nil (separator : Char) (text : List Char) : pieces separator text ≠ [] := by
  induction text with
  | nil => simp [pieces]
  | cons c cs ih =>
    rw [pieces]
    split
    · simp
    · split <;> simp

/-- The pieces, joined by the separator again, are the text. -/
theorem intercalate_pieces (separator : Char) (text : List Char) :
    [separator].intercalate (pieces separator text) = text := by
  induction text with
  | nil => rfl
  | cons c cs ih =>
    rw [pieces]
    split
    · next h =>
      cases hp : pieces separator cs with
      | nil => exact absurd hp (pieces_ne_nil _ _)
      | cons piece others =>
        rw [hp] at ih
        subst h
        simpa [List.intercalate, List.intersperse] using ih
    · split
      · next hp => exact absurd hp (pieces_ne_nil _ _)
      · next piece others hp =>
        rw [hp] at ih
        cases others with
        | nil => simpa [List.intercalate, List.intersperse] using ih
        | cons p ps => simpa [List.intercalate, List.intersperse] using ih

end EventDeck.Text
