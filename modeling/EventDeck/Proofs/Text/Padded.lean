import EventDeck.Proofs.Expr.Numeral
import EventDeck.Text.Word
import Mathlib.Data.List.DropRight

/-!
# Blanks around texts

Trimming a text that has blanks around it gives the text between them (`Padded.trim_eq`), and every
text is what is left of it with blanks around it (`padded_trim`).  Splitting at a character is the
inverse of joining with it (`pieces_eq_splitOn`).
-/

namespace EventDeck.Text

/-! ## Blanks at the ends -/

variable {inner text : List Char}

/-- A text with blanks around it. -/
def Padded (inner text : List Char) : Prop :=
  ∃ before after : List Char, before.all isBlank = true ∧ after.all isBlank = true ∧
    text = before ++ inner ++ after

/-- A text with something in it and no blanks around it. -/
structure IsTrimmed (text : List Char) : Prop where
  ne_nil : text ≠ []
  trim_eq : trim text = text

instance decidableIsTrimmed (text : List Char) : Decidable (IsTrimmed text) :=
  decidable_of_iff (text ≠ [] ∧ trim text = text) ⟨fun h => ⟨h.1, h.2⟩, fun h => ⟨h.1, h.2⟩⟩

/-- Trimming in the words of the library: blanks are dropped from the left, then from the right. -/
theorem trim_eq_rdropWhile (text : List Char) :
    trim text = (text.dropWhile isBlank).rdropWhile isBlank := rfl

theorem rdropWhile_append_blank {after : List Char} (h : after.all isBlank = true)
    (text : List Char) : (text ++ after).rdropWhile isBlank = text.rdropWhile isBlank := by
  have hall : ∀ c ∈ after.reverse, isBlank c = true := by simpa using h
  rw [List.rdropWhile, List.reverse_append, List.dropWhile_append_of_pos hall, List.rdropWhile]

/-- Blanks around a text are lost in trimming, and nothing else is. -/
theorem Padded.trim_eq (h : Padded inner text) : trim text = trim inner := by
  obtain ⟨before, after, hbefore, hafter, rfl⟩ := h
  have hall : ∀ c ∈ before, isBlank c = true := by simpa using hbefore
  -- The inner text may itself be blank, and then dropping goes on into the blanks after it.
  rw [trim_eq_rdropWhile, trim_eq_rdropWhile, List.append_assoc, List.dropWhile_append_of_pos hall,
    List.dropWhile_append]
  split
  · next hempty =>
    -- Nothing is left of either text.
    have hnil : after.dropWhile isBlank = [] := List.dropWhile_eq_nil_iff.2 (by simpa using hafter)
    rw [List.isEmpty_iff.1 hempty, hnil]
  · exact rdropWhile_append_blank hafter _

/-- Trimming takes blanks off the ends, and nothing else. -/
theorem padded_trim (text : List Char) : Padded (trim text) text := by
  refine ⟨text.takeWhile isBlank, (text.dropWhile isBlank).rtakeWhile isBlank,
    List.all_takeWhile, ?_, ?_⟩
  · rw [List.rtakeWhile, List.all_reverse]
    exact List.all_takeWhile
  · rw [trim_eq_rdropWhile, List.append_assoc, List.rdropWhile_append_rtakeWhile,
      List.takeWhile_append_dropWhile]

@[simp] theorem trim_trim (text : List Char) : trim (trim text) = trim text :=
  (padded_trim text).trim_eq.symm

/-- The spaces that expressions are written with. -/
theorem trim_cons_space (text : List Char) : trim (' ' :: text) = trim text := by
  have hpadded : Padded text (' ' :: text) := ⟨[' '], [], rfl, rfl, by simp⟩
  exact hpadded.trim_eq

theorem trim_append_space (text : List Char) : trim (text ++ [' ']) = trim text := by
  have hpadded : Padded text (text ++ [' ']) := ⟨[], [' '], rfl, rfl, rfl⟩
  exact hpadded.trim_eq

/-- What was written between blanks is read back by trimming. -/
theorem Padded.eq_trim (h : Padded inner text) (hinner : IsTrimmed inner) : trim text = inner :=
  h.trim_eq.trans hinner.trim_eq

/-- More blanks around a text that has some. -/
theorem Padded.append_blank {before after : List Char} (h : Padded inner text)
    (hbefore : before.all isBlank = true) (hafter : after.all isBlank = true) :
    Padded inner (before ++ text ++ after) := by
  obtain ⟨before', after', hbefore', hafter', rfl⟩ := h
  refine ⟨before ++ before', after' ++ after, by simp [hbefore, hbefore'],
    by simp [hafter, hafter'], by simp⟩

theorem isTrimmed_trim (h : trim text ≠ []) : IsTrimmed (trim text) :=
  ⟨h, trim_trim text⟩

/-- A trimmed text does not begin with a blank. -/
theorem IsTrimmed.dropWhile_eq (h : IsTrimmed text) : text.dropWhile isBlank = text := by
  have hprefix := List.rdropWhile_prefix isBlank (l := text.dropWhile isBlank)
  rw [← trim_eq_rdropWhile, h.trim_eq] at hprefix
  -- Trimming drops from the left first, so what is left then is at least as long as the text.
  exact (List.dropWhile_suffix isBlank).eq_of_length_le hprefix.length_le

/-- A trimmed text does not end with a blank. -/
theorem IsTrimmed.rdropWhile_eq (h : IsTrimmed text) : text.rdropWhile isBlank = text := by
  have htrim := h.trim_eq
  rwa [trim_eq_rdropWhile, h.dropWhile_eq] at htrim

/-- Whatever stands between two trimmed texts, there are no blanks at the ends. -/
theorem IsTrimmed.append {last : List Char} (h : IsTrimmed text) (hlast : IsTrimmed last)
    (middle : List Char) : IsTrimmed (text ++ middle ++ last) := by
  refine ⟨by simp [h.ne_nil], ?_⟩
  -- Seen from either end there is a character that is no blank, and no dropping goes past it.
  have hreverse : last.reverse.dropWhile isBlank = last.reverse := by
    rw [← List.reverse_eq_iff]
    exact hlast.rdropWhile_eq
  rw [trim_eq_rdropWhile, List.append_assoc, List.dropWhile_append, h.dropWhile_eq,
    if_neg (by simpa using h.ne_nil), ← List.append_assoc, List.rdropWhile, List.reverse_append,
    List.dropWhile_append, hreverse, if_neg (by simpa using hlast.ne_nil), ← List.reverse_append,
    List.reverse_reverse]

/-- Only the ends of a text matter. -/
theorem trim_eq_self (hhead : ∀ c, text.head? = some c → isBlank c = false)
    (hlast : ∀ c, text.getLast? = some c → isBlank c = false) : trim text = text :=
  Expr.trimBy_eq_self hhead hlast

/-- A text without blanks is its own trimmed text. -/
theorem trim_of_not_isBlank (h : ∀ c ∈ text, isBlank c = false) : trim text = text :=
  Expr.trimBy_of_not_drop h

/-- Trimming takes characters off both ends. -/
theorem infix_trim (text : List Char) : trim text <:+: text := by
  obtain ⟨before, after, -, -, heq⟩ := padded_trim text
  exact ⟨before, after, heq.symm⟩

/-- Trimming leaves nothing of blanks. -/
theorem trim_eq_nil_iff : trim text = [] ↔ text.all isBlank = true := by
  constructor
  · intro h
    obtain ⟨before, after, hbefore, hafter, heq⟩ := padded_trim text
    rw [heq, h]
    simp [hbefore, hafter]
  · intro h
    have hpadded : Padded [] text := ⟨text, [], h, rfl, by simp⟩
    exact hpadded.trim_eq

/-- A character that is no blank is not among the blanks around a text. -/
theorem Padded.not_mem {d : Char} (h : Padded inner text)
    (hinner : d ∉ inner) (hd : isBlank d = false) : d ∉ text := by
  obtain ⟨before, after, hbefore, hafter, rfl⟩ := h
  have hout : ∀ blank : List Char, blank.all isBlank = true → d ∉ blank := by
    intro blank hblank hmem
    rw [List.all_eq_true.1 hblank d hmem] at hd
    cases hd
  simp [hout before hbefore, hout after hafter, hinner]

/-- A blank is no character of a word. -/
theorem isWordChar_of_isBlank {c : Char} (h : isBlank c = true) : isWordChar c = false := by
  -- There are few blanks, so each of them can be looked up among the characters of words.
  have small : ∀ n ∈ List.range' 9 5 ++ List.range' 0x1C 5 ++ [0x85, 0xA0, 0x1680] ++
      List.range' 0x2000 11 ++ [0x2028, 0x2029, 0x202F, 0x205F, 0x3000],
      isWordChar (Char.ofNat n) = false := by
    decide +kernel
  rw [← Char.ofNat_toNat c]
  refine small c.toNat ?_
  simp only [isBlank, isWhiteSpace, Bool.or_eq_true, Bool.and_eq_true, decide_eq_true_eq,
    beq_iff_eq] at h
  simp only [List.mem_append, List.mem_range'_1, List.mem_cons, List.not_mem_nil, or_false]
  omega

/-! ## Splitting -/

/-- What stands behind a beginning is found. -/
theorem after?_append (start rest : List Char) : after? start (start ++ rest) = some rest := by
  induction start with
  | nil => rfl
  | cons c start ih => exact (if_pos rfl).trans ih

/-- What stands before an ending is found. -/
theorem before?_append (ending text : List Char) : before? ending (text ++ ending) = some text := by
  rw [before?, List.reverse_append, after?_append, Option.map_some, List.reverse_reverse]

/-- The pieces of a text are those of the library, which knows how to join them again. -/
theorem pieces_eq_splitOn (separator : Char) (text : List Char) :
    pieces separator text = text.splitOn separator := by
  induction text with
  | nil => rfl
  | cons c cs ih =>
    rw [pieces, List.splitOn_cons_eq_if_modifyHead, ih]
    -- A separator begins a piece of its own; any other character goes to the first of the pieces behind
    -- it, of which there is one always.
    by_cases hc : c = separator
    · rw [if_pos hc, if_pos (beq_iff_eq.2 hc)]
    · rw [if_neg hc, if_neg (by simpa using hc)]
      split
      · next hnil => exact absurd hnil (List.splitOn_ne_nil _ _)
      · next piece others heq => rw [heq, List.modifyHead_cons]

/-- A separator is in none of the pieces that it separates. -/
theorem not_mem_of_mem_pieces {separator : Char} {piece : List Char}
    (h : piece ∈ pieces separator text) : separator ∉ piece := by
  -- The first piece grows with each character, so the statement is for all pieces.
  induction text generalizing piece with
  | nil =>
    rw [pieces, List.mem_singleton] at h
    rw [h]
    exact List.not_mem_nil
  | cons c cs ih =>
    rw [pieces] at h
    split at h
    · rcases List.mem_cons.1 h with rfl | h
      · exact List.not_mem_nil
      · exact ih h
    · next hc =>
      split at h
      · next hnil => exact absurd hnil (pieces_ne_nil _ _)
      · next first others heq =>
        rcases List.mem_cons.1 h with rfl | h
        · rw [List.mem_cons, not_or]
          exact ⟨Ne.symm hc, ih (by rw [heq]; exact List.mem_cons_self)⟩
        · exact ih (by rw [heq]; exact List.mem_cons_of_mem _ h)

end EventDeck.Text
