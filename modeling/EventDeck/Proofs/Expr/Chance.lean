import EventDeck.Proofs.Decimal.Form
import EventDeck.Proofs.Expr.Cells
import EventDeck.Proofs.Text.Padded

/-!
# Texts that take no chance

A text without the word `Random` has no random calls (`replaceRandoms_of_wordless`).  A text gets none
when numbers are written in the place of its names, whatever the numbers are: no number, infinite and
undefined ones included, is a part of the word or has its first or last letter.  So random calls are
found where they are found among the cells of the text (`keepsCalls_write`).
-/

namespace EventDeck.Expr

open Decimal Text

variable {f : List Char → List Char} {text word : List Char} {parts : List Cell}

/-- What takes the place of names is no part of the word `Random` and has neither its first letter nor
its last. -/
structure Foreign (f : List Char → List Char) : Prop where
  first : ∀ name, 'R' ∉ f name
  last : ∀ name, 'm' ∉ f name
  part : ∀ name, ¬f name <:+: randomWord

/-! ## The word in what is written -/

theorem last_mem_of_suffix (h : word <:+ randomWord) (hne : word ≠ []) : 'm' ∈ word := by
  obtain ⟨before, hbefore⟩ := h
  have hlast : (before ++ word).getLast? = some 'm' := by rw [hbefore]; rfl
  rw [List.getLast?_append, List.getLast?_eq_some_getLast hne, Option.some_or] at hlast
  exact Option.some.inj hlast ▸ List.getLast_mem hne

/-- What is read of the word at the front of a text stood there before anything was replaced. -/
theorem chars_of_prefix_render (hf : Foreign f) (hword : word <:+ randomWord)
    (h : word <+: render f parts) : ∃ others, parts = word.map .char ++ others := by
  induction word generalizing parts with
  | nil => exact ⟨parts, rfl⟩
  | cons c rest ih =>
    cases parts with
    | nil => exact absurd (List.prefix_nil.mp h) (List.cons_ne_nil _ _)
    | cons cell parts =>
      rw [render_cons] at h
      cases cell with
      | char d =>
        obtain ⟨rfl, hrest⟩ := List.cons_prefix_cons.mp h
        obtain ⟨others, rfl⟩ := ih ((List.suffix_cons ..).trans hword) hrest
        exact ⟨others, rfl⟩
      | name name =>
        -- the word ends behind what is written here, so that would be a part of it
        rcases List.prefix_or_prefix_of_prefix h (List.prefix_append (f name) _) with hin | hover
        · have hlast := last_mem_of_suffix hword (List.cons_ne_nil _ _)
          exact absurd (hin.subset hlast) (hf.last name)
        · exact absurd (hover.isInfix.trans hword.isInfix) (hf.part name)

/-- The cells of a text, with each name written as it is, are the text. -/
theorem render_id (text : List Char) : render id (cells text) = text := by
  rw [← flatten_runs_render]
  simp [flatten_runs]

/-! ## Random calls among what is written -/

theorem afterCells?_append (word : List Char) (others : List Cell) :
    afterCells? word (word.map .char ++ others) = some others := by
  induction word with
  | nil => rfl
  | cons c word ih => exact (if_pos (decide_eq_true rfl)).trans ih

/-- A word that is found in front of cells is written out there; no name stands for a part of it. -/
theorem eq_append_of_afterCells? {cells rest : List Cell} (h : afterCells? word cells = some rest) :
    cells = word.map .char ++ rest := by
  induction word generalizing cells with
  | nil =>
    cases h
    rfl
  | cons c cs ih =>
    cases cells with
    | nil => cases h
    | cons cell cells =>
      rw [afterCells?] at h
      split at h
      · next his =>
        cases cell with
        | char d =>
          obtain rfl : c = d := by simpa [Cell.is] using his
          rw [ih h]
          rfl
        | name word => cases his
      · cases h

theorem render_chars_append (f : List Char → List Char) (chars : List Char) (others : List Cell) :
    render f (chars.map .char ++ others) = chars ++ render f others := by
  induction chars with
  | nil => rfl
  | cons c chars ih => exact congrArg (List.cons c) ih

/-- The word is found where it is found among the cells. -/
theorem Foreign.after?_render (hf : Foreign f) (parts : List Cell) :
    after? randomWord (render f parts) = (afterCells? randomWord parts).map (render f) := by
  cases hcells : afterCells? randomWord parts with
  | some others =>
    rw [eq_append_of_afterCells? hcells, render_chars_append, after?_append]
    rfl
  | none =>
    rw [Option.map_none, Option.eq_none_iff_forall_ne_some]
    intro rest hrest
    have hfront : randomWord <+: render f parts := ⟨rest, (after?_eq_some hrest).symm⟩
    obtain ⟨others, rfl⟩ := chars_of_prefix_render hf (List.suffix_refl _) hfront
    rw [afterCells?_append] at hcells
    cases hcells

/-- A character that is not blank and by which no part of a random call is found. -/
def isPlain (c : Char) : Bool :=
  !isBlank c && c != '(' && c != ',' && c != ')'

theorem Foreign.keepsCalls (hf : Foreign f) (hmade : MadeOf (isPlain · = true) f) :
    KeepsCalls f where
  first := hf.first
  exists_cons := exists_render_cons hmade
  calls _ := randomCall?_render_of_word hmade (fun c hc => by simp [isPlain] at hc; exact hc.1.1.1)
    (by decide) (by decide) (by decide) (hf.after?_render _)

/-! ## Numbers -/

theorem IsNumberChar.isPlain {c : Char} (h : IsNumberChar c) : isPlain c = true := by
  have hblank := h.not_isBlank
  rcases h with h | rfl | rfl | rfl | rfl | rfl
  · simp only [Expr.isPlain, hblank, Bool.not_false, Bool.true_and, Bool.and_eq_true, bne_iff_ne]
    refine ⟨⟨?_, ?_⟩, ?_⟩ <;> rintro rfl <;> exact absurd h (by decide)
  all_goals decide

/-- A double is written with the characters of numbers, or it is infinite or no number. -/
theorem write_cases (x : Float) :
    (write x ≠ [] ∧ ∀ c ∈ write x, IsNumberChar c) ∨
      write x ∈ ["nan".toList, "inf".toList, "-inf".toList] := by
  cases hx : Decimal.isFinite x with
  | true =>
    obtain ⟨negative, body, hwrite, hbody⟩ := exists_write_eq hx
    rw [hwrite]
    cases negative with
    | false => exact .inl ⟨hbody.isNumber.ne_nil, hbody.isNumber.isNumberChar⟩
    | true =>
      exact .inl ⟨List.cons_ne_nil _ _,
        List.forall_mem_cons.mpr ⟨by simp [IsNumberChar], hbody.isNumber.isNumberChar⟩⟩
  | false =>
    refine .inr ?_
    rw [Decimal.isFinite] at hx
    rw [write, writeWith]
    split
    · decide
    next negative _ => cases negative <;> decide
    next heq =>
      rw [heq] at hx
      cases hx

/-- Whatever double is written, it is foreign to the word. -/
theorem foreign_write (value : List Char → Float) : Foreign fun name => write (value name) := by
  have hletter : ∀ x : Float, 'R' ∉ write x ∧ 'm' ∉ write x ∧ ¬write x <:+: randomWord := by
    intro x
    rcases write_cases x with ⟨hne, hnumber⟩ | hspecial
    · have hchars : ∀ c ∈ write x, c ∉ randomWord := fun c hc hrandom =>
        not_isNumberChar_of_mem_randomWord hrandom (hnumber c hc)
      refine ⟨fun h => hchars _ h (by decide), fun h => hchars _ h (by decide), fun h => ?_⟩
      obtain ⟨c, hc⟩ := List.exists_mem_of_ne_nil _ hne
      exact hchars c hc (h.subset hc)
    · generalize write x = text at hspecial
      revert text
      decide
  exact ⟨fun name => (hletter _).1, fun name => (hletter _).2.1, fun name => (hletter _).2.2⟩

/-- What is written has no blanks and no parts that the bounds of random calls are found by. -/
theorem madeOf_write (value : List Char → Float) :
    MadeOf (isPlain · = true) fun name => write (value name) := by
  intro name
  rcases write_cases (value name) with ⟨hne, hnumber⟩ | hspecial
  · exact ⟨hne, fun c hc => (hnumber c hc).isPlain⟩
  · change write (value name) ≠ [] ∧ ∀ c ∈ write (value name), isPlain c = true
    generalize write (value name) = text at hspecial
    rw [← List.all_eq_true]
    revert text
    decide

/-- Whatever doubles are written in the place of names, random calls are found where they are found
among the cells. -/
theorem keepsCalls_write (value : List Char → Float) : KeepsCalls fun name => write (value name) :=
  (foreign_write value).keepsCalls (madeOf_write value)

/-! ## No random calls -/

/-- There is no call where its word does not begin. -/
theorem randomCall?_of_not_prefix (h : ¬randomWord <+: text) : randomCall? text = none := by
  have hafter : after? randomWord text = none := by
    rw [Option.eq_none_iff_forall_ne_some]
    intro rest hrest
    exact h ⟨rest, (after?_eq_some hrest).symm⟩
  rw [randomCall?, hafter]
  rfl

/-- A text without the word has no random calls to replace. -/
theorem replaceRandoms_of_wordless {m : Type → Type} [Monad m] [LawfulMonad m]
    {replace : RandomCall → m (List Char)} (h : ¬randomWord <:+: text) :
    replaceRandoms replace text = pure text := by
  induction text with
  | nil => rw [replaceRandoms]
  | cons c cs ih =>
    have hfront : randomCall? (c :: cs) = none :=
      randomCall?_of_not_prefix fun hfront => h hfront.isInfix
    rw [replaceRandoms]
    split
    next hcall => rw [hfront] at hcall; cases hcall
    next => rw [ih fun hrest => h (hrest.trans (List.suffix_cons ..).isInfix), pure_bind]

end EventDeck.Expr
