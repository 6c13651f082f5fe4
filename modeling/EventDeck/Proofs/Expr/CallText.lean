import EventDeck.Proofs.Expr.Chance
import EventDeck.Proofs.Expr.Written
import Mathlib.Data.List.DropRight

/-!
# The text of a random call

A text falls apart into cells at every character that no name has (`cells_append_cons`), and trimming
a text trims its cells (`trimCells_cells`).  So the cells of a random call are those of its bounds and of
what stands around them.  The call that is found has all of the lower bound, if that has no comma, but
of the upper bound only the part before the first closing parenthesis (`cellCall?_callText`).
-/

namespace EventDeck.Expr

open Text

variable {c : Char} {run front rest low high : List Char}

/-! ## Cells of parts of a text -/

/-- A text is made of runs of name characters and of other characters. -/
theorem text_induction {motive : List Char → Prop} (nil : motive [])
    (char : ∀ c rest, isNameChar c = false → motive rest → motive (c :: rest))
    (run : ∀ run rest, run.all isNameChar = true → run ≠ [] →
      (∀ c cs, rest = c :: cs → isNameChar c = false) → motive rest → motive (run ++ rest))
    (text : List Char) : motive text := by
  rcases text with _ | ⟨c, cs⟩
  · exact nil
  cases hc : isNameChar c with
  | false => exact char c cs hc (text_induction nil char run cs)
  | true =>
    have hlt : (cs.dropWhile isNameChar).length < (c :: cs).length :=
      Nat.lt_succ_of_le (List.dropWhile_sublist isNameChar).length_le
    -- the longest run at the front; behind it no name character stands
    have hrun : c :: cs = c :: cs.takeWhile isNameChar ++ cs.dropWhile isNameChar := by
      rw [List.cons_append, List.takeWhile_append_dropWhile]
    rw [hrun]
    refine run _ _ ?_ (List.cons_ne_nil _ _) (fun d ds heq => ?_)
      (text_induction nil char run (cs.dropWhile isNameChar))
    · rw [List.all_cons, hc]
      exact List.all_takeWhile
    · have hhead := List.head?_dropWhile_not isNameChar cs
      rw [heq] at hhead
      simpa using hhead
termination_by text.length
decreasing_by
  · exact Nat.lt_succ_self _
  · exact hlt

/-- A character that is in no name is a cell of its own. -/
theorem cells_cons (h : isNameChar c = false) (rest : List Char) :
    cells (c :: rest) = .char c :: cells rest := by
  have hplain : ∀ {d : Char} {ds : List Char}, isNameChar d = false →
      isVariableRun (d :: ds) = false := by
    intro d ds hd
    rw [isNameChar, Bool.or_eq_false_iff] at hd
    rw [isVariableRun, List.head?_cons, Option.any_some, hd.1, Bool.false_and]
  rw [cells, cells, runs]
  rcases rest with _ | ⟨d, ds⟩
  · rw [runs, List.flatMap_cons, hplain h]
    rfl
  · obtain ⟨run, others, heq⟩ := exists_runs_cons d ds
    rw [heq]
    dsimp only
    rw [h]
    -- the character is a run of its own, or the front of a run of its sort
    cases hd : isNameChar d with
    | true =>
      rw [if_neg (by decide), List.flatMap_cons, hplain h]
      rfl
    | false =>
      rw [if_pos (by decide), List.flatMap_cons, List.flatMap_cons, hplain h, hplain hd]
      rfl

/-- A run is one cell when it is the name of a variable; otherwise it is left as it is. -/
theorem cells_run (hrun : run.all isNameChar = true) (hne : run ≠ []) :
    cells run = if isVariableRun run then [.name run] else run.map .char := by
  have hruns : runs (run ++ []) = _ := runs_append hrun hne nofun
  rw [List.append_nil] at hruns
  rw [cells, hruns]
  exact List.append_nil _

/-- A whole run is looked up, not a part of it. -/
theorem cells_run_append (hrun : run.all isNameChar = true) (hne : run ≠ [])
    (hrest : ∀ c cs, rest = c :: cs → isNameChar c = false) :
    cells (run ++ rest) = cells run ++ cells rest := by
  rw [cells_run hrun hne, cells, runs_append hrun hne hrest]
  rfl

/-- A text falls apart at a character that no name has. -/
theorem cells_append_cons (front : List Char) (h : isNameChar c = false) (rest : List Char) :
    cells (front ++ c :: rest) = cells front ++ .char c :: cells rest := by
  induction front using text_induction with
  | nil => exact cells_cons h rest
  | char d front hd ih => rw [List.cons_append, cells_cons hd, cells_cons hd, ih]; rfl
  | run run front hrun hne hfront ih =>
    have hmore : ∀ d ds, front ++ c :: rest = d :: ds → isNameChar d = false := by
      intro d ds heq
      rcases front with _ | ⟨e, front⟩
      · cases heq
        exact h
      · cases heq
        exact hfront _ _ rfl
    rw [List.append_assoc, cells_run_append hrun hne hmore, cells_run_append hrun hne hfront, ih,
      List.append_assoc]

/-! ## Trimming -/

theorem isNameChar_of_isBlank (h : isBlank c = true) : isNameChar c = false := by
  cases hc : isNameChar c with
  | false => rfl
  | true => exact absurd (isBlank_of_isNameChar hc) (by simp [h])

/-- The cells of a run of name characters are not blank, and there is one. -/
theorem not_isBlank_cells_run (hrun : run.all isNameChar = true) (hne : run ≠ []) :
    cells run ≠ [] ∧ ∀ cell ∈ cells run, cell.isBlank = false := by
  rw [cells_run hrun hne]
  split
  · refine ⟨List.cons_ne_nil _ _, fun cell hmem => ?_⟩
    cases List.mem_singleton.1 hmem
    rfl
  · refine ⟨by simpa using hne, fun cell hmem => ?_⟩
    obtain ⟨c, hc, rfl⟩ := List.mem_map.1 hmem
    exact isBlank_of_isNameChar (List.all_eq_true.1 hrun c hc)

/-- At either end of a text stands a blank cell exactly if a blank stands there. -/
theorem ends_cells (text : List Char) :
    (cells text).head?.map Cell.isBlank = text.head?.map isBlank ∧
      (cells text).getLast?.map Cell.isBlank = text.getLast?.map isBlank := by
  -- Neither a run of name characters nor its cells have blanks in them.
  have hends : ∀ {α : Type} {p : α → Bool} {l : List α}, l ≠ [] → (∀ a ∈ l, p a = false) →
      l.head?.map p = some false ∧ l.getLast?.map p = some false := by
    intro α p l hne h
    rw [List.head?_eq_some_head hne, List.getLast?_eq_some_getLast hne]
    exact ⟨congrArg some (h _ (List.head_mem hne)), congrArg some (h _ (List.getLast_mem hne))⟩
  induction text using text_induction with
  | nil => exact ⟨rfl, rfl⟩
  | char c rest hc ih =>
    rw [cells_cons hc]
    refine ⟨rfl, ?_⟩
    change ([Cell.char c] ++ cells rest).getLast?.map _ = ([c] ++ rest).getLast?.map _
    rw [List.getLast?_append, List.getLast?_append, Option.map_or, Option.map_or, ih.2]
    rfl
  | run run rest hrun hne hrest ih =>
    obtain ⟨hcells, hblank⟩ := not_isBlank_cells_run hrun hne
    obtain ⟨hhead, hlast⟩ := hends hcells hblank
    obtain ⟨hhead', hlast'⟩ :
        run.head?.map isBlank = some false ∧ run.getLast?.map isBlank = some false :=
      hends hne fun c hc => isBlank_of_isNameChar (List.all_eq_true.1 hrun c hc)
    rw [cells_run_append hrun hne hrest, List.head?_append, List.head?_append, List.getLast?_append,
      List.getLast?_append]
    simp only [Option.map_or, hhead, hlast, hhead', hlast', ih.2, Option.some_or, and_self]

/-- Blanks are dropped from cells as from the text. -/
theorem dropWhile_cells (text : List Char) :
    (cells text).dropWhile Cell.isBlank = cells (text.dropWhile isBlank) := by
  induction text with
  | nil => rfl
  | cons c cs ih =>
    cases hblank : isBlank c with
    | true =>
      rw [cells_cons (isNameChar_of_isBlank hblank), List.dropWhile_cons_of_pos (a := Cell.char c) hblank,
        List.dropWhile_cons_of_pos hblank, ih]
    | false =>
      rw [List.dropWhile_cons_of_neg (a := c) (by simp [hblank])]
      have hhead := (ends_cells (c :: cs)).1
      rw [List.head?_cons, Option.map_some, hblank] at hhead
      obtain ⟨cell, hcell, hcellBlank⟩ := Option.map_eq_some_iff.1 hhead
      obtain ⟨others, hcells⟩ := List.head?_eq_some_iff.1 hcell
      rw [hcells, List.dropWhile_cons_of_neg (by simp [hcellBlank])]

theorem rdropWhile_cells (text : List Char) :
    (cells text).rdropWhile Cell.isBlank = cells (text.rdropWhile isBlank) := by
  induction text using List.reverseRecOn with
  | nil => rfl
  | append_singleton front c ih =>
    cases hblank : isBlank c with
    | true =>
      rw [cells_append_cons front (isNameChar_of_isBlank hblank),
        List.rdropWhile_concat_pos isBlank _ _ hblank, ← ih]
      exact List.rdropWhile_concat_pos _ _ _ hblank
    | false =>
      rw [List.rdropWhile_concat_neg isBlank _ _ (by simp [hblank])]
      have hlast := (ends_cells (front ++ [c])).2
      rw [List.getLast?_concat, Option.map_some, hblank] at hlast
      obtain ⟨cell, hcell, hcellBlank⟩ := Option.map_eq_some_iff.1 hlast
      obtain ⟨others, hcells⟩ := List.getLast?_eq_some_iff.1 hcell
      rw [hcells, List.rdropWhile_concat_neg _ _ _ (by simp [hcellBlank])]

/-- The cells of a trimmed text are trimmed. -/
theorem trimCells_cells (text : List Char) : trimCells (cells text) = cells (trim text) := by
  change ((cells text).dropWhile Cell.isBlank).rdropWhile Cell.isBlank = _
  rw [dropWhile_cells, rdropWhile_cells]
  rfl

/-- Trimming a text and writing values in the place of its names can be done in either order. -/
theorem trim_render_cells (value : List Char → Float) (text : List Char) :
    trim (render (fun name => Decimal.write (value name)) (cells text)) =
      render (fun name => Decimal.write (value name)) (cells (trim text)) := by
  have hblank : ∀ c, isPlain c = true → isBlank c = false := by
    intro c hc
    simp only [isPlain, Bool.and_eq_true, Bool.not_eq_true'] at hc
    exact hc.1.1.1
  rw [trim_render (madeOf_write value) hblank, trimCells_cells]

/-! ## Random calls -/

/-- A random call as it is written. -/
def callText (low high : List Char) : List Char :=
  randomWord ++ '(' :: (low ++ ',' :: ' ' :: (high ++ [')']))

/-- What stands in the cells stands in the text. -/
theorem mem_of_char_mem_cells {text : List Char} (h : .char c ∈ cells text) : c ∈ text := by
  have hmem : c ∈ render id (cells text) := List.mem_flatMap.2 ⟨_, h, List.mem_singleton_self c⟩
  rwa [render_id] at hmem

/-- Cells are cut at the first place. -/
theorem cutCells_append_cons {front : List Cell} (h : .char c ∉ front) (rest : List Cell) :
    cutCells c (front ++ .char c :: rest) = some (front, rest) := by
  induction front with
  | nil => exact if_pos (decide_eq_true rfl)
  | cons cell front ih =>
    rw [List.mem_cons, not_or] at h
    have hcell : ¬cell.is c = true := by
      cases cell with
      | char d =>
        rw [Cell.is, decide_eq_true_iff]
        rintro rfl
        exact h.1 rfl
      | name word => exact Bool.false_ne_true
    rw [List.cons_append, cutCells, if_neg hcell, ih h.2]
    rfl

/-- A character that no name has stays when names are replaced. -/
theorem mem_render_cells {text : List Char} (hmem : c ∈ text) (hc : isNameChar c = false)
    (f : List Char → List Char) : c ∈ render f (cells text) := by
  obtain ⟨front, rest, rfl⟩ := List.append_of_mem hmem
  rw [cells_append_cons front hc, render, List.flatMap_append]
  exact List.mem_append_right _ List.mem_cons_self

theorem char_mem_of_cutCells {parts : List Cell} {found : List Cell × List Cell}
    (h : cutCells c parts = some found) : .char c ∈ parts := by
  induction parts generalizing found with
  | nil => cases h
  | cons cell parts ih =>
    rw [cutCells] at h
    split at h
    next his =>
      cases cell with
      | char d =>
        obtain rfl : c = d := by simpa [Cell.is] using his
        exact List.mem_cons_self
      | name word => cases his
    next =>
      obtain ⟨more, hmore, -⟩ := Option.map_eq_some_iff.1 h
      exact List.mem_cons_of_mem _ (ih hmore)

/-- Every random call has a comma. -/
theorem comma_mem_of_call_mem {call : CellCall} {parts : List Cell} (h : .call call ∈ atoms parts) :
    .char ',' ∈ parts := by
  obtain ⟨suffix, found, hsuffix, hcall⟩ := exists_cellCall?_of_call_mem h
  obtain ⟨named, hnamed, hcall⟩ := Option.bind_eq_some_iff.1 hcall
  obtain ⟨inside, hinside, hcall⟩ := Option.bind_eq_some_iff.1 hcall
  obtain ⟨⟨low, more⟩, hcut, -⟩ := Option.bind_eq_some_iff.1 hcall
  have hafter : .char ',' ∈ named.dropWhile Cell.isBlank := by
    rw [eq_append_of_afterCells? hinside]
    exact List.mem_append_right _ (char_mem_of_cutCells hcut)
  refine hsuffix.subset ?_
  rw [eq_append_of_afterCells? hnamed]
  exact List.mem_append_right _ ((List.dropWhile_sublist _).subset hafter)

theorem cells_ne_nil {text : List Char} (h : text ≠ []) : cells text ≠ [] := by
  intro hnil
  have hrender := render_id text
  rw [hnil] at hrender
  exact h hrender.symm

/-- A bound is what is left of its text by trimming. -/
theorem boundCells?_cells {text : List Char} (h : text ≠ []) :
    boundCells? (cells text) = some (cells (trim text)) := by
  rw [boundCells?, if_neg (by simpa using cells_ne_nil h), trimCells_cells]

/-- A call is its word, its brackets and the cells of its bounds. -/
theorem cells_callText (low high : List Char) :
    cells (callText low high) =
      randomWord.map .char ++ .char '(' ::
        (cells low ++ .char ',' :: (cells (' ' :: high) ++ [.char ')'])) := by
  have hword : cells randomWord = randomWord.map .char := by cbv
  have hhigh : cells (' ' :: (high ++ [')'])) = cells (' ' :: high) ++ [.char ')'] :=
    cells_append_cons (' ' :: high) (by decide) []
  rw [callText, cells_append_cons _ (by decide), cells_append_cons _ (by decide), hword, hhigh]

/-- The upper bound ends at the first closing bracket, wherever the text of the call ends. -/
theorem cellCall?_callText {others : List Cell} (hlow : low ≠ []) (hcomma : ',' ∉ low)
    (hclosing : ')' ∉ front)
    (hcells : cells (' ' :: high) ++ [.char ')'] = cells (' ' :: front) ++ .char ')' :: others) :
    cellCall? (cells (callText low high)) = some (⟨cells (trim low), cells (trim front)⟩, others) := by
  have hfront : .char ')' ∉ cells (' ' :: front) := by
    intro hmem
    rcases List.mem_cons.1 (mem_of_char_mem_cells hmem) with h | h
    · cases h
    · exact hclosing h
  have hlowCells : .char ',' ∉ cells low := fun hmem => hcomma (mem_of_char_mem_cells hmem)
  have hopening : ∀ inside : List Cell,
      afterCells? ['('] ((.char '(' :: inside).dropWhile Cell.isBlank) = some inside := by
    intro inside
    rw [List.dropWhile_cons_of_neg (by decide)]
    rfl
  rw [cells_callText, hcells, cellCall?]
  simp only [afterCells?_append, hopening, cutCells_append_cons hlowCells, cutCells_append_cons hfront,
    boundCells?_cells hlow, boundCells?_cells (List.cons_ne_nil ' ' front), trim_cons_space,
    Option.bind_eq_bind, Option.bind_some, Option.pure_def]

/-- An upper bound without a closing parenthesis is found as a whole. -/
theorem cellCall?_whole (hlow : low ≠ []) (hcomma : ',' ∉ low) (hclosing : ')' ∉ high) :
    cellCall? (cells (callText low high)) = some (⟨cells (trim low), cells (trim high)⟩, []) :=
  cellCall?_callText hlow hcomma hclosing rfl

/-- Any other is cut off at the first one. -/
theorem cellCall?_cut (rest : List Char) (hlow : low ≠ []) (hcomma : ',' ∉ low)
    (hclosing : ')' ∉ front) :
    ∃ others, cellCall? (cells (callText low (front ++ ')' :: rest))) =
      some (⟨cells (trim low), cells (trim front)⟩, others) := by
  refine ⟨cells rest ++ [.char ')'], cellCall?_callText hlow hcomma hclosing ?_⟩
  have hparts : cells (' ' :: front ++ ')' :: rest) = _ :=
    cells_append_cons (' ' :: front) (by decide) rest
  rw [← List.cons_append, hparts, List.append_assoc]
  rfl

/-! ## The call as a statement -/

theorem callText_concat (low high : List Char) :
    callText low high = (randomWord ++ '(' :: (low ++ ',' :: ' ' :: high)) ++ [')'] := by
  simp [callText]

/-- There are no blanks around a call. -/
theorem trim_callText (low high : List Char) : trim (callText low high) = callText low high := by
  refine trim_eq_self (fun c hc => ?_) fun c hc => ?_
  · cases hc
    decide
  · rw [callText_concat, List.getLast?_concat] at hc
    cases hc
    decide

/-- A text without an equals sign that does not end with a sign is an expression. -/
theorem ofText_of_not_equals (hequals : '=' ∉ front) (hc : c ≠ '=' ∧ c ≠ '+' ∧ c ≠ '-') :
    Statement.ofText (front ++ [c]) = .expression (front ++ [c]) := by
  have htext : '=' ∉ front ++ [c] := by
    rw [List.mem_append, List.mem_singleton, not_or]
    exact ⟨hequals, Ne.symm hc.1⟩
  have hupdate : Statement.update? (front ++ [c]) = none := by
    refine update?_eq_none fun a _ => ?_
    rw [← List.append_nil (front ++ [c]), cut_append (by simp) (not_infix_of_not_mem htext)]
    rfl
  have hassignment : Statement.cutEquals none (front ++ [c] ++ []) = none :=
    cutEquals_append htext (fun _ => rfl) none
  rw [List.append_nil] at hassignment
  rw [Statement.ofText, hupdate, step?_eq_none hc.2, Statement.assignment?, hassignment]
  rfl

/-- A call without a sign of equality in it is an expression. -/
theorem ofText_callText (hlow : '=' ∉ low) (hhigh : '=' ∉ high) :
    Statement.ofText (callText low high) = .expression (callText low high) := by
  rw [callText_concat]
  refine ofText_of_not_equals ?_ (by decide)
  simp [randomWord, hlow, hhigh]

end EventDeck.Expr
