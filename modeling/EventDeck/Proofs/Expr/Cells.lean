import EventDeck.Proofs.Expr.Names
import EventDeck.Proofs.Expr.Numeral

/-!
# The parts of a text that are replaced

A text is a sequence of *cells*, which are names and other characters.  When the names are replaced
by numbers, random calls are found in the result where they are found among the cells, whatever the
numbers are (`randomCall?_render`), because a call is made of characters that no number has.  So a
text is a sequence of *atoms*: names, random calls and other characters, each of which is replaced
for itself (`flatten_runs_render`, `replaceRandoms_render`).

Whatever else takes the place of names, it is enough that random calls are found among the cells and
begin nowhere else (`KeepsCalls`).
-/

namespace EventDeck.Expr

open Text

/-! ## Cells -/

/-- A character of a text, or a name in it. -/
inductive Cell
  | char (c : Char)
  | name (word : List Char)

/-- The cells of a text. -/
def cells (text : List Char) : List Cell :=
  (runs text).flatMap fun run => if isVariableRun run then [.name run] else run.map .char

/-- The text of a cell, given what takes the place of names. -/
def Cell.render (f : List Char → List Char) : Cell → List Char
  | char c => [c]
  | name word => f word

/-- The text of cells. -/
def render (f : List Char → List Char) (cells : List Cell) : List Char :=
  cells.flatMap (Cell.render f)

variable {f : List Char → List Char}

@[simp] theorem render_nil : render f [] = [] := rfl

@[simp] theorem render_cons (cell : Cell) (cells : List Cell) :
    render f (cell :: cells) = cell.render f ++ render f cells := rfl

/-- A text with something in the place of its names is the text of its cells. -/
theorem flatten_runs_render (text : List Char) :
    ((runs text).map fun run => if isVariableRun run then f run else run).flatten =
      render f (cells text) := by
  have hrun : ∀ run, render f (if isVariableRun run then [.name run] else run.map .char) =
      if isVariableRun run then f run else run := by
    intro run
    split
    · exact List.append_nil _
    · rw [render, List.flatMap_map]
      exact List.flatMap_singleton' run
  rw [cells, render, List.flatMap_assoc, ← List.flatMap_def]
  exact congrArg (List.flatMap · (runs text)) (funext fun run => (hrun run).symm)

/-! ## Numbers in the place of names -/

/-- What takes the place of names is made of some characters, and is not empty. -/
def MadeOf (good : Char → Prop) (f : List Char → List Char) : Prop :=
  ∀ word, f word ≠ [] ∧ ∀ c ∈ f word, good c

/-- What takes the place of names is made of the characters of numbers, and there is some. -/
def Numeric (f : List Char → List Char) : Prop :=
  ∀ word, f word ≠ [] ∧ ∀ c ∈ f word, IsNumberChar c

/-- Whether a cell is a character. -/
def Cell.is (c : Char) : Cell → Bool
  | char d => c = d
  | name _ => false

/-- Whether a cell is blank. -/
def Cell.isBlank : Cell → Bool
  | char c => Text.isBlank c
  | name _ => false

/-- What follows a word among cells. -/
def afterCells? : List Char → List Cell → Option (List Cell)
  | [], cells => some cells
  | _ :: _, [] => none
  | c :: cs, cell :: cells => if cell.is c then afterCells? cs cells else none

/-- The cells before and after the first occurrence of a character. -/
def cutCells (c : Char) : List Cell → Option (List Cell × List Cell)
  | [] => none
  | cell :: cells =>
    if cell.is c then some ([], cells)
    else (cutCells c cells).map fun (before, rest) => (cell :: before, rest)

/-- Cells without the blank ones at either end. -/
def trimCells (cells : List Cell) : List Cell :=
  ((cells.dropWhile Cell.isBlank).reverse.dropWhile Cell.isBlank).reverse

section MadeOf

variable {good : Char → Prop} (hf : MadeOf good f)

include hf

theorem after?_render {word : List Char} (hword : ∀ c ∈ word, ¬good c)
    (cells : List Cell) :
    after? word (render f cells) = (afterCells? word cells).map (render f) := by
  induction word generalizing cells with
  | nil => rfl
  | cons c cs ih =>
    cases cells with
    | nil => rfl
    | cons cell cells =>
      rw [render_cons, afterCells?]
      cases cell with
      | char d =>
        change (if c = d then after? cs (render f cells) else none) = _
        rw [Cell.is]
        by_cases hcd : c = d
        · rw [if_pos hcd, if_pos (by simpa using hcd)]
          exact ih (fun e he => hword e (List.mem_cons_of_mem _ he)) cells
        · rw [if_neg hcd, if_neg (by simpa using hcd)]
          rfl
      | name name =>
        -- what stands here begins with no character of the word
        obtain ⟨hne, hchars⟩ := hf name
        rw [Cell.render]
        rcases hname : f name with _ | ⟨d, ds⟩
        · exact absurd hname hne
        · have hd : c ≠ d := by
            rintro rfl
            exact hword c List.mem_cons_self (hchars c (hname ▸ List.mem_cons_self))
          rw [List.cons_append, after?, if_neg hd]
          rfl

theorem dropWhile_render (hblank : ∀ c, good c → isBlank c = false) (cells : List Cell) :
    (render f cells).dropWhile isBlank = render f (cells.dropWhile Cell.isBlank) := by
  induction cells with
  | nil => rfl
  | cons cell cells ih =>
    cases cell with
    | char c =>
      rw [render_cons, List.dropWhile_cons]
      change List.dropWhile isBlank (c :: render f cells) = _
      rw [List.dropWhile_cons, ih, Cell.isBlank]
      split <;> rfl
    | name name =>
      -- what stands here is not blank, so the blanks end before it
      obtain ⟨hne, hchars⟩ := hf name
      rw [render_cons, Cell.render, List.dropWhile_cons_of_neg (by simp [Cell.isBlank])]
      rcases hname : f name with _ | ⟨d, ds⟩
      · exact absurd hname hne
      · have hd : isBlank d = false := hblank d (hchars d (hname ▸ List.mem_cons_self))
        rw [List.cons_append, List.dropWhile_cons_of_neg (by simp [hd]), render_cons, Cell.render,
          hname, List.cons_append]

omit hf in
theorem cut_cons (c d : Char) (text : List Char) : cut [c] (d :: text) =
    if c = d then some ([], text) else (cut [c] text).map fun (b, r) => (d :: b, r) := by
  rw [cut, after?]
  by_cases hcd : c = d
  · rw [if_pos hcd, if_pos hcd]
    rfl
  · rw [if_neg hcd, if_neg hcd]

omit hf in
/-- What has no such character is passed over where one is looked for. -/
theorem cut_append_of_not_mem {c : Char} {run : List Char} (hc : c ∉ run) (text : List Char) :
    cut [c] (run ++ text) = (cut [c] text).map fun (b, r) => (run ++ b, r) := by
  induction run with
  | nil => simp
  | cons d run ih =>
    rw [List.mem_cons, not_or] at hc
    rw [List.cons_append, cut_cons, if_neg hc.1, ih hc.2, Option.map_map]
    rfl

theorem cut_render {c : Char} (hc : ¬good c) (cells : List Cell) :
    cut [c] (render f cells) =
      (cutCells c cells).map fun (before, rest) => (render f before, render f rest) := by
  induction cells with
  | nil => rfl
  | cons cell cells ih =>
    rw [render_cons, cutCells]
    cases cell with
    | char d =>
      change cut [c] (d :: render f cells) = _
      rw [cut_cons, ih, Cell.is]
      by_cases hcd : c = d
      · rw [if_pos hcd, if_pos (by simpa using hcd)]
        rfl
      · rw [if_neg hcd, if_neg (by simpa using hcd), Option.map_map, Option.map_map]
        rfl
    | name name =>
      rw [Cell.render, cut_append_of_not_mem (fun hmem => hc ((hf name).2 c hmem)), ih, Option.map_map]
      simp only [Cell.is, Bool.false_eq_true, if_false]
      rw [Option.map_map]
      rfl

end MadeOf

theorem render_reverse (cells : List Cell) :
    (render f cells).reverse = render (fun word => (f word).reverse) cells.reverse := by
  rw [render, render, List.reverse_flatMap]
  refine congrArg (List.flatMap · cells.reverse) (funext fun cell => ?_)
  cases cell <;> rfl

variable {good : Char → Prop}

theorem MadeOf.reverse (hf : MadeOf good f) : MadeOf good fun word => (f word).reverse := by
  intro word
  obtain ⟨hne, hchars⟩ := hf word
  exact ⟨by simpa using hne, fun c hc => hchars c (List.mem_reverse.1 hc)⟩

theorem trim_render (hf : MadeOf good f) (hblank : ∀ c, good c → isBlank c = false)
    (cells : List Cell) : trim (render f cells) = render f (trimCells cells) := by
  rw [trim, trimBy, dropWhile_render hf hblank, render_reverse, dropWhile_render hf.reverse hblank,
    render_reverse, trimCells]
  simp

theorem isEmpty_render (hf : MadeOf good f) (cells : List Cell) :
    (render f cells).isEmpty = cells.isEmpty := by
  rcases cells with _ | ⟨c | name, cells⟩
  · rfl
  · rfl
  · rw [render_cons, Cell.render]
    rcases hname : f name with _ | ⟨d, ds⟩
    · exact absurd hname (hf name).1
    · rfl

/-! ## Random calls -/

/-- A random call among cells: its bounds. -/
structure CellCall where
  low : List Cell
  high : List Cell

/-- A bound of a random call among cells. -/
def boundCells? (cells : List Cell) : Option (List Cell) :=
  if cells.isEmpty then none else some (trimCells cells)

/-- A random call at the front of cells, with the rest. -/
def cellCall? (cells : List Cell) : Option (CellCall × List Cell) := do
  let named ← afterCells? randomWord cells
  let inside ← afterCells? ['('] (named.dropWhile Cell.isBlank)
  let (low, more) ← cutCells ',' inside
  let (high, rest) ← cutCells ')' more
  return (⟨← boundCells? low, ← boundCells? high⟩, rest)

/-- A random call among cells, with numbers in the place of its names. -/
def CellCall.render (f : List Char → List Char) (call : CellCall) : RandomCall :=
  ⟨Expr.render f call.low, Expr.render f call.high⟩

theorem bound?_render (hf : MadeOf good f) (hblank : ∀ c, good c → isBlank c = false)
    (cells : List Cell) : bound? (render f cells) = (boundCells? cells).map (render f) := by
  rw [bound?, boundCells?, isEmpty_render hf]
  split
  · rfl
  · rw [trim_render hf hblank]
    rfl

theorem not_isNumberChar_of_mem_randomWord {c : Char} (h : c ∈ randomWord) : ¬IsNumberChar c := by
  have hall : randomWord.all (fun c => !decide (IsNumberChar c)) = true := by decide
  simpa using List.all_eq_true.1 hall c h

/-- A random call is found where it is found among the cells, if its word is, and if nothing that takes
the place of a name has blanks or parts that the bounds are found by. -/
theorem randomCall?_render_of_word (hf : MadeOf good f) (hblank : ∀ c, good c → isBlank c = false)
    (hopening : ¬good '(') (hcomma : ¬good ',') (hclosing : ¬good ')') {cells : List Cell}
    (hword : after? randomWord (render f cells) = (afterCells? randomWord cells).map (render f)) :
    randomCall? (render f cells) =
      (cellCall? cells).map fun (call, rest) => (call.render f, render f rest) := by
  have hopening : ∀ c ∈ ['('], ¬good c := fun c hc => List.mem_singleton.1 hc ▸ hopening
  -- both sides look for the same five things one after the other
  rw [randomCall?, cellCall?, hword]
  rcases afterCells? randomWord cells with _ | named
  · rfl
  · change (afterBlanks? '(' (render f named) >>= _) = _
    rw [afterBlanks?, dropWhile_render hf hblank, after?_render hf hopening]
    change _ = Option.map _ (afterCells? ['('] (named.dropWhile Cell.isBlank) >>= _)
    rcases afterCells? ['('] (named.dropWhile Cell.isBlank) with _ | inside
    · rfl
    · change (cut [','] (render f inside) >>= _) = Option.map _ (cutCells ',' inside >>= _)
      rw [cut_render hf hcomma]
      rcases cutCells ',' inside with _ | ⟨low, more⟩
      · rfl
      · change (cut [')'] (render f more) >>= _) = Option.map _ (cutCells ')' more >>= _)
        rw [cut_render hf hclosing]
        rcases cutCells ')' more with _ | ⟨high, rest⟩
        · rfl
        · change (bound? (render f low) >>= _) = Option.map _ (boundCells? low >>= _)
          rw [bound?_render hf hblank]
          rcases boundCells? low with _ | low
          · rfl
          · change (bound? (render f high) >>= _) = Option.map _ (boundCells? high >>= _)
            rw [bound?_render hf hblank]
            rcases boundCells? high with _ | high <;> rfl

/-- A random call is found where it is found among the cells. -/
theorem randomCall?_render (hf : Numeric f) (cells : List Cell) :
    randomCall? (render f cells) =
      (cellCall? cells).map fun (call, rest) => (call.render f, render f rest) := by
  refine randomCall?_render_of_word hf (fun c hc => hc.not_isBlank) (by decide) (by decide)
    (by decide) ?_
  exact after?_render hf (fun _ => not_isNumberChar_of_mem_randomWord) cells

theorem length_lt_of_cellCall? {cells rest : List Cell} {call : CellCall}
    (h : cellCall? cells = some (call, rest)) : rest.length < cells.length := by
  have hnumeric : Numeric fun _ => ['0'] := fun _ =>
    ⟨by simp, fun c hc => by rw [List.mem_singleton.1 hc]; exact .inl (by decide)⟩
  have hlength : ∀ cells : List Cell, (render (fun _ => ['0']) cells).length = cells.length := by
    intro cells
    induction cells with
    | nil => rfl
    | cons cell cells ih => cases cell <;> simp [Cell.render, ih]
  -- with one character for each name, the cells are as many as the characters
  have hcall := randomCall?_render hnumeric cells
  rw [h] at hcall
  have hlt := length_lt_of_randomCall? hcall
  rwa [hlength, hlength] at hlt

/-! ## Atoms -/

/-- A character of a text, a name in it, or a random call. -/
inductive Atom
  | char (c : Char)
  | name (word : List Char)
  | call (bounds : CellCall)

/-- A cell outside random calls. -/
def Cell.atom : Cell → Atom
  | char c => .char c
  | name word => .name word

/-- The atoms of cells. -/
def atoms (cells : List Cell) : List Atom :=
  match cells with
  | [] => []
  | cell :: others =>
    match _h : cellCall? (cell :: others) with
    | some (call, rest) => .call call :: atoms rest
    | none => cell.atom :: atoms others
termination_by cells.length
decreasing_by
  · exact length_lt_of_cellCall? ‹_›
  · exact Nat.lt_succ_self _

theorem atoms_of_some {cell : Cell} {others rest : List Cell} {call : CellCall}
    (h : cellCall? (cell :: others) = some (call, rest)) :
    atoms (cell :: others) = .call call :: atoms rest := by
  rw [atoms]
  split
  next heq =>
    rw [h] at heq
    cases heq
    rfl
  next heq =>
    rw [h] at heq
    cases heq

theorem atoms_of_none {cell : Cell} {others : List Cell} (h : cellCall? (cell :: others) = none) :
    atoms (cell :: others) = cell.atom :: atoms others := by
  rw [atoms]
  split
  next heq =>
    rw [h] at heq
    cases heq
  next => rfl

/-- A random call among the atoms begins at one of the cells. -/
theorem exists_cellCall?_of_call_mem {call : CellCall} {parts : List Cell}
    (h : .call call ∈ atoms parts) :
    ∃ suffix found, suffix <:+ parts ∧ cellCall? suffix = some found := by
  induction parts using atoms.induct with
  | case1 =>
    rw [atoms] at h
    cases h
  | case2 cell others found rest hcall => exact ⟨_, _, List.suffix_rfl, hcall⟩
  | case3 cell others hcall ih =>
    rw [atoms_of_none hcall] at h
    rcases List.mem_cons.1 h with h | h
    · cases cell <;> cases h
    · obtain ⟨suffix, found, hsuffix, hfound⟩ := ih h
      exact ⟨suffix, found, hsuffix.trans (List.suffix_cons _ _), hfound⟩

theorem exists_render_cons (hf : MadeOf good f) (cell : Cell) (others : List Cell) :
    ∃ c cs, render f (cell :: others) = c :: cs := by
  rcases htext : render f (cell :: others) with _ | ⟨c, cs⟩
  · have hempty := isEmpty_render hf (cell :: others)
    rw [htext] at hempty
    cases hempty
  · exact ⟨c, cs, rfl⟩

/-! ## Replacing random calls -/

/-- Random calls are found where they are found among the cells, and none begins within what takes the
place of a name. -/
structure KeepsCalls (f : List Char → List Char) : Prop where
  first : ∀ word, 'R' ∉ f word
  exists_cons : ∀ cell others, ∃ c cs, render f (cell :: others) = c :: cs
  calls : ∀ cells, randomCall? (render f cells) =
    (cellCall? cells).map fun (call, rest) => (call.render f, render f rest)

theorem Numeric.keepsCalls (hf : Numeric f) : KeepsCalls f where
  first word h := absurd ((hf word).2 _ h) (by decide)
  exists_cons := exists_render_cons hf
  calls := randomCall?_render hf

/-- What takes the place of an atom. -/
def Atom.replace {m : Type → Type} [Monad m] (f : List Char → List Char)
    (g : RandomCall → m (List Char)) : Atom → m (List Char)
  | char c => pure [c]
  | name word => pure (f word)
  | call bounds => g (bounds.render f)

section Replace

variable {m : Type → Type} [Monad m] [LawfulMonad m] {g : RandomCall → m (List Char)}

/-- Random calls begin with the first letter of their word. -/
theorem replaceRandoms_append {run : List Char} (hrun : 'R' ∉ run) (rest : List Char) :
    replaceRandoms g (run ++ rest) = (run ++ ·) <$> replaceRandoms g rest := by
  induction run with
  | nil => simp
  | cons c run ih =>
    rw [List.mem_cons, not_or] at hrun
    rw [List.cons_append, replaceRandoms]
    split
    next heq => rw [randomCall?_of_head (Ne.symm hrun.1)] at heq; cases heq
    next =>
      rw [ih hrun.2, bind_map_left, map_eq_pure_bind]
      rfl

/-- Random calls are replaced atom by atom. -/
theorem replaceRandoms_render (hf : KeepsCalls f) (cells : List Cell) :
    replaceRandoms g (render f cells) =
      List.flatten <$> (atoms cells).mapM (Atom.replace f g) := by
  induction cells using atoms.induct with
  | case1 => rw [render_nil, replaceRandoms, atoms, List.mapM_nil, map_pure]; rfl
  | case2 cell others call rest hcall ih =>
    obtain ⟨c, cs, htext⟩ := hf.exists_cons cell others
    have hrandom := hf.calls (cell :: others)
    rw [hcall, htext] at hrandom
    rw [htext, replaceRandoms]
    split
    next call' rest' h =>
      rw [hrandom] at h
      cases h
      rw [atoms_of_some hcall, List.mapM_cons, ih]
      simp [Atom.replace]
    next h =>
      rw [hrandom] at h
      cases h
  | case3 cell others hcall ih =>
    have hrandom := hf.calls (cell :: others)
    rw [hcall] at hrandom
    rw [atoms_of_none hcall, List.mapM_cons]
    cases cell with
    | char c =>
      change replaceRandoms g (c :: render f others) = _
      rw [replaceRandoms]
      split
      next h => rw [show randomCall? (c :: render f others) = none from hrandom] at h; cases h
      next =>
        rw [ih]
        simp [Cell.atom, Atom.replace]
    | name word =>
      -- no random call begins inside what takes the place of a name
      rw [render_cons, Cell.render, replaceRandoms_append (hf.first word), ih]
      simp [Cell.atom, Atom.replace]

end Replace

end EventDeck.Expr
