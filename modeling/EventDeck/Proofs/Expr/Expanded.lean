import EventDeck.Proofs.Expr.Gluing
import EventDeck.Proofs.Expr.Reading

/-!
# What a run makes of the tokens of a check

When every piece of a text fits where it is glued, a run reads the tokens that the check has read,
with chains in the place of numbers (`exists_expands`).  Hence the kind of the tree of the check
decides about every run: with a kind the run has a value of this kind or divides by zero, without one
it never has a value (`evaluateText_of_kind?`).
-/

namespace EventDeck.Expr

open Text Decimal

/-! ## Tokens that stand apart -/

/-- No number stands first. -/
def NoNumberFirst (tokens : List Token) : Prop :=
  ∀ text rest, tokens ≠ .number text :: rest

/-- No two numbers stand next to each other. -/
def Separate : List Token → Prop
  | [] => True
  | .number _ :: tokens => NoNumberFirst tokens ∧ Separate tokens
  | .operator _ :: tokens => Separate tokens

theorem noNumberFirst_operator (op : Operator) (tokens : List Token) :
    NoNumberFirst (.operator op :: tokens) := by
  intro text rest h
  cases h

theorem Tree.separate_append {level : Level} (tree : Tree (List Char) level) {rest : List Token}
    (hfirst : NoNumberFirst rest) (hrest : Separate rest) : Separate (tree.tokens ++ rest) := by
  induction tree generalizing rest with
  | operand text => exact ⟨hfirst, hrest⟩
  | group inner ih =>
    have hinner : Separate (inner.tokens ++ .operator .closing :: rest) :=
      ih (noNumberFirst_operator _ _) hrest
    rw [tokens, spell, List.append_assoc, List.append_assoc]
    exact hinner
  | sign negative inner ih | not inner ih =>
    have hinner : Separate (inner.tokens ++ rest) := ih hfirst hrest
    rw [tokens, spell, List.append_assoc]
    exact hinner
  | @join _ op _ known left right ihl ihr | @compare op _ known left right ihl ihr =>
    have hright : Separate (right.tokens ++ rest) := ihr hfirst hrest
    have hleft : Separate (left.tokens ++ .operator op :: (right.tokens ++ rest)) :=
      ihl (noNumberFirst_operator _ _) hright
    rw [tokens, spell, List.append_assoc, List.append_assoc]
    exact hleft
  | unsigned inner ih | single inner ih | sum inner ih | plain inner ih => exact ih hfirst hrest

theorem Tree.separate {level : Level} (tree : Tree (List Char) level) : Separate tree.tokens := by
  have hfirst : NoNumberFirst [] := fun _ _ h => by cases h
  have h := tree.separate_append hfirst trivial
  rwa [List.append_nil] at h

/-! ## Characters that end numbers -/

theorem step?_of_isBlank {c : Char} (h : isBlank c = true) (stage : Stage) :
    stage.step? c = none := by
  rcases hstep : stage.step? c with _ | next
  · rfl
  · rw [(Stage.isNumberChar_of_step? hstep).not_isBlank] at h
    cases h

theorem isDecimalDigit_of_step? {stage : Stage} {c : Char} (h : stage.step? c = none) :
    isDecimalDigit c = false := by
  rcases hc : isDecimalDigit c with _ | _
  · rfl
  · rw [Stage.step?_digit hc] at h
    cases h

/-- What ends a whole part ends every number, and begins none. -/
theorem Stage.step?_eq_none {stage : Stage} {c : Char}
    (hstage : stage = .start ∨ stage.complete = true) (hc : Stage.whole.step? c = none) :
    stage.step? c = none := by
  rcases hstage with rfl | hcomplete
  · have hpoint : c ≠ '.' := by
      rintro rfl
      exact absurd hc (by decide)
    unfold Stage.step?
    rw [isDecimalDigit_of_step? hc]
    exact if_neg hpoint
  · have hstops : Stage.whole.Stops [c] := by
      rintro _ _ ⟨⟩
      exact hc
    exact Stage.stops_of_whole hcomplete hstops c [] rfl

theorem step?_of_mem_symbol {op : Operator} {c : Char} (h : c ∈ op.symbol) :
    Stage.whole.step? c = none := by
  have hall : op.symbol.all (fun c => (Stage.whole.step? c).isNone) = true := by
    cases op <;> decide
  exact Option.isNone_iff_eq_none.1 (List.all_eq_true.1 hall c h)

theorem scanOperator?_of_nextToken? {text rest : List Char} {op : Operator}
    (h : nextToken? text = some (.operator op, rest)) : scanOperator? text = some (op, rest) := by
  unfold nextToken? at h
  split at h
  · cases h
  · obtain ⟨⟨op', rest'⟩, hscan, heq⟩ := Option.map_eq_some_iff.1 h
    cases heq
    exact hscan

/-- Where a token other than a number comes next, a number has ended. -/
theorem stops_of_tokenize {text : List Char} {tokens : List Token} (h : tokenize text = .ok tokens)
    (hfirst : NoNumberFirst tokens) : Stage.whole.Stops text := by
  rintro c cs rfl
  rcases tokenize_cons_eq_ok_cases h with ⟨hblank, -⟩ | ⟨-, token, rest, more, hnext, -, rfl⟩
  · exact step?_of_isBlank hblank .whole
  · cases token with
    | number text => exact absurd rfl (hfirst text more)
    | operator op =>
      have hsymbol := scanOperator?_append (scanOperator?_of_nextToken? hnext)
      rcases hop : op.symbol with _ | ⟨d, ds⟩
      · exact absurd hop op.symbol_ne_nil
      · rw [hop] at hsymbol
        cases hsymbol
        exact step?_of_mem_symbol (hop ▸ List.mem_cons_self)

/-- An operator that is taken is not the beginning of a longer one. -/
theorem head?_of_scanOperator? {text rest : List Char} {op : Operator}
    (h : scanOperator? text = some (op, rest)) (hop : op.opensEquals = true) :
    rest.head? ≠ some '=' := by
  have htext := scanOperator?_append h
  intro heq
  obtain ⟨more, rfl⟩ : ∃ more, rest = '=' :: more := by
    rcases rest with _ | ⟨c, more⟩
    · cases heq
    · cases heq
      exact ⟨more, rfl⟩
  rw [htext] at h
  cases op with
  | less | greater | not => cases h
  | _ => cases hop

/-! ## Walks -/

namespace Spot

/-- What ends a number leaves no number begun. -/
theorem next?_of_stops {spot : Spot} {c : Char}
    (hspot : spot.stage = .start ∨ spot.stage.complete = true)
    (hc : Stage.whole.step? c = none) : spot.next? (.char c) = some (plain .start) := by
  cases spot with
  | named => rw [next?, isDecimalDigit_of_step? hc, hc]; rfl
  | plain stage =>
    have hstep : stage.step? c = none := Stage.step?_eq_none hspot hc
    rw [next?, hstep]
    rfl

/-- Characters that end numbers leave no number begun. -/
theorem walk_chars {chars : List Char} (h : ∀ c ∈ chars, Stage.whole.step? c = none) :
    (plain .start).walk (chars.map .char) = some (plain .start) := by
  induction chars with
  | nil => rfl
  | cons c cs ih =>
    rw [List.map_cons, walk, next?_of_stops (.inl rfl) (h c List.mem_cons_self), Option.bind_some]
    exact ih fun d hd => h d (List.mem_cons_of_mem _ hd)

/-- What ends a number may as well stand where none has begun. -/
theorem walk_of_stops {spot landing : Spot} {atoms : List Atom}
    (hspot : spot.stage.complete = true) (hstops : Stage.whole.Stops (atoms.map Atom.face))
    (hwalk : spot.walk atoms = some landing) :
    ∃ landing, (plain .start).walk atoms = some landing := by
  cases atoms with
  | nil => exact ⟨_, rfl⟩
  | cons atom atoms =>
    have hface := hstops atom.face (atoms.map Atom.face) rfl
    cases atom with
    | char c =>
      have hface : Stage.whole.step? c = none := hface
      rw [walk, next?_of_stops (.inr hspot) hface] at hwalk
      rw [walk, next?_of_stops (.inl rfl) hface]
      exact ⟨landing, hwalk⟩
    | name _ | call _ =>
      have hface : Stage.whole.step? '0' = none := hface
      exact absurd hface (by decide)

theorem follow?_of_walk {spot landing : Spot} {atoms : List Atom} {last : Stage}
    (hwalk : spot.walk atoms = some landing)
    (hface : spot.stage.follow? (atoms.map Atom.face) = some last) : landing.stage = last := by
  induction atoms generalizing spot with
  | nil =>
    cases hwalk
    cases hface
    rfl
  | cons atom atoms ih =>
    obtain ⟨next, hnext, hwalk⟩ := Option.bind_eq_some_iff.1 hwalk
    obtain ⟨after, hstep, hface⟩ := Option.bind_eq_some_iff.1 hface
    have hstage : next.stage = after := stage_of_next? hnext hstep
    exact ih hwalk (hstage ▸ hface)

end Spot

/-! ## Fronts of pasted texts -/

theorem Atom.face_of_isBlank {atom : Atom} (h : isBlank atom.face = true) :
    atom = .char atom.face := by
  cases atom with
  | char c => rfl
  | name _ | call _ => cases h

/-- Atoms that look like characters other than digits are these characters. -/
theorem eq_map_char {atoms : List Atom} (h : ∀ c ∈ atoms.map Atom.face, isDecimalDigit c = false) :
    atoms = (atoms.map Atom.face).map .char := by
  induction atoms with
  | nil => rfl
  | cons atom atoms ih =>
    have hatom : atom = .char atom.face := by
      have hface := h atom.face List.mem_cons_self
      cases atom with
      | char c => rfl
      | name _ | call _ => cases hface
    have hrest := ih fun c hc => h c (List.mem_cons_of_mem _ hc)
    rw [List.map_cons, List.map_cons, ← hatom, ← hrest]

variable {names : List Char → List Char}

theorem Pasted.of_chars {chars text : List Char} (h : Pasted names (chars.map .char) text) :
    text = chars := by
  induction chars generalizing text with
  | nil =>
    cases h
    rfl
  | cons c cs ih =>
    cases h with
    | char _ h => rw [ih h]

/-- A pasted text begins as its face does, or with a number on either side. -/
theorem Pasted.head (hnames : WritesNumbers names) {atoms : List Atom} {c : Char} {cs : List Char}
    (h : Pasted names atoms (c :: cs)) :
    (∃ rest, atoms.map Atom.face = c :: rest) ∨
      IsNumberChar c ∧ ∃ rest, atoms.map Atom.face = '0' :: rest := by
  have hsigned : ∀ {negative : Bool} {digits text : List Char}, digits ≠ [] →
      (∀ d ∈ digits, IsNumberChar d) → signed negative digits ++ text = c :: cs →
      IsNumberChar c := by
    intro negative digits text hne hchars heq
    cases negative with
    | true =>
      cases heq
      exact .inr (.inr (.inr (.inr (.inr rfl))))
    | false =>
      rcases digits with _ | ⟨d, ds⟩
      · exact absurd rfl hne
      · cases heq
        exact hchars _ List.mem_cons_self
  generalize htext : c :: cs = text at h
  -- a character is its own face; what stands for a name or a call has the face of a zero, and begins
  -- with a sign or a digit
  cases h with
  | nil => cases htext
  | char d h =>
    cases htext
    exact .inl ⟨_, rfl⟩
  | name word h =>
    obtain ⟨negative, body, hword, hbody⟩ := hnames word
    rw [hword] at htext
    have hnumber := hbody.isNumber
    exact .inr ⟨hsigned hnumber.ne_nil hnumber.isNumberChar htext.symm, _, rfl⟩
  | @call bounds negative digits _ _ hall hne h =>
    have hchars : ∀ d ∈ digits, IsNumberChar d := fun d hd => .inl (List.all_eq_true.1 hall d hd)
    exact .inr ⟨hsigned hne hchars htext.symm, _, rfl⟩

/-- What ends numbers for the check ends them in the run. -/
theorem Pasted.stops (hnames : WritesNumbers names) {atoms : List Atom} {text : List Char}
    (h : Pasted names atoms text) (hstops : Stage.whole.Stops (atoms.map Atom.face)) :
    Stage.whole.Stops text := by
  rintro c cs rfl
  rcases h.head hnames with ⟨faces, hfaces⟩ | ⟨-, faces, hfaces⟩
  · exact hstops c faces hfaces
  · exact absurd (hstops '0' faces hfaces) (by decide)

/-- No equals sign comes up in a run that the check does not see. -/
theorem Pasted.head?_ne_equals (hnames : WritesNumbers names) {atoms : List Atom} {text : List Char}
    (h : Pasted names atoms text) (hface : (atoms.map Atom.face).head? ≠ some '=') :
    text.head? ≠ some '=' := by
  rcases text with _ | ⟨c, cs⟩
  · simp
  · rintro ⟨⟩
    rcases h.head hnames with ⟨faces, hfaces⟩ | ⟨hnumber, -⟩
    · rw [hfaces] at hface
      exact hface rfl
    · exact absurd hnumber (by decide)

/-- Atoms that look like an operator are its characters, and leave no number begun. -/
theorem eq_symbol_of_faces {op : Operator} {atoms : List Atom} {text : List Char} {spot : Spot}
    (hfaces : atoms.map Atom.face = op.symbol) (h : Pasted names atoms text)
    (hwalk : (Spot.plain .start).walk atoms = some spot) :
    text = op.symbol ∧ spot = .plain .start := by
  have hchars : ∀ c ∈ op.symbol, Stage.whole.step? c = none := fun c hc => step?_of_mem_symbol hc
  have hatoms : atoms = op.symbol.map .char := by
    rw [← hfaces]
    exact eq_map_char fun c hc => isDecimalDigit_of_step? (hchars c (hfaces ▸ hc))
  subst hatoms
  rw [Spot.walk_chars hchars] at hwalk
  cases hwalk
  exact ⟨h.of_chars, rfl⟩

/-! ## Texts -/

/-- Where every piece fits, a run reads the tokens of the check, with chains in the place of
numbers. -/
theorem exists_expands {atoms : List Atom} {text : List Char} {tokens : List Token}
    {landing : Spot} (h : tokenize (atoms.map Atom.face) = .ok tokens)
    (hseparate : Separate tokens) (hwalk : (Spot.plain .start).walk atoms = some landing)
    (hnames : WritesNumbers names) (hpasted : Pasted names atoms text) :
    ∃ expanded, tokenize text = .ok expanded ∧ Expands tokens expanded := by
  by_cases hnil : atoms = []
  · subst hnil
    have hempty : tokenize [] = .ok [] := tokenize_of_all_isBlank rfl
    have htokens : Except.ok [] = .ok tokens := hempty.symm.trans h
    cases hpasted
    cases htokens
    exact ⟨[], hempty, .nil⟩
  obtain ⟨atom, others, rfl⟩ := List.exists_cons_of_ne_nil hnil
  rw [List.map_cons] at h
  rcases tokenize_cons_eq_ok_cases h with ⟨hblank, h⟩ | ⟨-, token, rest, more, hnext, hmore, rfl⟩
  · -- a blank is skipped on both sides
    rw [Atom.face_of_isBlank hblank] at hwalk hpasted
    rw [Spot.walk, Spot.next?_of_stops (.inl rfl) (step?_of_isBlank hblank .whole),
      Option.bind_some] at hwalk
    cases hpasted with
    | char c hothers =>
      rw [tokenize_cons_of_isBlank hblank]
      exact exists_expands h hseparate hwalk hnames hothers
  rw [← List.map_cons] at hnext
  obtain ⟨-, htext⟩ := nextToken?_append hnext
  obtain ⟨front, back, hatoms, hfront, rfl⟩ := List.map_eq_append_iff.1 htext
  have hshorter : back.length < (atom :: others).length := by
    have hlt := length_lt_of_nextToken? hnext
    rwa [List.length_map, List.length_map] at hlt
  rw [hatoms] at hwalk hpasted
  obtain ⟨u, v, rfl, hu, hv⟩ := hpasted.split
  rw [Spot.walk_append] at hwalk
  obtain ⟨spot, hspot, hwalk⟩ := Option.bind_eq_some_iff.1 hwalk
  cases token with
  | number number =>
    obtain ⟨last, hlast, hcomplete⟩ := isNumber_of_nextToken? hnext
    rw [Token.text] at hfront
    rw [← hfront] at hlast
    -- the check ends the number here, so nothing that fits goes on with it in the run
    have hstage : spot.stage = last := Spot.follow?_of_walk hspot hlast
    have hstops := stops_of_tokenize hmore hseparate.1
    obtain ⟨landing, hwalk⟩ := Spot.walk_of_stops (hstage ▸ hcomplete) hstops hwalk
    obtain ⟨chain, hchain, hreads⟩ := readsAs_number_pasted hnames hu hlast hcomplete hspot
    obtain ⟨expanded, htokens, hexpands⟩ := exists_expands hmore hseparate.2 hwalk hnames hv
    refine ⟨chain ++ expanded, ?_, .number number hchain hexpands⟩
    rw [hreads v (hv.stops hnames hstops), htokens]
    rfl
  | operator op =>
    obtain ⟨rfl, rfl⟩ := eq_symbol_of_faces hfront hu hspot
    have hplain : op.opensEquals = true → v.head? ≠ some '=' := fun hop =>
      hv.head?_ne_equals hnames (head?_of_scanOperator? (scanOperator?_of_nextToken? hnext) hop)
    obtain ⟨expanded, htokens, hexpands⟩ := exists_expands hmore hseparate hwalk hnames hv
    refine ⟨.operator op :: expanded, ?_, .operator op hexpands⟩
    rw [tokenize_symbol_append hplain, htokens]
    rfl
termination_by atoms.length

/-! ## Values -/

/-- The kind of the tree that a check has read decides about the values of a run. -/
theorem evaluateText_of_kind? {atoms : List Atom} {text : List Char} {landing : Spot}
    {tree : Tree (List Char) .loosest} (h : tokenize (atoms.map Atom.face) = .ok tree.tokens)
    (hwalk : (Spot.plain .start).walk atoms = some landing) (hnames : WritesNumbers names)
    (hpasted : Pasted names atoms text) :
    (∀ k, tree.kind? = some k → (∃ v, evaluateText .evaluating text = .ok v ∧ v.kind = k) ∨
      evaluateText .evaluating text = .error .divisionByZero) ∧
    ∀ v, evaluateText .evaluating text = .ok v → tree.kind? = some v.kind := by
  obtain ⟨expanded, htokens, hexpands⟩ := exists_expands h tree.separate hwalk hnames hpasted
  obtain ⟨grown, rfl, hkind⟩ : Spells .loosest tree.kind? expanded := hexpands.spells
  rw [evaluateText_of_tokenize htokens, ← hkind]
  exact ⟨fun k hk => (Tree.value_of_kind? hk).imp_right And.right, fun v hv => Tree.kind?_of_value hv⟩

end EventDeck.Expr
