import EventDeck.Proofs.Expr.Chance
import EventDeck.Proofs.Expr.Faces
import EventDeck.Proofs.Game.Accepted

/-!
# Texts that are well-formed whatever the values

Values take the place of names as they are written, so their signs, points and exponents become part
of the text: behind a number a negative value is subtracted, where any other is a number too many.  A
text that is `Firm` is well-formed in every store with the same names.  A text that is not is
malformed where every value is the probe.

The main statement is `form_decided`, for the texts without random calls.
-/

namespace EventDeck.Game

open EventDeck.Expr Text Decimal

/-! ## Texts without random calls -/

/-- A text in which there are no random calls. -/
def CallFree (text : List Char) : Prop :=
  ∀ call, .call call ∉ pieces text

/-- Where there is a random call, there is its word. -/
theorem infix_of_call_mem {call : CellCall} {parts : List Cell} (h : .call call ∈ atoms parts) :
    randomWord <:+: render id parts := by
  obtain ⟨suffix, found, ⟨front, rfl⟩, hcall⟩ := exists_cellCall?_of_call_mem h
  obtain ⟨named, hnamed, -⟩ := Option.bind_eq_some_iff.1 hcall
  rw [eq_append_of_afterCells? hnamed, render, List.flatMap_append, List.flatMap_append,
    List.flatMap_map]
  exact ⟨_, _, List.append_assoc ..⟩

/-- A text without the word `Random` has no random calls. -/
theorem callFree_of_wordless {text : List Char} (h : ¬randomWord <:+: text) : CallFree text :=
  fun _ hmem => h (render_id text ▸ infix_of_call_mem hmem)

theorem atoms_of_callFree {parts : List Cell} (h : ∀ call, .call call ∉ atoms parts) :
    atoms parts = parts.map Cell.atom := by
  induction parts using atoms.induct with
  | case1 => rw [atoms]; rfl
  | case2 cell others call rest hcall =>
    rw [atoms_of_some hcall] at h
    exact absurd List.mem_cons_self (h call)
  | case3 cell others hcall ih =>
    rw [atoms_of_none hcall] at h ⊢
    rw [ih fun call hmem => h call (List.mem_cons_of_mem _ hmem)]
    rfl

variable {text : List Char} {game : Game}

/-- Without random calls a text is evaluated as it reads with the values of the store, and the unknown
names in it are reported. -/
theorem run_evaluateValue (hcalls : CallFree text) (game : Game) :
    (evaluateValue text).run.run.run game =
      (.ok (evaluateText .evaluating (render (storedNames game.store) (cells text))),
        afterNames (namesIn text) game) := by
  have hplain : Atom.replace (m := Attempt) (storedNames game.store) drawCall ∘ Cell.atom =
      fun cell => pure (cell.render (storedNames game.store)) :=
    funext fun cell => by cases cell <;> rfl
  have hrandoms : replaceRandoms drawCall (render (storedNames game.store) (cells text)) =
      (pure (render (storedNames game.store) (cells text)) : Attempt (List Char)) := by
    rw [replaceRandoms_render (keepsCalls_storedNames _), atoms_of_callFree hcalls, List.mapM_map, hplain,
      List.mapM_pure, map_pure]
    rfl
  rw [evaluateValue, attempt_bind_ok (attempt_lift_ok (run_substitute_names text game)), hrandoms,
    pure_bind, attempt_except]

/-! ## Names that a store knows -/

/-- Two stores have variables of the same names. -/
def SameNames (store other : Store) : Prop :=
  ∀ name, store.has name = other.has name

/-- What an atom is in the stores with the names of a store: a name that they do not know stands for
zero. -/
def settle (store : Store) : Atom → List Atom
  | .name word => if store.has (String.ofList word) then [.name word] else (write 0.0).map .char
  | atom => [atom]

/-- The pieces of a text in the stores with the names of a store. -/
def settled (store : Store) (text : List Char) : List Atom :=
  (pieces text).flatMap (settle store)

theorem storedNames_of_not_has {store : Store} {word : List Char}
    (h : store.has (String.ofList word) = false) : storedNames store word = write 0.0 := by
  rw [storedNames, storedValue, Option.isNone_iff_eq_none.1 (Option.isSome_eq_false_iff.1 h)]
  rfl

theorem pasted_chars {names : List Char → List Char} (chars : List Char) {atoms : List Atom}
    {pasted : List Char} (h : Pasted names atoms pasted) :
    Pasted names (chars.map .char ++ atoms) (chars ++ pasted) := by
  induction chars with
  | nil => exact h
  | cons c cs ih => exact .char c ih

/-- What is pasted for atoms is pasted for what they are in the stores with the same names. -/
theorem pasted_settle {store other : Store} (hsame : SameNames store other) {atoms : List Atom}
    {pasted : List Char} (h : Pasted (storedNames other) atoms pasted) :
    Pasted (storedNames other) (atoms.flatMap (settle store)) pasted := by
  induction h with
  | nil => exact .nil
  | char c _ ih => exact .char c ih
  | call bounds negative hall hne _ ih => exact .call bounds negative hall hne ih
  | name word _ ih =>
    rw [List.flatMap_cons, settle]
    split
    · exact .name word ih
    · next hnot =>
      have hunknown : other.has (String.ofList word) = false := by
        rw [← hsame]
        exact Bool.eq_false_iff.2 hnot
      rw [storedNames_of_not_has hunknown]
      exact pasted_chars _ ih

theorem pasted_settled {store other : Store} (hsame : SameNames store other)
    (hcalls : CallFree text) :
    Pasted (storedNames other) (settled store text) (render (storedNames other) (cells text)) := by
  have hpasted := pasted_render (storedNames other) (cells text)
  rw [← atoms_of_callFree hcalls] at hpasted
  exact pasted_settle hsame hpasted

/-! ## The probe in the place of every value -/

/-- A store with the names of a store in which every value is the probe. -/
def probeOfNames (store : Store) : Store :=
  probeStore (store.names.map (·.toList))

theorem sameNames_of_names {store other : Store} (h : store.names = other.names) :
    SameNames store other := by
  intro name
  rw [Bool.eq_iff_iff, Store.has_iff_mem_names, Store.has_iff_mem_names, h]

theorem sameNames_probeOfNames (store : Store) : SameNames store (probeOfNames store) := by
  refine sameNames_of_names ?_
  simp [probeOfNames, probeStore, Store.names, Function.comp_def]

theorem probed_settled {store : Store} (hcalls : CallFree text) :
    Probed (storedNames (probeOfNames store)) (settled store text) := by
  intro atom hatom
  obtain ⟨piece, hpiece, hatom⟩ := List.mem_flatMap.1 hatom
  cases piece with
  | char c =>
    obtain rfl := List.mem_singleton.1 hatom
    exact .inl ⟨c, rfl⟩
  | call bounds => exact absurd hpiece (hcalls bounds)
  | name word =>
    rw [settle] at hatom
    split at hatom
    · next hknown =>
      obtain rfl := List.mem_singleton.1 hatom
      refine .inr ⟨word, rfl, storedNames_probeStore (List.mem_map.2 ⟨_, ?_, String.toList_ofList⟩)⟩
      exact (Store.has_iff_mem_names store _).1 hknown
    · obtain ⟨c, -, rfl⟩ := List.mem_map.1 hatom
      exact .inl ⟨c, rfl⟩

/-! ## Forms -/

/-- With the values of a store in the place of its names, a text is an expression of the grammar. -/
def WellFormed (store : Store) (text : List Char) : Prop :=
  ∃ tree : Tree (List Char) .loosest,
    tokenize (render (storedNames store) (cells text)) = .ok tree.tokens

/-- Every piece of a text fits where it is glued, and with zeros in the place of its names the text
is an expression of the grammar. -/
structure Firm (store : Store) (text : List Char) : Prop where
  fits : Fits (settled store text)
  readable : Readable (settled store text)

/-- A text that is well-formed with the probe in the place of every value is firm. -/
theorem WellFormed.firm {store : Store} (hcalls : CallFree text)
    (h : WellFormed (probeOfNames store) text) : Firm store text := by
  obtain ⟨tree, htree⟩ := h
  have hnames := (finite_probeStore (store.names.map (·.toList))).writesNumbers
  obtain ⟨hfits, hreadable⟩ := fits_of_probed hnames
    (pasted_settled (sameNames_probeOfNames store) hcalls) (probed_settled hcalls) htree
  exact ⟨hfits, hreadable⟩

/-- A firm text is well-formed in every store with the same names. -/
theorem Firm.wellFormed {store other : Store} (h : Firm store text) (hcalls : CallFree text)
    (hfinite : Finite other) (hsame : SameNames store other) : WellFormed other text := by
  obtain ⟨landing, hwalk⟩ := h.fits
  obtain ⟨tree, htree⟩ := h.readable
  obtain ⟨expanded, htokens, hexpands⟩ := exists_expands htree tree.separate hwalk
    hfinite.writesNumbers (pasted_settled hsame hcalls)
  obtain ⟨grown, rfl, -⟩ : Spells .loosest tree.kind? expanded := hexpands.spells
  exact ⟨grown, htokens⟩

/-- What is not in numbers was in the text before anything was replaced. -/
theorem mem_of_mem_render {f : List Char → List Char} (hf : Numeric f) {c : Char}
    (hc : ¬IsNumberChar c) {parts : List Cell} (h : c ∈ render f parts) : c ∈ render id parts := by
  induction parts with
  | nil => exact h
  | cons cell parts ih =>
    rw [render_cons, List.mem_append] at h ⊢
    refine h.imp (fun h => ?_) ih
    cases cell with
    | char d => exact h
    | name word => exact absurd ((hf word).2 c h) hc

/-- Without random calls it is the text with the values in place that decides. -/
theorem ends_of_run {good : Value → Prop} {wrong : ExprError → Prop} (hcalls : CallFree text)
    (hgood : ∀ v, evaluateText .evaluating (render (storedNames game.store) (cells text)) = .ok v →
      good v)
    (hwrong : ∀ e, evaluateText .evaluating (render (storedNames game.store) (cells text)) =
      .error e → wrong e) :
    EndsWith good wrong (fun _ => False) (evaluateValue text) game := by
  have hrun := run_evaluateValue hcalls game
  unfold EndsWith
  rw [hrun]
  cases hvalue : evaluateText .evaluating (render (storedNames game.store) (cells text)) with
  | ok v => exact hgood v hvalue
  | error e => exact hwrong e hvalue

/-- A firm text that has a value in one store has one of the same kind in every other with the same
names, or divides by zero. -/
theorem Firm.ends {store : Store} {v : Value} {after other : Game} (h : Firm store text)
    (hcalls : CallFree text) (hfinite : Finite game.store) (hsame : SameNames store game.store)
    (hvalue : (evaluateValue text).run.run.run game = (.ok (.ok v), after))
    (hother : Finite other.store) (hsameOther : SameNames store other.store) :
    EndsWith (·.kind = v.kind) (· = .divisionByZero) (fun _ => False) (evaluateValue text)
      other := by
  obtain ⟨landing, hwalk⟩ := h.fits
  obtain ⟨tree, htree⟩ := h.readable
  -- the value at hand shows the kind of the tree, and that is the kind of all values
  have hkind : tree.kind? = some v.kind := by
    rw [run_evaluateValue hcalls game] at hvalue
    exact (evaluateText_of_kind? htree hwalk hfinite.writesNumbers
      (pasted_settled hsame hcalls)).2 v (Except.ok.inj (congrArg Prod.fst hvalue))
  have hends := (evaluateText_of_kind? htree hwalk hother.writesNumbers
    (pasted_settled hsameOther hcalls)).1 v.kind hkind
  refine ends_of_run hcalls (fun w hw => ?_) fun e he => ?_
  · rcases hends with ⟨w', hw', hkind'⟩ | hzero
    · cases hw.symm.trans hw'
      exact hkind'
    · cases hw.symm.trans hzero
  · rcases hends with ⟨w', hw', -⟩ | hzero
    · cases he.symm.trans hw'
    · cases he.symm.trans hzero
      rfl

/-- A malformed text has no value, and divides by zero only with the sign of a division. -/
theorem ends_of_malformed (hcalls : CallFree text) (hfinite : Finite game.store)
    (h : ¬WellFormed game.store text) :
    EndsWith (fun _ => False) (fun e => e = .divisionByZero → '/' ∈ text) (fun _ => False)
      (evaluateValue text) game := by
  refine ends_of_run hcalls (fun v hv => ?_) fun e he hzero => ?_
  · obtain ⟨tree, htree, -⟩ := exists_tree_of_evaluateText hv
    exact h ⟨tree, htree⟩
  · rw [hzero] at he
    exact render_id text ▸ mem_of_mem_render hfinite.writesNumbers.numeric (by decide)
      (divide_mem_of_evaluateText he)

/-- What becomes of a text in the stores with the names of a store. -/
structure FormDecided (store : Store) (text : List Char) : Prop where
  /-- Exactly the firm texts are well-formed whatever the values are. -/
  exact : Firm store text ↔
    ∀ other, Finite other → SameNames store other → WellFormed other text
  /-- Where a firm text has a value in one run, it has a value of the same kind in every other, or
  divides by zero. -/
  sound : Firm store text → ∀ game other : Game, Finite game.store → SameNames store game.store →
    Finite other.store → SameNames store other.store → ∀ v after,
      (evaluateValue text).run.run.run game = (.ok (.ok v), after) →
        EndsWith (·.kind = v.kind) (· = .divisionByZero) (fun _ => False) (evaluateValue text) other
  /-- Any other text is malformed for some values and has none of its own then; that it divides by
  zero before this is noticed takes the sign of a division. -/
  fragile : ¬Firm store text → ∃ other, Finite other ∧ SameNames store other ∧
    ¬WellFormed other text ∧ ∀ game, game.store = other →
      EndsWith (fun _ => False) (fun e => e = .divisionByZero → '/' ∈ text) (fun _ => False)
        (evaluateValue text) game

/-- Whether the form of a text without random calls is the same for all values is decided by whether
it is firm. -/
theorem form_decided (store : Store) (hcalls : CallFree text) : FormDecided store text := by
  have hprobe : Finite (probeOfNames store) := finite_probeStore _
  have hsame := sameNames_probeOfNames store
  refine ⟨⟨fun hfirm other => hfirm.wellFormed hcalls, fun hall => ?_⟩, ?_, fun hnot => ?_⟩
  · exact WellFormed.firm hcalls (hall _ hprobe hsame)
  · intro hfirm game other hfinite hgame hother hnames v after hrun
    exact hfirm.ends hcalls hfinite hgame hrun hother hnames
  · have hmalformed : ¬WellFormed (probeOfNames store) text := fun hform =>
      hnot (hform.firm hcalls)
    refine ⟨probeOfNames store, hprobe, hsame, hmalformed, fun game hgame => ?_⟩
    rw [← hgame] at hmalformed
    exact ends_of_malformed hcalls (hgame ▸ hprobe) hmalformed

/-- A variable is subtracted from itself. -/
def difference : List Char := "hp - hp".toList

/-- A variable stands behind a number. -/
def juxtaposition : List Char := "5 hp".toList

/-- A game as `debtGame` is, with a variable that is not in debt. -/
def creditGame : Game :=
  { debtGame with store := { debtGame.store with vars := [{ name := "hp", value := 7.5 }] } }

theorem callFree_difference : CallFree difference := callFree_of_wordless (by decide)

theorem callFree_juxtaposition : CallFree juxtaposition := callFree_of_wordless (by decide)

theorem cells_difference : cells difference =
    [.name ['h', 'p'], .char ' ', .char '-', .char ' ', .name ['h', 'p']] := by cbv

theorem cells_juxtaposition : cells juxtaposition = [.char '5', .char ' ', .name ['h', 'p']] := by
  cbv

/-- What a debt is read as. -/
def debtFactor : Tree (List Char) .signed :=
  .sign true (.unsigned (.operand ['7', '.', '5']))

/-- What the difference is read as in debt. -/
def debtDifference : Tree (List Char) .loosest :=
  .single <| .single <| .plain <| .sum <|
    .join Joint.minus_known (.single (.single debtFactor)) (.single debtFactor)

/-- In debt the juxtaposition is read as a difference, too. -/
def debtJuxtaposition : Tree (List Char) .loosest :=
  .single <| .single <| .plain <| .sum <|
    .join Joint.minus_known (numberTree ['5']) (.single (.unsigned (.operand ['7', '.', '5'])))

theorem run_difference_debt : ∃ x after,
    (evaluateValue difference).run.run.run debtGame = (.ok (.ok (.number x)), after) := by
  have hrender : render (storedNames debtGame.store) (cells difference) = "-7.5 - -7.5".toList := by
    rw [cells_difference]
    decide +kernel
  have htokens : tokenize "-7.5 - -7.5".toList = .ok debtDifference.tokens := by cbv
  have hrun := run_evaluateValue callFree_difference debtGame
  rw [hrender, evaluateText_of_tokenize htokens] at hrun
  exact ⟨_, _, hrun⟩

theorem run_juxtaposition_debt : ∃ x after,
    (evaluateValue juxtaposition).run.run.run debtGame = (.ok (.ok (.number x)), after) := by
  have hrender : render (storedNames debtGame.store) (cells juxtaposition) = "5 -7.5".toList := by
    rw [cells_juxtaposition]
    decide +kernel
  have htokens : tokenize "5 -7.5".toList = .ok debtJuxtaposition.tokens := by cbv
  have hrun := run_evaluateValue callFree_juxtaposition debtGame
  rw [hrender, evaluateText_of_tokenize htokens] at hrun
  exact ⟨_, _, hrun⟩

theorem firm_difference : Firm debtGame.store difference := by
  have hsettled : settled debtGame.store difference =
      [.name ['h', 'p'], .char ' ', .char '-', .char ' ', .name ['h', 'p']] := by
    rw [settled, Expr.pieces, atoms_of_callFree callFree_difference, cells_difference]
    rfl
  constructor
  · rw [hsettled]
    exact ⟨_, rfl⟩
  · rw [hsettled]
    exact ⟨zeroDifference, by cbv⟩

/-- With a zero in the place of the name, two numbers stand next to each other. -/
theorem not_firm_juxtaposition : ¬Firm debtGame.store juxtaposition := by
  intro h
  have hsettled : settled debtGame.store juxtaposition =
      [.char '5', .char ' ', .name ['h', 'p']] := by
    rw [settled, Expr.pieces, atoms_of_callFree callFree_juxtaposition, cells_juxtaposition]
    rfl
  have hfaces : tokenize "5 0".toList = .ok [.number ['5'], .number ['0']] := by cbv
  obtain ⟨tree, htree⟩ := h.readable
  rw [hsettled] at htree
  have htokens : [.number ['5'], .number ['0']] = tree.tokens :=
    Except.ok.inj (hfaces.symm.trans htree)
  have hseparate := tree.separate
  rw [← htokens] at hseparate
  exact hseparate.1 _ _ rfl

/-- A text whose tokens stand apart has a value in every game with the same variables; one that is
evaluated because two tokens are glued together fails in some of these. -/
theorem debt_forms :
    CallFree difference ∧ CallFree juxtaposition ∧ Finite debtGame.store ∧
      (∃ x after,
        (evaluateValue difference).run.run.run debtGame = (.ok (.ok (.number x)), after)) ∧
      (∀ game, Finite game.store → SameNames debtGame.store game.store →
        EndsWith (·.kind = .number) (· = .divisionByZero) (fun _ => False)
          (evaluateValue difference) game) ∧
      (∃ x after,
        (evaluateValue juxtaposition).run.run.run debtGame = (.ok (.ok (.number x)), after)) ∧
      ∃ store, Finite store ∧ SameNames debtGame.store store ∧ ¬WellFormed store juxtaposition ∧
        ∀ game, game.store = store → EndsWith (fun _ => False) (· ≠ .divisionByZero)
          (fun _ => False) (evaluateValue juxtaposition) game := by
  have hdifference := run_difference_debt
  refine ⟨callFree_difference, callFree_juxtaposition, finite_debtGame, hdifference, ?_,
    run_juxtaposition_debt, ?_⟩
  · obtain ⟨x, after, hrun⟩ := hdifference
    intro game hfinite hsame
    exact (form_decided debtGame.store callFree_difference).sound firm_difference debtGame game
      finite_debtGame (fun _ => rfl) hfinite hsame _ after hrun
  -- the store in which the glued text fails comes from the theorem; the text itself divides nothing
  · obtain ⟨store, hfinite, hsame, hmalformed, hends⟩ :=
      (form_decided debtGame.store callFree_juxtaposition).fragile not_firm_juxtaposition
    refine ⟨store, hfinite, hsame, hmalformed, fun game hgame => ?_⟩
    refine (hends game hgame).mono (fun _ h => h) (fun e he hzero => ?_) fun _ h => h
    exact absurd (he hzero) (by decide)

/-- In debt a variable behind a number is subtracted from it; otherwise the two are malformed. -/
theorem juxtaposition_malformed_in_credit :
    CallFree juxtaposition ∧ Finite debtGame.store ∧ Finite creditGame.store ∧
      SameNames debtGame.store creditGame.store ∧
      (∃ x after,
        (evaluateValue juxtaposition).run.run.run debtGame = (.ok (.ok (.number x)), after)) ∧
      ∃ after, (evaluateValue juxtaposition).run.run.run creditGame =
        (.ok (.error (.unexpectedToken "7.5")), after) := by
  have hfinite : Finite creditGame.store := by
    unfold EventDeck.Game.Finite
    decide +kernel
  have hrender : render (storedNames creditGame.store) (cells juxtaposition) = "5 7.5".toList := by
    rw [cells_juxtaposition]
    decide +kernel
  have htokens : tokenize "5 7.5".toList =
      .ok ((boundTree '5').tokens ++ [.number ['7', '.', '5']]) := by cbv
  have hends : Ends .loosest [.number ['7', '.', '5']] := by
    rintro _ _ ⟨⟩
  -- the number is a whole expression, and the value behind it is too much
  have hread : readOff .evaluating .loosest
      ((boundTree '5').tokens ++ [.number ['7', '.', '5']]) = _ :=
    (boundTree '5').readsOff.complete hends
  have hvalue : evaluateTokens .evaluating
      ((boundTree '5').tokens ++ [.number ['7', '.', '5']]) = .error (.unexpectedToken "7.5") := by
    rw [evaluateTokens_eq (by simp), hread]
    rfl
  have htext : evaluateText .evaluating "5 7.5".toList = .error (.unexpectedToken "7.5") := by
    rw [evaluateText, htokens]
    exact hvalue
  have hrun := run_evaluateValue callFree_juxtaposition creditGame
  rw [hrender, htext] at hrun
  exact ⟨callFree_juxtaposition, finite_debtGame, hfinite, sameNames_of_names rfl,
    run_juxtaposition_debt, _, hrun⟩

end EventDeck.Game
