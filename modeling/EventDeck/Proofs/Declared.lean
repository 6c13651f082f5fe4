import EventDeck.Proofs.Game.Assigned
import EventDeck.Proofs.Game.Forms
import EventDeck.Proofs.Recall

/-!
# Declared variables

A deck without errors declares its variables under names that pass for identifiers.  In a new game a
variable is read by its name and written by assignments to its name, if the name is one that
expressions know (`Session.access_declared`).  Two sorts of identifiers are not: the word `Random`, which
no statement reads or writes, and a name with a line break behind it, which is lost when the blanks
around a statement or a target are, so that the variable of the name without it is read and written.
-/

namespace EventDeck

open Game EventDeck.Expr Text Decimal

/-! ## Names of declarations -/

/-- The variables of a deck without errors are named by identifiers. -/
theorem Deck.isIdentifier_of_errors {deck : Deck} (h : deck.findings.errors = []) :
    ∀ d ∈ deck.declarations, isIdentifier d.name.toList = true := by
  simp only [findings, errors_append, List.append_eq_nil_iff] at h
  obtain ⟨⟨⟨⟨⟨⟨-, -⟩, -⟩, hdeclarations⟩, -⟩, -⟩, -⟩ := h
  intro d hd
  rw [errors_gather, List.flatMap_eq_nil_iff] at hdeclarations
  have hchecked := (List.append_eq_nil_iff.mp (hdeclarations d hd)).1
  by_contra hinvalid
  rw [Bool.not_eq_true] at hinvalid
  rw [hinvalid] at hchecked
  exact List.cons_ne_nil _ _ hchecked

/-- An identifier is a name, or a name with a line break behind it. -/
theorem Expr.isIdentifier_cases {text : List Char} (h : isIdentifier text = true) :
    ∃ word, isName word = true ∧ (text = word ∨ text = word ++ ['\n']) := by
  rw [isIdentifier, Bool.or_eq_true] at h
  rcases h with h | h
  · exact ⟨text, h, .inl rfl⟩
  · obtain ⟨word, hword, hname⟩ := (Option.any_eq_true _ _).1 h
    exact ⟨word, hname, .inr (before?_eq_some hword)⟩

/-! ## Writing to a known name -/

namespace Store

variable {store : Store} {v : Variable} {name : String}

theorem Sound.assign_self (h : store.Sound) (hfind : store.find? name = some v) :
    store.assign name v.value = store := by
  have hvars : store.vars.map (fun u => if u.name = name then { u with value := v.value } else u) =
      store.vars := by
    conv_rhs => rw [← List.map_id store.vars]
    refine List.map_congr_left fun u hu => ?_
    split
    next hsame =>
      obtain rfl := h.eq_of_find? hfind hu hsame
      rfl
    next => rfl
  rw [Store.assign, hvars]

end Store

/-- The value that a variable has after a number was written to it: the number within the bounds, or
what it was, if there is no more between them than a tolerance. -/
def Variable.written (epsilon : Float) (v : Variable) (x : Float) : Float :=
  if (Tolerance.mk 0.0 epsilon).equates v.value (v.clamp x) then v.value else v.clamp x

namespace Game

variable {tell : Tell} {game : Game} {v : Variable}

/-- What comes of writing a number to a variable that is not observed: it has another value, and
nothing else is changed.  Nothing can be written with a negative tolerance. -/
def assigned (v : Variable) (x : Float) (game : Game) : Except Fault Float × Game :=
  let y := v.written game.store.epsilon x
  if game.store.epsilon < 0 then (.error .negativeTolerance, game)
  else (.ok y, { game with store := game.store.assign v.name y })

theorem run_setVariable_known (hsound : game.store.Sound)
    (hquiet : ∀ name, game.store.observersOf name = []) (hfind : game.store.find? v.name = some v)
    (x : Float) : (setVariable tell v.name x).run.run game = assigned v x game := by
  rw [run_setVariable tell v.name x hquiet, Store.write, hfind, assigned, Variable.written]
  dsimp only
  by_cases hepsilon : game.store.epsilon < 0
  · simp only [hepsilon, if_true]
  · simp only [hepsilon, if_false]
    cases (Tolerance.mk 0.0 game.store.epsilon).equates v.value (v.clamp x) with
    | false => rfl
    | true =>
      rw [if_pos rfl, if_pos rfl, hsound.assign_self hfind]
      rfl

/-- A variable is read by its name and written by assignments to its name. -/
structure Usable (tell : Tell) (game : Game) (v : Variable) : Prop where
  reads : (evaluate tell v.name).run.run game = (.ok v.value, game)
  writes : ∀ number, IsNumber number → Nameless number →
    (evaluate tell (v.name ++ " = " ++ String.ofList number)).run.run game =
      assigned v (numberOf number) game

/-- What comes of reading and writing a variable by a name that passes for an identifier. -/
structure Access (tell : Tell) (game : Game) (v : Variable) : Prop where
  /-- The name is one that expressions know, or the word `Random`, or one of these and a line break. -/
  form : ∃ word, (v.name = String.ofList word ∨ v.name = String.ofList (word ++ ['\n'])) ∧
    (word = randomWord ∨ ∃ n : VariableName, n.text = word)
  known : ∀ n : VariableName, v.name = String.ofList n.text → Usable tell game v
  /-- The word is malformed, and no number can be assigned to it. -/
  reserved : v.name = "Random" ∨ v.name = "Random\n" →
    (evaluate tell v.name).run.run game = (.ok 0.0, { game with
      diagnostics :=
        game.diagnostics.report (malformedReport randomWord (.unexpectedInput "Random")) }) ∧
    ∀ number, IsNumber number →
      (evaluate tell (v.name ++ " = " ++ String.ofList number)).run.run game =
        (.ok 0.0, { game with
          diagnostics := game.diagnostics.report (malformedReport
            (v.name ++ " = " ++ String.ofList number).toList (.invalidTarget "Random")) })
  /-- With a line break behind it, a name is that of another variable. -/
  broken : ∀ n : VariableName, v.name = String.ofList (n.text ++ ['\n']) →
    (evaluate tell v.name).run.run game = (evaluate tell (String.ofList n.text)).run.run game ∧
    ∀ number, IsNumber number → Nameless number →
      (evaluate tell (v.name ++ " = " ++ String.ofList number)).run.run game =
        (setVariable tell (String.ofList n.text) (numberOf number)).run.run game

/-- The text of an assignment to a name. -/
theorem assignment_eq (word breaks number : List Char) :
    String.ofList (word ++ breaks) ++ " = " ++ String.ofList number =
      String.ofList (assignmentOf word (breaks ++ [' ']) number) := by
  rw [← String.toList_inj]
  simp [assignmentOf]

section Access

variable {breaks number : List Char}

/-- Whether there are line breaks behind the word makes no difference. -/
theorem run_reserved (tell : Tell) (hbreaks : breaks.all isBlank = true)
    (hname : v.name = String.ofList (randomWord ++ breaks)) (game : Game) :
    (evaluate tell v.name).run.run game = (.ok 0.0, { game with
      diagnostics :=
        game.diagnostics.report (malformedReport randomWord (.unexpectedInput "Random")) }) ∧
    ∀ number, IsNumber number →
      (evaluate tell (v.name ++ " = " ++ String.ofList number)).run.run game =
        (.ok 0.0, { game with
          diagnostics := game.diagnostics.report (malformedReport
            (v.name ++ " = " ++ String.ofList number).toList (.invalidTarget "Random")) }) := by
  have hchars : ∀ c ∈ randomWord, isNameChar c = true := isNameChar_of_isName (by decide)
  have htrim : trim (randomWord ++ breaks) = randomWord :=
    trim_append_blanks (fun c hc => isBlank_of_isNameChar (hchars c hc)) (by decide) hbreaks
  have hgap : (breaks ++ [' ']).all isBlank = true := by
    rw [List.all_append, hbreaks]
    rfl
  constructor
  · rw [hname]
    exact run_evaluate_reserved tell htrim game
  · intro number hnumber
    rw [hname, assignment_eq, String.toList_ofList]
    exact run_evaluate_reserved_assignment tell hgap (by simp) hnumber game

/-- An assignment writes to the name in front of the line breaks. -/
theorem run_assignment (tell : Tell) (n : VariableName) (hbreaks : breaks.all isBlank = true)
    (hnumber : IsNumber number) (h : Nameless number) (game : Game) :
    (evaluate tell (String.ofList (n.text ++ breaks) ++ " = " ++ String.ofList number)).run.run game =
      (setVariable tell (String.ofList n.text) (numberOf number)).run.run game := by
  have hgap : (breaks ++ [' ']).all isBlank = true := by
    rw [List.all_append, hbreaks]
    rfl
  rw [assignment_eq]
  exact run_evaluate_assignment tell n hgap (by simp) hnumber h game

/-- Reading and writing a variable that is not observed. -/
theorem access_of_find? (hsound : game.store.Sound)
    (hquiet : ∀ name, game.store.observersOf name = []) (hfind : game.store.find? v.name = some v)
    (hfinite : isFinite v.value = true) (hname : isIdentifier v.name.toList = true) (tell : Tell) :
    Access tell game v where
  form := by
    obtain ⟨word, hword, hcases⟩ := isIdentifier_cases hname
    refine ⟨word, ?_, ?_⟩
    · rw [← String.toList_inj, ← String.toList_inj, String.toList_ofList, String.toList_ofList]
      exact hcases
    · by_cases hrandom : word = randomWord
      · exact .inl hrandom
      · exact .inr ⟨⟨word, hword, hrandom⟩, rfl⟩
  known n hn := by
    constructor
    · have hrun := run_evaluate_name tell n (hn ▸ hfind)
      rwa [recalled, if_pos hfinite, ← hn] at hrun
    · intro number hnumber hnameless
      have hnone : ([] : List Char).all isBlank = true := rfl
      have hrun := run_assignment tell n hnone hnumber hnameless game
      rw [List.append_nil, ← hn] at hrun
      rw [hrun, run_setVariable_known hsound hquiet hfind]
  reserved := by
    rintro (h | h)
    · exact run_reserved tell (show ([] : List Char).all isBlank = true from rfl) h game
    · exact run_reserved tell (show ['\n'].all isBlank = true by decide) h game
  broken n hn := by
    constructor
    · have hblank : ∀ c ∈ n.text, isBlank c = false := fun c hc =>
        isBlank_of_isNameChar (n.isNameChar c hc)
      have htrim : trim (n.text ++ ['\n']) = n.text :=
        trim_append_blanks hblank n.ne_nil (by decide)
      rw [hn, evaluate, evaluate, String.toList_ofList, String.toList_ofList, htrim, (trim_name n).1]
    · intro number hnumber hnameless
      rw [hn]
      exact run_assignment tell n (by decide) hnumber hnameless game

end Access

end Game

/-! ## New games -/

namespace Session

variable {tell : Tell} {deck : Deck} {settings : Settings} {generator : Generator} {start : Game}
variable {d : Declaration}

/-- Nothing is observed in a new game. -/
theorem observersOf_builds (built : Builds deck settings generator start) (name : String) :
    start.store.observersOf name = [] := by
  have hfold : ∀ (declarations : List Declaration) (store : Store),
      (declarations.foldl (fun store d => store.define d.name d.value d.max) store).subscriptions =
        store.subscriptions := by
    intro declarations
    induction declarations with
    | nil => exact fun _ => rfl
    | cons d declarations ih =>
      intro store
      have hdefine : (store.define d.name d.value d.max).subscriptions = store.subscriptions := by
        unfold Store.define
        dsimp only
        split <;> rfl
      exact (ih _).trans hdefine
  rw [Store.observersOf, built.store, hfold]
  rfl

/-- A declared variable is found by its name. -/
theorem find?_declared (h : deck.findings.errors = [])
    (hvars : start.store.vars = deck.declarations.map (·.variable)) (hd : d ∈ deck.declarations) :
    start.store.find? d.name = some d.variable := by
  have hmem : d.variable ∈ start.store.vars := hvars ▸ List.mem_map_of_mem hd
  have hsome : (start.store.find? d.name).isSome = true := by
    rw [Store.find?, List.find?_isSome]
    exact ⟨d.variable, hmem, decide_eq_true rfl⟩
  obtain ⟨v, hv⟩ := Option.isSome_iff_exists.1 hsome
  rw [hv, (Store.sound_declared h hvars).eq_of_find? hv hmem rfl]

theorem isFinite_declared (hvalue : isFinite d.value = true) (hmax : isFinite d.max = true) :
    isFinite d.variable.value = true := by
  change isFinite (Variable.clamp { name := d.name, max := d.max } d.value) = true
  rcases Store.clamp_eq { name := d.name, max := d.max } d.value with heq | heq | heq
  · rw [heq, hvalue]
  · rw [heq]
    decide +kernel
  · rw [heq, hmax]

/-- In a new game of a deck without errors, every declared variable with a finite value and a finite
maximum is read by its name and written by assignments of numbers to its name, if the name is one that
expressions know.  Otherwise it is the word `Random`, which is refused, or it ends with a line break, and
then it is another variable that is read and written. -/
theorem access_declared (built : buildGame deck settings generator = .ok start)
    (hd : d ∈ deck.declarations) (hvalue : isFinite d.value = true) (hmax : isFinite d.max = true)
    (tell : Tell) : Access tell start d.variable := by
  have herrors := errors_of_buildGame built
  have hvars := vars_of_builds (builds_of_buildGame built) herrors
  exact access_of_find? (Store.sound_declared herrors hvars)
    (observersOf_builds (builds_of_buildGame built)) (find?_declared herrors hvars hd)
    (isFinite_declared hvalue hmax) (Deck.isIdentifier_of_errors herrors d hd) tell

/-- The declared variable is read by its name, and written up to its maximum and not beyond. -/
theorem capped_access :
    ∃ start, buildGame capped {} (.ofScript []) = .ok start ∧ ∃ d ∈ capped.declarations,
      d.name = "hp" ∧ isFinite d.value = true ∧ isFinite d.max = true ∧
      (evaluate silent "hp").run.run start = (.ok d.variable.value, start) ∧
      (evaluate silent "hp = 1.2e1").run.run start = (.ok 10, { start with
        store := start.store.assign "hp" 10 }) := by
  obtain ⟨start, hbuilt⟩ := exists_buildGame (.ofScript []) errors_capped
  have haccess := access_declared hbuilt (d := { name := "hp", value := 5, max := 10 })
    (List.mem_singleton_self _) (by decide +kernel) (by decide +kernel) silent
  have husable := haccess.known ⟨['h', 'p'], by decide, by decide⟩ rfl
  have hnumber : IsNumber "1.2e1".toList := ⟨.power, by decide, rfl⟩
  refine ⟨start, hbuilt, _, List.mem_singleton_self _, rfl, by decide +kernel, by decide +kernel,
    husable.reads, ?_⟩
  have hwrite := husable.writes _ hnumber (by decide)
  have hepsilon : start.store.epsilon = ({} : Settings).epsilon := (builds_of_buildGame hbuilt).epsilon
  rw [assigned, hepsilon] at hwrite
  exact hwrite

/-- A deck with a variable that no expression can name. -/
def unnameable : Deck where
  events := [{ name := "e" }]
  declarations := [{ name := "Random", value := 5 }]

theorem errors_unnameable : unnameable.findings.errors = [] := by decide +kernel

/-- The exponent behind a point is read as the name of an unknown variable, and what comes of it is no
number. -/
theorem evaluateText_pointed {store : Store} (h : store.find? "e1" = none) :
    evaluateText .evaluating (render (storedNames store) (cells "1.e1".toList)) =
      .error (.unexpectedToken ".0") := by
  -- The run behind the point begins with a letter, so it is looked up, and a second point is pasted
  -- behind the first.
  have hcells : cells "1.e1".toList = [.char '1', .char '.', .name ['e', '1']] := by cbv
  have hname : storedNames store ['e', '1'] = "0.0".toList := by
    have hunknown : storedValue store "e1" = 0.0 := by rw [storedValue, h]; rfl
    change write (storedValue store "e1") = _
    rw [hunknown]
    decide +kernel
  have hrender : render (storedNames store) (cells "1.e1".toList) = "1.0.0".toList := by
    rw [hcells, render_cons, render_cons, render_cons, render_nil, Cell.render, Cell.render, Cell.render,
      hname]
    rfl
  have htokens : tokenize "1.0.0".toList =
      .ok [.number ['1', '.', '0'], .number ['.', '0']] := by cbv
  have hends : Ends .loosest [.number ['.', '0']] := by
    rintro _ _ ⟨⟩
  let first : Tree (List Char) .loosest := .single (.single (.plain (.sum (numberTree ['1', '.', '0']))))
  have hread : readOff .evaluating .loosest (first.tokens ++ [.number ['.', '0']]) = _ :=
    first.readsOff.complete hends
  have hvalue : evaluateTokens .evaluating (first.tokens ++ [.number ['.', '0']]) =
      .error (.unexpectedToken ".0") := by
    rw [evaluateTokens_eq (by simp), hread]
    rfl
  rw [hrender, evaluateText, htokens]
  exact hvalue

/-- Two declared variables that are not usable as they should be: one is named by the word `Random`, and
to the other one a number is assigned that holds a name. -/
theorem declared_not_usable :
    (∃ start, buildGame unnameable {} (.ofScript []) = .ok start ∧
      (evaluate silent "Random").run.run start = (.ok 0.0, { start with
        diagnostics := start.diagnostics.report
          ⟨.malformedExpression, "Cannot evaluate 'Random': unexpected input at 'Random'"⟩ })) ∧
    IsNumber "1.e1".toList ∧ ∃ start, buildGame capped {} (.ofScript []) = .ok start ∧
      ∃ diagnostics : Diagnostics, (evaluate silent "hp = 1.e1").run.run start = (.ok 0.0, { start with
        diagnostics := diagnostics.report
          ⟨.malformedExpression, "Cannot evaluate 'hp = 1.e1': unexpected token '.0'"⟩ }) := by
  have hnumber : IsNumber "1.e1".toList := ⟨.power, by decide, rfl⟩
  refine ⟨?_, hnumber, ?_⟩
  · obtain ⟨start, hbuilt⟩ := exists_buildGame (.ofScript []) errors_unnameable
    have htrim : trim randomWord = randomWord := by decide
    exact ⟨start, hbuilt, run_evaluate_reserved silent htrim start⟩
  · obtain ⟨start, hbuilt⟩ := exists_buildGame (.ofScript []) errors_capped
    have hstore : start.store = cappedStore := (builds_of_buildGame hbuilt).store
    -- no variable has the name of the exponent
    have hunknown : start.store.find? "e1" = none := by
      rw [hstore]
      rfl
    let hp : VariableName := ⟨['h', 'p'], by decide, by decide⟩
    have htext : "hp = 1.e1" = String.ofList (assignmentOf hp.text [' '] "1.e1".toList) := by decide
    have htarget := attempt_targetName (n := hp) (trim_name hp).2 start
    have hcalls : CallFree "1.e1".toList := callFree_of_wordless (by decide)
    have hbody := run_evaluateValue hcalls start
    rw [evaluateText_pointed hunknown] at hbody
    refine ⟨start, hbuilt, (afterNames (namesIn "1.e1".toList) start).diagnostics, ?_⟩
    rw [htext, evaluate, String.toList_ofList, trim_assignmentOf hp.isName hnumber, run_orReport,
      evaluateStatement, ofText_assignmentOf hp.isNameChar rfl (by simp) hnumber]
    dsimp only
    rw [attempt_bind_ok htarget, attempt_bind_failed hbody]
    rfl

end Session

end EventDeck
