import EventDeck.Proofs.Game.Written
import Mathlib.Data.List.Basic

/-!
# Assignments of numbers

A name, blanks, the sign of an assignment and a number are an assignment, and it writes the number to
the variable of the name (`run_evaluate_assignment`).  The word `Random` is refused as a target, and it
is no expression either (`run_evaluate_reserved`).

A number is read where it stands unless a part of it is taken for a name.  This befalls the exponent of
`1.e5`, which is the name `e5` to the replacement of names.
-/

namespace EventDeck

open EventDeck.Expr Text Decimal

/-! ## The text of an assignment -/

namespace Expr

variable {word gap number target : List Char}

/-- No part of a text is the name of a variable. -/
def Nameless (text : List Char) : Prop :=
  ∀ run ∈ runs text, isVariableRun run = false

instance decidableNameless (text : List Char) : Decidable (Nameless text) :=
  inferInstanceAs (Decidable (∀ run ∈ runs text, isVariableRun run = false))

/-- A name with blanks behind it, the sign of an assignment, and a number. -/
def assignmentOf (word gap number : List Char) : List Char :=
  word ++ gap ++ '=' :: ' ' :: number

theorem trim_append_blanks (hword : ∀ c ∈ word, isBlank c = false) (hne : word ≠ [])
    (hgap : gap.all isBlank = true) : trim (word ++ gap) = word := by
  have hfront : (word ++ gap).dropWhile isBlank = word ++ gap := by
    obtain ⟨c, cs, rfl⟩ := List.exists_cons_of_ne_nil hne
    exact List.dropWhile_cons_of_neg (by simp [hword c List.mem_cons_self])
  have hback : word.reverse.dropWhile isBlank = word.reverse := by
    obtain ⟨c, cs, hcons⟩ := List.exists_cons_of_ne_nil (List.reverse_ne_nil_iff.2 hne)
    have hc : isBlank c = false := hword c (List.mem_reverse.1 (hcons ▸ List.mem_cons_self))
    rw [hcons]
    exact List.dropWhile_cons_of_neg (by simp [hc])
  rw [trim, trimBy, hfront, List.reverse_append, List.dropWhile_append_of_pos, hback,
    List.reverse_reverse]
  simpa using hgap

/-- A number does not end with a sign. -/
theorem IsNumber.exists_concat (h : IsNumber number) :
    ∃ front c, number = front ++ [c] ∧ c ≠ '+' ∧ c ≠ '-' := by
  rcases List.eq_nil_or_concat number with hnil | ⟨front, c, hconcat⟩
  · exact absurd hnil h.ne_nil
  rw [List.concat_eq_append] at hconcat
  obtain ⟨last, hfollow, hlast⟩ := h
  rw [hconcat, Stage.follow?_append] at hfollow
  obtain ⟨stage, -, hstep⟩ := Option.bind_eq_some_iff.1 hfollow
  rw [Stage.follow?] at hstep
  obtain ⟨next, hstep, hnext⟩ := Option.bind_eq_some_iff.1 hstep
  cases hnext
  -- a sign leads to a stage in which a number may not end
  have hsign : c = '+' ∨ c = '-' → False := by
    rintro (rfl | rfl) <;> cases stage <;> cases hstep <;> cases hlast
  exact ⟨front, c, hconcat, fun h => hsign (.inl h), fun h => hsign (.inr h)⟩

theorem not_isBlank_of_joinsEquals {c : Char} (h : Statement.joinsEquals c = true) :
    isBlank c = false := by
  have hsigns : ['=', '!', '<', '>', '+', '-', '*', '/'].all (fun d => !isBlank d) = true := rfl
  simpa using List.all_eq_true.1 hsigns c (List.contains_iff_mem.1 h)

/-- The sign of an assignment is found behind a blank when there is none before it. -/
theorem cutEquals_blank {front rest : List Char} {c : Char} (hfront : '=' ∉ front ++ [c])
    (hblank : isBlank c = true) (hrest : rest.head? ≠ some '=') (previous : Option Char) :
    Statement.cutEquals previous (front ++ c :: '=' :: rest) = some (front ++ [c], rest) := by
  have hjoins : Statement.joinsEquals c = false := by
    cases hjoins : Statement.joinsEquals c with
    | false => rfl
    | true =>
      rw [not_isBlank_of_joinsEquals hjoins] at hblank
      cases hblank
  induction front generalizing previous with
  | nil =>
    have hc : c ≠ '=' := by
      rintro rfl
      exact hfront (List.mem_singleton_self _)
    simp [Statement.cutEquals, hc, hjoins, hrest]
  | cons d front ih =>
    rw [List.cons_append, List.mem_cons, not_or] at hfront
    rw [List.cons_append, Statement.cutEquals, if_neg (by simp [Ne.symm hfront.1]), ih hfront.2]
    rfl

/-- The sign of an assignment is part of no other sign when a blank stands before it. -/
theorem update?_blank {front : List Char} {c : Char} (hfront : '=' ∉ front ++ [c])
    (hblank : isBlank c = true) (hnumber : IsNumber number) :
    Statement.update? (front ++ c :: '=' :: ' ' :: number) = none := by
  refine update?_eq_none fun a ha => ?_
  obtain ⟨hfront, hc⟩ : '=' ∉ front ∧ '=' ≠ c := by simpa [not_or] using hfront
  have hac : a ≠ c := by
    have hjoins : Statement.joinsEquals a = true := by
      rw [compoundChars] at ha
      rw [Statement.joinsEquals, List.contains_iff_mem]
      exact List.mem_append_right ['=', '!', '<', '>'] ha
    rintro rfl
    rw [not_isBlank_of_joinsEquals hjoins] at hblank
    cases hblank
  have hcut : cut [a, '='] number = none := by
    rw [← List.append_nil number,
      cut_append (by simp) (not_infix_of_not_mem (hnumber.not_mem (by decide)))]
    rfl
  obtain ⟨hspace, hequals⟩ := ne_of_mem_compoundChars ha
  rw [cut_append (by simpa using Ne.symm hc) (not_infix_of_not_mem hfront)]
  simp [cut, after?, hspace, hequals, hcut, hac]

theorem assignmentOf_concat (word gap front : List Char) (c : Char) :
    assignmentOf word gap (front ++ [c]) = (word ++ gap ++ '=' :: ' ' :: front) ++ [c] := by
  simp [assignmentOf]

theorem IsNumber.trim_cons_space (h : IsNumber number) : trim (' ' :: number) = number := by
  rw [Text.trim_cons_space]
  exact trim_of_not_isBlank fun c hc => (h.isNumberChar c hc).not_isBlank

theorem ofText_assignmentOf (hword : ∀ c ∈ word, isNameChar c = true)
    (hgap : gap.all isBlank = true) (hne : gap ≠ []) (hnumber : IsNumber number) :
    Statement.ofText (assignmentOf word gap number) = .assignment (word ++ gap) number := by
  obtain ⟨blanks, c, rfl⟩ : ∃ blanks c, gap = blanks ++ [c] := by
    rcases List.eq_nil_or_concat gap with hnil | ⟨blanks, c, hconcat⟩
    · exact absurd hnil hne
    · exact ⟨blanks, c, hconcat.trans List.concat_eq_append⟩
  rw [List.all_eq_true] at hgap
  have hblank : isBlank c = true := hgap c (by simp)
  have htarget : '=' ∉ word ++ blanks ++ [c] := by
    rw [List.append_assoc, List.mem_append, not_or]
    exact ⟨fun hmem => absurd (hword _ hmem) (by decide), fun hmem => absurd (hgap _ hmem) (by decide)⟩
  -- Neither a step nor a compound sign can be found: the text ends with a number, and a blank stands
  -- before the sign of equality.
  have hstep : Statement.step? (assignmentOf word (blanks ++ [c]) number) = none := by
    obtain ⟨front, d, rfl, hd⟩ := hnumber.exists_concat
    rw [assignmentOf_concat]
    exact step?_eq_none hd
  have htext : assignmentOf word (blanks ++ [c]) number = word ++ blanks ++ c :: '=' :: ' ' :: number := by
    simp [assignmentOf]
  have hassignment : Statement.assignment? (assignmentOf word (blanks ++ [c]) number) =
      some (.assignment (word ++ (blanks ++ [c])) number) := by
    rw [Statement.assignment?, htext, cutEquals_blank htarget hblank (by simp), List.append_assoc]
    change some (Statement.assignment _ (trim (' ' :: number))) = _
    rw [hnumber.trim_cons_space]
  rw [Statement.ofText, hstep, hassignment, htext, update?_blank htarget hblank hnumber]
  rfl

/-- The blanks at the ends of an assignment are none. -/
theorem trim_assignmentOf (hword : isName word = true) (hnumber : IsNumber number) :
    trim (assignmentOf word gap number) = assignmentOf word gap number := by
  refine trim_eq_self (fun c hc => ?_) fun c hc => ?_
  · rcases word with _ | ⟨d, word⟩
    · cases hword
    · cases hc
      exact isBlank_of_isNameChar (isNameChar_of_isName hword _ List.mem_cons_self)
  · obtain ⟨front, d, rfl, -⟩ := hnumber.exists_concat
    rw [assignmentOf_concat, List.getLast?_concat] at hc
    cases hc
    exact (hnumber.isNumberChar c (by simp)).not_isBlank

end Expr

/-! ## What an assignment does -/

namespace Game

variable {word gap number : List Char}

/-- A text in which no part is a name stays as it is when names are replaced. -/
theorem run_substitute_nameless {text : List Char} (h : Nameless text) (game : Game) :
    (substitute text).run.run game = (.ok text, game) := by
  have hruns : (runs text).mapM (replaceRun pasteName) = pure (runs text) := by
    have hrun : ∀ run ∈ runs text, replaceRun pasteName run = pure run := fun run hrun => by
      rw [replaceRun, if_neg (by simp [h run hrun])]
    generalize runs text = parts at hrun
    induction parts with
    | nil => rw [List.mapM_nil]
    | cons run parts ih =>
      rw [List.mapM_cons, hrun run List.mem_cons_self, pure_bind,
        ih fun run hmem => hrun run (List.mem_cons_of_mem _ hmem), pure_bind]
  change (replaceNames pasteName text).run.run game = _
  rw [replaceNames_eq, hruns, map_pure, flatten_runs]
  rfl

/-- A number in which no part is a name has its own value. -/
theorem run_evaluateValue_number (hnumber : IsNumber number) (h : Nameless number) (game : Game) :
    (evaluateValue number).run.run.run game = (.ok (.ok (.number (numberOf number))), game) := by
  have hwordless : 'R' ∉ number := hnumber.not_mem (by decide)
  have hvalue : evaluateText .evaluating number = .ok (.number (numberOf number)) :=
    evaluateText_signed hnumber false
  rw [evaluateValue, attempt_bind_ok (attempt_lift_ok (run_substitute_nameless h game)),
    replaceRandoms_of_not_mem hwordless, pure_bind, attempt_except, hvalue]

/-- An assignment of a number writes the number to the name before the sign, whatever blanks are behind
the name. -/
theorem run_evaluate_assignment (tell : Tell) (n : VariableName) (hgap : gap.all isBlank = true)
    (hne : gap ≠ []) (hnumber : IsNumber number) (h : Nameless number) (game : Game) :
    (evaluate tell (String.ofList (assignmentOf n.text gap number))).run.run game =
      (setVariable tell (String.ofList n.text) (numberOf number)).run.run game := by
  have hblank : ∀ c ∈ n.text, isBlank c = false := fun c hc => isBlank_of_isNameChar (n.isNameChar c hc)
  have htarget := attempt_targetName (trim_append_blanks hblank n.ne_nil hgap) game
  rw [evaluate, String.toList_ofList, trim_assignmentOf n.isName hnumber, run_orReport,
    evaluateStatement, ofText_assignmentOf n.isNameChar hgap hne hnumber]
  dsimp only
  rw [attempt_bind_ok htarget, attempt_bind_ok (run_evaluateValue_number hnumber h game),
    attempt_bind_ok (attempt_number _ game), attempt_lift]
  rcases (setVariable tell (String.ofList n.text) (numberOf number)).run.run game with
    ⟨fault | x, after⟩ <;> rfl

/-! ## The word `Random` -/

/-- The word alone is no expression. -/
theorem run_evaluate_reserved (tell : Tell) {text : List Char} (h : trim text = randomWord)
    (game : Game) :
    (evaluate tell (String.ofList text)).run.run game = (.ok 0.0, { game with
      diagnostics :=
        game.diagnostics.report (malformedReport randomWord (.unexpectedInput "Random")) }) := by
  have hform : Statement.ofText randomWord = .expression randomWord := by cbv
  have hnameless : Nameless randomWord := by decide
  -- the word has no arguments, so it is no call and is left for the scanner, which knows no such token
  have hcall : replaceRandoms drawCall randomWord = (pure randomWord : Attempt (List Char)) := by
    have hnone : randomCall? randomWord = none := rfl
    rw [randomWord, replaceRandoms]
    split
    next heq =>
      rw [← randomWord, hnone] at heq
      cases heq
    next => rw [replaceRandoms_of_not_mem (by decide), pure_bind]
  have htokens : tokenize randomWord = .error (.unexpectedInput "Random") := by cbv
  have hvalue : (evaluateValue randomWord).run.run.run game =
      (.ok (.error (.unexpectedInput "Random")), game) := by
    rw [evaluateValue, attempt_bind_ok (attempt_lift_ok (run_substitute_nameless hnameless game)),
      hcall, pure_bind, attempt_except, evaluateText, htokens]
    rfl
  rw [evaluate, String.toList_ofList, h, run_orReport, evaluateStatement, hform]
  dsimp only
  rw [attempt_bind_failed hvalue]

/-- The word is refused as the target of an assignment. -/
theorem run_evaluate_reserved_assignment (tell : Tell) (hgap : gap.all isBlank = true) (hne : gap ≠ [])
    (hnumber : IsNumber number) (game : Game) :
    (evaluate tell (String.ofList (assignmentOf randomWord gap number))).run.run game =
      (.ok 0.0, { game with
        diagnostics := game.diagnostics.report
          (malformedReport (assignmentOf randomWord gap number) (.invalidTarget "Random")) }) := by
  have hname : isName randomWord = true := by decide
  have hchars := isNameChar_of_isName hname
  have htrim : trim (randomWord ++ gap) = randomWord :=
    trim_append_blanks (fun c hc => isBlank_of_isNameChar (hchars c hc)) (by decide) hgap
  have htarget : targetName (randomWord ++ gap) = .error (.invalidTarget "Random") := by
    rw [targetName, htrim]
    rfl
  rw [evaluate, String.toList_ofList, trim_assignmentOf hname hnumber, run_orReport, evaluateStatement,
    ofText_assignmentOf hchars hgap hne hnumber]
  dsimp only
  rw [attempt_bind_failed (by rw [attempt_except, htarget])]

end Game

end EventDeck
