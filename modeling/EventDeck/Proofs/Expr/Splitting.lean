import EventDeck.Expr.Check
import EventDeck.Proofs.Text.Padded

/-!
# How statements are divided

A check and an evaluation each look for the operators of a statement.  `Reads` says without any
search what they have to find: the first of the compound operators that occurs, at its first
occurrence; otherwise a step at the end; otherwise the first `=` that stands alone.

The main statements are `reads_iff`, which says that an evaluation finds that, and
`splitStatement_eq`: the parts that a check finds are those of the statement that an evaluation finds.
-/

namespace EventDeck.Expr

open Text

/-! ## First occurrences -/

/-- Of the divisions of a text in two that have a property, the one with the shortest front. -/
structure First (P : List Char → List Char → Prop) (front rest : List Char) : Prop where
  holds : P front rest
  first : ∀ front' rest', P front' rest' → front.length ≤ front'.length

section Cuts

variable {separator text front rest : List Char}

/-- A text is divided by a separator. -/
def Divides (separator text front rest : List Char) : Prop :=
  text = front ++ separator ++ rest

theorem Divides.eq_of_length {front' rest' : List Char} (h : Divides separator text front rest)
    (h' : Divides separator text front' rest') (hlength : front.length = front'.length) :
    front = front' ∧ rest = rest' := by
  rw [Divides, List.append_assoc] at h h'
  obtain ⟨hfront, hrest⟩ := List.append_inj (h.symm.trans h') hlength
  exact ⟨hfront, (List.append_inj hrest rfl).2⟩

theorem divides_of_cut (h : cut separator text = some (front, rest)) :
    First (Divides separator text) front rest := by
  refine ⟨cut_eq_some h, ?_⟩
  induction text generalizing front with
  | nil =>
    obtain ⟨after, -, heq⟩ := Option.map_eq_some_iff.1 h
    cases heq
    exact fun _ _ _ => Nat.zero_le _
  | cons c cs ih =>
    rw [cut] at h
    split at h
    · cases h
      exact fun _ _ _ => Nat.zero_le _
    · next hnone =>
      obtain ⟨⟨before, after⟩, hcut, heq⟩ := Option.map_eq_some_iff.1 h
      cases heq
      rintro (_ | ⟨d, front'⟩) rest' hdivides
      · -- the separator does not begin the text
        rw [Divides, List.nil_append] at hdivides
        rw [hdivides, after?_append] at hnone
        cases hnone
      · cases hdivides
        exact Nat.succ_le_succ (ih hcut front' rest' rfl)

theorem not_divides_of_cut (h : cut separator text = none) (front rest : List Char) :
    ¬ Divides separator text front rest := by
  induction text generalizing front with
  | nil =>
    intro hdivides
    have hnone := Option.map_eq_none_iff.1 h
    obtain ⟨hfront, rfl⟩ := List.append_eq_nil_iff.1 hdivides.symm
    obtain ⟨rfl, rfl⟩ := List.append_eq_nil_iff.1 hfront
    cases hnone
  | cons c cs ih =>
    rw [cut] at h
    split at h
    · cases h
    · next hnone =>
      rcases front with _ | ⟨d, front⟩
      · intro hdivides
        rw [Divides, List.nil_append] at hdivides
        rw [hdivides, after?_append] at hnone
        cases hnone
      · intro hdivides
        cases hdivides
        exact ih (Option.map_eq_none_iff.1 h) front rfl

/-- A text is cut at the first occurrence of the separator. -/
theorem cut_eq_some_iff :
    cut separator text = some (front, rest) ↔ First (Divides separator text) front rest := by
  refine ⟨divides_of_cut, fun h => ?_⟩
  rcases hcut : cut separator text with _ | ⟨front', rest'⟩
  · exact absurd h.holds (not_divides_of_cut hcut front rest)
  · have h' := divides_of_cut hcut
    obtain ⟨rfl, rfl⟩ := h'.holds.eq_of_length h.holds
      (Nat.le_antisymm (h'.first _ _ h.holds) (h.first _ _ h'.holds))
    rfl

/-- A text is not cut when the separator does not occur. -/
theorem cut_eq_none_iff : cut separator text = none ↔ ¬ separator <:+: text := by
  constructor
  · rintro h ⟨front, rest, heq⟩
    exact not_divides_of_cut h front rest heq.symm
  · intro h
    rcases hcut : cut separator text with _ | ⟨front, rest⟩
    · rfl
    · exact absurd ⟨front, rest, (cut_eq_some hcut).symm⟩ h

theorem before?_eq_none_iff : before? separator text = none ↔ ¬ separator <:+ text := by
  constructor
  · rintro h ⟨front, rfl⟩
    rw [before?_append] at h
    cases h
  · intro h
    rcases hbefore : before? separator text with _ | front
    · rfl
    · exact absurd ⟨front, (before?_eq_some hbefore).symm⟩ h

end Cuts

/-! ## Signs of assignments -/

namespace Statement

variable {text front rest target body : List Char} {previous : Option Char}

/-- A text is divided by an equals sign that stands alone, given the character before the text. -/
structure Lone (previous : Option Char) (text front rest : List Char) : Prop where
  divides : text = front ++ '=' :: rest
  before : ∀ c ∈ front.getLast?.or previous, joinsEquals c = false
  behind : rest.head? ≠ some '='

/-- A text begins with an equals sign that stands alone exactly when the search stops there. -/
theorem lone_nil_iff {c : Char} :
    Lone previous (c :: text) [] rest ↔
      (c = '=' && !previous.any joinsEquals && text.head? != some '=') = true ∧ text = rest := by
  have hprevious : (!previous.any joinsEquals) = true ↔ ∀ d ∈ previous, joinsEquals d = false := by
    cases previous <;> simp
  rw [Bool.and_eq_true, Bool.and_eq_true, decide_eq_true_eq, bne_iff_ne, hprevious]
  constructor
  · rintro ⟨hdivides, hbefore, hbehind⟩
    cases hdivides
    exact ⟨⟨⟨rfl, hbefore⟩, hbehind⟩, rfl⟩
  · rintro ⟨⟨⟨rfl, hbefore⟩, hbehind⟩, rfl⟩
    exact ⟨rfl, hbefore, hbehind⟩

theorem lone_cons_iff {c d : Char} :
    Lone previous (c :: text) (d :: front) rest ↔ c = d ∧ Lone (some c) text front rest := by
  have hlast : (d :: front).getLast?.or previous = front.getLast?.or (some d) := by
    rw [List.getLast?_cons]
    cases front.getLast? <;> rfl
  constructor
  · rintro ⟨hdivides, hbefore, hbehind⟩
    cases hdivides
    rw [hlast] at hbefore
    exact ⟨rfl, rfl, hbefore, hbehind⟩
  · rintro ⟨rfl, hdivides, hbefore, hbehind⟩
    rw [← hlast] at hbefore
    exact ⟨by rw [hdivides]; rfl, hbefore, hbehind⟩

theorem Lone.eq_of_length {front' rest' : List Char} (h : Lone previous text front rest)
    (h' : Lone previous text front' rest') (hlength : front.length = front'.length) :
    front = front' ∧ rest = rest' := by
  obtain ⟨hfront, hrest⟩ := List.append_inj (h.divides.symm.trans h'.divides) hlength
  cases hrest
  exact ⟨hfront, rfl⟩

theorem lone_of_cutEquals (h : cutEquals previous text = some (front, rest)) :
    First (Lone previous text) front rest := by
  induction text generalizing previous front with
  | nil => cases h
  | cons c cs ih =>
    rw [cutEquals] at h
    split at h
    · next hlone =>
      cases h
      exact ⟨lone_nil_iff.2 ⟨hlone, rfl⟩, fun _ _ _ => Nat.zero_le _⟩
    · next hlone =>
      obtain ⟨⟨before, after⟩, hcut, heq⟩ := Option.map_eq_some_iff.1 h
      cases heq
      have hfirst := ih hcut
      refine ⟨lone_cons_iff.2 ⟨rfl, hfirst.holds⟩, ?_⟩
      rintro (_ | ⟨d, front'⟩) rest' hother
      · exact absurd (lone_nil_iff.1 hother).1 hlone
      · exact Nat.succ_le_succ (hfirst.first _ _ (lone_cons_iff.1 hother).2)

theorem not_lone_of_cutEquals (h : cutEquals previous text = none) (front rest : List Char) :
    ¬ Lone previous text front rest := by
  induction text generalizing previous front with
  | nil =>
    rintro ⟨hdivides, -, -⟩
    exact List.append_ne_nil_of_right_ne_nil _ (List.cons_ne_nil _ _) hdivides.symm
  | cons c cs ih =>
    rw [cutEquals] at h
    split at h
    · cases h
    · next hlone =>
      rcases front with _ | ⟨d, front⟩
      · exact fun hother => hlone (lone_nil_iff.1 hother).1
      · exact fun hother => ih (Option.map_eq_none_iff.1 h) front (lone_cons_iff.1 hother).2

/-- A text is cut at the first equals sign that stands alone. -/
theorem cutEquals_eq_some_iff :
    cutEquals previous text = some (front, rest) ↔ First (Lone previous text) front rest := by
  refine ⟨lone_of_cutEquals, fun h => ?_⟩
  rcases hcut : cutEquals previous text with _ | ⟨front', rest'⟩
  · exact absurd h.holds (not_lone_of_cutEquals hcut front rest)
  · have h' := lone_of_cutEquals hcut
    obtain ⟨rfl, rfl⟩ := h'.holds.eq_of_length h.holds
      (Nat.le_antisymm (h'.first _ _ h.holds) (h.first _ _ h'.holds))
    rfl

theorem cutEquals_eq_none_iff :
    cutEquals previous text = none ↔ ∀ front rest, ¬ Lone previous text front rest := by
  refine ⟨not_lone_of_cutEquals, fun h => ?_⟩
  rcases hcut : cutEquals previous text with _ | ⟨front, rest⟩
  · rfl
  · exact absurd (lone_of_cutEquals hcut).holds (h front rest)

/-! ## Forms of statements -/

/-- A text in which no compound operator occurs. -/
def Uncompounded (text : List Char) : Prop :=
  ∀ compound ∈ compounds, ¬ compound.1 <:+: text

/-- The sign of a step. -/
def stepSign (up : Bool) : List Char :=
  if up then ['+', '+'] else ['-', '-']

/-- The form of a text as a statement. -/
inductive Reads (text : List Char) : Statement → Prop
  | update {before after : List (List Char × BinaryOp)} {symbol target body : List Char}
      {operation : BinaryOp} (known : compounds = before ++ (symbol, operation) :: after)
      (earlier : ∀ compound ∈ before, ¬ compound.1 <:+: text)
      (first : First (Divides symbol text) target body) :
      Reads text (update operation target (trim body))
  | step {up : Bool} {target : List Char} (uncompounded : Uncompounded text)
      (ends : text = target ++ stepSign up) : Reads text (step up target)
  | assignment {target body : List Char} (uncompounded : Uncompounded text)
      (unstepped : ∀ up, ¬ stepSign up <:+ text) (first : First (Lone none text) target body) :
      Reads text (assignment target (trim body))
  | expression (uncompounded : Uncompounded text) (unstepped : ∀ up, ¬ stepSign up <:+ text)
      (unassigned : ∀ front rest, ¬ Lone none text front rest) : Reads text (expression text)

/-- Every text has a form. -/
theorem exists_reads (text : List Char) : ∃ form, Reads text form := by
  rcases hcompound : compounds.findSome? (fun compound => cut compound.1 text) with _ | ⟨target, body⟩
  · have huncompounded : Uncompounded text := fun compound hmem =>
      cut_eq_none_iff.1 (List.findSome?_eq_none_iff.1 hcompound compound hmem)
    by_cases hstep : ∃ up, stepSign up <:+ text
    · obtain ⟨up, target, htext⟩ := hstep
      exact ⟨_, .step huncompounded htext.symm⟩
    · have hunstepped : ∀ up, ¬ stepSign up <:+ text := not_exists.1 hstep
      rcases hequals : cutEquals none text with _ | ⟨target, body⟩
      · exact ⟨_, .expression huncompounded hunstepped (cutEquals_eq_none_iff.1 hequals)⟩
      · exact ⟨_, .assignment huncompounded hunstepped (cutEquals_eq_some_iff.1 hequals)⟩
  · obtain ⟨before, ⟨symbol, operation⟩, after, hlist, hcut, hbefore⟩ :=
      List.findSome?_eq_some_iff.1 hcompound
    exact ⟨_, .update hlist (fun compound hmem => cut_eq_none_iff.1 (hbefore compound hmem))
      (cut_eq_some_iff.1 hcut)⟩

/-- What is looked for at every compound operator is found at the first that occurs. -/
theorem findSome?_compounds {α : Type} (f : BinaryOp → List Char × List Char → α)
    {before after : List (List Char × BinaryOp)} {symbol : List Char} {operation : BinaryOp}
    (known : compounds = before ++ (symbol, operation) :: after)
    (earlier : ∀ compound ∈ before, ¬ compound.1 <:+: text)
    (first : First (Divides symbol text) target body) :
    (compounds.findSome? fun compound => (cut compound.1 text).map (f compound.2)) =
      some (f operation (target, body)) := by
  refine List.findSome?_eq_some_iff.2 ⟨before, (symbol, operation), after, known, ?_, ?_⟩
  · change (cut symbol text).map (f operation) = _
    rw [cut_eq_some_iff.2 first, Option.map_some]
  · intro compound hmem
    rw [cut_eq_none_iff.2 (earlier compound hmem), Option.map_none]

theorem findSome?_of_uncompounded {α : Type} (f : BinaryOp → List Char × List Char → α)
    (h : Uncompounded text) :
    (compounds.findSome? fun compound => (cut compound.1 text).map (f compound.2)) = none := by
  refine List.findSome?_eq_none_iff.2 fun compound hmem => ?_
  rw [cut_eq_none_iff.2 (h compound hmem), Option.map_none]

/-! ## What an evaluation finds -/

theorem step?_append (target : List Char) (up : Bool) :
    step? (target ++ stepSign up) = some (step up target) := by
  cases up with
  | true =>
    rw [step?, stepSign, if_pos rfl, before?_append]
    rfl
  | false =>
    -- a text does not end with both signs
    have hnone : before? ['+', '+'] (target ++ ['-', '-']) = none := by
      refine before?_eq_none_iff.2 fun hplus => ?_
      have hsuffix := List.suffix_of_suffix_length_le hplus (List.suffix_append target ['-', '-']) le_rfl
      exact absurd (hsuffix.eq_of_length rfl) (by decide)
    rw [step?, stepSign, if_neg (by decide), hnone, before?_append]
    rfl

theorem step?_of_unstepped (h : ∀ up, ¬ stepSign up <:+ text) : step? text = none := by
  have hup : before? ['+', '+'] text = none := before?_eq_none_iff.2 (h true)
  have hdown : before? ['-', '-'] text = none := before?_eq_none_iff.2 (h false)
  rw [step?, hup, hdown]
  rfl

/-- An evaluation finds the form of a text. -/
theorem ofText_of_reads {form : Statement} (h : Reads text form) : ofText text = form := by
  have hupdate : Uncompounded text → update? text = none :=
    findSome?_of_uncompounded fun operation p => update operation p.1 (trim p.2)
  cases h with
  | @update _ _ _ target body operation known earlier first =>
    have hfound : update? text = some (update operation target (trim body)) :=
      findSome?_compounds (fun operation p => update operation p.1 (trim p.2)) known earlier first
    rw [ofText, hfound]
    rfl
  | step uncompounded ends =>
    rw [ofText, hupdate uncompounded, ends, step?_append]
    rfl
  | assignment uncompounded unstepped first =>
    rw [ofText, hupdate uncompounded, step?_of_unstepped unstepped, assignment?,
      cutEquals_eq_some_iff.2 first]
    rfl
  | expression uncompounded unstepped unassigned =>
    rw [ofText, hupdate uncompounded, step?_of_unstepped unstepped, assignment?,
      cutEquals_eq_none_iff.2 unassigned]
    rfl

/-- An evaluation takes a text for a statement exactly when that is its form. -/
theorem reads_iff {form : Statement} : Reads text form ↔ ofText text = form := by
  refine ⟨ofText_of_reads, ?_⟩
  rintro rfl
  obtain ⟨form, hform⟩ := exists_reads text
  rwa [ofText_of_reads hform]

/-! ## What a check finds -/

/-- The name that a statement writes and the expression that it evaluates. -/
def parts : Statement → Except ExprError (Option String × Option (List Char))
  | expression body => .ok (none, some body)
  | step _ target => (targetName target).map fun name => (some name, none)
  | update _ target body | assignment target body =>
    (targetName target).map fun name => (some name, some body)

end Statement

open Statement

theorem splitStatement_of_reads {text : List Char} {form : Statement} (h : Reads text form) :
    splitStatement text = form.parts := by
  have hcut : (fun compound : List Char × BinaryOp => cut compound.1 text) =
      fun compound => (cut compound.1 text).map fun p => p := by
    funext compound
    exact Option.map_id'.symm
  have hnone : Uncompounded text → compounds.findSome? (fun compound => cut compound.1 text) = none := by
    rw [hcut]
    exact findSome?_of_uncompounded fun _ p => p
  have hends : (∀ up, ¬ stepSign up <:+ text) →
      (['+', '+'].isSuffixOf text || ['-', '-'].isSuffixOf text) = false := by
    intro hnot
    rw [Bool.or_eq_false_iff, Bool.eq_false_iff, Bool.eq_false_iff, ne_eq, ne_eq,
      List.isSuffixOf_iff_suffix, List.isSuffixOf_iff_suffix]
    exact ⟨hnot true, hnot false⟩
  -- One case for each kind of statement: what comes earlier in the order of the tests is excluded by
  -- the case, and its own test succeeds.
  cases h with
  | update known earlier first =>
    have hfound := findSome?_compounds (fun _ p => p) known earlier first
    rw [← hcut] at hfound
    rw [splitStatement, hfound]
    rfl
  | @step up target uncompounded ends =>
    have hsign : (['+', '+'].isSuffixOf text || ['-', '-'].isSuffixOf text) = true := by
      rw [Bool.or_eq_true, List.isSuffixOf_iff_suffix, List.isSuffixOf_iff_suffix, ends]
      cases up with
      | true => exact .inl (List.suffix_append _ _)
      | false => exact .inr (List.suffix_append _ _)
    have htarget : text.take (text.length - 2) = target := by
      have hlength : (stepSign up).length = 2 := by cases up <;> rfl
      rw [ends, List.length_append, hlength, Nat.add_sub_cancel, List.take_left]
    rw [splitStatement, hnone uncompounded]
    dsimp only
    rw [if_pos hsign, htarget]
    rfl
  | assignment uncompounded unstepped first =>
    rw [splitStatement, hnone uncompounded]
    dsimp only
    rw [hends unstepped, cutEquals_eq_some_iff.2 first]
    rfl
  | expression uncompounded unstepped unassigned =>
    rw [splitStatement, hnone uncompounded]
    dsimp only
    rw [hends unstepped, cutEquals_eq_none_iff.2 unassigned]
    rfl

/-- The parts that a check finds are those of the statement that an evaluation finds. -/
theorem splitStatement_eq (text : List Char) : splitStatement text = (ofText text).parts :=
  splitStatement_of_reads (reads_iff.2 rfl)

example : splitStatement "a -= b += c".toList = .error (.invalidTarget "a -= b") := by cbv

/-- A check of a statement is a check of its target and of the expression on its right. -/
theorem checkStatement_eq (text : List Char) :
    checkStatement text = match ofText text with
      | .expression body => checkExpression body
      | .step _ target => targetName target >>= fun _ => pure ()
      | .update _ target body => targetName target >>= fun _ => checkExpression body
      | .assignment target body => targetName target >>= fun _ => checkExpression body := by
  rw [checkStatement, splitStatement_eq]
  cases ofText text with
  | expression body => rfl
  | step _ target | update _ target _ | assignment target _ =>
    dsimp only [parts]
    cases targetName target <;> rfl

end EventDeck.Expr
