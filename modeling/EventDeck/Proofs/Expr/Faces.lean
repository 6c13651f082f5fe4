import EventDeck.Proofs.Expr.Checked

/-!
# What a run with the probe says about the check

The probe has no sign, and no number can end within it (`Stage.exists_of_append_probeText`).  So
with the probe in the place of its names the tokens of a run are cut off between the pieces of the
text, and its numbers stand where those of the check do.

The main statement is `exists_faces`: the check reads the tokens of the run, with other numbers in
the place of the numbers.  Hence what is well-formed with the probe is well-formed with zeros, and
every piece of it fits (`fits_of_probed`).
-/

namespace EventDeck.Expr

open Text Decimal

variable {names : List Char → List Char}

/-- Atoms that are characters, or names in the place of which the probe stands. -/
def Probed (names : List Char → List Char) (atoms : List Atom) : Prop :=
  ∀ atom ∈ atoms, (∃ c, atom = .char c) ∨ ∃ word, atom = .name word ∧ names word = probeText

theorem Probed.tail {atom : Atom} {atoms : List Atom} (h : Probed names (atom :: atoms)) :
    Probed names atoms := fun other hmem => h other (List.mem_cons_of_mem _ hmem)

theorem Probed.name_eq {word : List Char} {atoms : List Atom}
    (h : Probed names (.name word :: atoms)) : names word = probeText := by
  rcases h _ List.mem_cons_self with ⟨c, hc⟩ | ⟨_, heq, hprobe⟩
  · cases hc
  · cases heq
    exact hprobe

theorem Probed.call_not_mem {atoms : List Atom} (h : Probed names atoms) (call : CellCall) :
    .call call ∉ atoms := by
  intro hmem
  rcases h _ hmem with ⟨c, hc⟩ | ⟨word, hword, -⟩
  · cases hc
  · cases hword

/-! ## Numbers with the probe in them -/

/-- No number ends within the probe. -/
theorem Stage.exists_of_append_probeText {stage last : Stage} {number rest text : List Char}
    (h : stage.follow? number = some last) (hlast : last.complete = true)
    (hstops : whole.Stops rest) (heq : number ++ rest = probeText ++ text) :
    (stage = .start ∨ stage = .whole) ∧ ∃ more, number = probeText ++ more ∧
      power.follow? more = some last ∧ text = more ++ rest := by
  rcases List.append_eq_append_iff.1 heq with ⟨left, hprobe, hrest⟩ | ⟨more, hnumber, htext⟩
  · rcases left with _ | ⟨c, cs⟩
    · rw [List.append_nil] at hprobe
      subst hprobe
      obtain ⟨hstage, rfl⟩ := scan?_probeText (scan?_of_follow? h)
      exact ⟨hstage, [], (List.append_nil _).symm, rfl, hrest.symm⟩
    · -- where the number could end, the probe goes on with it
      have hgoes : ∀ length < 7, ∀ last, stage.follow? (probeText.take length) = some last →
          last.complete = true →
            ((probeText.drop length).head?.bind whole.step?).isSome = true := by
        cases stage <;> decide
      have hfront : probeText.take number.length = number := by rw [hprobe, List.take_left']; rfl
      have hback : probeText.drop number.length = c :: cs := by rw [hprobe, List.drop_left']; rfl
      have hshort : number.length < 7 := by
        have hlength := congrArg List.length hprobe
        rw [List.length_append, List.length_cons] at hlength
        change 7 = _ at hlength
        omega
      have hstep := hgoes _ hshort last (hfront.symm ▸ h) hlast
      rw [hback, List.head?_cons, Option.bind_some, hstops c _ hrest] at hstep
      cases hstep
  · subst hnumber
    rw [follow?_append] at h
    obtain ⟨between, hprobe, hmore⟩ := Option.bind_eq_some_iff.1 h
    obtain ⟨hstage, rfl⟩ := scan?_probeText (scan?_of_follow? hprobe)
    exact ⟨hstage, more, rfl, hmore, htext⟩

/-- A number that goes on with a character in the run goes on with it in the check. -/
theorem Spot.exists_step?_of_probed {spot : Spot} {c : Char} {after : Stage}
    (h : spot.probed.step? c = some after) :
    ∃ next : Spot, next.probed = after ∧ spot.stage.step? c = some next.stage := by
  cases spot with
  | plain stage => exact ⟨plain after, rfl, h⟩
  | named =>
    -- behind the exponent of the probe there are only digits
    by_cases hc : isDecimalDigit c = true
    · rw [probed, Stage.step?_digit hc] at h
      cases h
      exact ⟨named, rfl, Stage.step?_digit hc .whole⟩
    · unfold probed Stage.step? at h
      rw [if_neg hc] at h
      cases h

theorem Spot.complete_of_probed {spot : Spot} (h : spot.probed.complete = true) :
    spot.stage.complete = true := by
  cases spot with
  | plain stage => exact h
  | named => rfl

/-! ## Cuts at atoms -/

/-- What ends numbers in the run ends them for the check. -/
theorem Pasted.stops_faces {atoms : List Atom} {text : List Char} (h : Pasted names atoms text)
    (hprobed : Probed names atoms) (hstops : Stage.whole.Stops text) :
    Stage.whole.Stops (atoms.map Atom.face) := by
  cases h with
  | nil => exact hstops
  | char c _ =>
    rintro _ _ ⟨⟩
    exact hstops c _ rfl
  | name word _ =>
    rw [hprobed.name_eq] at hstops
    exact absurd (hstops '1' _ rfl) (by decide)
  | call bounds => exact absurd List.mem_cons_self (hprobed.call_not_mem bounds)

/-- No equals sign comes up in the check that the run does not see. -/
theorem Pasted.head?_faces_ne_equals {atoms : List Atom} {text : List Char}
    (h : Pasted names atoms text) (hprobed : Probed names atoms) (hhead : text.head? ≠ some '=') :
    (atoms.map Atom.face).head? ≠ some '=' := by
  cases h with
  | nil | char => exact hhead
  | name => simp [Atom.face]
  | call bounds => exact absurd List.mem_cons_self (hprobed.call_not_mem bounds)

/-- Characters in the run that are not in numbers are characters of the text. -/
theorem Pasted.exists_of_chars {chars rest : List Char}
    (hchars : ∀ c ∈ chars, Stage.whole.step? c = none) :
    ∀ {atoms : List Atom}, Pasted names atoms (chars ++ rest) → Probed names atoms →
      ∃ back, atoms = chars.map .char ++ back ∧ Pasted names back rest := by
  induction chars with
  | nil => exact fun h _ => ⟨_, rfl, h⟩
  | cons c cs ih =>
    intro atoms h hprobed
    generalize htext : (c :: cs) ++ rest = text at h
    cases h with
    | nil => cases htext
    | char d h =>
      cases htext
      obtain ⟨back, rfl, hback⟩ :=
        ih (fun e he => hchars e (List.mem_cons_of_mem _ he)) h hprobed.tail
      exact ⟨back, rfl, hback⟩
    | name word h =>
      -- no character that ends numbers begins the probe
      rw [hprobed.name_eq] at htext
      have hc : c = '1' := (List.cons.inj htext).1
      exact absurd (hchars c List.mem_cons_self) (hc ▸ by decide)
    | call bounds => exact absurd List.mem_cons_self (hprobed.call_not_mem bounds)

/-- A number of the run is that of the check, with the probe in the place of zeros. -/
theorem Pasted.exists_of_number {atoms : List Atom} {text : List Char} (h : Pasted names atoms text)
    (hprobed : Probed names atoms) :
    ∀ (spot : Spot) {number rest : List Char} {last : Stage}, text = number ++ rest →
      spot.probed.follow? number = some last → last.complete = true → Stage.whole.Stops rest →
      ∃ front back stage, atoms = front ++ back ∧ Pasted names back rest ∧
        spot.stage.follow? (front.map Atom.face) = some stage ∧ stage.complete = true := by
  -- The induction is on the pasted text; the spot says where in a number both texts are, and whether
  -- the digits of the probe have been passed.
  induction h with
  | nil =>
    intro spot number rest last htext hnumber hlast _
    obtain ⟨rfl, rfl⟩ := List.nil_eq_append_iff.1 htext
    cases hnumber
    exact ⟨[], [], _, rfl, .nil, rfl, Spot.complete_of_probed hlast⟩
  | @char c atoms text h ih =>
    intro spot number rest last htext hnumber hlast hstops
    -- the number ends here, or goes on with this character
    rcases number with _ | ⟨d, number⟩
    · obtain rfl : c :: text = rest := htext
      cases hnumber
      exact ⟨[], _, _, rfl, .char c h, rfl, Spot.complete_of_probed hlast⟩
    · cases htext
      obtain ⟨after, hstep, hnumber⟩ := Option.bind_eq_some_iff.1 hnumber
      obtain ⟨next, rfl, hface⟩ := Spot.exists_step?_of_probed hstep
      obtain ⟨front, back, stage, rfl, hback, hfront, hstage⟩ :=
        ih hprobed.tail next rfl hnumber hlast hstops
      refine ⟨.char c :: front, back, stage, rfl, hback, ?_, hstage⟩
      rw [List.map_cons, Stage.follow?, Atom.face, hface]
      exact hfront
  | @name word atoms text h ih =>
    intro spot number rest last htext hnumber hlast hstops
    rw [hprobed.name_eq] at htext
    obtain ⟨hbegun, more, rfl, hmore, rfl⟩ :=
      Stage.exists_of_append_probeText hnumber hlast hstops htext.symm
    obtain ⟨front, back, stage, rfl, hback, hfront, hstage⟩ :=
      ih hprobed.tail .named rfl hmore hlast hstops
    refine ⟨.name word :: front, back, stage, rfl, hback, ?_, hstage⟩
    have hdigit : spot.stage.digit = .whole := by
      cases spot with
      | plain s => rcases hbegun with h | h <;> cases h <;> rfl
      | named => rfl
    rw [List.map_cons, Atom.face, Stage.follow?_zero, hdigit]
    exact hfront
  | call bounds => exact absurd List.mem_cons_self (hprobed.call_not_mem bounds)

/-! ## Tokens -/

theorem Pasted.eq_nil {atoms : List Atom} (h : Pasted names atoms [])
    (hprobed : Probed names atoms) : atoms = [] := by
  generalize htext : [] = text at h
  cases h with
  | nil => rfl
  | char c h => cases htext
  | name word h =>
    rw [hprobed.name_eq] at htext
    cases htext
  | call bounds => exact absurd List.mem_cons_self (hprobed.call_not_mem bounds)

/-- The check reads the tokens of a run with the probe, with other numbers. -/
theorem exists_faces {atoms : List Atom} {text : List Char} {tokens : List Token}
    (hpasted : Pasted names atoms text) (hprobed : Probed names atoms)
    (h : tokenize text = .ok tokens) (hseparate : Separate tokens) :
    ∃ faces, tokenize (atoms.map Atom.face) = .ok faces ∧ Expands tokens faces := by
  by_cases hnil : text = []
  · subst hnil
    obtain rfl := hpasted.eq_nil hprobed
    have hempty : tokenize [] = .ok [] := tokenize_of_all_isBlank rfl
    cases hempty.symm.trans h
    exact ⟨[], hempty, .nil⟩
  obtain ⟨c, cs, rfl⟩ := List.exists_cons_of_ne_nil hnil
  have hback : ∀ {front back : List Atom}, Probed names (front ++ back) → Probed names back :=
    fun h atom hmem => h atom (List.mem_append_right _ hmem)
  rcases tokenize_cons_eq_ok_cases h with ⟨hblank, h⟩ | ⟨-, token, rest, more, hnext, hmore, rfl⟩
  · -- a blank is one for both
    have hends : ∀ d ∈ [c], Stage.whole.step? d = none := fun d hd =>
      step?_of_isBlank (List.mem_singleton.1 hd ▸ hblank) .whole
    obtain ⟨back, rfl, hrest⟩ := Pasted.exists_of_chars hends hpasted hprobed
    obtain ⟨faces, hfaces, hexpands⟩ := exists_faces hrest (hback hprobed) h hseparate
    exact ⟨faces, (tokenize_cons_of_isBlank hblank _).trans hfaces, hexpands⟩
  obtain ⟨-, htext⟩ := nextToken?_append hnext
  have hshorter := length_lt_of_nextToken? hnext
  cases token with
  | number number =>
    obtain ⟨last, hlast, hcomplete⟩ := isNumber_of_nextToken? hnext
    have hstops := stops_of_tokenize hmore hseparate.1
    obtain ⟨front, back, stage, rfl, hrest, hfront, hstage⟩ :=
      hpasted.exists_of_number hprobed (.plain .start) htext hlast hcomplete hstops
    obtain ⟨faces, hfaces, hexpands⟩ := exists_faces hrest (hback hprobed) hmore hseparate.2
    have hends := Stage.stops_of_whole hstage (hrest.stops_faces (hback hprobed) hstops)
    refine ⟨.number (front.map Atom.face) :: faces, ?_,
      .number number (.plain (.number _)) hexpands⟩
    rw [List.map_append, tokenize_number_append hfront hstage hends, hfaces]
    rfl
  | operator op =>
    rw [htext] at hpasted
    obtain ⟨back, rfl, hrest⟩ :=
      Pasted.exists_of_chars (fun c hc => step?_of_mem_symbol hc) hpasted hprobed
    obtain ⟨faces, hfaces, hexpands⟩ := exists_faces hrest (hback hprobed) hmore hseparate
    have hplain : op.opensEquals = true → (back.map Atom.face).head? ≠ some '=' := by
      intro hop
      exact hrest.head?_faces_ne_equals (hback hprobed)
        (head?_of_scanOperator? (scanOperator?_of_nextToken? hnext) hop)
    refine ⟨.operator op :: faces, ?_, .operator op hexpands⟩
    have hsymbol : (op.symbol.map Atom.char).map Atom.face = op.symbol := by
      rw [List.map_map]
      exact List.map_id _
    rw [List.map_append, hsymbol, tokenize_symbol_append hplain, hfaces]
    rfl
termination_by text.length

/-! ## Trees -/

/-- What is well-formed with the probe is well-formed with zeros, and every piece of it fits. -/
theorem fits_of_probed {atoms : List Atom} {text : List Char} {tree : Tree (List Char) .loosest}
    (hnames : WritesNumbers names) (hpasted : Pasted names atoms text)
    (hprobed : Probed names atoms) (h : tokenize text = .ok tree.tokens) :
    Fits atoms ∧ Readable atoms := by
  constructor
  · refine exists_walk_of_tokenize hnames hpasted (fun word hmem => ?_)
      (Spot.indifferent_of_not_mem hprobed.call_not_mem _) h tree.separate
    rcases hprobed _ hmem with ⟨c, hc⟩ | ⟨_, heq, hprobe⟩
    · cases hc
    · cases heq
      exact hprobe
  · obtain ⟨faces, hfaces, hexpands⟩ := exists_faces hpasted hprobed h tree.separate
    obtain ⟨read, rfl, -⟩ : Spells .loosest tree.kind? faces := hexpands.spells
    exact ⟨read, hfaces⟩

end EventDeck.Expr
