import EventDeck.Expr.RandomCall

/-!
# Replacing names one by one

What the replacement of names does at the front of a text: a character that no name has stays, and a
run of name characters is replaced as a whole when it is the name of a variable.  A text without the
first letter of `Random` has no random calls to replace.
-/

namespace EventDeck.Expr

open Text

/-! ## Runs -/

theorem exists_runs_cons (c : Char) (cs : List Char) :
    ∃ run others, runs (c :: cs) = (c :: run) :: others := by
  rw [runs]
  split
  · split
    · exact ⟨_, _, rfl⟩
    · exact ⟨_, _, rfl⟩
  · exact ⟨_, _, rfl⟩

/-- A run ends where a character of the other sort begins. -/
theorem runs_append {run rest : List Char} (hrun : run.all isNameChar = true) (hne : run ≠ [])
    (hrest : ∀ c cs, rest = c :: cs → isNameChar c = false) :
    runs (run ++ rest) = run :: runs rest := by
  induction run with
  | nil => exact absurd rfl hne
  | cons c cs ih =>
    rw [List.all_cons, Bool.and_eq_true] at hrun
    rw [List.cons_append, runs]
    -- behind the last character of the run the next one is of the other sort
    rcases cs with _ | ⟨d, ds⟩
    · rw [List.nil_append]
      rcases rest with _ | ⟨d, ds⟩
      · rfl
      · obtain ⟨run, others, heq⟩ := exists_runs_cons d ds
        rw [heq]
        dsimp only
        rw [hrest d ds rfl, hrun.1]
        rfl
    · -- two characters of the same sort stay in one run
      have hd : isNameChar d = true := by
        have := hrun.2
        rw [List.all_cons, Bool.and_eq_true] at this
        exact this.1
      rw [ih hrun.2 (by simp)]
      dsimp only
      rw [hrun.1, hd]
      rfl

/-! ## Replacing -/

section Replace

variable {m : Type → Type} [Monad m] [LawfulMonad m] {f : List Char → m (List Char)}
variable {run rest : List Char}

/-- What takes the place of one run. -/
def replaceRun (f : List Char → m (List Char)) (run : List Char) : m (List Char) :=
  if isVariableRun run then f run else pure run

theorem replaceNames_eq (text : List Char) :
    replaceNames f text = List.flatten <$> (runs text).mapM (replaceRun f) := by
  rw [map_eq_pure_bind]
  rfl

@[simp] theorem replaceNames_nil : replaceNames f [] = pure [] := by
  rw [replaceNames_eq, runs, List.mapM_nil, map_pure]
  rfl

omit [LawfulMonad m] in
/-- A run that is no name of a variable stays. -/
theorem replaceRun_of_not {c : Char} {cs : List Char} (h : isNameStart c = false) :
    replaceRun f (c :: cs) = pure (c :: cs) := by
  rw [replaceRun, isVariableRun, List.head?_cons, Option.any_some, h, Bool.false_and,
    if_neg (by decide)]

/-- A character that no name has stays. -/
theorem replaceNames_cons {c : Char} (h : isNameChar c = false) :
    replaceNames f (c :: rest) = (c :: ·) <$> replaceNames f rest := by
  have hstart : ∀ d, isNameChar d = false → isNameStart d = false := by
    intro d hd
    rw [isNameChar, Bool.or_eq_false_iff] at hd
    exact hd.1
  rw [replaceNames_eq, replaceNames_eq, runs]
  rcases rest with _ | ⟨d, ds⟩
  · rw [runs, List.mapM_cons, replaceRun_of_not (hstart c h)]
    simp
  · obtain ⟨run, others, heq⟩ := exists_runs_cons d ds
    rw [heq]
    dsimp only
    rw [h]
    -- the character is a run of its own, or the front of a run of its sort
    cases hd : isNameChar d with
    | true =>
      rw [if_neg (by decide), List.mapM_cons, replaceRun_of_not (hstart c h)]
      simp
    | false =>
      rw [if_pos (by decide), List.mapM_cons, List.mapM_cons, replaceRun_of_not (hstart c h),
        replaceRun_of_not (hstart d hd)]
      simp

/-- A run of name characters is replaced as a whole. -/
theorem replaceNames_append (hrun : run.all isNameChar = true) (hne : run ≠ [])
    (hrest : ∀ c cs, rest = c :: cs → isNameChar c = false) :
    replaceNames f (run ++ rest) = do
      let first ← replaceRun f run
      let others ← replaceNames f rest
      return first ++ others := by
  rw [replaceNames_eq, replaceNames_eq, runs_append hrun hne hrest, List.mapM_cons]
  simp

end Replace

/-! ## Texts without random calls -/

theorem randomCall?_of_head {c : Char} {cs : List Char} (h : c ≠ 'R') :
    randomCall? (c :: cs) = none := by
  have hafter : after? randomWord (c :: cs) = none := by
    rw [randomWord, after?, if_neg (Ne.symm h)]
  rw [randomCall?, hafter]
  rfl

/-- A text without the first letter of the word has no random calls. -/
theorem replaceRandoms_of_not_mem {m : Type → Type} [Monad m] [LawfulMonad m]
    {f : RandomCall → m (List Char)} {text : List Char} (h : 'R' ∉ text) :
    replaceRandoms f text = pure text := by
  induction text with
  | nil => rw [replaceRandoms]
  | cons c cs ih =>
    rw [List.mem_cons, not_or] at h
    rw [replaceRandoms]
    split
    · next heq =>
      rw [randomCall?_of_head (Ne.symm h.1)] at heq
      cases heq
    · rw [ih h.2, pure_bind]

/-- A random call at the front of a text is replaced first. -/
theorem replaceRandoms_of_call {m : Type → Type} [Monad m] {replace : RandomCall → m (List Char)}
    {text rest : List Char} {call : RandomCall} (h : randomCall? text = some (call, rest)) :
    replaceRandoms replace text = do
      let number ← replace call
      return number ++ (← replaceRandoms replace rest) := by
  cases text with
  | nil => cases h
  | cons c cs =>
    rw [replaceRandoms]
    split
    next call' rest' h' =>
      rw [h] at h'
      cases h'
      rfl
    next h' =>
      rw [h] at h'
      cases h'

/-- A text that is a random call and nothing else. -/
theorem replaceRandoms_call {m : Type → Type} [Monad m] [LawfulMonad m]
    {replace : RandomCall → m (List Char)} {text : List Char} {call : RandomCall}
    (h : randomCall? text = some (call, [])) : replaceRandoms replace text = replace call := by
  rw [replaceRandoms_of_call h]
  simp [replaceRandoms]

end EventDeck.Expr
