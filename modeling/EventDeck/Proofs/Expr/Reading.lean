import EventDeck.Proofs.Expr.Tree

/-!
# Reading is the inverse of spelling

`readOff` and `joinOff` are `read` and `readJoined` without the proofs that the rest is shorter.
A tree that is spelled out is read off again with its value, when what follows it cannot go on with
its level (`Tree.readsOff`), and whatever is read off is the spelling of a tree
(`exists_tree_of_readOff`).  Together they say that the parser accepts exactly its grammar.
-/

namespace EventDeck.Expr

/-! ## Reading without bounds -/

/-- The value and the rest of a reading. -/
def Reading.taken {n : Nat} (r : Reading n) : Value × List Token := (r.value, r.rest)

/-- One operand of a level off the front of the tokens: its value and the rest. -/
def readOff (mode : Mode) (level : Level) (tokens : List Token) :
    Except ExprError (Value × List Token) :=
  (read mode level tokens).map Reading.taken

/-- What is joined to a first operand off the front of the tokens. -/
def joinOff (mode : Mode) (joint : Joint) (left : Value) (tokens : List Token) :
    Except ExprError (Value × List Token) :=
  (readJoined mode joint left tokens).map Reading.taken

variable {mode : Mode}

/-- The equations of the reader, one for each way in which a level can begin. -/
theorem readOff_number (text : List Char) (rest : List Token) :
    readOff mode .atom (.number text :: rest) = .ok (.number (numberOf text), rest) := by
  rw [readOff, read]
  rfl

/-- A bracket is read up to the one that closes it. -/
theorem readOff_opening (rest : List Token) :
    readOff mode .atom (.operator .opening :: rest) =
      readOff mode .loosest rest >>= fun
        | (v, .operator .closing :: after) => .ok (v, after)
        | _ => .error .unclosedParenthesis := by
  rw [readOff, read, readOff]
  rcases read mode .loosest rest with e | ⟨v, _ | ⟨_ | op, after⟩, short⟩ <;> try rfl
  cases op <;> rfl

/-- A sign is applied to the number behind it. -/
theorem readOff_sign (negative : Bool) (rest : List Token) :
    readOff mode .signed (.operator (signOperator negative) :: rest) =
      readOff mode .signed rest >>= fun (v, after) =>
        v.toNumber.map fun x => (.number (if negative then -x else x), after) := by
  cases negative with
  | true =>
    change (read mode .signed (.operator .minus :: rest)).map _ = _
    rw [read, readOff]
    rcases read mode .signed rest with e | ⟨_ | _, after, short⟩ <;> rfl
  | false =>
    change (read mode .signed (.operator .plus :: rest)).map _ = _
    rw [read, readOff]
    rcases read mode .signed rest with e | ⟨_ | _, after, short⟩ <;> rfl

theorem readOff_unsigned {tokens : List Token}
    (h : ∀ negative rest, tokens ≠ .operator (signOperator negative) :: rest) :
    readOff mode .signed tokens = readOff mode .atom tokens := by
  rw [readOff, read, readOff]
  · exact fun rest => h true rest
  · exact fun rest => h false rest

/-- A chain of operands is an operand and what is joined to it. -/
theorem readOff_joined (joint : Joint) (tokens : List Token) :
    readOff mode (.joined joint) tokens =
      readOff mode joint.operand tokens >>= fun (v, rest) => joinOff mode joint v rest := by
  rw [readOff, read, readOff]
  rcases read mode joint.operand tokens with e | left
  · rfl
  · change _ = joinOff mode joint left.value left.rest
    rw [joinOff]
    dsimp only
    cases readJoined mode joint left.value left.rest <;> rfl

/-- A negation gives a truth value, whatever is negated. -/
theorem readOff_not (rest : List Token) :
    readOff mode .negation (.operator .not :: rest) =
      readOff mode .negation rest >>= fun (v, after) => .ok (.truth (!v.isTrue), after) := by
  rw [readOff, read, readOff]
  cases read mode .negation rest <;> rfl

theorem readOff_plain {tokens : List Token} (h : ∀ rest, tokens ≠ .operator .not :: rest) :
    readOff mode .negation tokens = readOff mode .comparison tokens := by
  rw [readOff, read, readOff]
  exact h

/-- A comparison has two sums at most; a third one is left unread. -/
theorem readOff_comparison (tokens : List Token) :
    readOff mode .comparison tokens =
      readOff mode (.joined .sum) tokens >>= fun
        | (v, .operator op :: rest) =>
          match op.comparison? with
          | none => .ok (v, .operator op :: rest)
          | some comparison =>
            readOff mode (.joined .sum) rest >>= fun (w, after) =>
              (comparison.apply v w).map (·, after)
        | taken => .ok taken := by
  rw [readOff, read, readOff]
  -- One step of the reader, with the proof that tokens were taken forgotten: both sides fail, stop or
  -- go on together.
  rcases read mode (.joined .sum) tokens with e | ⟨v, _ | ⟨_ | op, rest⟩, short⟩
  · rfl
  · simp only [readComparison]; rfl
  · simp only [readComparison]; rfl
  · simp only [readComparison]
    change _ = match op.comparison? with | none => _ | some comparison => _
    cases op.comparison? with
    | none => rfl
    | some comparison =>
      simp only [readOff]
      rcases read mode (.joined .sum) rest with e | right
      · rfl
      · change _ = (comparison.apply v right.value).map (·, right.rest)
        dsimp only
        cases comparison.apply v right.value <;> rfl

/-- An operator of the level joins the next operand from the left. -/
theorem joinOff_operator {joint : Joint} {op : Operator} {operation : BinaryOp}
    (known : joint.operation? op = some operation) (left : Value) (rest : List Token) :
    joinOff mode joint left (.operator op :: rest) =
      readOff mode joint.operand rest >>= fun (v, after) =>
        operation.apply mode left v >>= fun w => joinOff mode joint w after := by
  rw [joinOff, readJoined, known, readOff]
  rcases read mode joint.operand rest with e | right
  · rfl
  · change _ = (operation.apply mode left right.value).bind fun w => joinOff mode joint w right.rest
    dsimp only
    rcases operation.apply mode left right.value with e | w
    · rfl
    · change _ = joinOff mode joint w right.rest
      rw [joinOff]
      dsimp only
      cases readJoined mode joint w right.rest <;> rfl

/-- Without an operator of the level nothing is joined. -/
theorem joinOff_eq_ok {joint : Joint} {tokens : List Token}
    (h : ∀ op rest, tokens = .operator op :: rest → joint.operation? op = none) (left : Value) :
    joinOff mode joint left tokens = .ok (left, tokens) := by
  rcases tokens with _ | ⟨_ | op, rest⟩
  · rw [joinOff, readJoined]; rfl; simp
  · rw [joinOff, readJoined]; rfl; simp
  · rw [joinOff, readJoined, h op rest rfl]; rfl

/-! ## Where operands begin and end -/

/-- The rank of the level whose operands an operator stands between; the highest for operators that
stand between none. -/
def Operator.rank : Operator → Nat
  | or => 7
  | and => 6
  | equal | unequal | lessEqual | greaterEqual | less | greater => 4
  | plus | minus => 3
  | times | divide => 2
  | not | opening | closing => 8

/-- An operator is of the level that it joins. -/
theorem rank_of_operation? {joint : Joint} {op : Operator} {operation : BinaryOp}
    (h : joint.operation? op = some operation) : op.rank = (Level.joined joint).rank := by
  cases joint <;> cases op <;> first | rfl | cases h

theorem rank_of_comparison? {op : Operator} {comparison : Comparison}
    (h : op.comparison? = some comparison) : op.rank = 4 := by
  cases op <;> first | rfl | cases h

/-- Tokens that do not go on with an operand of a level. -/
def Ends (level : Level) (rest : List Token) : Prop :=
  ∀ op after, rest = .operator op :: after → level.rank < op.rank

/-- What ends a level ends all narrower ones. -/
theorem Ends.mono {level level' : Level} {rest : List Token} (h : Ends level rest)
    (hle : level'.rank ≤ level.rank) : Ends level' rest :=
  fun op after heq => Nat.lt_of_le_of_lt hle (h op after heq)

theorem ends_nil (level : Level) : Ends level [] := by
  intro op after h
  cases h

/-- An operator that binds less ends a level. -/
theorem ends_operator {level : Level} {op : Operator} (h : level.rank < op.rank)
    (rest : List Token) : Ends level (.operator op :: rest) := by
  rintro _ _ ⟨⟩
  exact h

/-- At the end of a level nothing more is joined. -/
theorem Ends.joinOff {joint : Joint} {rest : List Token} (h : Ends (.joined joint) rest)
    (left : Value) : joinOff mode joint left rest = .ok (left, rest) := by
  refine joinOff_eq_ok (fun op after heq => ?_) left
  cases known : joint.operation? op with
  | none => rfl
  | some operation =>
    have hlt := h op after heq
    rw [rank_of_operation? known] at hlt
    exact absurd hlt (Nat.lt_irrefl _)

/-- The tokens that can begin an operand of a level. -/
def Starts (level : Level) : Token → Prop
  | .number _ | .operator .opening => True
  | .operator .plus | .operator .minus => 1 ≤ level.rank
  | .operator .not => 5 ≤ level.rank
  | .operator _ => False

/-- What begins a level begins all wider ones. -/
theorem Starts.mono {level level' : Level} {token : Token} (h : Starts level token)
    (hle : level.rank ≤ level'.rank) : Starts level' token := by
  rcases token with _ | op
  · trivial
  · cases op <;> first | exact h | exact Nat.le_trans h hle

theorem Tree.tokens_eq_cons {level : Level} (tree : Tree (List Char) level) :
    ∃ head tail, tree.tokens = head :: tail ∧ Starts level head := by
  -- An inner tree begins with the same token as the tree around it, and its level is the narrower one.
  induction tree with
  | operand text => exact ⟨_, _, rfl, trivial⟩
  | group inner => exact ⟨_, _, rfl, trivial⟩
  | sign negative inner =>
    refine ⟨_, _, rfl, ?_⟩
    cases negative <;> exact Nat.le_refl 1
  | not inner => exact ⟨_, _, rfl, Nat.le_refl 5⟩
  | unsigned inner ih =>
    obtain ⟨head, tail, heq, h⟩ := ih
    exact ⟨head, tail, heq, h.mono (by decide)⟩
  | @single joint inner ih =>
    obtain ⟨head, tail, heq, h⟩ := ih
    exact ⟨head, tail, heq, h.mono (Nat.le_of_lt (Level.rank_operand_lt joint))⟩
  | sum inner ih =>
    obtain ⟨head, tail, heq, h⟩ := ih
    exact ⟨head, tail, heq, h.mono (by decide)⟩
  | plain inner ih =>
    obtain ⟨head, tail, heq, h⟩ := ih
    exact ⟨head, tail, heq, h.mono (by decide)⟩
  | join known left right ih =>
    obtain ⟨head, tail, heq, h⟩ := ih
    exact ⟨head, _, congrArg (· ++ _) heq, h⟩
  | compare known left right ih =>
    obtain ⟨head, tail, heq, h⟩ := ih
    exact ⟨head, _, congrArg (· ++ _) heq, h.mono (by decide)⟩

/-! ## Trees are read off -/

/-- How reading goes on after the first operand of a joining level; other levels are complete. -/
def goOn (mode : Mode) (level : Level) (v : Value) (rest : List Token) :
    Except ExprError (Value × List Token) :=
  match level with
  | .joined joint => joinOff mode joint v rest
  | _ => .ok (v, rest)

/-- The level of the operands of a joining level, and every other level itself. -/
def Level.piece : Level → Level
  | joined joint => joint.operand
  | level => level

theorem Level.rank_piece_le (level : Level) : level.piece.rank ≤ level.rank := by
  rcases level with joint | _ | _ | _ | _
  · exact Nat.le_of_lt (rank_operand_lt joint)
  all_goals exact Nat.le_refl _

/-- At the end of a level the reader does not go on. -/
theorem Ends.goOn {level : Level} {rest : List Token} (h : Ends level rest) (v : Value) :
    goOn mode level v rest = .ok (v, rest) := by
  rcases level with joint | _ | _ | _ | _
  · exact h.joinOff v
  all_goals rfl

/-- Where a level ends, reading does not go on. -/
theorem Ends.bind_goOn {level : Level} {rest : List Token} (h : Ends level rest)
    (x : Except ExprError Value) :
    (x >>= fun v => EventDeck.Expr.goOn mode level v rest) = x.map (·, rest) := by
  cases x with
  | error e => rfl
  | ok v => exact h.goOn v

/-- Where a comparison ends, nothing is compared. -/
theorem Ends.comparison?_eq_none {op : Operator} {rest : List Token}
    (h : Ends .comparison (.operator op :: rest)) : op.comparison? = none := by
  cases known : op.comparison? with
  | none => rfl
  | some comparison =>
    have hlt := h op rest rfl
    rw [rank_of_comparison? known] at hlt
    exact absurd hlt (by decide)

/-- A tree does not begin with a token that cannot begin an operand of its level. -/
theorem Tree.tokens_append_ne {level : Level} (tree : Tree (List Char) level) {token : Token}
    (h : ¬Starts level token) (rest after : List Token) : tree.tokens ++ rest ≠ token :: after := by
  intro heq
  obtain ⟨head, tail, htokens, hstarts⟩ := tree.tokens_eq_cons
  rw [htokens] at heq
  cases heq
  exact h hstarts

/-- A tree that is spelled out is read off with its value, and reading goes on after it. -/
def Tree.ReadsOff (mode : Mode) {level : Level} (tree : Tree (List Char) level) : Prop :=
  ∀ rest, Ends level.piece rest →
    readOff mode level (tree.tokens ++ rest) =
      tree.value mode numberOf >>= fun v => goOn mode level v rest

namespace Tree.ReadsOff

/-- Where its level ends, a tree is all that is read off. -/
theorem complete {level : Level} {tree : Tree (List Char) level} {rest : List Token}
    (h : tree.ReadsOff mode) (hend : Ends level rest) :
    readOff mode level (tree.tokens ++ rest) = (tree.value mode numberOf).map (·, rest) := by
  rw [h rest (hend.mono level.rank_piece_le), hend.bind_goOn]

/-- One lemma for each node: when its parts are read off their spellings, so is the tree. -/
theorem group {inner : Tree (List Char) .loosest} (ih : inner.ReadsOff mode) :
    (Tree.group inner).ReadsOff mode := by
  intro rest _
  have hend : Ends .loosest (.operator .closing :: rest) := ends_operator (by decide) rest
  have hinner := ih.complete hend
  change readOff mode .atom (.operator .opening :: ((inner.tokens ++ [_]) ++ rest)) = _
  rw [List.append_assoc, readOff_opening]
  change (readOff mode .loosest (inner.tokens ++ .operator .closing :: rest) >>= _) = _
  rw [hinner]
  change _ = (inner.value mode numberOf >>= _)
  cases inner.value mode numberOf <;> rfl

theorem unsigned {inner : Tree (List Char) .atom} (ih : inner.ReadsOff mode) :
    (Tree.unsigned inner).ReadsOff mode := by
  intro rest h
  have hinner := ih rest (h.mono (by decide))
  change readOff mode .signed (inner.tokens ++ rest) = _
  rw [readOff_unsigned]
  · exact hinner
  · intro negative after
    refine inner.tokens_append_ne ?_ rest after
    cases negative <;> exact Nat.not_succ_le_zero 0

theorem sign {negative : Bool} {inner : Tree (List Char) .signed} (ih : inner.ReadsOff mode) :
    (Tree.sign negative inner).ReadsOff mode := by
  intro rest h
  have hinner := ih rest h
  change readOff mode .signed (.operator (signOperator negative) :: (inner.tokens ++ rest)) = _
  rw [readOff_sign, hinner, Tree.value]
  cases inner.value mode numberOf with
  | error e => rfl
  | ok v => cases v <;> rfl

theorem single {joint : Joint} {inner : Tree (List Char) joint.operand} (ih : inner.ReadsOff mode) :
    (Tree.single inner).ReadsOff mode := by
  intro rest h
  have hend : Ends joint.operand rest := h
  have hinner := ih.complete hend
  change readOff mode (.joined joint) (inner.tokens ++ rest) = _
  rw [readOff_joined, hinner, Tree.value]
  cases inner.value mode numberOf <;> rfl

/-- The left part is read by the same level, so what is joined to it is joined from the left. -/
theorem join {joint : Joint} {op : Operator} {operation : BinaryOp}
    {known : joint.operation? op = some operation} {left : Tree (List Char) (.joined joint)}
    {right : Tree (List Char) joint.operand} (ihl : left.ReadsOff mode) (ihr : right.ReadsOff mode) :
    (Tree.join known left right).ReadsOff mode := by
  intro rest h
  -- the operator ends the left operand, and goes on with the level
  have hop : joint.operand.rank < op.rank := by
    rw [rank_of_operation? known]
    exact Level.rank_operand_lt joint
  have hleft := ihl _ (ends_operator hop (right.tokens ++ rest))
  have hend : Ends joint.operand rest := h
  have hright := ihr.complete hend
  change readOff mode (.joined joint) ((left.tokens ++ (.operator op :: right.tokens)) ++ rest) = _
  rw [List.append_assoc]
  change readOff mode (.joined joint) (left.tokens ++ .operator op :: (right.tokens ++ rest)) = _
  rw [hleft, Tree.value]
  cases left.value mode numberOf with
  | error e => rfl
  | ok a =>
    change joinOff mode joint a (.operator op :: (right.tokens ++ rest)) = _
    rw [joinOff_operator known, hright]
    cases right.value mode numberOf <;> rfl

theorem sum {inner : Tree (List Char) (.joined .sum)} (ih : inner.ReadsOff mode) :
    (Tree.sum inner).ReadsOff mode := by
  intro rest h
  have hend : Ends (.joined .sum) rest := h.mono (by decide)
  have hinner := ih.complete hend
  change readOff mode .comparison (inner.tokens ++ rest) = _
  rw [readOff_comparison, hinner, Tree.value]
  cases inner.value mode numberOf with
  | error e => rfl
  | ok v =>
    rcases rest with _ | ⟨_ | op, after⟩
    · rfl
    · rfl
    · -- what follows is no comparison, or the level would go on
      change (match op.comparison? with | none => _ | some comparison => _) = _
      rw [Ends.comparison?_eq_none h]
      rfl

/-- A comparison of two sums. -/
theorem compare {op : Operator} {comparison : Comparison} {known : op.comparison? = some comparison}
    {left right : Tree (List Char) (.joined .sum)} (ihl : left.ReadsOff mode)
    (ihr : right.ReadsOff mode) : (Tree.compare known left right).ReadsOff mode := by
  intro rest h
  -- the left sum ends before the comparison, the right one before what follows
  have hop : (Level.joined .sum).rank < op.rank := by
    rw [rank_of_comparison? known]
    decide
  have hleft := ihl.complete (ends_operator hop (right.tokens ++ rest))
  have hend : Ends (.joined .sum) rest := h.mono (by decide)
  have hright := ihr.complete hend
  change readOff mode .comparison ((left.tokens ++ (.operator op :: right.tokens)) ++ rest) = _
  rw [List.append_assoc]
  change readOff mode .comparison (left.tokens ++ .operator op :: (right.tokens ++ rest)) = _
  rw [readOff_comparison, hleft, Tree.value]
  cases left.value mode numberOf with
  | error e => rfl
  | ok a =>
    change (match op.comparison? with | none => _ | some comparison => _) = _
    rw [known]
    change (readOff mode (.joined .sum) (right.tokens ++ rest) >>= _) = _
    rw [hright]
    cases right.value mode numberOf with
    | error e => rfl
    | ok b =>
      change (comparison.apply a b).map (·, rest) = comparison.apply a b >>= _
      cases comparison.apply a b <;> rfl

theorem plain {inner : Tree (List Char) .comparison} (ih : inner.ReadsOff mode) :
    (Tree.plain inner).ReadsOff mode := by
  intro rest h
  have hinner := ih rest (h.mono (by decide))
  change readOff mode .negation (inner.tokens ++ rest) = _
  rw [readOff_plain]
  · exact hinner
  · exact inner.tokens_append_ne (fun h : 5 ≤ 4 => absurd h (by decide)) rest

theorem not {inner : Tree (List Char) .negation} (ih : inner.ReadsOff mode) :
    (Tree.not inner).ReadsOff mode := by
  intro rest h
  have hinner := ih rest h
  change readOff mode .negation (.operator .not :: (inner.tokens ++ rest)) = _
  rw [readOff_not, hinner, Tree.value]
  cases inner.value mode numberOf <;> rfl

end Tree.ReadsOff

/-- Every tree is read off as it is spelled. -/
theorem Tree.readsOff {level : Level} (tree : Tree (List Char) level) : tree.ReadsOff mode := by
  induction tree with
  | operand text => exact fun rest _ => readOff_number text rest
  | group inner ih => exact .group ih
  | unsigned inner ih => exact .unsigned ih
  | sign negative inner ih => exact .sign ih
  | single inner ih => exact .single ih
  | join known left right ihl ihr => exact .join ihl ihr
  | sum inner ih => exact .sum ih
  | compare known left right ihl ihr => exact .compare ihl ihr
  | plain inner ih => exact .plain ih
  | not inner ih => exact .not ih

/-! ## What is read off is a tree -/

/-- Reading takes a token at least, which makes the recursion end. -/
theorem length_lt_of_readOff {level : Level} {tokens rest : List Token} {v : Value}
    (h : readOff mode level tokens = .ok (v, rest)) : rest.length < tokens.length := by
  rw [readOff] at h
  rcases hr : read mode level tokens with e | r
  · rw [hr] at h
    cases h
  · rw [hr] at h
    cases h
    exact r.short

/-- A step that succeeds has a first part that succeeds, and the second part goes on from there. -/
theorem bind_eq_ok {α β : Type} {x : Except ExprError α} {f : α → Except ExprError β} {b : β}
    (h : x >>= f = .ok b) : ∃ a, x = .ok a ∧ f a = .ok b := by
  cases x with
  | error e => cases h
  | ok a => exact ⟨a, rfl, h⟩

theorem map_eq_ok {α β : Type} {x : Except ExprError α} {f : α → β} {b : β}
    (h : x.map f = .ok b) : ∃ a, x = .ok a ∧ f a = b := by
  cases x with
  | error e => cases h
  | ok a =>
    cases h
    exact ⟨a, rfl, rfl⟩

mutual

/-- What is read off is the spelling of a tree with the value that was read. -/
theorem exists_tree_of_readOff {level : Level} {tokens rest : List Token} {v : Value}
    (h : readOff mode level tokens = .ok (v, rest)) :
    ∃ tree : Tree (List Char) level,
      tree.tokens ++ rest = tokens ∧ tree.value mode numberOf = .ok v := by
  match level, tokens with
  | .atom, [] =>
    rw [readOff, read] at h
    cases h
  | .atom, .number text :: after =>
    rw [readOff_number] at h
    cases h
    exact ⟨.operand text, rfl, rfl⟩
  | .atom, .operator op :: after =>
    by_cases hop : op = .opening
    · subst hop
      rw [readOff_opening] at h
      obtain ⟨⟨w, more⟩, hw, hmore⟩ := bind_eq_ok h
      obtain ⟨inner, htokens, hvalue⟩ := exists_tree_of_readOff hw
      split at hmore
      · next heq =>
        cases heq
        cases hmore
        refine ⟨.group inner, ?_, hvalue⟩
        rw [← htokens]
        change (.operator .opening :: (inner.tokens ++ [.operator .closing])) ++ rest = _
        simp
      · cases hmore
    · rw [readOff, read] at h
      · cases h
      · exact hop
  | .signed, tokens =>
    by_cases hsign : ∃ negative after, tokens = .operator (signOperator negative) :: after
    · obtain ⟨negative, after, rfl⟩ := hsign
      rw [readOff_sign] at h
      obtain ⟨⟨w, more⟩, hw, hmore⟩ := bind_eq_ok h
      obtain ⟨inner, htokens, hvalue⟩ := exists_tree_of_readOff hw
      cases w with
      | truth b => cases hmore
      | number x =>
        cases hmore
        refine ⟨.sign negative inner, congrArg _ htokens, ?_⟩
        exact Tree.value_sign_eq_ok_iff.2 ⟨x, hvalue, rfl⟩
    · rw [readOff_unsigned fun negative after heq => hsign ⟨negative, after, heq⟩] at h
      obtain ⟨inner, htokens, hvalue⟩ := exists_tree_of_readOff h
      exact ⟨.unsigned inner, htokens, hvalue⟩
  | .joined joint, tokens =>
    rw [readOff_joined] at h
    obtain ⟨⟨w, more⟩, hw, hmore⟩ := bind_eq_ok h
    have hlt := length_lt_of_readOff hw
    -- the tree grows to the right from the first operand
    obtain ⟨inner, htokens, hvalue⟩ := exists_tree_of_readOff hw
    obtain ⟨tree, htree, hv⟩ := exists_tree_of_joinOff hmore (.single inner) hvalue
    exact ⟨tree, htree.trans htokens, hv⟩
  | .comparison, tokens =>
    rw [readOff_comparison] at h
    obtain ⟨⟨w, more⟩, hw, hmore⟩ := bind_eq_ok h
    have hlt := length_lt_of_readOff hw
    obtain ⟨left, htokens, hvalue⟩ := exists_tree_of_readOff hw
    rcases more with _ | ⟨_ | op, after⟩
    · cases hmore
      exact ⟨.sum left, htokens, hvalue⟩
    · cases hmore
      exact ⟨.sum left, htokens, hvalue⟩
    · dsimp only at hmore
      cases known : op.comparison? with
      | none =>
        rw [known] at hmore
        cases hmore
        exact ⟨.sum left, htokens, hvalue⟩
      | some comparison =>
        rw [known] at hmore
        obtain ⟨⟨u, last⟩, hu, hlast⟩ := bind_eq_ok hmore
        obtain ⟨right, htokens', hvalue'⟩ := exists_tree_of_readOff hu
        obtain ⟨b, hb, heq⟩ := map_eq_ok hlast
        cases heq
        refine ⟨.compare known left right, ?_,
          Tree.value_compare_eq_ok_iff.2 ⟨w, u, hvalue, hvalue', hb⟩⟩
        rw [← htokens, ← htokens']
        change (left.tokens ++ (.operator op :: right.tokens)) ++ last = _
        simp
  | .negation, tokens =>
    by_cases hnot : ∃ after, tokens = .operator .not :: after
    · obtain ⟨after, rfl⟩ := hnot
      rw [readOff_not] at h
      obtain ⟨⟨w, more⟩, hw, hmore⟩ := bind_eq_ok h
      obtain ⟨inner, htokens, hvalue⟩ := exists_tree_of_readOff hw
      cases hmore
      exact ⟨.not inner, congrArg _ htokens, Tree.value_not_eq_ok_iff.2 ⟨w, hvalue, rfl⟩⟩
    · rw [readOff_plain fun after heq => hnot ⟨after, heq⟩] at h
      obtain ⟨inner, htokens, hvalue⟩ := exists_tree_of_readOff h
      exact ⟨.plain inner, htokens, hvalue⟩
termination_by (tokens.length, level.rank)
decreasing_by
  all_goals subst_vars
  all_goals first
    | exact Prod.Lex.right _ (Level.rank_operand_lt joint)
    | exact Prod.Lex.right _ (by decide)
    | exact Prod.Lex.left _ _ (by simp only [List.length_cons] at *; omega)

/-- What is joined to the spelling of a first operand makes the spelling of a tree. -/
theorem exists_tree_of_joinOff {joint : Joint} {tokens rest : List Token} {a v : Value}
    (h : joinOff mode joint a tokens = .ok (v, rest)) (left : Tree (List Char) (.joined joint))
    (hleft : left.value mode numberOf = .ok a) :
    ∃ tree : Tree (List Char) (.joined joint),
      tree.tokens ++ rest = left.tokens ++ tokens ∧ tree.value mode numberOf = .ok v := by
  -- Unless the next token is an operator of this level, nothing is joined; after an operator the rest
  -- is shorter, and the reader goes on with the joined value.
  match tokens with
  | [] => 
    rw [joinOff_eq_ok (by simp)] at h
    cases h
    exact ⟨left, rfl, hleft⟩
  | .number text :: after =>
    rw [joinOff_eq_ok (by simp)] at h
    cases h
    exact ⟨left, rfl, hleft⟩
  | .operator op :: after =>
    cases known : joint.operation? op with
    | none =>
      rw [joinOff_eq_ok (by rintro _ _ ⟨⟩; exact known)] at h
      cases h
      exact ⟨left, rfl, hleft⟩
    | some operation =>
      rw [joinOff_operator known] at h
      obtain ⟨⟨b, more⟩, hb, hmore⟩ := bind_eq_ok h
      obtain ⟨c, hc, hlast⟩ := bind_eq_ok hmore
      have hlt := length_lt_of_readOff hb
      obtain ⟨right, htokens, hvalue⟩ := exists_tree_of_readOff hb
      obtain ⟨tree, htree, hv⟩ := exists_tree_of_joinOff hlast (.join known left right)
        (Tree.value_join_eq_ok_iff.2 ⟨a, b, hleft, hvalue, hc⟩)
      refine ⟨tree, ?_, hv⟩
      rw [htree, ← htokens]
      change (left.tokens ++ (.operator op :: right.tokens)) ++ more = _
      simp
termination_by (tokens.length, 0)
decreasing_by
  all_goals exact Prod.Lex.left _ _ (by simp only [List.length_cons] at *; omega)

end

/-! ## Whole token sequences -/

theorem evaluateTokens_eq {tokens : List Token} (h : tokens ≠ []) :
    evaluateTokens mode tokens =
      readOff mode .loosest tokens >>= fun
        | (v, []) => .ok v
        | (_, token :: _) => .error (.unexpectedToken (String.ofList token.text)) := by
  rw [evaluateTokens, if_neg (by simpa using h), readOff]
  rcases read mode .loosest tokens with e | ⟨v, _ | ⟨token, rest⟩, short⟩ <;> rfl

/-- The tokens of a tree evaluate to the value of the tree. -/
theorem evaluateTokens_tokens (tree : Tree (List Char) .loosest) :
    evaluateTokens mode tree.tokens = tree.value mode numberOf := by
  have hend : Ends .loosest [] := ends_nil _
  have hread : readOff mode .loosest (tree.tokens ++ []) = _ := tree.readsOff.complete hend
  rw [List.append_nil] at hread
  rw [evaluateTokens_eq, hread]
  · cases tree.value mode numberOf <;> rfl
  · obtain ⟨head, tail, heq, -⟩ := tree.tokens_eq_cons
    rw [heq]
    exact List.cons_ne_nil _ _

/-- Tokens that have a value are the tokens of a tree with that value. -/
theorem exists_tree_of_evaluateTokens {tokens : List Token} {v : Value}
    (h : evaluateTokens mode tokens = .ok v) :
    ∃ tree : Tree (List Char) .loosest,
      tree.tokens = tokens ∧ tree.value mode numberOf = .ok v := by
  by_cases hne : tokens = []
  · subst hne
    cases h
  · rw [evaluateTokens_eq hne] at h
    obtain ⟨⟨w, rest⟩, hread, hrest⟩ := bind_eq_ok h
    obtain ⟨tree, htokens, hvalue⟩ := exists_tree_of_readOff hread
    cases rest with
    | nil =>
      cases hrest
      exact ⟨tree, (List.append_nil _).symm.trans htokens, hvalue⟩
    | cons token rest => cases hrest

/-! ## Texts -/

/-- A text with the tokens of a tree evaluates to the value of the tree. -/
theorem evaluateText_of_tokenize {text : List Char} {tree : Tree (List Char) .loosest}
    (h : tokenize text = .ok tree.tokens) : evaluateText mode text = tree.value mode numberOf := by
  rw [evaluateText, h]
  exact evaluateTokens_tokens tree

/-- A text that has a value has the tokens of a tree with that value. -/
theorem exists_tree_of_evaluateText {text : List Char} {v : Value}
    (h : evaluateText mode text = .ok v) :
    ∃ tree : Tree (List Char) .loosest,
      tokenize text = .ok tree.tokens ∧ tree.value mode numberOf = .ok v := by
  rw [evaluateText] at h
  obtain ⟨tokens, htokens, hv⟩ := bind_eq_ok h
  obtain ⟨tree, rfl, hvalue⟩ := exists_tree_of_evaluateTokens hv
  exact ⟨tree, htokens, hvalue⟩

end EventDeck.Expr
