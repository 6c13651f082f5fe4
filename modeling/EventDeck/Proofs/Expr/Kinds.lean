import EventDeck.Proofs.Expr.Tree

/-!
# Kinds of values

Whether an expression comes to a number or to a truth value does not depend on the numbers in it.
`Tree.kind?` computes the kind of a tree; a tree has none when a truth value stands where a number
is needed.

The main statements are `Tree.value_of_kind?`, that a tree with a kind has a value of that kind or
divides by zero, which a check lets pass, and `Tree.kind?_of_value`, that a tree without a kind has
no value.
-/

namespace EventDeck.Expr

/-- The sorts of values. -/
inductive Kind
  | number | truth
deriving DecidableEq, Repr

/-- The kind of a value. -/
def Value.kind : Value → Kind
  | number _ => .number
  | truth _ => .truth

/-- Arithmetic takes numbers and gives a number. -/
def arithmetic? (a b : Option Kind) : Option Kind :=
  if a = some .number ∧ b = some .number then some .number else none

/-- The kind of the value of an operation on values of two kinds. -/
def BinaryOp.kind? (operation : BinaryOp) (a b : Option Kind) : Option Kind :=
  match operation with
  | or | and => a.bind fun _ => b.map fun _ => .truth
  | plus | minus | times | divide => arithmetic? a b

/-- The kind of the value of a tree. -/
def Tree.kind? {α : Type} : {level : Level} → Tree α level → Option Kind
  | _, operand _ => some .number
  | _, group inner => inner.kind?
  | _, sign _ inner => arithmetic? (some .number) inner.kind?
  | _, @join _ _ _ operation _ left right => operation.kind? left.kind? right.kind?
  | _, compare _ left right => (arithmetic? left.kind? right.kind?).map fun _ => .truth
  | _, not inner => inner.kind?.map fun _ => .truth
  | _, unsigned inner => inner.kind?
  | _, single inner => inner.kind?
  | _, sum inner => inner.kind?
  | _, plain inner => inner.kind?

variable {α : Type} {level : Level} {mode : Mode} {number : α → Float}

theorem Value.eq_number {v : Value} (h : v.kind = .number) : ∃ x, v = .number x := by
  cases v with
  | number x => exact ⟨x, rfl⟩
  | truth b => cases h

theorem arithmetic?_eq_some_iff {a b : Option Kind} {k : Kind} :
    arithmetic? a b = some k ↔ a = some .number ∧ b = some .number ∧ k = .number := by
  unfold arithmetic?
  split
  next h => simp [h, eq_comm]
  next h =>
    constructor
    · intro hnone
      cases hnone
    · rintro ⟨ha, hb, -⟩
      exact absurd ⟨ha, hb⟩ h

theorem BinaryOp.kind?_eq_some {operation : BinaryOp} {a b : Option Kind} {k : Kind}
    (h : operation.kind? a b = some k) : ∃ x y, a = some x ∧ b = some y := by
  have harith : arithmetic? a b = some k → ∃ x y, a = some x ∧ b = some y := by
    intro hk
    obtain ⟨rfl, rfl, -⟩ := arithmetic?_eq_some_iff.1 hk
    exact ⟨_, _, rfl, rfl⟩
  cases operation with
  | or | and =>
    obtain ⟨x, rfl, hy⟩ := Option.bind_eq_some_iff.1 h
    obtain ⟨y, rfl, -⟩ := Option.map_eq_some_iff.1 hy
    exact ⟨x, y, rfl, rfl⟩
  | plus | minus | times | divide => exact harith h

/-! ## A kind promises a value -/

/-- An operation has a value of its kind, or divides by zero where that is not let pass. -/
theorem BinaryOp.apply_of_kind? {operation : BinaryOp} {a b : Value} {k : Kind}
    (h : operation.kind? (some a.kind) (some b.kind) = some k) :
    (∃ v, operation.apply mode a b = .ok v ∧ v.kind = k) ∨
      mode = .evaluating ∧ operation.apply mode a b = .error .divisionByZero := by
  have hnumbers : arithmetic? (some a.kind) (some b.kind) = some k →
      (∃ x, a = .number x) ∧ (∃ y, b = .number y) ∧ k = .number := by
    intro hk
    obtain ⟨ha, hb, rfl⟩ := arithmetic?_eq_some_iff.1 hk
    exact ⟨a.eq_number (Option.some.inj ha), b.eq_number (Option.some.inj hb), rfl⟩
  cases operation with
  | or | and =>
    cases h
    exact .inl ⟨_, rfl, rfl⟩
  | plus | minus | times =>
    obtain ⟨⟨x, rfl⟩, ⟨y, rfl⟩, rfl⟩ := hnumbers h
    exact .inl ⟨_, rfl, rfl⟩
  | divide =>
    obtain ⟨⟨x, rfl⟩, ⟨y, rfl⟩, rfl⟩ := hnumbers h
    -- Division is the one operation that may fail on numbers, and the check lets it pass.
    by_cases hzero : (y == 0) = true
    · cases mode with
      | evaluating =>
        refine .inr ⟨rfl, ?_⟩
        simp [apply, onNumbers, Value.toNumber, quotientOf, hzero, bind, Except.bind]
      | checking =>
        refine .inl ⟨.number 0.0, ?_, rfl⟩
        simp [apply, Value.toNumber, hzero, bind, Except.bind, pure, Except.pure]
    · have hok := onNumbers_eq_ok_iff.2
        ⟨x, y, x / y, rfl, rfl, quotientOf_eq_ok_iff.2 ⟨by simpa using hzero, rfl⟩, rfl⟩
      refine .inl ⟨.number (x / y), ?_, rfl⟩
      cases mode with
      | evaluating => exact hok
      | checking => simpa [apply, Value.toNumber, hzero, bind, Except.bind] using hok

/-- A tree with a kind has a value of that kind, or divides by zero where that is not let pass. -/
theorem Tree.value_of_kind? {tree : Tree α level} {k : Kind} (h : tree.kind? = some k) :
    (∃ v, tree.value mode number = .ok v ∧ v.kind = k) ∨
      mode = .evaluating ∧ tree.value mode number = .error .divisionByZero := by
  induction tree generalizing k with
  | operand a =>
    cases h
    exact .inl ⟨_, rfl, rfl⟩
  | group inner ih | unsigned inner ih | single inner ih | sum inner ih | plain inner ih =>
    exact ih h
  | sign negative inner ih =>
    obtain ⟨-, hinner, rfl⟩ := arithmetic?_eq_some_iff.1 h
    rw [value]
    rcases ih hinner with ⟨v, hv, hkind⟩ | ⟨hmode, hzero⟩
    · obtain ⟨x, rfl⟩ := v.eq_number hkind
      rw [hv]
      exact .inl ⟨_, rfl, rfl⟩
    · rw [hzero]
      exact .inr ⟨hmode, rfl⟩
  | not inner ih =>
    obtain ⟨a, ha, rfl⟩ := Option.map_eq_some_iff.1 h
    rw [value]
    rcases ih ha with ⟨v, hv, -⟩ | ⟨hmode, hzero⟩
    · rw [hv]
      exact .inl ⟨_, rfl, rfl⟩
    · rw [hzero]
      exact .inr ⟨hmode, rfl⟩
  | join known left right ihl ihr =>
    -- a division by zero on the left comes first
    obtain ⟨a, b, ha, hb⟩ := BinaryOp.kind?_eq_some h
    rw [kind?, ha, hb] at h
    rw [value]
    rcases ihl ha with ⟨v, hv, rfl⟩ | ⟨hmode, hzero⟩
    · rcases ihr hb with ⟨w, hw, rfl⟩ | ⟨hmode, hzero⟩
      · rw [hv, hw]
        exact BinaryOp.apply_of_kind? h
      · rw [hv, hzero]
        exact .inr ⟨hmode, rfl⟩
    · rw [hzero]
      exact .inr ⟨hmode, rfl⟩
  | compare known left right ihl ihr =>
    obtain ⟨_, harith, rfl⟩ := Option.map_eq_some_iff.1 h
    obtain ⟨ha, hb, -⟩ := arithmetic?_eq_some_iff.1 harith
    rw [value]
    rcases ihl ha with ⟨v, hv, hkind⟩ | ⟨hmode, hzero⟩
    · obtain ⟨x, rfl⟩ := v.eq_number hkind
      rcases ihr hb with ⟨w, hw, hkind⟩ | ⟨hmode, hzero⟩
      · obtain ⟨y, rfl⟩ := w.eq_number hkind
        rw [hv, hw]
        exact .inl ⟨_, rfl, rfl⟩
      · rw [hv, hzero]
        exact .inr ⟨hmode, rfl⟩
    · rw [hzero]
      exact .inr ⟨hmode, rfl⟩

/-! ## A value has a kind -/

theorem BinaryOp.kind?_of_apply {operation : BinaryOp} {a b v : Value}
    (h : operation.apply .evaluating a b = .ok v) :
    operation.kind? (some a.kind) (some b.kind) = some v.kind := by
  cases combines_iff.2 h <;> rfl

/-- A tree with a value has the kind of that value. -/
theorem Tree.kind?_of_value {tree : Tree α level} {v : Value}
    (h : tree.value .evaluating number = .ok v) : tree.kind? = some v.kind := by
  -- A value of a tree gives values of its parts; these are numbers where the rule wants numbers.
  induction tree generalizing v with
  | operand a =>
    cases h
    rfl
  | group inner ih | unsigned inner ih | single inner ih | sum inner ih | plain inner ih =>
    exact ih h
  | sign negative inner ih =>
    obtain ⟨x, hx, rfl⟩ := value_sign_eq_ok_iff.1 h
    rw [kind?, ih hx]
    rfl
  | not inner ih =>
    obtain ⟨a, ha, rfl⟩ := value_not_eq_ok_iff.1 h
    rw [kind?, ih ha]
    rfl
  | join known left right ihl ihr =>
    obtain ⟨a, b, ha, hb, hv⟩ := value_join_eq_ok_iff.1 h
    rw [kind?, ihl ha, ihr hb]
    exact BinaryOp.kind?_of_apply hv
  | compare known left right ihl ihr =>
    obtain ⟨a, b, ha, hb, hv⟩ := value_compare_eq_ok_iff.1 h
    obtain ⟨x, y, rfl, rfl, rfl⟩ := comparison_eq_ok_iff.1 hv
    rw [kind?, ihl ha, ihr hb]
    rfl

end EventDeck.Expr
