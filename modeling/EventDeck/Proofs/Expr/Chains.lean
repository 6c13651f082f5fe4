import EventDeck.Proofs.Expr.Kinds

/-!
# Numbers that become differences

A number that is put together from pieces of a text may turn out to be several numbers with minuses
between them: `5` followed by a random number that is `-3` reads `5-3`.  Such a *chain* in the place
of a number moves the products around it, and yet the tokens are those of a tree of the same kind
(`Expands.spells`), because sums that are multiplied, added or negated piece by piece are sums
again.
-/

namespace EventDeck.Expr

/-! ## Chains -/

/-- A number and what is subtracted from it. -/
inductive Difference : List Token → Prop
  | number (text : List Char) : Difference [.number text]
  | minus (text : List Char) {rest : List Token} (h : Difference rest) :
      Difference (.number text :: .operator .minus :: rest)

/-- What a number may become: a difference, perhaps with a minus before it. -/
inductive Chain : List Token → Prop
  | plain {tokens : List Token} (h : Difference tokens) : Chain tokens
  | negative {tokens : List Token} (h : Difference tokens) : Chain (.operator .minus :: tokens)

/-- Tokens with chains in the place of numbers. -/
inductive Expands : List Token → List Token → Prop
  | nil : Expands [] []
  | operator (op : Operator) {tokens expanded : List Token} (h : Expands tokens expanded) :
      Expands (.operator op :: tokens) (.operator op :: expanded)
  | number (text : List Char) {chain tokens expanded : List Token} (hchain : Chain chain)
      (h : Expands tokens expanded) : Expands (.number text :: tokens) (chain ++ expanded)

theorem Expands.split {first rest expanded : List Token} (h : Expands (first ++ rest) expanded) :
    ∃ u v, expanded = u ++ v ∧ Expands first u ∧ Expands rest v := by
  induction first generalizing expanded with
  | nil => exact ⟨[], expanded, rfl, .nil, h⟩
  | cons token first ih =>
    cases h with
    | operator op h =>
      obtain ⟨u, v, rfl, hu, hv⟩ := ih h
      exact ⟨.operator op :: u, v, rfl, .operator op hu, hv⟩
    | number text hchain h =>
      obtain ⟨u, v, rfl, hu, hv⟩ := ih h
      exact ⟨_ ++ u, v, by rw [List.append_assoc], .number text hchain hu, hv⟩

theorem Expands.of_operator {op : Operator} {tokens expanded : List Token}
    (h : Expands (.operator op :: tokens) expanded) :
    ∃ rest, expanded = .operator op :: rest ∧ Expands tokens rest := by
  cases h with
  | operator op h => exact ⟨_, rfl, h⟩

/-! ## Sums and products -/

/-- Tokens of a tree of a level and a kind. -/
def Spells (level : Level) (kind : Option Kind) (tokens : List Token) : Prop :=
  ∃ tree : Tree (List Char) level, tree.tokens = tokens ∧ tree.kind? = kind

variable {a b : Option Kind} {op : Operator} {operation : BinaryOp}

@[simp] theorem arithmetic?_assoc (a b c : Option Kind) :
    arithmetic? (arithmetic? a b) c = arithmetic? a (arithmetic? b c) := by
  rcases a with _ | _ | _ <;> rcases b with _ | _ | _ <;> rcases c with _ | _ | _ <;> rfl

/-- On sums and products every operation is arithmetic. -/
theorem kind?_of_operation? {joint : Joint} (hjoint : joint = .sum ∨ joint = .product)
    (known : joint.operation? op = some operation) (a b : Option Kind) :
    operation.kind? a b = arithmetic? a b := by
  rcases hjoint with rfl | rfl <;> cases op <;> first | cases known; rfl | cases known

theorem tokens_join {joint : Joint} (known : joint.operation? op = some operation)
    (left : Tree (List Char) (.joined joint)) (right : Tree (List Char) joint.operand) :
    (Tree.join known left right).tokens = left.tokens ++ .operator op :: right.tokens := rfl

theorem kind?_join {joint : Joint} (hjoint : joint = .sum ∨ joint = .product)
    (known : joint.operation? op = some operation)
    (left : Tree (List Char) (.joined joint)) (right : Tree (List Char) joint.operand) :
    (Tree.join known left right).kind? = arithmetic? left.kind? right.kind? :=
  kind?_of_operation? hjoint known _ _

/-- Tokens before a sum or a product stay before it when an operand is joined to it. -/
theorem Spells.join {joint : Joint} (hjoint : joint = .sum ∨ joint = .product)
    (known : joint.operation? op = some operation) {front : Tree (List Char) (.joined joint)}
    (last : Tree (List Char) joint.operand) {before : List Token}
    (h : Spells (.joined joint) (arithmetic? a front.kind?) (before ++ front.tokens)) :
    Spells (.joined joint) (arithmetic? a (Tree.join known front last).kind?)
      (before ++ (Tree.join known front last).tokens) := by
  obtain ⟨tree, htokens, hkind⟩ := h
  refine ⟨.join known tree last, ?_, ?_⟩
  · rw [tokens_join, tokens_join, htokens, List.append_assoc]
  · rw [kind?_join hjoint, kind?_join hjoint, hkind, arithmetic?_assoc]

/-- A sum of sums is a sum, and a product of products is a product. -/
theorem spells_join {joint : Joint} (hjoint : joint = .sum ∨ joint = .product)
    (known : joint.operation? op = some operation) (left : Tree (List Char) (.joined joint)) :
    (right : Tree (List Char) (.joined joint)) →
    Spells (.joined joint) (arithmetic? left.kind? right.kind?)
      (left.tokens ++ .operator op :: right.tokens)
  | .single last => ⟨.join known left last, rfl, kind?_join hjoint known _ _⟩
  | .join known' front last => by
    have h := spells_join hjoint known left front
    rw [List.append_cons] at h ⊢
    exact h.join hjoint known' last

/-- The last product of a sum takes more factors. -/
theorem sum_mul_product (known : Joint.operation? .product op = some operation)
    (right : Tree (List Char) (.joined .product)) : (left : Tree (List Char) (.joined .sum)) →
    Spells (.joined .sum) (arithmetic? left.kind? right.kind?)
      (left.tokens ++ .operator op :: right.tokens)
  | .single last => by
    obtain ⟨tree, htokens, hkind⟩ := spells_join (.inr rfl) known last right
    exact ⟨.single tree, htokens, hkind⟩
  | .join known' front last => by
    obtain ⟨tree, htokens, hkind⟩ : Spells (Joint.operand .sum)
        (arithmetic? last.kind? right.kind?) (last.tokens ++ .operator op :: right.tokens) :=
      spells_join (.inr rfl) known last right
    refine ⟨.join known' front tree, ?_, ?_⟩
    · rw [tokens_join, tokens_join, htokens, List.append_assoc]
      rfl
    · rw [kind?_join (.inl rfl), kind?_join (.inl rfl), hkind, arithmetic?_assoc]

/-- What looks like a sum times a sum is a sum: the product is that of the last and the first
summand. -/
theorem sum_mul (known : Joint.operation? .product op = some operation)
    (left : Tree (List Char) (.joined .sum)) : (right : Tree (List Char) (.joined .sum)) →
    Spells (.joined .sum) (arithmetic? left.kind? right.kind?)
      (left.tokens ++ .operator op :: right.tokens)
  | .single last => sum_mul_product known last left
  | .join known' front last => by
    have h := sum_mul known left front
    rw [List.append_cons] at h ⊢
    exact h.join (.inl rfl) known' last

/-- A sign before a product is a sign of its first factor. -/
theorem product_sign (negative : Bool) : (inner : Tree (List Char) (.joined .product)) →
    Spells (.joined .product) (arithmetic? (some .number) inner.kind?)
      ([.operator (signOperator negative)] ++ inner.tokens)
  | .single factor => ⟨.single (.sign negative factor), rfl, rfl⟩
  | .join known front last => (product_sign negative front).join (.inr rfl) known last

/-- A sign before a sum is a sign of its first summand. -/
theorem sum_sign (negative : Bool) : (inner : Tree (List Char) (.joined .sum)) →
    Spells (.joined .sum) (arithmetic? (some .number) inner.kind?)
      ([.operator (signOperator negative)] ++ inner.tokens)
  | .single product => by
    obtain ⟨tree, htokens, hkind⟩ := product_sign negative product
    exact ⟨.single tree, htokens, hkind⟩
  | .join known front last => (sum_sign negative front).join (.inl rfl) known last

/-! ## Trees with chains -/

/-- An atom as a sum. -/
def Tree.summand (inner : Tree (List Char) .atom) : Tree (List Char) (.joined .sum) :=
  @Tree.single _ .sum (@Tree.single _ .product (.unsigned inner))

theorem Difference.spells {tokens : List Token} (h : Difference tokens) :
    Spells (.joined .sum) (some .number) tokens := by
  induction h with
  | number text => exact ⟨Tree.summand (.operand text), rfl, rfl⟩
  | minus text _ ih =>
    obtain ⟨rest, htokens, hkind⟩ := ih
    obtain ⟨tree, htree, htreeKind⟩ :=
      spells_join (.inl rfl) Joint.minus_known (Tree.summand (.operand text)) rest
    refine ⟨tree, ?_, ?_⟩
    · rw [htree, htokens]
      rfl
    · rw [htreeKind, hkind]
      rfl

theorem Chain.spells {tokens : List Token} (h : Chain tokens) :
    Spells (.joined .sum) (some .number) tokens := by
  cases h with
  | plain h => exact h.spells
  | negative h =>
    obtain ⟨inner, htokens, hkind⟩ := h.spells
    obtain ⟨tree, htree, htreeKind⟩ := sum_sign true inner
    refine ⟨tree, ?_, ?_⟩
    · rw [htree, htokens]
      rfl
    · rw [htreeKind, hkind]
      rfl

/-- The level of a tree with chains in the place of its numbers: what is tighter than a sum may
become a sum. -/
def Level.widened : Level → Level
  | joined .product | signed | atom => joined .sum
  | level => level

/-- The tokens of a tree with chains in the place of its numbers are those of a tree of the same
kind. -/
theorem Expands.spells {level : Level} {tree : Tree (List Char) level} {expanded : List Token}
    (h : Expands tree.tokens expanded) : Spells level.widened tree.kind? expanded := by
  induction tree generalizing expanded with
  | operand text =>
    -- a chain is a sum, whatever the level of the number was
    cases h with
    | number _ hchain h =>
      cases h
      rw [List.append_nil]
      exact hchain.spells
  | group inner ih =>
    obtain ⟨rest, rfl, hrest⟩ := h.of_operator
    change Expands (inner.tokens ++ [.operator .closing]) rest at hrest
    obtain ⟨u, v, rfl, hinner, hclosing⟩ := hrest.split
    obtain ⟨w, rfl, hnil⟩ := hclosing.of_operator
    cases hnil
    obtain ⟨tree, rfl, hkind⟩ := ih hinner
    exact ⟨Tree.summand (.group tree), rfl, hkind⟩
  | unsigned inner ih => exact ih h
  | sign negative inner ih =>
    obtain ⟨rest, rfl, hrest⟩ := h.of_operator
    obtain ⟨tree, rfl, hkind⟩ := ih hrest
    rw [Tree.kind?, ← hkind]
    exact sum_sign negative tree
  | @single joint inner ih =>
    have ih := ih h
    cases joint with
    | sum | product => exact ih
    | disjunction | conjunction =>
      obtain ⟨tree, htokens, hkind⟩ := ih
      exact ⟨.single tree, htokens, hkind⟩
  | @join joint op operation known left right ihl ihr =>
    obtain ⟨u, v, rfl, hleft, hrest⟩ := h.split
    obtain ⟨w, rfl, hright⟩ := hrest.of_operator
    obtain ⟨l, rfl, hl⟩ := ihl hleft
    obtain ⟨r, rfl, hr⟩ := ihr hright
    cases joint with
    | sum =>
      rw [kind?_join (.inl rfl), ← hl, ← hr]
      exact spells_join (.inl rfl) known l r
    | product =>
      -- the factors may be sums now, so the product moves to their ends
      rw [kind?_join (.inr rfl), ← hl, ← hr]
      exact sum_mul known l r
    | disjunction | conjunction =>
      refine ⟨.join known l r, rfl, ?_⟩
      change operation.kind? l.kind? r.kind? = operation.kind? left.kind? right.kind?
      rw [hl, hr]
  | sum inner ih =>
    obtain ⟨tree, htokens, hkind⟩ := ih h
    exact ⟨.sum tree, htokens, hkind⟩
  | compare known left right ihl ihr =>
    obtain ⟨u, v, rfl, hleft, hrest⟩ := h.split
    obtain ⟨w, rfl, hright⟩ := hrest.of_operator
    obtain ⟨l, rfl, hl⟩ := ihl hleft
    obtain ⟨r, rfl, hr⟩ := ihr hright
    refine ⟨.compare known l r, rfl, ?_⟩
    change (arithmetic? l.kind? r.kind?).map _ = (arithmetic? left.kind? right.kind?).map _
    rw [hl, hr]
  | plain inner ih =>
    obtain ⟨tree, htokens, hkind⟩ := ih h
    exact ⟨.plain tree, htokens, hkind⟩
  | not inner ih =>
    obtain ⟨rest, rfl, hrest⟩ := h.of_operator
    obtain ⟨tree, rfl, hkind⟩ := ih hrest
    refine ⟨.not tree, rfl, ?_⟩
    change tree.kind?.map _ = inner.kind?.map _
    rw [hkind]

end EventDeck.Expr
