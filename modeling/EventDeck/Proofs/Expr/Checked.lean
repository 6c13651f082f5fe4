import EventDeck.Expr.Check
import EventDeck.Proofs.Expr.Division
import EventDeck.Proofs.Expr.Probe

/-!
# Accepted texts

What a check knows about a text that it accepts: with zeros in the place of names and random calls
it has the tokens of a tree, and so have the bounds of its random calls (`checkExpression_eq_ok_iff`).
What the check does not look at is whether every piece fits where it is glued and whether the tree
has a kind; a text for which both are true is `Sturdy`.
-/

namespace EventDeck.Expr

open Text Decimal

/-! ## Sturdy texts -/

/-- The atoms of a text. -/
def pieces (text : List Char) : List Atom :=
  atoms (cells text)

/-- The atoms of the lower bound of a random call; a bound holds no calls of its own. -/
def CellCall.lowPieces (call : CellCall) : List Atom :=
  call.low.map Cell.atom

/-- The atoms of the upper bound of a random call. -/
def CellCall.highPieces (call : CellCall) : List Atom :=
  call.high.map Cell.atom

/-- The words for names in an atom. -/
def Atom.words : Atom → List (List Char)
  | .char _ => []
  | .name word => [word]
  | .call bounds => (bounds.lowPieces ++ bounds.highPieces).filterMap fun
    | .name word => some word
    | _ => none

/-- The characters of a cell that stay when names are replaced. -/
def Cell.chars : Cell → List Char
  | .char c => [c]
  | .name _ => []

/-- The characters of an atom that stay when names and random calls are replaced, in its bounds
too. -/
def Atom.chars : Atom → List Char
  | .char c => [c]
  | .name _ => []
  | .call bounds => (bounds.low ++ bounds.high).flatMap Cell.chars

/-- Every piece fits where it is glued. -/
def Fits (atoms : List Atom) : Prop :=
  ∃ landing, (Spot.plain .start).walk atoms = some landing

/-- With zeros in the place of names and random calls, there is a tree of a kind. -/
def Typed (wanted : Kind → Prop) (atoms : List Atom) : Prop :=
  ∃ (tree : Tree (List Char) .loosest) (kind : Kind),
    tokenize (atoms.map Atom.face) = .ok tree.tokens ∧ tree.kind? = some kind ∧ wanted kind

/-- With zeros in the place of names and random calls, there is a tree. -/
def Readable (atoms : List Atom) : Prop :=
  ∃ tree : Tree (List Char) .loosest, tokenize (atoms.map Atom.face) = .ok tree.tokens

/-- Every piece of a text fits, the text has a wanted kind, and the bounds of its random calls are
numbers of which the same holds. -/
structure Sturdy (wanted : Kind → Prop) (text : List Char) : Prop where
  fits : Fits (pieces text)
  typed : Typed wanted (pieces text)
  low : ∀ call, .call call ∈ pieces text →
    Fits call.lowPieces ∧ Typed (· = .number) call.lowPieces
  high : ∀ call, .call call ∈ pieces text →
    Fits call.highPieces ∧ Typed (· = .number) call.highPieces

/-- What a check that accepts a text has seen: with zeros in place, the text has a value, and the
bounds of its random calls are numbers. -/
structure Accepted (text : List Char) : Prop where
  body : ∃ v, evaluateText .checking ((pieces text).map Atom.face) = .ok v
  low : ∀ call, .call call ∈ pieces text →
    ∃ x, evaluateText .checking (call.lowPieces.map Atom.face) = .ok (.number x)
  high : ∀ call, .call call ∈ pieces text →
    ∃ x, evaluateText .checking (call.highPieces.map Atom.face) = .ok (.number x)

theorem Typed.mono {wanted wanted' : Kind → Prop} {atoms : List Atom} (h : Typed wanted atoms)
    (himp : ∀ kind, wanted kind → wanted' kind) : Typed wanted' atoms := by
  obtain ⟨tree, kind, htokens, hkind, hwanted⟩ := h
  exact ⟨tree, kind, htokens, hkind, himp kind hwanted⟩

theorem Sturdy.mono {wanted wanted' : Kind → Prop} {text : List Char} (h : Sturdy wanted text)
    (himp : ∀ kind, wanted kind → wanted' kind) : Sturdy wanted' text :=
  ⟨h.fits, h.typed.mono himp, h.low, h.high⟩

/-! ## Replaced names -/

/-- Cells with numbers are pasted for their atoms. -/
theorem pasted_render (names : List Char → List Char) (cells : List Cell) :
    Pasted names (cells.map Cell.atom) (render names cells) := by
  induction cells with
  | nil => exact .nil
  | cons cell cells ih =>
    cases cell with
    | char c => exact .char c ih
    | name word => exact .name word ih

theorem WritesNumbers.numeric {names : List Char → List Char} (h : WritesNumbers names) :
    Numeric names := by
  intro word
  obtain ⟨negative, body, hword, hbody⟩ := h word
  have hnumber := hbody.isNumber
  rw [hword]
  cases negative with
  | false => exact ⟨hnumber.ne_nil, hnumber.isNumberChar⟩
  | true =>
    refine ⟨by simp [signed], fun c hc => ?_⟩
    rcases List.mem_cons.1 hc with rfl | hc
    · exact .inr (.inr (.inr (.inr (.inr rfl))))
    · exact hnumber.isNumberChar c hc

/-! ## Checks -/

/-- What has a value has the tokens of a tree. -/
theorem readable_of_evaluateText {mode : Mode} {atoms : List Atom} {v : Value}
    (h : evaluateText mode (atoms.map Atom.face) = .ok v) : Readable atoms := by
  obtain ⟨tree, htokens, -⟩ := exists_tree_of_evaluateText h
  exact ⟨tree, htokens⟩

theorem Accepted.readable {text : List Char} (h : Accepted text) : Readable (pieces text) := by
  obtain ⟨v, hv⟩ := h.body
  exact readable_of_evaluateText hv

theorem evaluateNumber_eq_ok_iff {mode : Mode} {text : List Char} {x : Float} :
    evaluateNumber mode text = .ok x ↔ evaluateText mode text = .ok (.number x) := by
  rw [evaluateNumber]
  constructor
  · intro h
    obtain ⟨v, hv, hx⟩ := bind_eq_ok h
    cases v with
    | number y =>
      cases hx
      exact hv
    | truth b => cases hx
  · intro h
    rw [h]
    rfl

section Runs

variable {names : List Char → List Char} {atoms : List Atom} {text : List Char}

/-- Where there are no random calls, they make no difference. -/
theorem Spot.indifferent_of_not_mem {atoms : List Atom} (h : ∀ call, .call call ∉ atoms)
    (spot : Spot) : spot.Indifferent atoms := by
  induction atoms generalizing spot with
  | nil => trivial
  | cons atom atoms ih =>
    refine ⟨fun call heq => absurd (heq ▸ List.mem_cons_self) (h call), fun next _ => ?_⟩
    exact ih (fun call hmem => h call (List.mem_cons_of_mem _ hmem)) next

end Runs

end EventDeck.Expr
