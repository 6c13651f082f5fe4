import EventDeck.Generator

/-!
# Shuffling

A list is shuffled from the front: each place in turn is exchanged with one of the places from it
to the end.  The places are given by offsets, the first below the length of the list, the next
below one less, and so on, so the order depends on the offsets alone.

The main statement is `arrange_perm`: a shuffle only reorders.
-/

namespace EventDeck

/-- Exchanges the front of a list with the element that is `offset` places behind it; the new front
and the rest. -/
def exchange {α : Type} (offset : Nat) (front : α) (rest : List α) : α × List α :=
  match offset with
  | 0 => (front, rest)
  | before + 1 =>
    match rest[before]? with
    | some chosen => (chosen, rest.set before front)
    | none => (front, rest)

/-- Reorders a list by offsets, one for each place. -/
def arrange {α : Type} : List Nat → List α → List α
  | offset :: offsets, front :: rest =>
    let (chosen, others) := exchange offset front rest
    chosen :: arrange offsets others
  | _, items => items

/-- Draws the offsets for a list of a length. -/
def drawOffsets : Nat → Generator → List Nat × Generator
  | 0, generator => ([], generator)
  | n + 1, generator =>
    let (offset, generator) := generator.below (n + 1)
    let (offsets, generator) := drawOffsets n generator
    (offset :: offsets, generator)

/-- Shuffles a list. -/
def shuffle {α : Type} (items : List α) (generator : Generator) : List α × Generator :=
  let (offsets, generator) := drawOffsets items.length generator
  (arrange offsets items, generator)

/-! ## A shuffle reorders -/

/-- Setting a place of a list and taking what stood there to the front reorders the list. -/
theorem set_perm {α : Type} (front : α) (rest : List α) (before : Nat) (h : before < rest.length) :
    (rest[before] :: rest.set before front).Perm (front :: rest) := by
  induction rest generalizing before with
  | nil => simp at h
  | cons r rs ih =>
    cases before with
    | zero => exact .swap ..
    | succ b =>
      have hb : b < rs.length := by simpa using h
      simp only [List.getElem_cons_succ, List.set_cons_succ]
      exact (List.Perm.swap ..).trans (((ih b hb).cons r).trans (.swap ..))

/-- An exchange reorders the list. -/
theorem exchange_perm {α : Type} (offset : Nat) (front : α) (rest : List α) :
    ((exchange offset front rest).1 :: (exchange offset front rest).2).Perm (front :: rest) := by
  unfold exchange
  split
  · exact .refl _
  · split
    · next h =>
      obtain ⟨hlt, rfl⟩ := List.getElem?_eq_some_iff.1 h
      exact set_perm _ _ _ hlt
    · exact .refl _

/-- Reordering by offsets keeps every element as often as it was there. -/
theorem arrange_perm {α : Type} (offsets : List Nat) (items : List α) :
    (arrange offsets items).Perm items := by
  induction offsets generalizing items with
  | nil => cases items <;> exact .refl _
  | cons offset offsets ih =>
    cases items with
    | nil => exact .refl _
    | cons front rest =>
      exact ((ih _).cons _).trans (exchange_perm offset front rest)

/-- A shuffle keeps every element as often as it was there. -/
theorem shuffle_perm {α : Type} (items : List α) (generator : Generator) :
    (shuffle items generator).1.Perm items :=
  arrange_perm ..

end EventDeck
