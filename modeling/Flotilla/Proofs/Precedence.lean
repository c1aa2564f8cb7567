import Mathlib.Data.List.Nodup
import Mathlib.Logic.Relation

namespace Flotilla.Precedence
variable {α : Type} (name : α → String) (needs : α → List String)

/-- The thing with the first name needs the one with the second. -/
def Needs (xs : List α) (a b : String) : Prop := ∃ x ∈ xs, name x = a ∧ b ∈ needs x

def IsOrdered (xs : List α) : Prop :=
  ∀ (i : Nat) x, xs[i]? = some x → ∀ n ∈ needs x, ∃ j < i, ∃ y, xs[j]? = some y ∧ name y = n

variable {name needs} {xs : List α} (distinct : (xs.map name).Nodup)
include distinct

theorem idxOf_name {i : Nat} {x : α} (found : xs[i]? = some x) : (xs.map name).idxOf (name x) = i := by
  obtain ⟨within, rfl⟩ := List.getElem?_eq_some_iff.mp found
  have place := distinct.idxOf_getElem i (by simpa using within)
  simpa using place

variable (ordered : IsOrdered name needs xs)
include ordered

theorem idxOf_lt_of_needs {a b : String} (h : Needs name needs xs a b) :
    (xs.map name).idxOf b < (xs.map name).idxOf a := by
  obtain ⟨x, member, rfl, needed⟩ := h
  obtain ⟨i, found⟩ := List.getElem?_of_mem member
  obtain ⟨j, less, y, found', rfl⟩ := ordered i x found b needed
  rwa [idxOf_name distinct found, idxOf_name distinct found']

theorem not_needs_itself (n : String) : ¬ Relation.TransGen (Needs name needs xs) n n := by
  intro cycle
  have falls {a b : String} (chain : Relation.TransGen (Needs name needs xs) a b) :
      (xs.map name).idxOf b < (xs.map name).idxOf a := by
    induction chain with
    | single h => exact idxOf_lt_of_needs distinct ordered h
    | tail _ h ih => exact Nat.lt_trans (idxOf_lt_of_needs distinct ordered h) ih
  exact Nat.lt_irrefl _ (falls cycle)

end Flotilla.Precedence
