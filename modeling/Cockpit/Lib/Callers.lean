/-
  Any number of callers of a procedure: `callers i` is the place of caller `i`, and a step moves one of them.
-/
import Mathlib.Logic.Function.Basic

namespace Callers

open Function

variable {π : Type} {callers : Nat → π} {P : π → Prop} {i : Nat} {p : π}

theorem exists_update (h : ∃ j, P (callers j)) (hi : P (callers i) → P p) : ∃ j, P (update callers i p j) := by
  obtain ⟨j, hj⟩ := h
  by_cases hji : j = i
  · subst hji
    exact ⟨j, by rw [update_self]; exact hi hj⟩
  · exact ⟨j, by rw [update_of_ne hji]; exact hj⟩

theorem exists_update_self (callers : Nat → π) (i : Nat) (h : P p) : ∃ j, P (update callers i p j) :=
  ⟨i, by rw [update_self]; exact h⟩

theorem forall_update (h : ∀ j, P (callers j)) (hi : P p) (j : Nat) : P (update callers i p j) := by
  by_cases hji : j = i
  · subst hji
    rw [update_self]
    exact hi
  · rw [update_of_ne hji]
    exact h j

end Callers
