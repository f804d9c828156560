/-
  Components that take an item over only when it comes after the last one they took over (the *baseline*), until
  a call *resets* the baseline.

  `after` is any relation. It need not be transitive, and for sequence numbers modulo a power of two it is not:
  `chain` speaks of neighbours only.
-/
import Mathlib.Data.List.Chain
import Cockpit.Lib.StepRun

namespace OrderedFilter

variable {α σ ι ο : Type} {after : α → α → Prop} [DecidableRel after]

/-- The receiver, on its own: the baseline, and the item if it is accepted. -/
def offer (after : α → α → Prop) [DecidableRel after] : Option α → Option α → Option α × Option α
  | last, none => (none, last)
  | none, some a => (some a, some a)
  | some last, some a => if after last a then (some a, some a) else (none, some last)

@[simp] theorem offer_nothing (last : Option α) : offer after last none = (none, last) := by
  cases last <;> rfl

@[simp] theorem offer_first (a : α) : offer after none (some a) = (some a, some a) := rfl

theorem baseline_of_accepted {last offered next : Option α} {a : α}
    (h : (some a, next) = offer after last offered) : next = some a ∧ offered = some a := by
  cases offered with
  | none =>
    rw [offer_nothing] at h
    cases h
  | some b =>
    cases last with
    | none =>
      cases h
      exact ⟨rfl, rfl⟩
    | some last =>
      rw [offer] at h
      split at h
      · cases h
        exact ⟨rfl, rfl⟩
      · cases h

/-- The component filters what its calls offer, in every state in which `I` holds. -/
structure Filters (step : σ → ι → σ × ο) (after : α → α → Prop) [DecidableRel after]
    (baseline : σ → Option α) (offered : ι → Option α) (accepted : ι × ο → Option α)
    (resets : σ → ι → Prop) (I : σ → Prop) : Prop where
  keeps : ∀ s i, I s → I (step s i).1
  resetting : ∀ s i, I s → resets s i →
    (accepted (i, (step s i).2), baseline (step s i).1) = offer after none (offered i)
  filtering : ∀ s i, I s → ¬ resets s i →
    (accepted (i, (step s i).2), baseline (step s i).1) = offer after (baseline s) (offered i)

namespace Filters

open StepRun

variable {step : σ → ι → σ × ο} {baseline : σ → Option α} {offered : ι → Option α}
  {accepted : ι × ο → Option α} {resets : σ → ι → Prop} {I : σ → Prop}

variable {s : σ}

section

variable (h : Filters step after baseline offered accepted resets I)
include h

theorem baseline_eq {i : ι} (hI : I s) {a : α}
    (ha : accepted (i, (step s i).2) = some a) : baseline (step s i).1 = some a := by
  by_cases hreset : resets s i
  · have hlaw := h.resetting s i hI hreset
    rw [ha] at hlaw
    exact (baseline_of_accepted hlaw).1
  · have hlaw := h.filtering s i hI hreset
    rw [ha] at hlaw
    exact (baseline_of_accepted hlaw).1

theorem chain_from_baseline (hI : I s) {is : List ι} (hkeep : Along step (fun s i => ¬ resets s i) s is) :
    ((baseline s).toList ++ (trace step s is).filterMap accepted).IsChain after := by
  induction is generalizing s with
  | nil =>
    cases baseline s with
    | none => exact .nil
    | some last => exact .singleton last
  | cons i is ih =>
    have hrest := ih (h.keeps s i hI) hkeep.2
    have hlaw := h.filtering s i hI hkeep.1
    rw [trace, List.filterMap_cons]
    cases hoffered : offered i with
    | none =>
      rw [hoffered, offer_nothing] at hlaw
      rw [(Prod.mk.inj hlaw).1]
      rw [(Prod.mk.inj hlaw).2] at hrest
      exact hrest
    | some a =>
      cases hbaseline : baseline s with
      | none =>
        rw [hoffered, hbaseline, offer_first] at hlaw
        rw [(Prod.mk.inj hlaw).1]
        rw [(Prod.mk.inj hlaw).2] at hrest
        exact hrest
      | some last =>
        rw [hoffered, hbaseline, offer] at hlaw
        split at hlaw
        · rename_i hafter
          rw [(Prod.mk.inj hlaw).1]
          rw [(Prod.mk.inj hlaw).2] at hrest
          exact List.IsChain.cons_cons hafter hrest
        · rw [(Prod.mk.inj hlaw).1]
          rw [(Prod.mk.inj hlaw).2] at hrest
          exact hrest

/-- **In order**: from one call up to the next reset, every accepted item comes after the item accepted
    before it.  The first call may itself be a reset. -/
theorem chain (hI : I s) (i : ι) {is : List ι} (hkeep : Along step (fun s i => ¬ resets s i) (step s i).1 is) :
    ((trace step s (i :: is)).filterMap accepted).IsChain after := by
  have hrest := h.chain_from_baseline (h.keeps s i hI) hkeep
  rw [trace, List.filterMap_cons]
  cases hacc : accepted (i, (step s i).2) with
  | none => exact hrest.right_of_append
  | some a =>
    rw [h.baseline_eq hI hacc] at hrest
    exact hrest

theorem first_accepted (hI : I s) (hnone : baseline s = none) (is : List ι) :
    ((trace step s is).filterMap accepted).head? = (is.filterMap offered).head? := by
  induction is generalizing s with
  | nil => rfl
  | cons i is ih =>
    -- a reset makes no difference while there is no baseline
    have hlaw : (accepted (i, (step s i).2), baseline (step s i).1)
        = offer after none (offered i) := by
      by_cases hreset : resets s i
      · exact h.resetting s i hI hreset
      · rw [h.filtering s i hI hreset, hnone]
    rw [trace, List.filterMap_cons, List.filterMap_cons]
    cases hoffered : offered i with
    | none =>
      rw [hoffered, offer_nothing] at hlaw
      rw [(Prod.mk.inj hlaw).1]
      exact ih (h.keeps s i hI) (Prod.mk.inj hlaw).2
    | some a =>
      rw [hoffered, offer_first] at hlaw
      rw [(Prod.mk.inj hlaw).1]
      rfl

/-- **Whatever comes next**: from a reset on, the first item that is offered is the first that is
    accepted.  The resetting call may itself offer it. -/
theorem next_accepted (hI : I s) {i : ι} (hreset : resets s i) (is : List ι) :
    ((trace step s (i :: is)).filterMap accepted).head? = ((i :: is).filterMap offered).head? := by
  have hlaw := h.resetting s i hI hreset
  rw [trace, List.filterMap_cons, List.filterMap_cons]
  cases hoffered : offered i with
  | none =>
    rw [hoffered, offer_nothing] at hlaw
    rw [(Prod.mk.inj hlaw).1]
    exact h.first_accepted (h.keeps s i hI) (Prod.mk.inj hlaw).2 is
  | some a =>
    rw [hoffered, offer_first] at hlaw
    rw [(Prod.mk.inj hlaw).1]
    rfl

end

end Filters

end OrderedFilter
