/-
  Runs of a list: some of its contiguous parts, in order, with gaps between them.
-/
import Mathlib.Data.List.Basic
import Mathlib.Data.List.Pairwise
import Mathlib.Order.Lattice

namespace Runs

open List

variable {α β : Type}

/-- The runs stand in the inputs one after the other, and behind them, at the very end, the rest. -/
inductive InTurn : List (List α) → List α → List α → Prop where
  | nil (gap rest : List α) : InTurn [] rest (gap ++ rest)
  | cons {runs : List (List α)} {rest inputs : List α} (gap run : List α) (h : InTurn runs rest inputs) :
    InTurn (run :: runs) rest (gap ++ run ++ inputs)

variable {runs : List (List α)} {rest inputs run : List α}

namespace InTurn

section

variable (h : InTurn runs rest inputs)
include h

theorem extend (more : List α) : InTurn runs (rest ++ more) (inputs ++ more) := by
  induction h with
  | nil gap rest =>
    rw [append_assoc]
    exact .nil gap (rest ++ more)
  | cons gap run _ ih =>
    rw [append_assoc]
    exact .cons gap run ih

theorem shrink {rest' : List α} (hsuffix : rest' <:+ rest) : InTurn runs rest' inputs := by
  induction h with
  | nil gap rest =>
    obtain ⟨before, rfl⟩ := hsuffix
    rw [← append_assoc]
    exact .nil (gap ++ before) rest'
  | cons gap run _ ih => exact .cons gap run (ih hsuffix)

theorem drop : InTurn runs [] inputs := h.shrink (nil_suffix)

theorem close : InTurn (runs ++ [rest]) [] inputs := by
  induction h with
  | nil gap rest =>
    have hclosed := InTurn.cons gap rest (InTurn.nil ([] : List α) [])
    rwa [append_nil, append_nil] at hclosed
  | cons gap run _ ih => exact .cons gap run ih

theorem sublist : (runs.flatten ++ rest).Sublist inputs := by
  induction h with
  | nil gap rest => exact sublist_append_right gap rest
  | cons gap run _ ih =>
    rw [flatten_cons, append_assoc, append_assoc]
    exact ((List.Sublist.refl run).append ih).trans (sublist_append_right gap _)

theorem map (f : α → β) : InTurn (runs.map (List.map f)) (rest.map f) (inputs.map f) := by
  induction h with
  | nil gap rest =>
    rw [map_append]
    exact .nil _ _
  | cons gap run _ ih =>
    rw [map_append, map_append]
    exact .cons _ _ ih

end

end InTurn

/-! ## Inputs in the order of a key -/

section Key

variable (key : α → β) [LinearOrder β]

/-- Between the first and the last of the run. -/
def spans (a : α) (run : List α) : Bool :=
  run.head?.any (fun first => key first ≤ key a) && run.getLast?.any (fun last => key a ≤ key last)

variable {key} {a : α}

theorem spans_of_mem (hsorted : run.Pairwise (key · < key ·)) (ha : a ∈ run) : spans key a run = true := by
  unfold spans
  rw [Bool.and_eq_true]
  constructor
  · cases run with
    | nil => cases ha
    | cons first run =>
      rw [List.head?_cons, Option.any_some, decide_eq_true_eq]
      rcases mem_cons.mp ha with rfl | hmem
      · exact le_refl _
      · exact le_of_lt ((pairwise_cons.mp hsorted).1 a hmem)
  · rcases eq_nil_or_concat run with rfl | ⟨before, last, rfl⟩
    · cases ha
    · rw [concat_eq_append, List.getLast?_concat, Option.any_some, decide_eq_true_eq]
      rw [concat_eq_append] at hsorted ha
      rcases mem_append.mp ha with hmem | hmem
      · exact le_of_lt ((pairwise_append.mp hsorted).2.2 a hmem last mem_cons_self)
      · rw [mem_singleton.mp hmem]

theorem not_spans_of_lt (h : ∀ b ∈ run, key a < key b) : spans key a run = false := by
  unfold spans
  rw [Bool.and_eq_false_iff]
  left
  cases run with
  | nil => rfl
  | cons first run =>
    rw [List.head?_cons, Option.any_some, decide_eq_false_iff_not]
    exact not_le_of_gt (h first mem_cons_self)

theorem not_spans_of_gt (h : ∀ b ∈ run, key b < key a) : spans key a run = false := by
  unfold spans
  rw [Bool.and_eq_false_iff]
  right
  rcases eq_nil_or_concat run with rfl | ⟨before, last, rfl⟩
  · rfl
  · rw [concat_eq_append, List.getLast?_concat, Option.any_some, decide_eq_false_iff_not]
    rw [concat_eq_append] at h
    exact not_le_of_gt (h last (mem_append_right before mem_cons_self))

theorem countP_eq_zero_of_gt (h : InTurn runs rest inputs) (hlt : ∀ b ∈ inputs, key a < key b) :
    runs.countP (spans key a) = 0 := by
  induction h with
  | nil => rfl
  | cons gap run _ ih =>
    have hrun : spans key a run = false := not_spans_of_lt fun b hb =>
      hlt b (mem_append_left _ (mem_append_right gap hb))
    rw [countP_cons_of_neg (by rw [hrun]; decide)]
    exact ih fun b hb => hlt b (mem_append_right _ hb)

/-- **An input is in the span of exactly one run or of none**, as it is in one or in none. -/
theorem countP_spans [DecidableEq α] (h : InTurn runs rest inputs)
    (hsorted : inputs.Pairwise (key · < key ·)) (ha : a ∈ inputs) :
    runs.countP (spans key a) = if a ∈ runs.flatten then 1 else 0 := by
  induction h with
  | nil => rfl
  | @cons runs rest inputs gap run h ih =>
    obtain ⟨hfront, hinputs, hcross⟩ := pairwise_append.mp hsorted
    obtain ⟨hgap, hrun, hgaprun⟩ := pairwise_append.mp hfront
    rw [flatten_cons]
    rcases mem_append.mp ha with hmem | hmem
    · -- it is in front of all the other runs
      have hlater : runs.countP (spans key a) = 0 := countP_eq_zero_of_gt h fun b hb => hcross a hmem b hb
      have hnot : a ∉ runs.flatten := by
        intro hflat
        have hin := h.sublist.subset (mem_append_left rest hflat)
        exact lt_irrefl _ (hcross a hmem a hin)
      rcases mem_append.mp hmem with hgapmem | hrunmem
      · have hnotrun : a ∉ run := fun hin => lt_irrefl _ (hgaprun a hgapmem a hin)
        have hspan : spans key a run = false := not_spans_of_lt fun b hb => hgaprun a hgapmem b hb
        rw [countP_cons_of_neg (by rw [hspan]; decide), hlater, if_neg]
        rw [mem_append, not_or]
        exact ⟨hnotrun, hnot⟩
      · rw [countP_cons_of_pos (spans_of_mem hrun hrunmem), hlater, if_pos (mem_append_left _ hrunmem)]
    · have hspan : spans key a run = false := not_spans_of_gt fun b hb =>
        hcross b (mem_append_right gap hb) a hmem
      have hnotrun : a ∉ run := fun hin => lt_irrefl _ (hcross a (mem_append_right gap hin) a hmem)
      rw [countP_cons_of_neg (by rw [hspan]; decide), ih hinputs hmem]
      have hiff : a ∈ run ++ runs.flatten ↔ a ∈ runs.flatten := by
        rw [mem_append]
        exact ⟨fun h => h.resolve_left hnotrun, Or.inr⟩
      exact if_congr hiff.symm rfl rfl

end Key

end Runs
