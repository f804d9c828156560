/-
  Runs that go on for ever, and what has been observed of a run.
-/
import Mathlib.Data.Nat.Basic
import Mathlib.Data.List.Basic

namespace FairRun

/-! ## Runs -/

section Run

variable {σ ι ο : Type} (step : σ → ι → σ × ο) (start : σ) (calls : Nat → ι)

/-- The state at a time. -/
def stateAt : Nat → σ
  | 0 => start
  | n + 1 => (step (stateAt n) (calls n)).1

/-- What was observed by then. -/
def logAt : Nat → List ο
  | 0 => []
  | n + 1 => logAt n ++ [(step (stateAt step start calls n) (calls n)).2]

variable {step start calls}

/-- **Step lemma to run lemma**, for an invariant that speaks of the log too. -/
theorem invariant {I : List ο → σ → Prop} {P : σ → ι → Prop}
    (hstep : ∀ log s i, I log s → P s i → I (log ++ [(step s i).2]) (step s i).1) (h : I [] start)
    (hP : ∀ n, P (stateAt step start calls n) (calls n)) (n : Nat) :
    I (logAt step start calls n) (stateAt step start calls n) := by
  induction n with
  | zero => exact h
  | succ n ih => exact hstep _ _ _ ih (hP n)

end Run

/-! ## Logs -/

section Log

variable {ο : Type} {law : List ο → ο → Prop} {log : List ο} {e : ο}

/-- Each entry is allowed by the ones before it. -/
def Lawful (law : List ο → ο → Prop) (log : List ο) : Prop :=
  ∀ before e after, log = before ++ e :: after → law before e

theorem lawful_nil : Lawful law [] := by
  intro before e after h
  cases before <;> cases h

theorem lawful_snoc (h : Lawful law log) (he : law log e) : Lawful law (log ++ [e]) := by
  intro before e' after hsplit
  rcases List.eq_nil_or_concat after with rfl | ⟨after', last, rfl⟩
  · obtain ⟨rfl, hlast⟩ := List.append_inj' hsplit rfl
    cases hlast
    exact he
  · rw [List.concat_eq_append, ← List.cons_append, ← List.append_assoc] at hsplit
    obtain ⟨rfl, _⟩ := List.append_inj' hsplit rfl
    exact h before e' after' rfl

end Log

/-! ## Fairness -/

/-- A thread which stays ready takes a step, at some later time. -/
def WeaklyFair (ready taken : Nat → Prop) : Prop :=
  ∀ n, (∀ m ≥ n, ready m) → ∃ m ≥ n, taken m

variable {P Q ready taken : Nat → Prop}

/-- **Progress under fairness**: `P` lasts until `Q`, keeps the thread ready, and every step of the thread
    lowers a rank that nobody raises. -/
theorem eventually_of_rank (rank : Nat → Nat) (hfair : WeaklyFair ready taken) (hready : ∀ n, P n → ready n)
    (hstep : ∀ n, P n → Q n ∨
      (P (n + 1) ∧ rank (n + 1) ≤ rank n ∧ (taken n → rank (n + 1) < rank n)))
    {n : Nat} (h : P n) : ∃ m ≥ n, Q m := by
  induction hrank : rank n using Nat.strongRecOn generalizing n with
  | _ r ih =>
    by_contra hnever
    -- `P` lasts for ever, and the rank stays where it is
    have hlasts : ∀ k, P (n + k) ∧ rank (n + k) = r := by
      intro k
      induction k with
      | zero => exact ⟨h, hrank⟩
      | succ k ihk =>
        obtain ⟨hP, hsame⟩ := ihk
        rcases hstep (n + k) hP with hQ | ⟨hnext, hle, _⟩
        · exact absurd ⟨n + k, by omega, hQ⟩ hnever
        · refine ⟨hnext, ?_⟩
          by_contra hother
          have hless : rank (n + k + 1) ≠ r := hother
          obtain ⟨m, hm, hQ⟩ := ih (rank (n + k + 1)) (by omega) hnext rfl
          exact hnever ⟨m, by omega, hQ⟩
    obtain ⟨m, hm, htaken⟩ := hfair n fun m hm => by
      obtain ⟨k, rfl⟩ := Nat.exists_eq_add_of_le hm
      exact hready (n + k) (hlasts k).1
    obtain ⟨k, rfl⟩ := Nat.exists_eq_add_of_le hm
    rcases hstep (n + k) (hlasts k).1 with hQ | ⟨_, _, hless⟩
    · exact hnever ⟨n + k, hm, hQ⟩
    · have hlower := hless htaken
      have hsame := (hlasts k).2
      have hnext : rank (n + k + 1) = r := (hlasts (k + 1)).2
      omega

end FairRun
