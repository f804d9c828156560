/-
  Runs of a deterministic step function.

  A component is a step `step : σ → ι → σ × ο`: in a state, one call `i : ι` gives the next state and what
  the call returned.  This file has the little that every whole-run statement about such a component needs,
  for any `σ`, `ι`, `ο`; the rules are the inductions that are otherwise repeated per component.
-/
import Mathlib.Data.List.Induction

namespace StepRun

open List

variable {σ ι ο : Type}

/-- The state after a list of calls. -/
def run (step : σ → ι → σ × ο) : σ → List ι → σ
  | s, [] => s
  | s, i :: is => run step (step s i).1 is

/-- The calls of a run, each with what it returned. -/
def trace (step : σ → ι → σ × ο) : σ → List ι → List (ι × ο)
  | _, [] => []
  | s, i :: is => (i, (step s i).2) :: trace step (step s i).1 is

/-- `P` holds of every call of the run, in the state that the call is made in; this is how both a side condition
    on the steps and "nothing of kind `P` happened since" read. -/
def Along (step : σ → ι → σ × ο) (P : σ → ι → Prop) : σ → List ι → Prop
  | _, [] => True
  | s, i :: is => P s i ∧ Along step P (step s i).1 is

instance Along.decidable (step : σ → ι → σ × ο) (P : σ → ι → Prop) [∀ s i, Decidable (P s i)] :
    ∀ s is, Decidable (Along step P s is)
  | _, [] => isTrue trivial
  | s, i :: is =>
    match (inferInstance : Decidable (P s i)), Along.decidable step P (step s i).1 is with
    | isTrue h, isTrue hs => isTrue ⟨h, hs⟩
    | isFalse h, _ => isFalse fun hp => h hp.1
    | _, isFalse hs => isFalse fun hp => hs hp.2

variable {step : σ → ι → σ × ο}

@[simp] theorem run_nil (s : σ) : run step s [] = s := rfl

@[simp] theorem run_cons (s : σ) (i : ι) (is : List ι) : run step s (i :: is) = run step (step s i).1 is := rfl

@[simp] theorem along_nil (P : σ → ι → Prop) (s : σ) : Along step P s [] := trivial

@[simp] theorem along_cons (P : σ → ι → Prop) (s : σ) (i : ι) (is : List ι) :
    Along step P s (i :: is) ↔ P s i ∧ Along step P (step s i).1 is := Iff.rfl

theorem run_append (s : σ) (is js : List ι) : run step s (is ++ js) = run step (run step s is) js := by
  induction is generalizing s with
  | nil => rfl
  | cons i is ih => exact ih (step s i).1

variable {P : σ → ι → Prop}

theorem along_append (s : σ) (is js : List ι) :
    Along step P s (is ++ js) ↔ Along step P s is ∧ Along step P (run step s is) js := by
  induction is generalizing s with
  | nil => exact ⟨fun h => ⟨trivial, h⟩, fun h => h.2⟩
  | cons i is ih =>
    rw [cons_append, along_cons, along_cons, ih, run_cons, and_assoc]

theorem trace_append (s : σ) (is js : List ι) :
    trace step s (is ++ js) = trace step s is ++ trace step (run step s is) js := by
  induction is generalizing s with
  | nil => rfl
  | cons i is ih => exact congrArg (_ :: ·) (ih (step s i).1)

variable {is : List ι} {s : σ}

/-- **Idle calls can be left out**: where every call that `keep` drops leaves the state as it was, the
    other calls return what they return without them. -/
theorem trace_erase {keep : ι × ο → Bool}
    (h : Along step (fun s i => keep (i, (step s i).2) = false → (step s i).1 = s) s is) :
    trace step s (((trace step s is).filter keep).map Prod.fst) = (trace step s is).filter keep := by
  induction is generalizing s with
  | nil => rfl
  | cons i is ih =>
    obtain ⟨hidle, hrest⟩ := h
    rw [trace]
    cases hkeep : keep (i, (step s i).2) with
    | true =>
      rw [filter_cons_of_pos hkeep, map_cons, trace, ih hrest]
    | false =>
      rw [hidle hkeep] at hrest ⊢
      rw [filter_cons_of_neg (by rw [hkeep]; decide)]
      exact ih hrest

theorem along_of_forall (h : ∀ i ∈ is, ∀ s, P s i) (s : σ) : Along step P s is := by
  induction is generalizing s with
  | nil => trivial
  | cons i is ih =>
    exact ⟨h i mem_cons_self s, ih (fun j hj => h j (mem_cons_of_mem i hj)) _⟩

variable {Q : σ → ι → Prop}

theorem Along.mono (h : ∀ s i, P s i → Q s i) (hP : Along step P s is) : Along step Q s is := by
  induction is generalizing s with
  | nil => trivial
  | cons i is ih => exact ⟨h s i hP.1, ih hP.2⟩

theorem Along.and (hP : Along step P s is) (hQ : Along step Q s is) : Along step (fun s i => P s i ∧ Q s i) s is := by
  induction is generalizing s with
  | nil => trivial
  | cons i is ih => exact ⟨⟨hP.1, hQ.1⟩, ih hP.2 hQ.2⟩

/-- Along a run is at each call of it, behind all that came before. -/
theorem along_iff_split :
    Along step P s is ↔ ∀ before i after, is = before ++ i :: after → P (run step s before) i := by
  constructor
  · rintro h before i after rfl
    exact ((along_append s before (i :: after)).mp h).2.1
  · intro h
    induction is generalizing s with
    | nil => trivial
    | cons i is ih =>
      refine ⟨h [] i is rfl, ih ?_⟩
      rintro before j after rfl
      exact h (i :: before) j after rfl

/-- **Step lemma to run lemma**, with a condition that every call of the run meets. -/
theorem Along.invariant {I : σ → Prop} (hstep : ∀ s i, I s → P s i → I (step s i).1) (h : I s)
    (hP : Along step P s is) : I (run step s is) := by
  induction is generalizing s with
  | nil => exact h
  | cons i is ih => exact ih (hstep s i h hP.1) hP.2

theorem Along.of_invariant {I : σ → Prop} (hstep : ∀ s i, I s → P s i → I (step s i).1)
    (hlaw : ∀ s i, I s → P s i → Q s i) (h : I s) (hP : Along step P s is) : Along step Q s is := by
  induction is generalizing s with
  | nil => trivial
  | cons i is ih => exact ⟨hlaw s i h hP.1, ih (hstep s i h hP.1) hP.2⟩

/-- **Step lemma to run lemma**, for an invariant that every call keeps. -/
theorem run_invariant {I : σ → Prop} (hstep : ∀ s i, I s → I (step s i).1) {s : σ} (h : I s)
    (is : List ι) : I (run step s is) :=
  Along.invariant (P := fun _ _ => True) (fun s i hi _ => hstep s i hi) h
    (along_of_forall (fun _ _ _ => trivial) s)

/-- **What holds at the start and not at the end stops to hold at some call.** -/
theorem exists_turn {P : σ → Prop} {s : σ} {is : List ι} (h : P s) (hnot : ¬ P (run step s is)) :
    ∃ before i after, is = before ++ i :: after ∧ P (run step s before) ∧
      ¬ P (run step s (before ++ [i])) := by
  induction is generalizing s with
  | nil => exact absurd h hnot
  | cons i is ih =>
    by_cases hnext : P (step s i).1
    · obtain ⟨before, j, after, hsplit, hbefore, hafter⟩ := ih hnext hnot
      exact ⟨i :: before, j, after, by rw [hsplit, cons_append], hbefore, hafter⟩
    · exact ⟨[], i, is, rfl, h, hnext⟩

/-- **What does not hold at the start and holds at the end holds from some call on.** -/
theorem exists_since {P : σ → Prop} {s : σ} {is : List ι} (hnot : ¬ P s) (h : P (run step s is)) :
    ∃ before i after, is = before ++ i :: after ∧ ¬ P (run step s before) ∧
      P (run step s (before ++ [i])) ∧
      Along step (fun s _ => P s) (run step s (before ++ [i])) after := by
  induction is using List.reverseRecOn with
  | nil => exact absurd h hnot
  | append_singleton is j ih =>
    by_cases hbefore : P (run step s is)
    · obtain ⟨before, i, after, rfl, hn, hi, halong⟩ := ih hbefore
      refine ⟨before, i, after ++ [j], by simp, hn, hi, ?_⟩
      refine (along_append _ _ _).mpr ⟨halong, ?_, trivial⟩
      rw [← run_append, append_assoc]
      exact hbefore
    · exact ⟨is, j, [], rfl, hbefore, h, trivial⟩

/-- **Step lemma to run lemma**, for an invariant that also speaks of the calls made so far and
    of what they returned. -/
theorem Along.trace_invariant {I : List (ι × ο) → σ → Prop} {P : σ → ι → Prop}
    (hstep : ∀ history s i, I history s → P s i → I (history ++ [(i, (step s i).2)]) (step s i).1)
    {history : List (ι × ο)} {s : σ} {is : List ι} (h : I history s) (hP : Along step P s is) :
    I (history ++ trace step s is) (run step s is) := by
  induction is generalizing history s with
  | nil => rw [trace, append_nil]; exact h
  | cons i is ih =>
    rw [trace, ← singleton_append, ← append_assoc]
    exact ih (hstep history s i h hP.1) hP.2

/-- For invariants that tie the state to the history. -/
theorem trace_invariant {I : List (ι × ο) → σ → Prop}
    (hstep : ∀ history s i, I history s → I (history ++ [(i, (step s i).2)]) (step s i).1)
    {history : List (ι × ο)} {s : σ} (h : I history s) (is : List ι) :
    I (history ++ trace step s is) (run step s is) :=
  Along.trace_invariant (P := fun _ _ => True) (fun history s i hi _ => hstep history s i hi) h
    (along_of_forall (fun _ _ _ => trivial) s)

/-- **Step lemma to run lemma under a clock** that never goes back: `time i` is the time of the call
    `i`, and the invariant may speak of the time of the last call. -/
theorem Along.clocked_invariant (time : ι → Int) {I : Int → σ → Prop}
    (hstep : ∀ now s i, I now s → now ≤ time i → P s i → I (time i) (step s i).1) {now : Int} (h : I now s)
    (htime : (now :: is.map time).Pairwise (· ≤ ·)) (hP : Along step P s is) :
    ∃ last ∈ now :: is.map time, I last (run step s is) := by
  induction is generalizing now s with
  | nil => exact ⟨now, mem_cons_self, h⟩
  | cons i is ih =>
    rw [map_cons, pairwise_cons] at htime
    have hnow : now ≤ time i := htime.1 _ mem_cons_self
    obtain ⟨last, hmem, hlast⟩ := ih (hstep now s i h hnow hP.1) htime.2 hP.2
    exact ⟨last, mem_cons_of_mem now hmem, hlast⟩

theorem map_fst_trace (s : σ) (is : List ι) : (trace step s is).map Prod.fst = is := by
  induction is generalizing s with
  | nil => rfl
  | cons i is ih => rw [trace, map_cons, ih]

theorem filterMap_snoc {α β : Type} (f : α → Option β) (history : List α) (call : α) :
    (history ++ [call]).filterMap f = history.filterMap f ++ (f call).toList := by
  rw [filterMap_append, filterMap_cons, filterMap_nil]
  cases f call <;> rfl

/-- **A component refines another one** whose steps it follows under a relation of their states: it returns
    what the other one returns, under a translation of the answers. -/
theorem trace_refines {τ υ : Type} {step' : τ → ι → τ × υ} {R : σ → τ → Prop} {f : υ → ο}
    (hstep : ∀ s t i, R s t → R (step s i).1 (step' t i).1 ∧ (step s i).2 = f (step' t i).2) {t : τ} (h : R s t)
    (is : List ι) :
    R (run step s is) (run step' t is) ∧
      (trace step s is).map Prod.snd = (trace step' t is).map fun call => f call.2 := by
  induction is generalizing s t with
  | nil => exact ⟨h, rfl⟩
  | cons i is ih =>
    obtain ⟨hnext, hanswer⟩ := hstep s t i h
    obtain ⟨hrun, htrace⟩ := ih hnext
    refine ⟨hrun, ?_⟩
    rw [trace, trace, map_cons, map_cons, hanswer, htrace]

end StepRun
