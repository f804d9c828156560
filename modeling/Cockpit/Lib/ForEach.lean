/-
  Loops over a list that act on a state: what every step keeps, the loop keeps.
-/

namespace ForEach

open List

variable {σ α ε : Type}

/-- Stop at the first element for which `step` fails. -/
def untilError (step : σ → α → σ × Except ε Unit) : List α → σ → σ × Except ε Unit
  | [], s => (s, .ok ())
  | a :: as, s =>
    match step s a with
    | (s, .error e) => (s, .error e)
    | (s, .ok ()) => untilError step as s

/-- Go through all elements, and say if every step succeeded. -/
def tryAll (step : σ → α → σ × Bool) : List α → σ → σ × Bool
  | [], s => (s, true)
  | a :: as, s =>
    let (s, ok) := step s a
    let (s, rest) := tryAll step as s
    (s, ok && rest)

section UntilError

variable {step : σ → α → σ × Except ε Unit} {I : σ → Prop} {Q : α → σ → Prop}

variable {as : List α}

theorem untilError_invariant (hstep : ∀ s, ∀ a ∈ as, I s → I (step s a).1) {s : σ} (h : I s) :
    I (untilError step as s).1 := by
  induction as generalizing s with
  | nil => exact h
  | cons a as ih =>
    have hfirst := hstep s a mem_cons_self h
    rw [untilError]
    split
    case h_1 s' e heq => rwa [heq] at hfirst
    case h_2 s' heq =>
      rw [heq] at hfirst
      exact ih (fun s b hb => hstep s b (mem_cons_of_mem a hb)) hfirst

/-- If the loop succeeds, it is enough that the successful steps keep it. -/
theorem untilError_ok_invariant (hstep : ∀ s, ∀ a ∈ as, I s → (step s a).2 = .ok () → I (step s a).1) {s : σ}
    (h : I s) (hok : (untilError step as s).2 = .ok ()) : I (untilError step as s).1 := by
  induction as generalizing s with
  | nil => exact h
  | cons a as ih =>
    have hfirst := hstep s a mem_cons_self h
    rw [untilError] at hok ⊢
    split at hok
    case h_1 => cases hok
    case h_2 s' heq =>
      rw [heq] at hfirst
      exact ih (fun s b hb => hstep s b (mem_cons_of_mem a hb)) (hfirst rfl) hok

/-- What a successful step establishes for its element, and those for the others keep. -/
theorem untilError_ok (hstep : ∀ s, ∀ a ∈ as, I s → (step s a).2 = .ok () → I (step s a).1)
    (hdone : ∀ s, ∀ a ∈ as, I s → (step s a).2 = .ok () → Q a (step s a).1)
    (hkeep : ∀ s, ∀ a ∈ as, ∀ b, I s → (step s a).2 = .ok () → Q b s → Q b (step s a).1) {s : σ} (h : I s)
    (hok : (untilError step as s).2 = .ok ()) : ∀ a ∈ as, Q a (untilError step as s).1 := by
  induction as generalizing s with
  | nil => exact fun a ha => absurd ha not_mem_nil
  | cons a as ih =>
    have hfirst := hstep s a mem_cons_self h
    have hfirstDone := hdone s a mem_cons_self h
    have hstep' : ∀ s, ∀ b ∈ as, I s → (step s b).2 = .ok () → I (step s b).1 :=
      fun s b hb => hstep s b (mem_cons_of_mem a hb)
    have hkeep' : ∀ s, ∀ b ∈ as, ∀ c, I s → (step s b).2 = .ok () → Q c s → Q c (step s b).1 :=
      fun s b hb => hkeep s b (mem_cons_of_mem a hb)
    rw [untilError] at hok ⊢
    split at hok
    case h_1 => cases hok
    case h_2 s' heq =>
      rw [heq] at hfirst hfirstDone
      have hrest := ih hstep' (fun s b hb => hdone s b (mem_cons_of_mem a hb)) hkeep'
        (hfirst rfl) hok
      intro b hb
      rcases mem_cons.1 hb with rfl | hb
      · -- the steps for the other elements keep what the first one has established
        have hkept := untilError_ok_invariant (I := fun s => I s ∧ Q b s)
          (fun s c hc hs hsok => ⟨hstep' s c hc hs.1 hsok, hkeep' s c hc b hs.1 hsok hs.2⟩)
          ⟨hfirst rfl, hfirstDone rfl⟩ hok
        exact hkept.2
      · exact hrest b hb

end UntilError

section TryAll

variable {step : σ → α → σ × Bool} {I : σ → Prop} {Q : α → σ → Prop}

theorem tryAll_invariant {as : List α} (hstep : ∀ s, ∀ a ∈ as, I s → I (step s a).1) {s : σ}
    (h : I s) : I (tryAll step as s).1 := by
  induction as generalizing s with
  | nil => exact h
  | cons a as ih =>
    exact ih (fun s b hb => hstep s b (mem_cons_of_mem a hb)) (hstep s a mem_cons_self h)

theorem tryAll_ok {as : List α} (hstep : ∀ s, ∀ a ∈ as, I s → I (step s a).1)
    (hdone : ∀ s, ∀ a ∈ as, I s → (step s a).2 = true → Q a (step s a).1)
    (hkeep : ∀ s, ∀ a ∈ as, ∀ b, I s → Q b s → Q b (step s a).1) {s : σ} (h : I s)
    (hok : (tryAll step as s).2 = true) : ∀ a ∈ as, Q a (tryAll step as s).1 := by
  induction as generalizing s with
  | nil => exact fun a ha => absurd ha not_mem_nil
  | cons a as ih =>
    have hfirst := hstep s a mem_cons_self h
    have hstep' : ∀ s, ∀ b ∈ as, I s → I (step s b).1 :=
      fun s b hb => hstep s b (mem_cons_of_mem a hb)
    have hkeep' : ∀ s, ∀ b ∈ as, ∀ c, I s → Q c s → Q c (step s b).1 :=
      fun s b hb => hkeep s b (mem_cons_of_mem a hb)
    obtain ⟨hokFirst, hokRest⟩ := Bool.and_eq_true_iff.1 hok
    have hrest := ih hstep' (fun s b hb => hdone s b (mem_cons_of_mem a hb)) hkeep' hfirst hokRest
    intro b hb
    rcases mem_cons.1 hb with rfl | hb
    · have hkept := tryAll_invariant (I := fun s => I s ∧ Q b s)
        (fun s c hc hs => ⟨hstep' s c hc hs.1, hkeep' s c hc b hs.1 hs.2⟩)
        ⟨hfirst, hdone s b mem_cons_self h hokFirst⟩
      exact hkept.2
    · exact hrest b hb

end TryAll

end ForEach
