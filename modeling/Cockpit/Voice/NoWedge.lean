/-
  The conversation does not wedge: when all calls are over and all outputs completed, the state is one in which
  a wake word or a transcript is accepted again. A state that was cancelled or failed has somebody who will
  return it to idle.
-/
import Cockpit.Voice.Ownership

namespace Cockpit.Voice

open InteractionState Function

/-- A state in which only a call or an output that is under way can go on. -/
def InteractionState.wedged : InteractionState → Bool
  | recognizing | routing | executing | thinking | speaking | cancelled | errorRecovery => true
  | _ => false

/-! ## Who cleans up -/

namespace Interrupting

/-- Will get to `ReturnToIdle`, if the state was cancelled or failed by now. -/
def cleaning : Interrupting → Bool
  | .invalidating _ outputActive | .deciding _ outputActive => outputActive
  | .checking _ | .cancelling _ | .cancellingAction _ | .returning _ => true
  | .returned _ state => state.unsettled
  | _ => false

/-- It has not looked at the state yet. -/
def isLooking : Interrupting → Bool
  | .looking _ => true
  | _ => false

/-- Saw no output, and will forget any that is registered by now. -/
def forgetting : Interrupting → Bool
  | .invalidating _ outputActive => !outputActive
  | _ => false

end Interrupting

/-- It will return the state to idle. -/
def PromptFailing.cleaning : PromptFailing → Bool
  | .idle => false
  | .returning => true
  | .returned state => state.unsettled

namespace Output

/-- The callback will. -/
def cleaning : Output → Bool
  | .returning _ => true
  | .returned _ state => state.unsettled
  | _ => false

/-- Never submitted, or its callback is over. -/
def settled : Output → Bool
  | .none | .done => true
  | _ => false

variable {o : Output}

theorem settling_of_settled (h : o.settled = true) : o.settling = false := by
  cases o <;> first | rfl | cases h

theorem cleaning_of_settled (h : o.settled = true) : o.cleaning = false := by
  cases o <;> first | rfl | cases h

theorem awaits_of_settled (h : o.settled = true) (generation : Nat) : o.awaits generation = false := by
  cases o <;> first | rfl | cases h

end Output

namespace Worker

/-- The worker will. -/
def cleaning : Worker → Bool
  | .unregistering _ _ recovery => recovery
  | .returning => true
  | .returned state => state.unsettled
  | _ => false

/-- Has still to register a recovery prompt. -/
def willPrompt : Worker → Bool
  | .prompting _ | .publishingPrompt _ => true
  | .registering _ _ recovery => recovery
  | _ => false

/-- Is about to submit the recovery prompt that is registered. -/
def submitsPrompt (generation id : Nat) : Worker → Bool
  | .submitting g i recovery => g = generation && i = id && recovery
  | _ => false

/-- Has a request, and is neither cleaning up nor at a recovery prompt. -/
def bystander : Worker → Bool
  | .submitting _ _ recovery => !recovery
  | w => !(w.free || w.cleaning || w.willPrompt)

/-- Is not in `HandleTranscript`. -/
def outside : Worker → Bool
  | .idle | .expiring _ | .expired => true
  | _ => false

variable {w : Worker}

theorem free_of_outside (h : w.outside = true) : w.free = true := by
  cases w <;> first | rfl | cases h

theorem cleaning_of_free (h : w.free = true) : w.cleaning = false := by
  cases w <;> first | rfl | cases h

theorem willPrompt_of_free (h : w.free = true) : w.willPrompt = false := by
  cases w <;> first | rfl | cases h

end Worker

namespace VoiceInteractionService

variable {s s' : VoiceInteractionService}

/-- A caller or a callback will return the state to idle. -/
def Cleaner (s : VoiceInteractionService) : Prop :=
  (∃ i, (s.interrupts i).cleaning = true) ∨ (∃ i, (s.promptFailures i).cleaning = true) ∨
    ∃ id, (s.outputs id).cleaning = true

/-- Some `Interrupt` has not looked yet. -/
def Looking (s : VoiceInteractionService) : Prop := ∃ i, (s.interrupts i).isLooking = true

/-- A recovery prompt is registered: the output will take the registration, or an `Interrupt` will
    see it; either returns the state to idle. -/
structure Prompted (s : VoiceInteractionService) : Prop where
  id : s.activeOutputRequestId ≠ 0
  recovery : s.activeOutputRecovery = true
  kept : ∀ i, (s.interrupts i).forgetting = false
  worker : s.worker.free = true ∨
    s.worker.submitsPrompt s.activeOutputGeneration s.activeOutputRequestId = true
  found : s.Looking ∨ s.activeOutputGeneration = s.interruptGeneration ∧
    (s.worker.free = true →
      (s.outputs s.activeOutputRequestId).awaits s.activeOutputGeneration = true)

/-- An unsettled state has somebody who cleans it up. -/
def Attended (s : VoiceInteractionService) : Prop :=
  s.state.unsettled = true →
    s.Cleaner ∨ s.worker.cleaning = true ∨
      s.state = errorRecovery ∧ (s.worker.willPrompt = true ∨ s.Prompted)

/-- The step registers a recovery prompt whose output nobody will see: some `Interrupt` forgets the
    registration, or came before it without seeing it. -/
def LosesPrompt (s : VoiceInteractionService) : Event → Prop
  | .worker _ =>
    match s.worker with
    | .registering g _ recovery =>
      recovery = true ∧ s.state = errorRecovery ∧ ¬ s.Cleaner ∧
        ((∃ i, (s.interrupts i).forgetting = true) ∨ g ≠ s.interruptGeneration ∧ ¬ s.Looking)
    | _ => False
  | _ => False

theorem not_unsettled_of_afterReturn {snapshot state : InteractionState}
    (h : (afterReturn snapshot state).unsettled = true) :
    afterReturn snapshot state = state ∧ snapshot.unsettled = false := by
  have hstate := eq_of_unsettled_afterReturn h
  refine ⟨hstate, ?_⟩
  cases hs : snapshot.unsettled with
  | false => rfl
  | true =>
    rw [afterReturn_unsettled hs (hstate ▸ h)] at h
    cases h

/-! ## The worker -/

theorem Cleaner.same (h : s.Cleaner) (same : SameOthers s s') : s'.Cleaner := by
  unfold Cleaner
  rw [same.interrupts, same.promptFailures, same.outputs]
  exact h

variable {w : Worker}

/-- Where the worker does nothing about it, somebody else cleans up. -/
theorem Attended.cleaner (h : s.Attended) (hu : s.state.unsettled = true) (hat : s.worker = w)
    (hw : w.bystander = true := by rfl) : s.Cleaner := by
  subst hat
  rcases h hu with h | h | ⟨_, h | h⟩
  · exact h
  · exfalso
    cases hs : s.worker <;> rw [hs] at h hw <;> simp_all [Worker.bystander, Worker.cleaning]
  · exfalso
    cases hs : s.worker <;> rw [hs] at h hw <;> simp_all [Worker.bystander, Worker.willPrompt]
  · exfalso
    have hsub := h.worker
    cases hs : s.worker <;> rw [hs] at hsub hw <;>
      simp_all [Worker.bystander, Worker.free, Worker.submitsPrompt]

theorem Attended.handleThen {event : ConversationEvent} {accepted refused : Worker} (h : s.Attended)
    (hat : s.worker = w) (hw : w.bystander = true := by rfl) (he : event.isCleanup = false := by rfl) :
    (s.handleThen event accepted refused).1.Attended := by
  intro hu
  have hstate := handle_eq_of_unsettled he hu
  exact .inl (h.cleaner (hstate ▸ hu) hat hw)

/-- The worker waits for another segment. -/
theorem Attended.wait (h : s.Attended) (hat : s.worker = w) (hw' : s'.worker.free = true := by rfl)
    (hw : w.free = true := by rfl)
    (same : SameOthers s s' := by exact ⟨⟨rfl, rfl, rfl, rfl, rfl⟩, rfl, rfl, rfl⟩) : s'.Attended := by
  subst hat
  intro hu
  rw [same.state] at hu
  rcases h hu with h | h | ⟨he, h | h⟩
  · exact .inl (h.same same)
  · rw [Worker.cleaning_of_free hw] at h
    cases h
  · rw [Worker.willPrompt_of_free hw] at h
    cases h
  · refine .inr (.inr ⟨same.state.trans he, .inr ?_⟩)
    exact
      { id := same.id ▸ h.id
        recovery := same.recovery ▸ h.recovery
        kept := by rw [same.interrupts]; exact h.kept
        worker := .inl hw'
        found := by
          unfold Looking
          rw [same.interrupts, same.active, same.generation, same.id, same.outputs]
          exact h.found.imp_right fun hf => ⟨hf.1, fun _ => hf.2 hw⟩ }

theorem Attended.of_cleaning (h : s.worker.cleaning = true) : s.Attended := fun _ => .inr (.inl h)

theorem Attended.worker (a : Answers) (hn : s.Numbered) (h : s.Attended)
    (hno : ¬ s.LosesPrompt (.worker a)) : (s.workerStep a).1.Attended := by
  unfold LosesPrompt at hno
  unfold workerStep
  cases hw : s.worker with
  | idle =>
    have moved : ∀ w : Worker, w.free = true → ∀ deadline,
        Attended { s with worker := w, followUpDeadline := deadline } := fun w hf _ =>
      h.wait hw hf
    dsimp only
    split
    · split
      · exact moved _ rfl _
      · exact h
    · split
      · exact h
      · split
        · exact h
        · exact moved _ rfl _
  | expired =>
    intro hu
    have hstate := handle_eq_of_unsettled rfl hu
    refine h.wait hw ?_ rfl ⟨⟨hstate, rfl, rfl, rfl, rfl⟩, rfl, rfl, rfl⟩ hu
    dsimp only [VoiceInteractionService.handleThen, goTo]
    split <;> rfl
  | expiring g | called g text =>
    refine h.wait hw ?_
    dsimp only [goTo]
    split <;> rfl
  | beginning g =>
    refine h.wait hw ?_
    dsimp only [goTo]
    split
    · rfl
    · split <;> rfl
  | resetting g => exact h.wait hw
  | segmentReady g =>
    dsimp only
    split
    · next ha =>
      intro hu
      dsimp only [goTo] at hu
      rw [handled_speechSegmentReady ha] at hu
      cases hu
    · exact h.wait hw
  | transcriptReady g result | selectingAction g result token | selectingOpen g result
  | responding g id text => exact h.handleThen hw
  | abandoningAction g token | endingAction g result token execution timedOut =>
    unfold endActionCall
    dsimp only
    split <;> exact fun hu => .inl (h.cleaner hu hw)
  | failing g prompt =>
    intro hu
    dsimp only [VoiceInteractionService.handleThen, goTo] at hu ⊢
    cases ha : s.accepts .failure with
    | true =>
      right
      cases hp : prompt && s.config.output with
      | true => exact .inr ⟨handled_failure ha, .inl rfl⟩
      | false => exact .inl rfl
    | false =>
      have hstate := handled_state_of_not_accepts ha
      exact .inl (h.cleaner (hstate ▸ hu) hw)
  | prompting g =>
    intro hu
    rcases h hu with h | h | ⟨he, h⟩
    · exact .inl h
    · rw [hw] at h
      cases h
    · right
      dsimp only [goTo]
      split
      · exact .inr ⟨he, .inl rfl⟩
      · exact .inl rfl
  | publishingPrompt g =>
    intro hu
    rcases h hu with h | h | ⟨he, h⟩
    · exact .inl h
    · rw [hw] at h
      cases h
    · exact .inr (.inr ⟨he, .inl rfl⟩)
  | registering g id recovery =>
    intro hu
    cases recovery with
    | false => exact .inl (h.cleaner hu hw)
    | true =>
      rw [hw] at hno
      dsimp only at hno
      by_cases hc : s.Cleaner
      · exact .inl hc
      · rcases h hu with h | h | ⟨he, _⟩
        · exact .inl h
        · rw [hw] at h
          cases h
        · have hpos := (hn.fresh id (by rw [hw]; rfl)).1
          have hfound : s.Looking ∨ g = s.interruptGeneration := by
            by_contra hlost
            exact hno ⟨rfl, he, hc, .inr ⟨fun hg => hlost (.inr hg), fun hl => hlost (.inl hl)⟩⟩
          have hkept : ∀ i, (s.interrupts i).forgetting = false := by
            intro i
            by_contra hi
            exact hno ⟨rfl, he, hc, .inl ⟨i, eq_true_of_ne_false hi⟩⟩
          refine .inr (.inr ⟨he, .inr ⟨Nat.pos_iff_ne_zero.mp hpos, rfl, hkept, .inr ?_, ?_⟩⟩)
          · simp [goTo, Worker.submitsPrompt]
          · exact hfound.imp_right fun hg => ⟨hg, nofun⟩
  | submitting g id recovery =>
    have hnone := (hn.fresh id (by rw [hw]; rfl)).2.2
    dsimp only
    split <;> intro hu
    · rcases h hu with h | h | ⟨he, h | h⟩
      · refine .inl (h.imp_right (Or.imp_right fun h => ?_))
        exact Callers.exists_update (P := fun place : Output => place.cleaning = true) h
          (fun hc => by rw [hnone] at hc; cases hc)
      · rw [hw] at h
        cases h
      · rw [hw] at h
        cases h
      · -- the worker hands the prompt on to the output
        have hsubmits := h.worker
        rw [hw] at hsubmits
        simp only [Worker.free, Worker.submitsPrompt, Bool.and_eq_true, decide_eq_true_eq,
          Bool.false_eq_true, false_or] at hsubmits
        obtain ⟨⟨hg, hid⟩, _⟩ := hsubmits
        refine .inr (.inr ⟨he, .inr ⟨h.id, h.recovery, h.kept, .inl rfl, ?_⟩⟩)
        refine h.found.imp_right fun hf => ⟨hf.1, fun _ => ?_⟩
        dsimp only
        rw [← hid, Function.update_self, hg]
        exact decide_eq_true rfl
    · rcases h hu with h | h | ⟨he, h | h⟩
      · exact .inl h
      · rw [hw] at h
        cases h
      · rw [hw] at h
        cases h
      · have hsubmits := h.worker
        rw [hw] at hsubmits
        simp only [Worker.free, Worker.submitsPrompt, Bool.and_eq_true, decide_eq_true_eq,
          Bool.false_eq_true, false_or] at hsubmits
        exact .inr (.inl hsubmits.2)
  | unregistering g id recovery =>
    cases recovery with
    | true => exact Attended.of_cleaning rfl
    | false =>
      intro hu
      dsimp only at hu ⊢
      split at hu <;> split <;> exact .inl (h.cleaner hu hw)
  | returning => exact fun hu => .inr (.inl hu)
  | returned state =>
    dsimp only
    rw [returnHandled_eq]
    intro hu
    obtain ⟨hstate, hsnapshot⟩ := not_unsettled_of_afterReturn hu
    have hbystander : (Worker.returned state).bystander = true := by
      show (!(false || state.unsettled || false)) = true
      rw [hsnapshot]
      rfl
    exact .inl (h.cleaner (hstate ▸ hu) hw hbystander)
  | _ => exact fun hu => .inl (h.cleaner hu hw)

/-! ## The callers -/

variable {place : Interrupting}

theorem Cleaner.goes {i : Nat} (h : s.Cleaner) (hint : s'.interrupts = update s.interrupts i place)
    (hprompt : s'.promptFailures = s.promptFailures) (hout : s'.outputs = s.outputs)
    (hcleaning : (s.interrupts i).cleaning = true → place.cleaning = true) : s'.Cleaner := by
  unfold Cleaner
  rw [hint, hprompt, hout]
  refine h.imp_left fun h => ?_
  exact Callers.exists_update (P := fun place : Interrupting => place.cleaning = true) h hcleaning

theorem Cleaner.of_interrupt {i : Nat} (hint : s'.interrupts = update s.interrupts i place)
    (h : place.cleaning = true) : s'.Cleaner := by
  left
  rw [hint]
  exact Callers.exists_update_self (P := fun place : Interrupting => place.cleaning = true) _ i h

theorem Attended.goes {i : Nat} {before : Interrupting} (h : s.Attended) (hat : s.interrupts i = before)
    (hstate : s'.state.unsettled = true → s'.state = s.state)
    (hcleaning : s'.state.unsettled = true → before.cleaning = true → place.cleaning = true)
    (hint : s'.interrupts = update s.interrupts i place := by rfl)
    (hforgetting : place.forgetting = false := by rfl) (hlooking : before.isLooking = false := by rfl)
    (hworker : s'.worker = s.worker := by rfl)
    (same : SameOthers { s with interrupts := s'.interrupts, state := s'.state } s' := by
      exact ⟨⟨rfl, rfl, rfl, rfl, rfl⟩, rfl, rfl, rfl⟩) : s'.Attended := by
  subst hat
  intro hu
  have hs := hstate hu
  rw [hworker]
  rcases h (hs ▸ hu) with h | h | ⟨he, h⟩
  · exact .inl (h.goes hint same.promptFailures same.outputs (hcleaning hu))
  · exact .inr (.inl h)
  · refine .inr (.inr ⟨hs.trans he, h.imp_right fun h => ?_⟩)
    have hid : s'.activeOutputRequestId = s.activeOutputRequestId := same.id
    have hactive : s'.activeOutputGeneration = s.activeOutputGeneration := same.active
    have hgeneration : s'.interruptGeneration = s.interruptGeneration := same.generation
    exact
      { id := by rw [hid]; exact h.id
        recovery := same.recovery.trans h.recovery
        kept := by
          rw [hint]
          exact Callers.forall_update (P := fun place : Interrupting => place.forgetting = false)
            h.kept hforgetting
        worker := by rw [hworker, hid, hactive]; exact h.worker
        found := by
          unfold Looking
          rw [hworker, hid, hactive, hgeneration, hint, same.outputs]
          refine h.found.imp_left fun hl => ?_
          exact Callers.exists_update (P := fun place : Interrupting => place.isLooking = true) hl
            (fun hi => by rw [hlooking] at hi; cases hi) }

theorem Attended.interrupt (i : Nat) (h : s.Attended) : (s.interruptStep i).Attended := by
  unfold interruptStep
  cases hi : s.interrupts i with
  | idle =>
    intro hu
    have hlooking : ∃ j, (update s.interrupts i
        (.looking (s.interruptGeneration + 1)) j).isLooking = true :=
      Callers.exists_update_self (P := fun place : Interrupting => place.isLooking = true) _ i rfl
    rcases h hu with h | h | ⟨he, h⟩
    · exact .inl (h.goes rfl rfl rfl (by rw [hi]; exact nofun))
    · exact .inr (.inl h)
    · refine .inr (.inr ⟨he, h.imp_right fun h => ⟨h.id, h.recovery, ?_, h.worker, .inl hlooking⟩⟩)
      exact Callers.forall_update (P := fun place : Interrupting => place.forgetting = false) h.kept rfl
  | looking number =>
    intro hu
    by_cases hid : s.activeOutputRequestId = 0
    · rcases h hu with h | h | ⟨he, h⟩
      · exact .inl (h.goes rfl rfl rfl (by rw [hi]; exact nofun))
      · exact .inr (.inl h)
      · exact .inr (.inr ⟨he, h.imp_right fun h => absurd hid h.id⟩)
    · exact .inl (Cleaner.of_interrupt rfl (decide_eq_true hid))
  | invalidating number outputActive =>
    intro hu
    cases outputActive with
    | true => exact .inl (Cleaner.of_interrupt rfl rfl)
    | false =>
      rcases h hu with h | h | ⟨he, h⟩
      · exact .inl (h.goes rfl rfl rfl (by rw [hi]; exact nofun))
      · exact .inr (.inl h)
      · refine .inr (.inr ⟨he, h.imp_right fun h => ?_⟩)
        have hkept := h.kept i
        rw [hi] at hkept
        cases hkept
  | deciding number outputActive =>
    refine h.goes hi (fun _ => rfl) ?_ rfl ?_
    · intro _ ha
      have ha : outputActive = true := ha
      rw [if_pos (by rw [ha, Bool.true_or])]
      rfl
    · split <;> rfl
  | checking number =>
    intro hu
    refine .inl (Cleaner.of_interrupt rfl ?_)
    split <;> rfl
  | cancelling number => exact fun _ => .inl (Cleaner.of_interrupt rfl rfl)
  | cancellingAction number =>
    unfold cancelActionCall
    dsimp only
    split <;> exact fun _ => .inl (Cleaner.of_interrupt rfl rfl)
  | returning number => exact fun hu => .inl (Cleaner.of_interrupt rfl hu)
  | returned number state =>
    dsimp only
    rw [returnHandled_eq]
    refine h.goes hi eq_of_unsettled_afterReturn ?_
    intro hu hc
    exact absurd ((not_unsettled_of_afterReturn hu).2.symm.trans hc) Bool.false_ne_true
  | leaving number => exact h.goes hi (fun _ => rfl) nofun

theorem Attended.other (h : s.Attended) (hstate : s'.state.unsettled = true → s'.state = s.state)
    (hcleaner : s'.state.unsettled = true → s.Cleaner → s'.Cleaner := by exact fun _ hc => hc)
    (hawaits : (s.outputs s.activeOutputRequestId).awaits s.activeOutputGeneration = true →
      s.activeOutputRequestId ≠ 0 → s.activeOutputGeneration = s.interruptGeneration →
        (s'.outputs s.activeOutputRequestId).awaits s.activeOutputGeneration = true := by exact fun ha _ _ => ha)
    (hint : s'.interrupts = s.interrupts := by rfl) (hworker : s'.worker = s.worker := by rfl)
    (same : SameRequest { s with state := s'.state } s' := by exact ⟨rfl, rfl, rfl, rfl, rfl⟩) : s'.Attended := by
  intro hu
  have hs := hstate hu
  rw [hworker]
  rcases h (hs ▸ hu) with h | h | ⟨he, h⟩
  · exact .inl (hcleaner hu h)
  · exact .inr (.inl h)
  · refine .inr (.inr ⟨hs.trans he, h.imp_right fun h => ?_⟩)
    have hid : s'.activeOutputRequestId = s.activeOutputRequestId := same.id
    have hactive : s'.activeOutputGeneration = s.activeOutputGeneration := same.active
    have hgeneration : s'.interruptGeneration = s.interruptGeneration := same.generation
    exact
      { id := by rw [hid]; exact h.id
        recovery := same.recovery.trans h.recovery
        kept := by rw [hint]; exact h.kept
        worker := by rw [hworker, hid, hactive]; exact h.worker
        found := by
          unfold Looking
          rw [hworker, hid, hactive, hgeneration, hint]
          exact h.found.imp_right fun hf => ⟨hf.1, fun hw => hawaits (hf.2 hw) h.id hf.1⟩ }

theorem Attended.promptFailed (i : Nat) (h : s.Attended) : (s.promptFailedStep i).Attended := by
  have cleans : ∀ {state : InteractionState} {place : PromptFailing}, place.cleaning = true →
      Attended { s with
        state := state, promptFailures := update s.promptFailures i place } := fun hc _ =>
    .inl (.inr (.inl (Callers.exists_update_self (P := fun place : PromptFailing => place.cleaning = true)
      _ i hc)))
  unfold promptFailedStep
  cases hi : s.promptFailures i with
  | idle =>
    dsimp only
    split
    · exact cleans rfl
    · exact h
  | returning => exact fun hu => cleans hu hu
  | returned state =>
    dsimp only
    rw [returnHandled_eq]
    refine h.other eq_of_unsettled_afterReturn ?_
    intro hu hc
    refine hc.imp_right (Or.imp_left fun hc => ?_)
    refine Callers.exists_update (P := fun place : PromptFailing => place.cleaning = true) hc fun hc => ?_
    rw [hi] at hc
    exact absurd ((not_unsettled_of_afterReturn hu).2.symm.trans hc) Bool.false_ne_true

/-! ## The outputs -/

theorem Cleaner.of_output {id : Nat} {place : Output}
    (hout : s'.outputs = update s.outputs id place) (h : place.cleaning = true) : s'.Cleaner := by
  right; right
  rw [hout]
  exact Callers.exists_update_self (P := fun place : Output => place.cleaning = true) _ id h

theorem Cleaner.outputGoes {id : Nat} {place : Output} (h : s.Cleaner)
    (hint : s'.interrupts = s.interrupts) (hprompt : s'.promptFailures = s.promptFailures)
    (hout : s'.outputs = update s.outputs id place)
    (hcleaning : (s.outputs id).cleaning = true → place.cleaning = true) : s'.Cleaner := by
  unfold Cleaner
  rw [hint, hprompt, hout]
  refine h.imp_right (Or.imp_right fun h => ?_)
  exact Callers.exists_update (P := fun place : Output => place.cleaning = true) h hcleaning

theorem Attended.output {id : Nat} {before place : Output} (h : s.Attended) (hat : s.outputs id = before)
    (hstate : s'.state.unsettled = true → s'.state = s.state)
    (hcleaning : s'.state.unsettled = true → before.cleaning = true → place.cleaning = true := by nofun)
    (hawaits : ∀ g, before.awaits g = true → id ≠ s.activeOutputRequestId ∨ g ≠ s.activeOutputGeneration ∨
      g ≠ s.interruptGeneration ∨ id = 0 := by nofun)
    (hout : s'.outputs = update s.outputs id place := by rfl) (hint : s'.interrupts = s.interrupts := by rfl)
    (hprompt : s'.promptFailures = s.promptFailures := by rfl) (hworker : s'.worker = s.worker := by rfl)
    (same : SameRequest { s with state := s'.state } s' := by exact ⟨rfl, rfl, rfl, rfl, rfl⟩) : s'.Attended := by
  subst hat
  refine h.other hstate (fun hu hc => hc.outputGoes hint hprompt hout (hcleaning hu)) (fun ha hne hgen => ?_) hint
    hworker same
  have hother : s.activeOutputRequestId ≠ id := by
    intro he
    rw [he] at ha
    have := hawaits _ ha
    omega
  rw [hout, update_of_ne hother]
  exact ha

theorem Attended.outputStep (id : Nat) (status : VoiceOutputStatus) (nowMs : Int) (h : s.Attended) :
    (s.outputStep id status nowMs).Attended := by
  unfold VoiceInteractionService.outputStep
  cases ho : s.outputs id with
  | none | done => exact h
  | outstanding g request =>
    dsimp only
    split
    · next hstale =>
      refine h.output ho (fun _ => rfl) nofun ?_
      intro g' ha
      have hg : g = g' := of_decide_eq_true ha
      simp only [Bool.or_eq_true, decide_eq_true_eq] at hstale
      omega
    · intro hu
      rcases h hu with hc | hc | ⟨he, hc | hc⟩
      · exact .inl (hc.outputGoes rfl rfl rfl (by rw [ho]; exact nofun))
      · exact .inr (.inl hc)
      · exact .inr (.inr ⟨he, .inl hc⟩)
      · -- the output of the recovery prompt takes the registration
        refine .inl (Cleaner.of_output rfl ?_)
        rw [if_pos hc.recovery]
        rfl
  | completed g request => exact h.output ho (handle_eq_of_unsettled rfl)
  | settingDeadline g request =>
    dsimp only
    split <;> exact h.output ho fun _ => rfl
  | cancelled request =>
    dsimp only
    cases ha : s.accepts .cancelRequested with
    | true => exact fun _ => .inl (Cleaner.of_output rfl rfl)
    | false => exact h.output ho fun _ => handled_state_of_not_accepts ha
  | recovering request => exact h.output ho fun _ => rfl
  | failing request =>
    dsimp only
    cases ha : s.accepts .failure with
    | true => exact fun _ => .inl (Cleaner.of_output rfl rfl)
    | false => exact h.output ho fun _ => handled_state_of_not_accepts ha
  | returning request => exact fun hu => .inl (Cleaner.of_output rfl hu)
  | returned request state =>
    dsimp only
    rw [returnHandled_eq]
    refine h.output ho eq_of_unsettled_afterReturn fun hu hc => ?_
    exact absurd ((not_unsettled_of_afterReturn hu).2.symm.trans hc) Bool.false_ne_true

theorem Attended.aside {who : ConversationEvent → Bool} (h : s.Attended)
    (hs : s.AsideStep who s' ∧ s'.promptFailures = s.promptFailures)
    (hwho : ∀ e, who e = true → e.isCleanup = false) : s'.Attended := by
  obtain ⟨hs, hprompts⟩ := hs
  refine h.other (hs.handles.eq_of_unsettled hwho) (fun _ hc => ?_) (fun ha _ _ => by rw [hs.outputs]; exact ha)
    hs.interrupts hs.toCallerStep.worker ⟨rfl, hs.generation, hs.id, hs.active, hs.recovery⟩
  unfold Cleaner
  rw [hs.interrupts, hprompts, hs.outputs]
  exact hc

/-- An unsettled state has somebody to clean it up after every step that loses no prompt. -/
theorem Attended.step (event : Event) (hn : s.Numbered) (h : s.Attended) (hno : ¬ s.LosesPrompt event) :
    (s.step event).1.Attended := by
  cases event with
  | worker a => exact h.worker a hn hno
  | actionWatchdog => exact h.aside (actionWatchdog_aside s) fun _ he => absurd he Bool.false_ne_true
  | interrupt i => exact h.interrupt i
  | wakeWordDetected | wakePromptCompleted =>
    refine h.aside (handled_aside _ s) fun e he => ?_
    rw [of_decide_eq_true he]
    rfl
  | wakePromptFailed i => exact h.promptFailed i
  | output id status nowMs => exact h.outputStep id status nowMs

/-! ## Whole runs -/

/-- What every run keeps. -/
structure Tended (s : VoiceInteractionService) : Prop where
  numbered : s.Numbered
  owned : s.Owned
  attended : s.Attended

theorem tended_start (config : VoiceConfig) : (start config).Tended := by
  refine ⟨numbered_start config, fun hb => ?_, fun hu => ?_⟩
  · unfold start at hb
    dsimp only at hb
    split at hb <;> cases hb
  · unfold start at hu
    dsimp only at hu
    split at hu <;> cases hu

theorem Tended.step (event : Event) (h : s.Tended)
    (hno : ¬ s.Orphans event ∧ ¬ s.LosesPrompt event) : (s.step event).1.Tended :=
  ⟨h.numbered.step event, h.owned.step event h.numbered hno.1, h.attended.step event h.numbered hno.2⟩

/-- No call is in progress, and every output that the sink took has completed. -/
structure Quiet (s : VoiceInteractionService) : Prop where
  worker : s.worker.outside = true
  interrupts : ∀ i, s.interrupts i = .idle
  promptFailures : ∀ i, s.promptFailures i = .idle
  outputs : ∀ id, (s.outputs id).settled = true

theorem Quiet.not_looking (h : s.Quiet) : ¬ s.Looking := by
  rintro ⟨i, hi⟩
  rw [h.interrupts i] at hi
  cases hi

theorem Quiet.not_armed (h : s.Quiet) : ¬ s.Armed := by
  rintro ⟨i, hi⟩
  rw [h.interrupts i] at hi
  cases hi

theorem Quiet.not_cleaner (h : s.Quiet) : ¬ s.Cleaner := by
  rintro (⟨i, hi⟩ | ⟨i, hi⟩ | ⟨id, hid⟩)
  · rw [h.interrupts i] at hi
    cases hi
  · rw [h.promptFailures i] at hi
    cases hi
  · rw [Output.cleaning_of_settled (h.outputs id)] at hid
    cases hid

theorem Owned.not_busy (h : s.Owned) (hq : s.Quiet) : s.state.busy = false := by
  by_contra hb
  have hw := hq.worker
  rcases h (eq_true_of_ne_false hb) with h | h | ⟨_, ⟨id, h⟩ | ⟨_, _, h⟩⟩
  · exact hq.not_armed h
  · cases hs : s.worker <;> rw [hs] at h hw <;> first | exact h | cases hw
  · rw [Output.settling_of_settled (hq.outputs id)] at h
    cases h
  · have hawaits := h.2.2
    rw [Output.awaits_of_settled (hq.outputs _)] at hawaits
    cases hawaits

theorem Attended.not_unsettled (h : s.Attended) (hq : s.Quiet) : s.state.unsettled = false := by
  by_contra hu
  have hfree := Worker.free_of_outside hq.worker
  rcases h (eq_true_of_ne_false hu) with h | h | ⟨_, h | h⟩
  · exact hq.not_cleaner h
  · rw [Worker.cleaning_of_free hfree] at h
    cases h
  · rw [Worker.willPrompt_of_free hfree] at h
    cases h
  · rcases h.found with h | h
    · exact hq.not_looking h
    · have hawaits := h.2 hfree
      rw [Output.awaits_of_settled (hq.outputs _)] at hawaits
      cases hawaits

/-- **No wedge.**  When no call is in progress and every output has completed, no request hangs, and a
    transcript is accepted again, unless a wake prompt is still to complete. -/
theorem not_wedged (config : VoiceConfig) (events : List Event)
    (hno : StepRun.Along step (fun s event => ¬ s.Orphans event ∧ ¬ s.LosesPrompt event)
      (start config) events)
    (hq : (after config events).Quiet) :
    (after config events).state.wedged = false ∧
      ((after config events).config.enabled = true → (after config events).state ≠ .waking →
        (after config events).accepts .speechSegmentReady = true) := by
  have h : (after config events).Tended :=
    StepRun.Along.invariant (fun s event h hs => h.step event hs) (tended_start config) hno
  have hbusy := h.owned.not_busy hq
  have hunsettled := h.attended.not_unsettled hq
  have hrunning := running_after config events
  unfold Running at hrunning
  unfold accepts
  cases hs : (after config events).state <;> rw [hs] at hbusy hunsettled hrunning <;>
    simp_all [wedged, busy, unsettled, handle_eq, nextState]

theorem not_wedged_answered :
    (after {} (.worker { transcript := some "hello" } :: List.replicate 10 (.worker {}))).state.wedged =
      false :=
  (not_wedged {} (.worker { transcript := some "hello" } :: List.replicate 10 (.worker {}))
    ⟨⟨id, id⟩, ⟨id, id⟩, ⟨id, id⟩, ⟨fun h => h.2.1 rfl, id⟩, ⟨id, id⟩, ⟨id, id⟩, ⟨id, id⟩, ⟨id, id⟩,
      ⟨id, id⟩, ⟨id, id⟩, ⟨id, id⟩, trivial⟩
    ⟨rfl, fun _ => rfl, fun _ => rfl, fun _ => rfl⟩).1

/-- A request that is overtaken before its first event leaves the state wedged. -/
theorem wedged_overtaken :
    ¬ ∀ config events, (after config events).Quiet → (after config events).state.wedged = false := by
  intro h
  have hwedged := h {}
    (.worker { transcript := some "hello" } :: List.replicate 2 (.worker {}) ++
      List.replicate 5 (.interrupt 0) ++ List.replicate 3 (.worker {}))
    ⟨rfl, fun i => by rcases i with _ | i <;> rfl, fun _ => rfl, fun _ => rfl⟩
  exact absurd hwedged (by decide)

end VoiceInteractionService

end Cockpit.Voice
