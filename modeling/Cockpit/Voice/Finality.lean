/-
  An `Interrupt` is final: once it has returned, no request whose generation was read before its increment gets
  to the sink, and none starts an action with a token that is not cancelled.
-/
import Cockpit.Voice.InteractionSteps

namespace Cockpit.Voice

open InteractionState Function

/-- The generation that the increment made. -/
def Interrupting.number? : Interrupting → Option Nat
  | .idle => none
  | .looking n | .invalidating n _ | .deciding n _ | .checking n | .cancelling n
  | .cancellingAction n | .returning n | .returned n _ | .leaving n => some n

/-- It found the conversation inactive, or has cancelled it. -/
def Interrupting.passed? : Interrupting → Option Nat
  | .cancellingAction n | .returning n | .returned n _ | .leaving n => some n
  | _ => none

/-- Behind a check of the generation, and before an event that only a busy state accepts. -/
def Worker.checked? : Worker → Option Nat
  | .transcriptReady g _ | .llmCall g _ | .llmDone g _ | .beginningAction g _ | .selectingAction g _ _
  | .selectingOpen g _ | .publishing g _ | .responding g _ _ => some g
  | _ => none

/-- Nothing stops it before `Submit` any more. -/
def Worker.committed? : Worker → Option Nat
  | .publishingPrompt g | .registering g _ _ | .submitting g _ _ => some g
  | _ => none

/-- The action call is published, its check is to come. -/
def Worker.isStarting : Worker → Bool
  | .startingAction _ _ _ => true
  | _ => false

namespace VoiceInteractionService

variable {s s' : VoiceInteractionService}

/-- Some `Interrupt` that is newer than the generation has passed the state, or has returned. -/
def Passed (s : VoiceInteractionService) (generation : Nat) : Prop :=
  generation < s.interrupted ∨ ∃ i n, (s.interrupts i).passed? = some n ∧ generation < n

/-- The worker starts this action next. -/
def Starts (s : VoiceInteractionService) (generation token : Nat) : Prop :=
  ∃ result, s.worker = .startingAction generation result token

/-- The step is the return of an `Interrupt`, while the worker is committed for an older request. -/
def Overtakes (s : VoiceInteractionService) : Event → Prop
  | .interrupt i =>
    match s.interrupts i with
    | .leaving n =>
      (∃ g, s.worker.committed? = some g ∧ g < n) ∨
        ∃ g token, s.Starts g token ∧ g < n ∧ s.cancellationRequested token = false
    | _ => False
  | _ => False

theorem overtakes_leaving {i n : Nat} (hi : s.interrupts i = .leaving n) :
    s.Overtakes (.interrupt i) ↔
      (∃ g, s.worker.committed? = some g ∧ g < n) ∨
        ∃ g token, s.Starts g token ∧ g < n ∧ s.cancellationRequested token = false := by
  unfold Overtakes
  dsimp only
  rw [hi]

/-- What may be called, with the `Interrupt`s that have returned. -/
def Allows (s : VoiceInteractionService) : Effect → Prop
  | .submit generation _ => s.interrupted ≤ generation
  | .execute generation token =>
    generation < s.interrupted → s.cancellationRequested token = true

/-- The step's effect is allowed. -/
def Obeys (s : VoiceInteractionService) (event : Event) : Prop :=
  ∀ effect, (s.step event).2 = some effect → s.Allows effect

/-- What the worker holds is newer than every `Interrupt` it has not overtaken. -/
structure Final (s : VoiceInteractionService) : Prop where
  numbers : ∀ i n, (s.interrupts i).number? = some n → n ≤ s.interruptGeneration
  interrupted : s.interrupted ≤ s.interruptGeneration
  checked : ∀ g, s.worker.checked? = some g → s.Passed g → s.state.busy = false
  committed : ∀ g, s.worker.committed? = some g → s.interrupted ≤ g
  starting : ∀ g token, s.Starts g token → g < s.interrupted → s.cancellationRequested token = true

theorem Final.not_passed (h : s.Final) : ¬ s.Passed s.interruptGeneration := by
  rintro (hlt | ⟨i, n, hn, hlt⟩)
  · have := h.interrupted
    omega
  · have hnum : (s.interrupts i).number? = some n := by
      cases hi : s.interrupts i <;> rw [hi] at hn <;> first | exact hn | cases hn
    have := h.numbers i n hnum
    omega

theorem Final.leavesWorker {who : ConversationEvent → Bool} (h : s.Final) (hs : s.LeavesWorker s')
    (hhandles : s.Handles who s') (hwho : ∀ e, who e = true → e.isProgress = false) : s'.Final where
  numbers i n := by
    rw [hs.interrupts, hs.generation]
    exact h.numbers i n
  interrupted := by
    rw [hs.interrupted, hs.generation]
    exact h.interrupted
  checked g hg hp := by
    unfold Passed at hp
    rw [hs.interrupted, hs.interrupts] at hp
    rw [hs.worker] at hg
    have hidle := h.checked g hg hp
    by_contra hb
    rw [hhandles.eq_of_busy hwho (eq_true_of_ne_false hb)] at hb
    exact hb hidle
  committed g hg := by
    rw [hs.worker] at hg
    rw [hs.interrupted]
    exact h.committed g hg
  starting g token hg hlt := by
    unfold Starts at hg
    rw [hs.worker] at hg
    rw [hs.interrupted] at hlt
    exact hs.cancellationRequested token (h.starting g token hg hlt)

/-! ## The worker -/

theorem Final.move (h : s.Final) (hgen : s'.interruptGeneration = s.interruptGeneration)
    (hinterrupts : s'.interrupts = s.interrupts) (hinterrupted : s'.interrupted = s.interrupted)
    (hchecked : ∀ g, s'.worker.checked? = some g → s.Passed g → s'.state.busy = false)
    (hcommitted : ∀ g, s'.worker.committed? = some g → s.interrupted ≤ g)
    (hstarting : ∀ g token, s'.Starts g token → s.interrupted ≤ g) : s'.Final where
  numbers i n := by
    rw [hinterrupts, hgen]
    exact h.numbers i n
  interrupted := by
    rw [hinterrupted, hgen]
    exact h.interrupted
  checked g hg hp := by
    unfold Passed at hp
    rw [hinterrupted, hinterrupts] at hp
    exact hchecked g hg hp
  committed g hg := by
    rw [hinterrupted]
    exact hcommitted g hg
  starting g token hg hlt := by
    rw [hinterrupted] at hlt
    exact absurd (hstarting g token hg) (Nat.not_le.mpr hlt)

theorem Final.lets_go (h : s.Final) (hgen : s'.interruptGeneration = s.interruptGeneration)
    (hinterrupts : s'.interrupts = s.interrupts) (hinterrupted : s'.interrupted = s.interrupted)
    (hchecked : s'.worker.checked? = none) (hcommitted : s'.worker.committed? = none)
    (hstarting : s'.worker.isStarting = false) : s'.Final := by
  refine h.move hgen hinterrupts hinterrupted (fun g hg _ => ?_) (fun g hg => ?_) ?_
  · cases hchecked.symm.trans hg
  · cases hcommitted.symm.trans hg
  · rintro g token ⟨result, hs⟩
    rw [hs] at hstarting
    cases hstarting

variable {event : ConversationEvent}

theorem Final.not_passed_of_accepts {g : Nat} (h : s.Final) (hg : s.worker.checked? = some g)
    (ha : s.accepts event = true)
    (hevent : ∀ state : InteractionState, (state.nextState event).isSome = true → state.busy = true) :
    ¬ s.Passed g := by
  intro hp
  have hidle := h.checked g hg hp
  rw [accepts, handle_eq] at ha
  rw [hevent s.state ha] at hidle
  cases hidle

theorem Final.advance {accepted refused : Worker} {g : Nat} (h : s.Final) (hg : s.worker.checked? = some g)
    (hevent : ∀ state : InteractionState, (state.nextState event).isSome = true → state.busy = true)
    (hacc : ∀ g', accepted.checked? = some g' ∨ accepted.committed? = some g' ∨ (∃ result token, accepted =
      .startingAction g' result token) → g' = g)
    (hrefused : refused.checked? = none ∧ refused.committed? = none ∧ refused.isStarting = false) :
    (s.handleThen event accepted refused).1.Final := by
  unfold VoiceInteractionService.handleThen goTo
  cases ha : s.accepts event with
  | true =>
    have hp := h.not_passed_of_accepts hg ha hevent
    have hle : s.interrupted ≤ g := Nat.not_lt.mp fun hlt => hp (.inl hlt)
    refine h.move rfl rfl rfl (fun g' hg' hp' => ?_) (fun g' hg' => ?_) ?_
    · rw [hacc g' (.inl hg')] at hp'
      exact absurd hp' hp
    · rw [hacc g' (.inr (.inl hg'))]
      exact hle
    · rintro g' token ⟨result, hs⟩
      rw [hacc g' (.inr (.inr ⟨result, token, hs⟩))]
      exact hle
  | false => exact h.lets_go rfl rfl rfl hrefused.1 hrefused.2.1 hrefused.2.2

theorem Final.worker (a : Answers) (h : s.Final) : (s.workerStep a).1.Final := by
  have hcur := h.not_passed
  have hinterrupted := h.interrupted
  have hchecked := h.checked
  have hcommitted := h.committed
  unfold workerStep
  cases hw : s.worker with
  | idle =>
    have moved : ∀ g text deadline,
        Final { s with worker := .called g text } ∧
          Final { s with worker := .expiring g, followUpDeadline := deadline } := fun _ _ _ =>
      ⟨h.lets_go rfl rfl rfl rfl rfl rfl, h.lets_go rfl rfl rfl rfl rfl rfl⟩
    dsimp only
    split
    · split
      · exact (moved _ _ none).1
      · exact h
    · split
      · exact h
      · split
        · exact h
        · exact (moved _ "" _).2
  | segmentReady g =>
    dsimp only
    split <;> exact h.lets_go rfl rfl rfl rfl rfl rfl
  | expired =>
    unfold handleThen
    dsimp only
    split <;> exact h.lets_go rfl rfl rfl rfl rfl rfl
  | transcriptReady g result =>
    refine h.advance (by rw [hw]; rfl) (fun state => by cases state <;> decide) ?_ ⟨rfl, rfl, rfl⟩
    intro g' hg'
    grind [Worker.checked?, Worker.committed?, route]
  | selectingAction g result token =>
    refine h.advance (by rw [hw]; rfl) (fun state => by cases state <;> decide) ?_ ?_
    · intro g' hg'
      grind [Worker.checked?, Worker.committed?]
    · cases token <;> exact ⟨rfl, rfl, rfl⟩
  | selectingOpen g result | responding g id text =>
    refine h.advance (by rw [hw]; rfl) (fun state => by cases state <;> decide) ?_ ⟨rfl, rfl, rfl⟩
    intro g' hg'
    grind [Worker.checked?, Worker.committed?]
  | abandoningAction g token | endingAction g result token execution timedOut =>
    unfold endActionCall
    dsimp only
    split <;> exact h.lets_go rfl rfl rfl rfl rfl rfl
  | submitting g id recovery =>
    dsimp only
    split <;> exact h.lets_go rfl rfl rfl rfl rfl rfl
  | unregistering g id recovery =>
    dsimp only [goTo]
    cases recovery <;> split <;> exact h.lets_go rfl rfl rfl rfl rfl rfl
  | failing g prompt =>
    unfold handleThen
    dsimp only
    cases prompt && s.config.output <;> split <;> exact h.lets_go rfl rfl rfl rfl rfl rfl
  | returned snapshot =>
    dsimp only
    rw [returnHandled_eq]
    exact h.lets_go rfl rfl rfl rfl rfl rfl
  | _ =>
    rw [hw] at hchecked hcommitted
    refine h.move rfl rfl rfl (fun g' hg hp => ?_) (fun g' hg => ?_) (fun g' token hg => ?_)
    · dsimp only [goTo, beginActionCall] at hg ⊢
      grind [Worker.checked?, route]
    · dsimp only [goTo, beginActionCall] at hg
      grind [Worker.committed?, route]
    · dsimp only [goTo, beginActionCall, Starts] at hg
      grind [route]

/-! ## The `Interrupt`s -/

theorem Final.goes {i : Nat} {place : Interrupting} (h : s.Final) (hbusy : s'.state.busy = true → s'.state = s.state)
    (hgen : s'.interruptGeneration = s.interruptGeneration)
    (hinterrupts : s'.interrupts = update s.interrupts i place)
    (hinterrupted : s'.interrupted = s.interrupted) (hworker : s'.worker = s.worker)
    (hcancel : ∀ token, s.cancellationRequested token = true → s'.cancellationRequested token = true)
    (hnum : ∀ n, place.number? = some n → (s.interrupts i).number? = some n)
    (hpassed : ∀ n, place.passed? = some n →
      (s.interrupts i).passed? = some n ∨ s'.state.busy = false) : s'.Final where
  numbers := by
    rw [hinterrupts, hgen]
    exact Callers.forall_update (P := fun place : Interrupting =>
      ∀ n, place.number? = some n → n ≤ s.interruptGeneration) h.numbers
      fun n hn => h.numbers i n (hnum n hn)
  interrupted := by
    rw [hinterrupted, hgen]
    exact h.interrupted
  checked g hg hp := by
    by_contra hb
    rw [hworker] at hg
    apply hb
    rw [hbusy (eq_true_of_ne_false hb)]
    refine h.checked g hg ?_
    rcases hp with hp | ⟨j, n, hn, hlt⟩
    · rw [hinterrupted] at hp
      exact .inl hp
    · rw [hinterrupts] at hn
      by_cases hj : j = i
      · subst hj
        rw [update_self] at hn
        exact .inr ⟨j, n, (hpassed n hn).resolve_right hb, hlt⟩
      · rw [update_of_ne hj] at hn
        exact .inr ⟨j, n, hn, hlt⟩
  committed g hg := by
    rw [hworker] at hg
    rw [hinterrupted]
    exact h.committed g hg
  starting g token hg hlt := by
    unfold Starts at hg
    rw [hworker] at hg
    rw [hinterrupted] at hlt
    exact hcancel token (h.starting g token hg hlt)

theorem Final.begins (i : Nat) (h : s.Final) :
    Final { s with
      interruptGeneration := s.interruptGeneration + 1
      interrupts := update s.interrupts i (.looking (s.interruptGeneration + 1)) } where
  numbers := by
    refine Callers.forall_update (P := fun place : Interrupting =>
      ∀ n, place.number? = some n → n ≤ s.interruptGeneration + 1) ?_ ?_
    · exact fun j n hn => Nat.le_succ_of_le (h.numbers j n hn)
    · intro n hn
      cases hn
      exact Nat.le_refl _
  interrupted := Nat.le_succ_of_le h.interrupted
  checked g hg hp := by
    refine h.checked g hg (hp.imp_right ?_)
    rintro ⟨j, n, hn, hlt⟩
    by_cases hj : j = i
    · subst hj
      dsimp only at hn
      rw [update_self] at hn
      cases hn
    · dsimp only at hn
      rw [update_of_ne hj] at hn
      exact ⟨j, n, hn, hlt⟩
  committed := h.committed
  starting := h.starting

theorem Final.leaves {i n : Nat} (h : s.Final) (hi : s.interrupts i = .leaving n)
    (hno : ¬ s.Overtakes (.interrupt i)) :
    Final { s with
      interrupted := max s.interrupted n, interrupts := update s.interrupts i .idle } where
  numbers :=
    Callers.forall_update (P := fun place : Interrupting =>
      ∀ n, place.number? = some n → n ≤ s.interruptGeneration) h.numbers nofun
  interrupted := Nat.max_le.mpr ⟨h.interrupted, h.numbers i n (by rw [hi]; rfl)⟩
  checked g hg hp := by
    refine h.checked g hg ?_
    rcases hp with hp | ⟨j, m, hm, hlt⟩
    · dsimp only at hp
      by_cases hlt : g < n
      · exact .inr ⟨i, n, by rw [hi]; rfl, hlt⟩
      · exact .inl (by omega)
    · dsimp only at hm
      by_cases hj : j = i
      · subst hj
        rw [update_self] at hm
        cases hm
      · rw [update_of_ne hj] at hm
        exact .inr ⟨j, m, hm, hlt⟩
  committed g hg := by
    rw [overtakes_leaving hi] at hno
    refine Nat.max_le.mpr ⟨h.committed g hg, Nat.not_lt.mp fun hlt => hno (.inl ⟨g, hg, hlt⟩)⟩
  starting g token hg hlt := by
    rw [overtakes_leaving hi] at hno
    dsimp only at hlt ⊢
    by_cases hold : g < s.interrupted
    · exact h.starting g token hg hold
    · by_contra hc
      exact hno (.inr ⟨g, token, hg, by omega, eq_false_of_ne_true hc⟩)

theorem Final.interrupt (i : Nat) (h : s.Final) (hno : ¬ s.Overtakes (.interrupt i)) : (s.interruptStep i).Final := by
  unfold interruptStep
  cases hi : s.interrupts i with
  | idle => exact h.begins i
  | leaving n => exact h.leaves hi hno
  | deciding n outputActive =>
    refine h.goes (fun _ => rfl) rfl rfl rfl rfl (fun _ hc => hc) ?_ ?_
    · rw [hi]
      split <;> exact fun _ hn => hn
    · split
      · exact nofun
      · next hidle =>
        intro _ _
        right
        by_contra hb
        rw [isActive_of_busy (eq_true_of_ne_false hb), Bool.or_true] at hidle
        exact hidle rfl
  | checking n =>
    refine h.goes (fun _ => rfl) rfl rfl rfl rfl (fun _ hc => hc) ?_ ?_
    · rw [hi]
      split <;> exact fun _ hn => hn
    · split
      · exact nofun
      · next hidle =>
        intro _ _
        right
        by_contra hb
        exact hidle (isActive_of_busy (eq_true_of_ne_false hb))
  | cancelling n =>
    exact h.goes (handle_eq_of_busy rfl) rfl rfl rfl rfl (fun _ hc => hc)
      (by rw [hi]; exact fun _ hn => hn) fun _ _ => .inr (busy_handle_cancelRequested s.state)
  | cancellingAction n =>
    obtain ⟨requested, cancelled, heq, hcancel⟩ := cancelActionCall_eq s
    dsimp only
    rw [heq]
    exact h.goes (fun _ => rfl) rfl rfl rfl rfl hcancel (by rw [hi]; exact fun _ hn => hn)
      (by rw [hi]; exact fun _ hn => .inl hn)
  | returned n snapshot =>
    dsimp only
    rw [returnHandled_eq]
    exact h.goes eq_of_busy_afterReturn rfl rfl rfl rfl (fun _ hc => hc) (by rw [hi]; exact fun _ hn => hn)
      (by rw [hi]; exact fun _ hn => .inl hn)
  | _ =>
    exact h.goes (fun _ => rfl) rfl rfl rfl rfl (fun _ hc => hc) (by rw [hi]; exact fun _ hn => hn)
      (by rw [hi]; exact fun _ hn => .inl hn)

/-! ## Whole runs -/

theorem final_start (config : VoiceConfig) : (start config).Final where
  numbers := nofun
  interrupted := Nat.le_refl _
  checked := nofun
  committed := nofun
  starting _ _ _ hlt := absurd hlt (Nat.not_lt_zero _)

/-- What the worker holds stays newer, unless an `Interrupt` overtakes it. -/
theorem Final.step (event : Event) (h : s.Final) (hno : ¬ s.Overtakes event) : (s.step event).1.Final := by
  cases event with
  | worker a => exact h.worker a
  | actionWatchdog =>
    exact h.leavesWorker (actionWatchdog_aside s).1.toLeavesWorker (actionWatchdog_aside s).1.handles
      fun _ he => absurd he Bool.false_ne_true
  | interrupt i => exact h.interrupt i hno
  | wakeWordDetected | wakePromptCompleted =>
    refine h.leavesWorker (handled_aside _ s).1.toLeavesWorker (handled_aside _ s).1.handles fun e he => ?_
    rw [of_decide_eq_true he]
    rfl
  | wakePromptFailed i =>
    exact h.leavesWorker (promptFailedStep_aside i s).toLeavesWorker (promptFailedStep_aside i s).handles
      fun e => ConversationEvent.not_isProgress_of_ofOthers ∘ ConversationEvent.ofOthers_of_ofCallers
  | output id status nowMs =>
    obtain ⟨hleaves, -, hhandles⟩ := outputStep_leaves id status nowMs s
    exact h.leavesWorker hleaves hhandles fun e => ConversationEvent.not_isProgress_of_ofOthers

/-- Only these steps of the worker have an effect. -/
theorem workerStep_effect {a : Answers} {effect : Effect} (h : (s.workerStep a).2 = some effect) :
    (∃ g id recovery, s.worker = .submitting g id recovery ∧ effect = .submit g recovery) ∨
      ∃ g token, s.Starts g token ∧ effect = .execute g token := by
  unfold workerStep at h
  cases hw : s.worker with
  | idle =>
    rw [hw] at h
    dsimp only at h
    split at h
    · split at h <;> cases h
    · split at h
      · cases h
      · split at h <;> cases h
  | segmentReady g =>
    rw [hw] at h
    dsimp only at h
    split at h <;> cases h
  | startingAction g result token =>
    rw [hw] at h
    cases h
    exact .inr ⟨g, token, ⟨result, hw⟩, rfl⟩
  | submitting g id recovery =>
    rw [hw] at h
    cases h
    exact .inl ⟨g, id, recovery, rfl, rfl⟩
  | _ =>
    rw [hw] at h
    cases h

theorem Final.obeys (event : Event) (h : s.Final) : s.Obeys event := by
  intro effect heffect
  cases event with
  | worker a =>
    rcases workerStep_effect heffect with ⟨g, id, recovery, hw, rfl⟩ | ⟨g, token, hs, rfl⟩
    · exact h.committed g (by rw [hw]; rfl)
    · exact h.starting g token hs
  | _ => cases heffect

/-- **An `Interrupt` is final.**  If none returns while the worker is committed for an older request,
    nothing is handed to the sink for a request that an `Interrupt` which has returned was called
    after, and no action is started for it, unless with a token that is cancelled. -/
theorem interrupt_final (config : VoiceConfig) (events : List Event)
    (hno : StepRun.Along step (fun s event => ¬ s.Overtakes event) (start config) events) :
    StepRun.Along step Obeys (start config) events :=
  StepRun.Along.of_invariant (fun _ event h hs => h.step event hs) (fun _ event h _ => h.obeys event)
    (final_start config) hno

theorem interrupt_final_answering :
    StepRun.Along step Obeys (start {})
      (.worker { transcript := some "hello" } :: .worker {} :: .worker {} :: .worker {} ::
        List.replicate 10 (.interrupt 0)) :=
  interrupt_final {}
    (.worker { transcript := some "hello" } :: .worker {} :: .worker {} :: .worker {} ::
      List.replicate 10 (.interrupt 0))
    ⟨id, id, id, id, id, id, id, id, id, id, id, id, id,
      (by rintro (⟨_, h, _⟩ | ⟨_, _, ⟨_, h⟩, _⟩) <;> cases h), trivial⟩

theorem submitted_after_interrupt :
    ¬ ∀ config events, StepRun.Along step Obeys (start config) events := by
  intro h
  have hlaw := h {}
    (.worker { transcript := some "hello" } :: List.replicate 3 (.worker {}) ++
      .worker { assistant := .result { responseText := "hi" } } :: List.replicate 5 (.worker {}) ++
      List.replicate 10 (.interrupt 0) ++ [.worker {}] ++ [.worker {}])
  have hlast := ((StepRun.along_append _ _ _).mp hlaw).2.1
  exact Nat.not_succ_le_zero 0 (hlast (.submit 0 false) rfl)

end VoiceInteractionService

end Cockpit.Voice
