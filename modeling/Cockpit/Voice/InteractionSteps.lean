/-
  What the steps of `VoiceInteractionService` can do.
-/
import Cockpit.Voice.Interaction

namespace Cockpit.Voice

/-- The events by which the worker takes a request on. -/
def ConversationEvent.isProgress : ConversationEvent → Bool
  | .speechSegmentReady | .transcriptReady | .actionSelected | .openRequestSelected
  | .responseReady => true
  | _ => false

/-- The events by which a request is cancelled or fails. -/
def ConversationEvent.isCleanup : ConversationEvent → Bool
  | .cancelRequested | .failure => true
  | _ => false

/-- The events that the worker reports. -/
def ConversationEvent.ofWorker : ConversationEvent → Bool
  | .followUpExpired | .failure | .recoveryCompleted | .requestCompleted => true
  | event => event.isProgress

/-- The events that `Interrupt` and `NotifyWakePromptFailed` report. -/
def ConversationEvent.ofCallers : ConversationEvent → Bool
  | .cancelRequested | .failure | .recoveryCompleted | .requestCompleted => true
  | _ => false

/-- The events of the worker, but for the one that begins a request. -/
def ConversationEvent.ofWork (event : ConversationEvent) : Bool :=
  event.ofWorker && event ≠ .speechSegmentReady

/-- And those that the outputs report. -/
def ConversationEvent.ofOthers : ConversationEvent → Bool
  | .playbackCompleted => true
  | event => event.ofCallers

variable {event : ConversationEvent}

theorem ConversationEvent.ofOthers_of_ofCallers (h : event.ofCallers = true) : event.ofOthers = true := by
  cases event <;> first | rfl | cases h

theorem ConversationEvent.not_isProgress_of_ofOthers (h : event.ofOthers = true) : event.isProgress = false := by
  cases event <;> first | rfl | cases h

namespace InteractionState

/-! ## Single events -/

variable {event : ConversationEvent} {state : InteractionState}

theorem handle_eq_of_busy (he : event.isProgress = false) (h : ((state.handle event).getD state).busy = true) :
    (state.handle event).getD state = state := by
  rw [handle_eq] at h ⊢
  cases state <;> cases event <;> first | rfl | exact absurd he (by decide) | exact absurd h (by decide)

theorem busy_handle_failure (state : InteractionState) : ((state.handle .failure).getD state).busy = false := by
  cases state <;> rfl

theorem busy_handle_cancelRequested (state : InteractionState) :
    ((state.handle .cancelRequested).getD state).busy = false := by
  cases state <;> rfl

theorem handle_playbackCompleted_ne_speaking (state : InteractionState) :
    (state.handle .playbackCompleted).getD state ≠ speaking := by
  cases state <;> decide

theorem handle_eq_of_followUp (he : event ≠ .playbackCompleted) (h : (state.handle event).getD state = followUp) :
    (state.handle event).getD state = state := by
  rw [handle_eq] at h ⊢
  cases state <;> cases event <;> first | rfl | exact absurd rfl he | exact absurd h (by decide)

theorem handle_eq_of_speaking (he : event ≠ .responseReady) (h : (state.handle event).getD state = speaking) :
    (state.handle event).getD state = state := by
  rw [handle_eq] at h ⊢
  cases state <;> cases event <;> first | rfl | exact absurd rfl he | exact absurd h (by decide)

theorem handle_eq_of_unsettled (he : event.isCleanup = false)
    (h : ((state.handle event).getD state).unsettled = true) : (state.handle event).getD state = state := by
  rw [handle_eq] at h ⊢
  cases state <;> cases event <;> first | rfl | exact absurd he (by decide) | exact absurd h (by decide)

end InteractionState

/-- Has no request yet. -/
def Worker.free : Worker → Bool
  | .idle | .expiring _ | .expired | .called _ _ | .beginning _ | .resetting _ | .segmentReady _ => true
  | _ => false

/-- The id of the response that the worker is about to submit. -/
def Worker.id? : Worker → Option Nat
  | .responding _ id _ | .registering _ id _ | .submitting _ id _ => some id
  | _ => none

namespace VoiceInteractionService

variable {s : VoiceInteractionService}

/-! ## Events -/

variable {event : ConversationEvent}

theorem accepts_iff : s.accepts event = true ↔ ∃ next, s.state.nextState event = some next := by
  rw [accepts, InteractionState.handle_eq, Option.isSome_iff_exists]

variable {next : InteractionState}

theorem handled_state (h : s.state.nextState event = some next) : (s.handled event).state = next := by
  show (s.state.handle event).getD s.state = next
  rw [InteractionState.handle_eq, h, Option.getD_some]

theorem handled_speechSegmentReady (h : s.accepts .speechSegmentReady = true) :
    (s.handled .speechSegmentReady).state = .recognizing := by
  obtain ⟨next, hnext⟩ := accepts_iff.mp h
  rw [handled_state hnext]
  simp only [InteractionState.nextState] at hnext
  split at hnext <;> cases hnext
  rfl

theorem handled_failure (h : s.accepts .failure = true) : (s.handled .failure).state = .errorRecovery := by
  obtain ⟨next, hnext⟩ := accepts_iff.mp h
  rw [handled_state hnext]
  simp only [InteractionState.nextState] at hnext
  split at hnext <;> cases hnext
  rfl

theorem handled_state_of_not_accepts (h : s.accepts event = false) : (s.handled event).state = s.state := by
  show (s.state.handle event).getD s.state = s.state
  unfold accepts at h
  cases hs : s.state.handle event with
  | none => rfl
  | some next =>
    rw [hs] at h
    cases h

/-! ## Returning to idle -/

/-- The state that `ReturnToIdle` leaves behind when its snapshot was `snapshot`. -/
def afterReturn (snapshot state : InteractionState) : InteractionState :=
  match returnEvent snapshot with
  | some event => (state.handle event).getD state
  | none => state

theorem returnHandled_eq (s : VoiceInteractionService) (snapshot : InteractionState) :
    s.returnHandled snapshot = { s with state := afterReturn snapshot s.state } := by
  unfold returnHandled afterReturn
  cases returnEvent snapshot <;> rfl

theorem afterReturn_eq (snapshot state : InteractionState) :
    afterReturn snapshot state = .idle ∨ afterReturn snapshot state = state := by
  cases snapshot <;> cases state <;> first | exact .inl rfl | exact .inr rfl

variable {state snapshot : InteractionState}

theorem eq_of_afterReturn (h : afterReturn snapshot state = next) (hne : next ≠ .idle) :
    afterReturn snapshot state = state :=
  (afterReturn_eq snapshot state).resolve_left (h ▸ hne)

theorem eq_of_busy_afterReturn (h : (afterReturn snapshot state).busy = true) : afterReturn snapshot state = state := by
  refine (afterReturn_eq snapshot state).resolve_left fun hidle => ?_
  rw [hidle] at h
  cases h

theorem eq_of_unsettled_afterReturn (h : (afterReturn snapshot state).unsettled = true) :
    afterReturn snapshot state = state := by
  refine (afterReturn_eq snapshot state).resolve_left fun hidle => ?_
  rw [hidle] at h
  cases h

theorem afterReturn_unsettled (h : snapshot.unsettled = true) (hs : state.unsettled = true) :
    afterReturn snapshot state = .idle := by
  cases snapshot <;> cases state <;>
    first | rfl | exact absurd h (by decide) | exact absurd hs (by decide)

theorem afterReturn_busy (hb : state.busy = true) (h : state ≠ .recognizing) : afterReturn state state = .idle := by
  cases state <;> first | rfl | exact absurd rfl h | exact absurd hb (by decide)

/-! ## The state is only changed by events -/

/-- A step leaves the state, or handles one of the events of `who`. -/
def Handles (who : ConversationEvent → Bool) (s s' : VoiceInteractionService) : Prop :=
  s'.config = s.config ∧
    (s'.state = s.state ∨
      ∃ event, who event = true ∧ s'.state = (s.state.handle event).getD s.state)

variable {s' : VoiceInteractionService} {who : ConversationEvent → Bool}

theorem Handles.mono {who' : ConversationEvent → Bool} (h : ∀ event, who event = true → who' event = true)
    (hs : s.Handles who s') : s.Handles who' s' :=
  hs.imp_right (Or.imp_right fun ⟨event, he, hstate⟩ => ⟨event, h event he, hstate⟩)

theorem Handles.eq_of_busy (h : s.Handles who s') (hwho : ∀ e, who e = true → e.isProgress = false)
    (hb : s'.state.busy = true) : s'.state = s.state := by
  obtain ⟨_, h | ⟨event, he, h⟩⟩ := h
  · exact h
  · rw [h] at hb ⊢
    exact InteractionState.handle_eq_of_busy (hwho event he) hb

theorem Handles.eq_of_unsettled (h : s.Handles who s') (hwho : ∀ e, who e = true → e.isCleanup = false)
    (hu : s'.state.unsettled = true) : s'.state = s.state := by
  obtain ⟨_, h | ⟨event, he, h⟩⟩ := h
  · exact h
  · rw [h] at hu ⊢
    exact InteractionState.handle_eq_of_unsettled (hwho event he) hu

theorem Handles.eq_of_followUp (h : s.Handles who s') (hwho : who .playbackCompleted = false)
    (hs : s'.state = .followUp) : s'.state = s.state := by
  obtain ⟨_, h | ⟨event, he, h⟩⟩ := h
  · exact h
  · rw [h] at hs ⊢
    refine InteractionState.handle_eq_of_followUp (fun hp => ?_) hs
    rw [hp, hwho] at he
    cases he

theorem Handles.eq_of_speaking (h : s.Handles who s') (hwho : who .responseReady = false) (hs : s'.state = .speaking) :
    s'.state = s.state := by
  obtain ⟨_, h | ⟨event, he, h⟩⟩ := h
  · exact h
  · rw [h] at hs ⊢
    refine InteractionState.handle_eq_of_speaking (fun hp => ?_) hs
    rw [hp, hwho] at he
    cases he

theorem handles_returnHandled (hrecovery : who .recoveryCompleted = true) (hreq : who .requestCompleted = true)
    (snapshot : InteractionState) (h : s'.state = afterReturn snapshot s.state) (hconfig : s'.config = s.config) :
    s.Handles who s' := by
  unfold afterReturn at h
  cases he : returnEvent snapshot with
  | none => exact ⟨hconfig, .inl (by rw [h, he])⟩
  | some event =>
    rw [he] at h
    refine ⟨hconfig, .inr ⟨event, ?_, h⟩⟩
    cases snapshot <;> cases he <;> assumption

/-- The worker begins a request in its next step. -/
def Begins (s : VoiceInteractionService) : Prop :=
  match s.worker with
  | .segmentReady _ => s.accepts .speechSegmentReady = true
  | _ => False

theorem workerStep_of_begins (a : Answers) (h : s.Begins) :
    ∃ g, (s.workerStep a).1 =
      { s.handled .speechSegmentReady with requests := s.requests + 1, worker := .assistantCall g } := by
  unfold Begins at h
  unfold workerStep
  cases hw : s.worker with
  | segmentReady g =>
    rw [hw] at h
    exact ⟨g, by dsimp only; rw [if_pos h]; rfl⟩
  | _ =>
    rw [hw] at h
    cases h

theorem workerStep_of_not_begins (a : Answers) (h : ¬ s.Begins) :
    (s.workerStep a).1.promptFailures = s.promptFailures ∧ (s.workerStep a).1.requests = s.requests ∧
      s.Handles ConversationEvent.ofWork (s.workerStep a).1 := by
  unfold Begins at h
  unfold workerStep
  cases hw : s.worker with
  | idle =>
    dsimp only
    split
    · split <;> exact ⟨rfl, rfl, rfl, .inl rfl⟩
    · split
      · exact ⟨rfl, rfl, rfl, .inl rfl⟩
      · split <;> exact ⟨rfl, rfl, rfl, .inl rfl⟩
  | segmentReady g =>
    rw [hw] at h
    dsimp only at h ⊢
    rw [if_neg h]
    exact ⟨rfl, rfl, rfl, .inl rfl⟩
  | expired => exact ⟨rfl, rfl, rfl, .inr ⟨.followUpExpired, rfl, rfl⟩⟩
  | transcriptReady g result => exact ⟨rfl, rfl, rfl, .inr ⟨.transcriptReady, rfl, rfl⟩⟩
  | selectingAction g result token => exact ⟨rfl, rfl, rfl, .inr ⟨.actionSelected, rfl, rfl⟩⟩
  | selectingOpen g result => exact ⟨rfl, rfl, rfl, .inr ⟨.openRequestSelected, rfl, rfl⟩⟩
  | responding g id text => exact ⟨rfl, rfl, rfl, .inr ⟨.responseReady, rfl, rfl⟩⟩
  | failing g prompt => exact ⟨rfl, rfl, rfl, .inr ⟨.failure, rfl, rfl⟩⟩
  | abandoningAction g token | endingAction g result token execution timedOut =>
    unfold endActionCall
    dsimp only
    split <;> exact ⟨rfl, rfl, rfl, .inl rfl⟩
  | submitting g id recovery | unregistering g id recovery =>
    dsimp only
    split <;> exact ⟨rfl, rfl, rfl, .inl rfl⟩
  | returned snapshot =>
    dsimp only
    rw [returnHandled_eq]
    exact ⟨rfl, rfl, handles_returnHandled rfl rfl snapshot rfl rfl⟩
  | _ => exact ⟨rfl, rfl, rfl, .inl rfl⟩

theorem workerStep_handles (a : Answers) (s : VoiceInteractionService) :
    s.Handles ConversationEvent.ofWorker (s.workerStep a).1 := by
  by_cases h : s.Begins
  · obtain ⟨g, heq⟩ := workerStep_of_begins a h
    rw [heq]
    exact ⟨rfl, .inr ⟨.speechSegmentReady, rfl, rfl⟩⟩
  · exact (workerStep_of_not_begins a h).2.2.mono fun e he => (Bool.and_eq_true _ _ ▸ he).1

/-- What everybody but the worker and the outputs leaves alone; of the state they handle the events of `who`. -/
structure CallerStep (who : ConversationEvent → Bool) (s s' : VoiceInteractionService) : Prop where
  handles : s.Handles who s' := by exact ⟨rfl, .inl rfl⟩
  worker : s'.worker = s.worker := by rfl
  outputs : s'.outputs = s.outputs := by rfl
  version : s'.responseVersion = s.responseVersion := by rfl
  requests : s'.requests = s.requests := by rfl
  followUpRequest : s'.followUpRequest = s.followUpRequest := by rfl
  newer : s.interruptGeneration ≤ s'.interruptGeneration := by exact Nat.le_refl _
  registration : s'.activeOutputRequestId = 0 ∨
    s'.activeOutputRequestId = s.activeOutputRequestId ∧
      s'.activeOutputGeneration = s.activeOutputGeneration := by exact .inr ⟨rfl, rfl⟩
  deadline : s'.followUpDeadline = none ∨ s'.followUpDeadline = s.followUpDeadline := by exact .inr rfl

/-- What everybody but the worker and the callers of `Interrupt` leaves alone. -/
structure LeavesWorker (s s' : VoiceInteractionService) : Prop where
  generation : s'.interruptGeneration = s.interruptGeneration := by rfl
  interrupts : s'.interrupts = s.interrupts := by rfl
  interrupted : s'.interrupted = s.interrupted := by rfl
  worker : s'.worker = s.worker := by rfl
  cancellationRequested : ∀ token, s.cancellationRequested token = true → s'.cancellationRequested token = true := by
    exact fun _ h => h
  requests : s'.requests = s.requests := by rfl

/-- A step that leaves the worker, the outputs and the `Interrupt`s alone. -/
structure AsideStep (who : ConversationEvent → Bool) (s s' : VoiceInteractionService) : Prop
    extends CallerStep who s s', LeavesWorker s s' where
  id : s'.activeOutputRequestId = s.activeOutputRequestId := by rfl
  active : s'.activeOutputGeneration = s.activeOutputGeneration := by rfl
  recovery : s'.activeOutputRecovery = s.activeOutputRecovery := by rfl

theorem interruptStep_caller (i : Nat) (s : VoiceInteractionService) :
    s.CallerStep ConversationEvent.ofCallers (s.interruptStep i) ∧
      (s.interruptStep i).promptFailures = s.promptFailures := by
  unfold interruptStep cancelActionCall
  cases s.interrupts i with
  | idle => exact ⟨{ newer := Nat.le_succ _ }, rfl⟩
  | invalidating number outputActive => exact ⟨{ registration := .inl rfl, deadline := .inl rfl }, rfl⟩
  | cancelling number => exact ⟨{ handles := ⟨rfl, .inr ⟨.cancelRequested, rfl, rfl⟩⟩ }, rfl⟩
  | cancellingAction number =>
    dsimp only
    split <;> exact ⟨{}, rfl⟩
  | returned number snapshot =>
    dsimp only
    rw [returnHandled_eq]
    exact ⟨{ handles := handles_returnHandled rfl rfl snapshot rfl rfl }, rfl⟩
  | _ => exact ⟨{}, rfl⟩

theorem promptFailedStep_aside (i : Nat) (s : VoiceInteractionService) :
    s.AsideStep ConversationEvent.ofCallers (s.promptFailedStep i) := by
  unfold promptFailedStep
  cases s.promptFailures i with
  | idle =>
    dsimp only
    split
    · exact { handles := ⟨rfl, .inr ⟨.failure, rfl, rfl⟩⟩ }
    · exact {}
  | returning => exact {}
  | returned snapshot =>
    dsimp only
    rw [returnHandled_eq]
    exact { handles := handles_returnHandled rfl rfl snapshot rfl rfl }

theorem outputStep_leaves (id : Nat) (status : VoiceOutputStatus) (nowMs : Int) (s : VoiceInteractionService) :
    s.LeavesWorker (s.outputStep id status nowMs) ∧ (s.outputStep id status nowMs).promptFailures = s.promptFailures ∧
      s.Handles ConversationEvent.ofOthers (s.outputStep id status nowMs) := by
  unfold outputStep
  cases s.outputs id with
  | outstanding g request | settingDeadline g request =>
    dsimp only
    split <;> exact ⟨{}, rfl, rfl, .inl rfl⟩
  | completed g request => exact ⟨{}, rfl, rfl, .inr ⟨.playbackCompleted, rfl, rfl⟩⟩
  | cancelled request => exact ⟨{}, rfl, rfl, .inr ⟨.cancelRequested, rfl, rfl⟩⟩
  | failing request => exact ⟨{}, rfl, rfl, .inr ⟨.failure, rfl, rfl⟩⟩
  | returned request snapshot =>
    dsimp only
    rw [returnHandled_eq]
    exact ⟨{}, rfl, handles_returnHandled rfl rfl snapshot rfl rfl⟩
  | _ => exact ⟨{}, rfl, rfl, .inl rfl⟩

theorem cancelActionCall_eq (s : VoiceInteractionService) :
    ∃ requested cancelled, s.cancelActionCall =
        { s with actionCancelRequested := requested, cancellationRequested := cancelled } ∧
      ∀ token, s.cancellationRequested token = true → cancelled token = true := by
  unfold cancelActionCall
  split
  · refine ⟨_, _, rfl, fun token h => ?_⟩
    cases s.activeActionCancellation with
    | none => exact h
    | some active => exact Bool.or_eq_true_iff.mpr (.inr h)
  · exact ⟨_, _, rfl, fun _ h => h⟩

theorem actionWatchdog_aside (s : VoiceInteractionService) :
    s.AsideStep (fun _ => false) (s.step .actionWatchdog).1 ∧
      (s.step .actionWatchdog).1.promptFailures = s.promptFailures := by
  unfold step
  dsimp only
  split
  · obtain ⟨requested, cancelled, heq, hcancel⟩ := cancelActionCall_eq s
    rw [heq]
    exact ⟨{ cancellationRequested := hcancel }, rfl⟩
  · exact ⟨{}, rfl⟩

/-- A report of the wake word's service is one event, and none where the service is disabled. -/
theorem handled_aside (event : ConversationEvent) (s : VoiceInteractionService) :
    s.AsideStep (fun e => e = event) (if s.config.enabled then s.handled event else s) ∧
      (if s.config.enabled then s.handled event else s).promptFailures = s.promptFailures := by
  split
  · exact ⟨{ handles := ⟨rfl, .inr ⟨event, decide_eq_true rfl, rfl⟩⟩ }, rfl⟩
  · exact ⟨{}, rfl⟩

theorem step_handles (event : Event) (s : VoiceInteractionService) :
    s.Handles (fun e => e ≠ .enabled && e ≠ .shutdownRequested) (s.step event).1 := by
  cases event with
  | worker a => exact (workerStep_handles a s).mono fun e => by cases e <;> decide
  | actionWatchdog => exact (actionWatchdog_aside s).1.handles.mono fun _ he => absurd he Bool.false_ne_true
  | interrupt i => exact (interruptStep_caller i s).1.handles.mono fun e => by cases e <;> decide
  | wakeWordDetected | wakePromptCompleted => exact (handled_aside _ s).1.handles.mono fun e => by cases e <;> decide
  | wakePromptFailed i => exact (promptFailedStep_aside i s).handles.mono fun e => by cases e <;> decide
  | output id status nowMs => exact (outputStep_leaves id status nowMs s).2.2.mono fun e => by cases e <;> decide

/-- Neither stopped nor, if it is enabled, disabled. -/
def Running (s : VoiceInteractionService) : Prop :=
  s.state ≠ .shuttingDown ∧ (s.config.enabled = true → s.state ≠ .disabled)

theorem Running.step (event : Event) (h : s.Running) : (s.step event).1.Running := by
  obtain ⟨hconfig, hstate | ⟨e, he, hstate⟩⟩ := step_handles event s
  · unfold Running
    rw [hconfig, hstate]
    exact h
  · rw [InteractionState.handle_eq] at hstate
    unfold Running at h ⊢
    rw [hconfig, hstate]
    cases hs : s.state <;> cases e <;>
      simp_all [InteractionState.nextState, InteractionState.isActive]

/-- The service is never shut down. -/
theorem running_after (config : VoiceConfig) (events : List Event) : (after config events).Running := by
  refine StepRun.run_invariant (I := Running) (fun _ event h => h.step event) ?_ events
  unfold start Running
  dsimp only
  split <;> simp_all

/-! ## The ids of the outputs -/

/-- No output gets an id that another one has or had. -/
structure Numbered (s : VoiceInteractionService) : Prop where
  fresh : ∀ id, s.worker.id? = some id → 0 < id ∧ id ≤ s.responseVersion ∧ s.outputs id = .none
  known : ∀ id, s.responseVersion < id → s.outputs id = .none

theorem Numbered.move (h : s.Numbered) (hver : s'.responseVersion = s.responseVersion)
    (houtputs : s'.outputs = s.outputs) (hid : ∀ id, s'.worker.id? = some id → s.worker.id? = some id) : s'.Numbered :=
  ⟨fun id hi => by rw [hver, houtputs]; exact h.fresh id (hid id hi),
    fun id hi => by rw [houtputs]; exact h.known id (hver ▸ hi)⟩

theorem Numbered.update {id : Nat} (h : s.Numbered) (hid : s.outputs id ≠ .none) (place : Output)
    (hver : s'.responseVersion = s.responseVersion) (houtputs : s'.outputs = Function.update s.outputs id place)
    (hworker : s'.worker = s.worker) : s'.Numbered := by
  have other : ∀ other, s.outputs other = .none → s'.outputs other = .none := by
    intro other hnone
    have hne : other ≠ id := fun he => hid (he ▸ hnone)
    rw [houtputs, Function.update_of_ne hne, hnone]
  constructor <;> intro i hi
  · rw [hworker] at hi
    obtain ⟨hpos, hle, hnone⟩ := h.fresh i hi
    exact ⟨hpos, hver ▸ hle, other i hnone⟩
  · rw [hver] at hi
    exact other i (h.known i hi)

theorem Numbered.publish (h : s.Numbered) (hver : s'.responseVersion = s.responseVersion + 1)
    (houtputs : s'.outputs = s.outputs) (hid : ∀ id, s'.worker.id? = some id → id = s.responseVersion + 1) :
    s'.Numbered := by
  constructor <;> intro id hi
  · rw [hver, houtputs, hid id hi]
    exact ⟨Nat.succ_pos _, Nat.le_refl _, h.known _ (Nat.lt_succ_self _)⟩
  · rw [houtputs]
    exact h.known id (by omega)

theorem Numbered.worker (a : Answers) (h : s.Numbered) : (s.workerStep a).1.Numbered := by
  unfold workerStep
  cases hw : s.worker with
  | idle =>
    have hnone : ∀ g text deadline,
        Numbered { s with worker := .called g text } ∧
          Numbered { s with worker := .expiring g, followUpDeadline := deadline } := fun _ _ _ =>
      ⟨h.move rfl rfl nofun, h.move rfl rfl nofun⟩
    dsimp only
    split
    · split
      · exact (hnone _ _ none).1
      · exact h
    · split
      · exact h
      · split
        · exact h
        · exact (hnone _ "" _).2
  | segmentReady g =>
    dsimp only
    split <;> exact h.move rfl rfl nofun
  | abandoningAction g token | endingAction g result token execution timedOut =>
    unfold endActionCall
    dsimp only
    split <;> exact h.move rfl rfl nofun
  | publishing g text =>
    refine h.publish rfl rfl fun id hi => ?_
    dsimp only [goTo] at hi
    grind [Worker.id?]
  | publishingPrompt g =>
    refine h.publish rfl rfl fun id hi => ?_
    cases hi
    rfl
  | submitting g id recovery =>
    obtain ⟨hpos, hle, hnone⟩ := h.fresh id (by rw [hw]; rfl)
    dsimp only
    split
    · constructor
      · nofun
      · intro other hother
        have hne : other ≠ id := by
          intro he
          subst he
          exact Nat.not_lt.mpr hle hother
        exact (Function.update_of_ne hne _ _).trans (h.known other hother)
    · exact h.move rfl rfl nofun
  | unregistering g id recovery =>
    dsimp only
    split <;>
    · refine h.move rfl rfl fun id hi => ?_
      dsimp only [goTo] at hi
      grind [Worker.id?]
  | returned state =>
    dsimp only
    rw [returnHandled_eq]
    exact h.move rfl rfl nofun
  | _ =>
    refine h.move rfl rfl fun id hi => ?_
    dsimp only [goTo, handleThen, route] at hi
    grind [Worker.id?]

theorem Numbered.caller (h : s.Numbered) (hs : s.CallerStep who s') : s'.Numbered :=
  h.move hs.version hs.outputs fun _ hid => hs.worker ▸ hid

theorem Numbered.outputStep (id : Nat) (status : VoiceOutputStatus) (nowMs : Int) (h : s.Numbered) :
    (s.outputStep id status nowMs).Numbered := by
  unfold VoiceInteractionService.outputStep
  cases ho : s.outputs id with
  | none | done => exact h
  | outstanding g request | settingDeadline g request =>
    dsimp only
    split <;> exact h.update (by simp [ho]) _ rfl rfl rfl
  | returned request state =>
    dsimp only
    rw [returnHandled_eq]
    exact h.update (by simp [ho]) _ rfl rfl rfl
  | _ => exact h.update (by simp [ho]) _ rfl rfl rfl

/-- Every step keeps the numbering. -/
theorem Numbered.step (event : Event) (h : s.Numbered) : (s.step event).1.Numbered := by
  cases event with
  | worker a => exact h.worker a
  | actionWatchdog => exact h.caller (actionWatchdog_aside s).1.toCallerStep
  | interrupt i => exact h.caller (interruptStep_caller i s).1
  | wakeWordDetected | wakePromptCompleted => exact h.caller (handled_aside _ s).1.toCallerStep
  | wakePromptFailed i => exact h.caller (promptFailedStep_aside i s).toCallerStep
  | output id status nowMs => exact h.outputStep id status nowMs

theorem numbered_start (config : VoiceConfig) : (start config).Numbered :=
  ⟨nofun, fun _ _ => rfl⟩

end VoiceInteractionService

end Cockpit.Voice
