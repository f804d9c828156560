/-
  `VoiceInteractionService`: one worker handles transcripts, while any number of callers interrupt, report wake
  words and wake prompts, and the output reports how it went. The service was started and is not stopped.

  A step is one section under a mutex, one operation on an atomic or one `Handle` of the state machine; between
  two steps of one thread every other thread may take steps. Last errors, histories, metrics and the queue of
  transcripts change nothing of this and are left out.
-/
import Cockpit.Lib.Callers
import Cockpit.Lib.StepRun
import Cockpit.Voice.Conversation

namespace Cockpit.Voice

/-! ## What the providers answer -/

inductive VoiceIntent where
  | unknown
  | showVehicleStatus
  | openCamera
  | playMusic
  deriving DecidableEq

inductive VoiceAction where
  | none
  | queryVehicleStatus
  | openCamera
  | playMusic
  deriving DecidableEq

/-- What the assistant makes of a transcript. -/
structure VoiceAssistantResult where
  intent : VoiceIntent := .unknown
  action : VoiceAction := .none
  responseText : String := ""

inductive ActionExecutionStatus where
  | notRequested
  | succeeded
  | rejected
  | notImplemented
  | failed
  deriving DecidableEq

/-- What the dispatcher answers. -/
structure ActionExecutionResult where
  status : ActionExecutionStatus := .notRequested
  message : String := ""

inductive VoiceOutputStatus where
  | completed
  | failed
  | cancelled
  | dropped
  deriving DecidableEq

/-- The assistant returns or throws. -/
inductive AssistantAnswer where
  | result (result : VoiceAssistantResult)
  | exception (error : String)

/-- `foreign` is an exception that is no `std::exception`. -/
inductive LlmAnswer where
  | result (success : Bool) (responseText : String)
  | exception
  | foreign

/-- The dispatcher returns or throws. -/
inductive ExecuteAnswer where
  | result (result : ActionExecutionResult)
  | exception (error : String)

/-- What the worker meets in its next step; each step reads its own part. -/
structure Answers where
  transcript : Option String := none
  nowMs : Int := 0
  assistant : AssistantAnswer := .result {}
  assistantTimedOut : Bool := false
  llm : LlmAnswer := .result false ""
  execute : ExecuteAnswer := .result {}
  actionTimedOut : Bool := false
  accepted : Bool := true

/-! ## Where the threads are -/

/-- Where the worker is: before each of its steps. -/
inductive Worker where
  | idle
  /-- `ExpireFollowUpIfNeeded`. -/
  | expiring (generation : Nat)
  | expired
  /-- `HandleTranscript`, up to `BeginRequest`. -/
  | called (generation : Nat) (text : String)
  | beginning (generation : Nat)
  | resetting (generation : Nat)
  | segmentReady (generation : Nat)
  /-- The assistant. -/
  | assistantCall (generation : Nat)
  | assistantFailed (generation : Nat)
  | assistantDone (generation : Nat) (result : VoiceAssistantResult) (timedOut : Bool)
  | transcriptReady (generation : Nat) (result : VoiceAssistantResult)
  | llmCall (generation : Nat) (result : VoiceAssistantResult)
  | llmDone (generation : Nat) (result : VoiceAssistantResult)
  /-- The action. -/
  | beginningAction (generation : Nat) (result : VoiceAssistantResult)
  | selectingAction (generation : Nat) (result : VoiceAssistantResult) (token : Option Nat)
  | abandoningAction (generation : Nat) (token : Nat)
  | startingAction (generation : Nat) (result : VoiceAssistantResult) (token : Nat)
  | actionCall (generation : Nat) (result : VoiceAssistantResult) (token : Nat)
  | endingAction (generation : Nat) (result : VoiceAssistantResult) (token : Nat)
      (execution : ActionExecutionResult) (timedOut : Bool)
  | actionDone (generation : Nat) (result : VoiceAssistantResult)
      (execution : ActionExecutionResult) (timedOut : Bool)
  | selectingOpen (generation : Nat) (result : VoiceAssistantResult)
  /-- `PublishResponse` and `SubmitOutput`. -/
  | publishing (generation : Nat) (text : String)
  | responding (generation : Nat) (id : Nat) (text : String)
  | registering (generation : Nat) (id : Nat) (recovery : Bool)
  | submitting (generation : Nat) (id : Nat) (recovery : Bool)
  | unregistering (generation : Nat) (id : Nat) (recovery : Bool)
  /-- `RecoverFromError`. -/
  | recovering (generation : Nat) (prompt : Bool)
  | failing (generation : Nat) (prompt : Bool)
  | prompting (generation : Nat)
  | publishingPrompt (generation : Nat)
  /-- `ReturnToIdle`: before the snapshot, and with it. -/
  | returning
  | returned (state : InteractionState)

/-- The thread `action_watchdog` is there from before `Execute` on.  Behind `EndActionCall` it finds no call
    that it could cancel. -/
def Worker.hasActionWatchdog : Worker → Bool
  | .startingAction _ _ _ | .actionCall _ _ _ | .endingAction _ _ _ _ _ => true
  | _ => false

/-- Where a caller of `Interrupt` is; `number` is the generation that its increment made. -/
inductive Interrupting where
  | idle
  | looking (number : Nat)
  | invalidating (number : Nat) (outputActive : Bool)
  | deciding (number : Nat) (outputActive : Bool)
  | checking (number : Nat)
  | cancelling (number : Nat)
  | cancellingAction (number : Nat)
  | returning (number : Nat)
  | returned (number : Nat) (state : InteractionState)
  | leaving (number : Nat)

/-- Where a caller of `NotifyWakePromptFailed` is: behind its `Handle`, in `ReturnToIdle`. -/
inductive PromptFailing where
  | idle
  | returning
  | returned (state : InteractionState)

/-- How far an output is: not submitted, with the sink, in `HandleOutputResult` behind its check. -/
inductive Output where
  | none
  | outstanding (generation request : Nat)
  | completed (generation request : Nat)
  | settingDeadline (generation request : Nat)
  | cancelled (request : Nat)
  | recovering (request : Nat)
  | failing (request : Nat)
  | returning (request : Nat)
  | returned (request : Nat) (state : InteractionState)
  | done

/-! ## The service -/

structure VoiceConfig where
  enabled : Bool := true
  output : Bool := true
  dispatcher : Bool := true
  llmClient : Bool := false
  followUpWindowMs : Int := 8000

/-- The service, its threads and its outputs; tokens are numbered. -/
structure VoiceInteractionService where
  config : VoiceConfig
  state : InteractionState
  interruptGeneration : Nat := 0
  /-- Under `output_mutex_`. -/
  activeOutputRequestId : Nat := 0
  activeOutputGeneration : Nat := 0
  activeOutputRecovery : Bool := false
  followUpDeadline : Option Int := none
  /-- Under `provider_lifecycle_mutex_`.  The tokens are numbered. -/
  actionCallActive : Bool := false
  actionCancelRequested : Bool := false
  activeActionCancellation : Option Nat := none
  tokens : Nat := 0
  cancellationRequested : Nat → Bool := fun _ => false
  /-- Under `response_mutex_`. -/
  responseVersion : Nat := 0
  worker : Worker := .idle
  interrupts : Nat → Interrupting := fun _ => .idle
  promptFailures : Nat → PromptFailing := fun _ => .idle
  outputs : Nat → Output := fun _ => .none
  /-- No part of the code: the last generation whose `Interrupt` has returned, the requests begun, and
      the one whose follow-up window the deadline ends. -/
  interrupted : Nat := 0
  requests : Nat := 0
  followUpRequest : Nat := 0

/-- What is called in the world outside. -/
inductive Effect where
  | submit (generation : Nat) (recovery : Bool)
  | execute (generation token : Nat)

/-- Who takes a step. -/
inductive Event where
  | worker (answers : Answers)
  | actionWatchdog
  | interrupt (caller : Nat)
  | wakeWordDetected
  | wakePromptCompleted
  | wakePromptFailed (caller : Nat)
  | output (id : Nat) (status : VoiceOutputStatus) (nowMs : Int)

namespace VoiceInteractionService

/-- The service after `Start`. -/
def start (config : VoiceConfig) : VoiceInteractionService :=
  { config := config, state := if config.enabled then .idle else .disabled }

variable (s : VoiceInteractionService)

/-- The state machine takes the event. -/
def accepts (event : ConversationEvent) : Bool :=
  (s.state.handle event).isSome

/-- `Handle`; a refused event changes nothing. -/
def handled (event : ConversationEvent) : VoiceInteractionService :=
  { s with state := (s.state.handle event).getD s.state }

/-- The event of `ReturnToIdle`, whose snapshot was `state`. -/
def returnEvent (state : InteractionState) : Option ConversationEvent :=
  if state = .cancelled ∨ state = .errorRecovery then some .recoveryCompleted
  else if state ≠ .idle ∧ state ≠ .shuttingDown then some .requestCompleted
  else none

/-- `ReturnToIdle`, from a state read before. -/
def returnHandled (state : InteractionState) : VoiceInteractionService :=
  match returnEvent state with
  | some event => s.handled event
  | none => s

def clearOutput : VoiceInteractionService :=
  { s with activeOutputRequestId := 0, activeOutputGeneration := 0, activeOutputRecovery := false }

/-- Old callbacks find no output of theirs. -/
def invalidateOutputLifecycle : VoiceInteractionService :=
  { s.clearOutput with followUpDeadline := none }

/-! ### The action call -/

/-- A token for the call. -/
def beginActionCall : VoiceInteractionService :=
  { s with
    actionCallActive := true, actionCancelRequested := false
    activeActionCancellation := some s.tokens, tokens := s.tokens + 1 }

/-- Only the call that owns the token. -/
def endActionCall (token : Nat) : VoiceInteractionService :=
  if s.activeActionCancellation = some token then
    { s with actionCallActive := false, activeActionCancellation := none }
  else s

/-- A call is cancelled once. -/
def cancelActionCall : VoiceInteractionService :=
  if s.actionCallActive && !s.actionCancelRequested then
    { s with
      actionCancelRequested := true
      cancellationRequested :=
        match s.activeActionCancellation with
        | some token => fun t => t = token || s.cancellationRequested t
        | none => s.cancellationRequested }
  else s

/-! ### The worker -/

def goTo (worker : Worker) : VoiceInteractionService × Option Effect :=
  ({ s with worker := worker }, none)

/-- Handle an event, and go on according to whether it was accepted. -/
def handleThen (event : ConversationEvent) (accepted refused : Worker) : VoiceInteractionService × Option Effect :=
  goTo (s.handled event) (if s.accepts event then accepted else refused)

/-- Behind the choice of the branch: the LLM, the action or the open request. -/
def route (generation : Nat) (result : VoiceAssistantResult) : Worker :=
  if result.action = .none then .selectingOpen generation result
  else if s.config.dispatcher then .beginningAction generation result
  else .selectingAction generation result none

def ExecuteAnswer.execution : ExecuteAnswer → ActionExecutionResult
  | .result result => result
  | .exception error => { status := .failed, message := error }

/-- One step of the worker. -/
def workerStep (a : Answers) (s : VoiceInteractionService) : VoiceInteractionService × Option Effect :=
  match s.worker with
  | .idle =>
    match a.transcript with
    | some text => if s.config.enabled then s.goTo (.called s.interruptGeneration text) else (s, none)
    | none =>
      match s.followUpDeadline with
      | none => (s, none)
      | some deadline =>
        if a.nowMs < deadline then (s, none)
        else { s with followUpDeadline := none }.goTo (.expiring s.interruptGeneration)
  | .expiring generation =>
    s.goTo (if generation = s.interruptGeneration then .expired else .idle)
  | .expired => s.handleThen .followUpExpired .idle .idle
  | .called generation text =>
    s.goTo (if generation ≠ s.interruptGeneration || text = "" then .idle else .beginning generation)
  | .beginning generation =>
    s.goTo (if s.state = .idle ∨ s.state = .listening then .segmentReady generation
      else if s.state = .followUp then .resetting generation
      else .idle)
  | .resetting generation => { s with followUpDeadline := none }.goTo (.segmentReady generation)
  | .segmentReady generation =>
    if s.accepts .speechSegmentReady then
      { s.handled .speechSegmentReady with requests := s.requests + 1 }.goTo (.assistantCall generation)
    else s.goTo .idle
  | .assistantCall generation =>
    s.goTo (match a.assistant with
      | .result result => .assistantDone generation result a.assistantTimedOut
      -- an exception without a text passes for the default result
      | .exception error =>
        if error = "" then .assistantDone generation {} a.assistantTimedOut
        else .assistantFailed generation)
  | .assistantFailed generation =>
    s.goTo (if generation ≠ s.interruptGeneration then .idle else .recovering generation true)
  | .assistantDone generation result timedOut =>
    s.goTo (if generation ≠ s.interruptGeneration then .idle
      else if timedOut then .recovering generation true
      else .transcriptReady generation result)
  | .transcriptReady generation result =>
    s.handleThen .transcriptReady
      (if result.intent = .unknown && result.action = .none && s.config.llmClient then
        .llmCall generation result
      else s.route generation result)
      .idle
  | .llmCall generation result =>
    s.goTo (match a.llm with
      | .result success responseText =>
        .llmDone generation
          (if success && responseText ≠ "" then { result with responseText := responseText } else result)
      | .exception => .recovering generation false
      | .foreign => .idle)
  | .llmDone generation result =>
    s.goTo (if generation ≠ s.interruptGeneration then .idle else s.route generation result)
  | .beginningAction generation result =>
    s.beginActionCall.goTo (.selectingAction generation result (some s.tokens))
  | .selectingAction generation result token =>
    s.handleThen .actionSelected
      (match token with
        | some token => .startingAction generation result token
        | none => .publishing generation "No action dispatcher is configured.")
      (match token with
        | some token => .abandoningAction generation token
        | none => .recovering generation false)
  | .abandoningAction generation token => (s.endActionCall token).goTo (.recovering generation false)
  | .startingAction generation result token =>
    ({ s with worker := .actionCall generation result token }, some (.execute generation token))
  | .actionCall generation result token =>
    s.goTo (.endingAction generation result token (ExecuteAnswer.execution a.execute) a.actionTimedOut)
  | .endingAction generation result token execution timedOut =>
    (s.endActionCall token).goTo (.actionDone generation result execution timedOut)
  | .actionDone generation result execution timedOut =>
    s.goTo (if generation ≠ s.interruptGeneration then .idle
      else if timedOut || execution.status = .failed then .recovering generation true
      else
        .publishing generation
          (if execution.message ≠ "" then execution.message else result.responseText))
  | .selectingOpen generation result =>
    s.handleThen .openRequestSelected (.publishing generation result.responseText)
      (.recovering generation false)
  | .publishing generation text =>
    { s with responseVersion := s.responseVersion + 1 }.goTo
      (if !s.config.output || text = "" then .returning
      else .responding generation (s.responseVersion + 1) text)
  | .responding generation id _ =>
    s.handleThen .responseReady (.registering generation id false) (.recovering generation false)
  | .registering generation id recovery =>
    { s with
      activeOutputRequestId := id, activeOutputGeneration := generation
      activeOutputRecovery := recovery, followUpDeadline := none }.goTo
      (.submitting generation id recovery)
  | .submitting generation id recovery =>
    let s' :=
      if a.accepted then
        { s with
          outputs := Function.update s.outputs id (.outstanding generation s.requests)
          worker := .idle }
      else { s with worker := .unregistering generation id recovery }
    (s', some (.submit generation recovery))
  | .unregistering generation id recovery =>
    (if s.activeOutputRequestId = id then s.clearOutput else s).goTo
      (if recovery then .returning else .recovering generation false)
  | .recovering generation prompt =>
    s.goTo (if s.state = .shuttingDown ∨ s.state = .cancelled then .idle
      else .failing generation prompt)
  | .failing generation prompt =>
    s.handleThen .failure (if prompt && s.config.output then .prompting generation else .returning)
      .idle
  | .prompting generation =>
    s.goTo (if generation = s.interruptGeneration then .publishingPrompt generation else .returning)
  | .publishingPrompt generation =>
    { s with responseVersion := s.responseVersion + 1 }.goTo
      (.registering generation (s.responseVersion + 1) true)
  | .returning => s.goTo (.returned s.state)
  | .returned state => (s.returnHandled state).goTo .idle

/-! ### The callers -/

/-- One step of an `Interrupt`. -/
def interruptStep (i : Nat) (s : VoiceInteractionService) : VoiceInteractionService :=
  let at' := fun (s : VoiceInteractionService) (place : Interrupting) =>
    { s with interrupts := Function.update s.interrupts i place }
  match s.interrupts i with
  | .idle =>
    at' { s with interruptGeneration := s.interruptGeneration + 1 }
      (.looking (s.interruptGeneration + 1))
  | .looking number => at' s (.invalidating number (s.activeOutputRequestId ≠ 0))
  | .invalidating number outputActive =>
    at' s.invalidateOutputLifecycle (.deciding number outputActive)
  | .deciding number outputActive =>
    at' s (if outputActive || s.state.isActive then .checking number else .leaving number)
  | .checking number =>
    at' s (if s.state.isActive then .cancelling number else .cancellingAction number)
  | .cancelling number => at' (s.handled .cancelRequested) (.cancellingAction number)
  | .cancellingAction number => at' s.cancelActionCall (.returning number)
  | .returning number => at' s (.returned number s.state)
  | .returned number state => at' (s.returnHandled state) (.leaving number)
  | .leaving number => at' { s with interrupted := max s.interrupted number } .idle

/-- One step of a `NotifyWakePromptFailed`. -/
def promptFailedStep (i : Nat) (s : VoiceInteractionService) : VoiceInteractionService :=
  let at' := fun (s : VoiceInteractionService) (place : PromptFailing) =>
    { s with promptFailures := Function.update s.promptFailures i place }
  match s.promptFailures i with
  | .idle =>
    if s.config.enabled && s.accepts .failure then at' (s.handled .failure) .returning else s
  | .returning => at' s (.returned s.state)
  | .returned state => at' (s.returnHandled state) .idle

/-- `HandleOutputResult`. -/
def outputStep (id : Nat) (status : VoiceOutputStatus) (nowMs : Int) (s : VoiceInteractionService) :
    VoiceInteractionService :=
  let at' := fun (s : VoiceInteractionService) (place : Output) =>
    { s with outputs := Function.update s.outputs id place }
  match s.outputs id with
  | .none | .done => s
  | .outstanding generation request =>
    if id = 0 || id ≠ s.activeOutputRequestId || generation ≠ s.activeOutputGeneration ||
        generation ≠ s.interruptGeneration then
      at' s .done
    else
      at' s.clearOutput
        (if s.activeOutputRecovery then .returning request
        else
          match status with
          | .completed => .completed generation request
          | .cancelled => .cancelled request
          | .dropped | .failed => .recovering request)
  | .completed generation request =>
    at' (s.handled .playbackCompleted)
      (if s.accepts .playbackCompleted then .settingDeadline generation request else .done)
  | .settingDeadline generation request =>
    at'
      (if generation = s.interruptGeneration ∧ s.state = .followUp then
        { s with
          followUpDeadline := some (nowMs + s.config.followUpWindowMs), followUpRequest := request }
      else s)
      .done
  | .cancelled request =>
    at' (s.handled .cancelRequested)
      (if s.accepts .cancelRequested then .returning request else .done)
  | .recovering request =>
    at' s (if s.state = .shuttingDown ∨ s.state = .cancelled then .done else .failing request)
  | .failing request =>
    at' (s.handled .failure) (if s.accepts .failure then .returning request else .done)
  | .returning request => at' s (.returned request s.state)
  | .returned _ state => at' (s.returnHandled state) .done

/-! ### Runs -/

def step : Event → VoiceInteractionService × Option Effect
  | .worker a => s.workerStep a
  | .actionWatchdog => (if s.worker.hasActionWatchdog then s.cancelActionCall else s, none)
  | .interrupt caller => (s.interruptStep caller, none)
  | .wakeWordDetected => (if s.config.enabled then s.handled .wakeWordDetected else s, none)
  | .wakePromptCompleted => (if s.config.enabled then s.handled .wakePromptCompleted else s, none)
  | .wakePromptFailed caller => (s.promptFailedStep caller, none)
  | .output id status nowMs => (s.outputStep id status nowMs, none)

/-- The service after `events`, from `Start` on. -/
def after (config : VoiceConfig) (events : List Event) : VoiceInteractionService :=
  StepRun.run step (start config) events

end VoiceInteractionService

end Cockpit.Voice
