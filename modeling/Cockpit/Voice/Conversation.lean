/-
  `ConversationStateMachine`: the states of a voice conversation and its transitions.

  The counters and the reason that a snapshot carries are left out.
-/

namespace Cockpit.Voice

/-- The states of the conversation. -/
inductive InteractionState where
  | disabled
  | idle
  | waking
  | listening
  | recognizing
  | routing
  | executing
  | thinking
  | speaking
  | followUp
  | cancelled
  | errorRecovery
  | shuttingDown
  deriving DecidableEq

inductive ConversationEvent where
  | enabled
  | wakeWordDetected
  | wakePromptCompleted
  | speechSegmentReady
  | transcriptReady
  | actionSelected
  | openRequestSelected
  | responseReady
  | playbackCompleted
  | requestCompleted
  | followUpExpired
  | cancelRequested
  | failure
  | recoveryCompleted
  | shutdownRequested
  deriving DecidableEq

namespace InteractionState

/-- A conversation is going on. -/
def isActive : InteractionState → Bool
  | waking | listening | recognizing | routing | executing | thinking | speaking | followUp => true
  | disabled | idle | cancelled | errorRecovery | shuttingDown => false

variable (state : InteractionState)

/-- Reached from every state that is not shut down. -/
def isRecoveryTarget : Bool :=
  state = cancelled || state = errorRecovery || state = shuttingDown

/-- The transition that an event asks for. -/
def nextState : ConversationEvent → Option InteractionState
  | .enabled => if state = disabled then some idle else none
  | .wakeWordDetected => if state = idle ∨ state = followUp then some waking else none
  | .wakePromptCompleted => if state = waking then some listening else none
  | .speechSegmentReady =>
    if state = idle ∨ state = listening ∨ state = followUp then some recognizing else none
  | .transcriptReady => if state = recognizing then some routing else none
  | .actionSelected => if state = routing then some executing else none
  | .openRequestSelected => if state = routing then some thinking else none
  | .responseReady =>
    if state = routing ∨ state = executing ∨ state = thinking then some speaking else none
  | .playbackCompleted => if state = speaking then some followUp else none
  | .requestCompleted =>
    if state = routing ∨ state = executing ∨ state = thinking ∨ state = speaking then some idle
    else none
  | .followUpExpired => if state = followUp then some idle else none
  | .cancelRequested => if state.isActive then some cancelled else none
  | .failure => if state.isActive then some errorRecovery else none
  | .recoveryCompleted => if state = cancelled ∨ state = errorRecovery then some idle else none
  | .shutdownRequested => if state ≠ shuttingDown then some shuttingDown else none

/-- The state machine's own check. -/
def isTransitionAllowed (next : InteractionState) : Bool :=
  if state = next || state = shuttingDown then false
  else if next = shuttingDown then true
  else if state.isActive && next.isRecoveryTarget then true
  else
    match state with
    | disabled => next = idle
    | idle => next = waking || next = listening || next = recognizing
    | waking => next = listening
    | listening => next = recognizing || next = idle
    | recognizing => next = routing
    | routing => next = executing || next = thinking || next = speaking || next = idle
    | executing | thinking => next = speaking || next = followUp || next = idle
    | speaking => next = followUp || next = idle
    | followUp => next = waking || next = listening || next = recognizing || next = idle
    | cancelled | errorRecovery => next = idle
    | shuttingDown => false

/-- `Handle`: the state after an event that is accepted. -/
def handle (event : ConversationEvent) : Option InteractionState :=
  match state.nextState event with
  | some next => if state.isTransitionAllowed next then some next else none
  | none => none

theorem handle_eq (event : ConversationEvent) : state.handle event = state.nextState event := by
  cases state <;> cases event <;> rfl

/-- A request is being worked on, or its response is played. -/
def busy : InteractionState → Bool
  | recognizing | routing | executing | thinking | speaking => true
  | _ => false

/-- A request was cancelled or failed, and has not been cleaned up yet. -/
def unsettled : InteractionState → Bool
  | cancelled | errorRecovery => true
  | _ => false

theorem isActive_of_busy {state : InteractionState} (h : state.busy = true) : state.isActive = true := by
  cases state <;> first | rfl | cases h

end InteractionState

end Cockpit.Voice
