/-
  `VoiceInputGate`, together with the `VoiceInteractionService` that it drives: one caller of `ProcessFrame`,
  and a thread for each wake prompt that it starts. The gate is never stopped.

  A step is one operation on an atomic, one `Handle`, one call of the detector, or the joining and the creation
  of a thread. Speech pipeline, detector state and metrics are left out.
-/
import Cockpit.Voice.Interaction

namespace Cockpit.Voice

inductive VoiceInputMode where
  | kws
  | speech
  | paused
  deriving DecidableEq

/-- The detector returns or throws. -/
inductive WakeWordAnswer where
  | result (error : String) (detected : Bool)
  | exception

/-- What `ProcessFrame` meets in its next step. -/
structure FrameAnswers where
  wakeWord : WakeWordAnswer := .result "" false
  nowMs : Int := 0
  /-- Creating a thread can fail with an exception. -/
  threadStarts : Bool := true

/-- Where the caller of `ProcessFrame` is: before each of its steps. -/
inductive Frame where
  | idle
  | analyzing
  | detected
  /-- `StartWakePrompt`. -/
  | starting (wake : Nat)
  | joining (wake previous : Nat)
  | storing (wake : Nat)
  | numbering (wake : Nat)
  | spawning (wake generation : Nat)
  /-- `NotifyWakePromptFailed`: before its `Handle`, and behind it. -/
  | refusing (wake : Nat)
  | failing (wake : Nat)

/-- Where the thread of a prompt is. -/
inductive Prompt where
  | none
  | started (generation : Nat)
  | playing (generation : Nat)
  | played (generation : Nat) (ok : Bool)
  | checking (generation : Nat) (ok : Bool)
  | notifying (ok : Bool)
  | failing
  | finished
  deriving DecidableEq

structure KwsConfig where
  enabled : Bool := false
  cooldownMs : Int := 1500

/-- Gate, service and prompt threads; accepted wakes are numbered. -/
structure VoiceInputGate where
  config : KwsConfig
  service : VoiceInteractionService
  /-- The prompt whose thread is joinable. -/
  wakePromptWorker : Option Nat := none
  wakePromptDone : Bool := true
  wakePromptGeneration : Nat := 0
  lastWake : Option Int := none
  frame : Frame := .idle
  prompts : Nat → Prompt := fun _ => .none
  /-- The wakes that were accepted, and the requests begun before the last one: no part of the code. -/
  wakes : Nat := 0
  wakeRequests : Nat := 0

/-- Who takes a step; those of the service come without the calls that the gate makes. -/
inductive GateEvent where
  | frame (answers : FrameAnswers)
  | prompt (wake : Nat) (played : Bool)
  | service (event : Event)

namespace VoiceInputGate

def start (config : KwsConfig) (service : VoiceConfig) : VoiceInputGate :=
  { config := config, service := .start service }

variable (s : VoiceInputGate)

/-- What the conversation leaves to the gate. -/
def determineMode : VoiceInputMode :=
  if !s.config.enabled then .speech
  else
    match s.service.state with
    | .idle => .kws
    | .listening | .followUp => .speech
    | .disabled | .waking | .recognizing | .routing | .executing | .thinking | .speaking | .cancelled
    | .errorRecovery | .shuttingDown => .paused

/-- `AcceptWakeDetection`. -/
def acceptWakeDetection (nowMs : Int) : Bool :=
  match s.lastWake with
  | some lastWake => !(nowMs - lastWake < s.config.cooldownMs)
  | none => true

def serviceStep (event : Event) : VoiceInputGate :=
  { s with service := (s.service.step event).1 }

/-- Whether the call of `NotifyWakePromptFailed` for the prompt of a wake is over. -/
def promptFailureOver (wake : Nat) : Bool :=
  match s.service.promptFailures wake with
  | .idle => true
  | .returning | .returned _ => false

/-- One step of `ProcessFrame`. -/
def frameStep (a : FrameAnswers) (s : VoiceInputGate) : VoiceInputGate :=
  match s.frame with
  | .idle => { s with frame := if s.determineMode = .kws then .analyzing else .idle }
  | .analyzing =>
    match a.wakeWord with
    | .result error detected =>
      if error ≠ "" || !detected then { s with frame := .idle }
      else if s.acceptWakeDetection a.nowMs then
        { s with lastWake := some a.nowMs, frame := .detected }
      else { s with frame := .idle }
    | .exception => { s with frame := .idle }
  | .detected =>
    if s.service.config.enabled && s.service.accepts .wakeWordDetected then
      { s.serviceStep .wakeWordDetected with
        wakes := s.wakes + 1, wakeRequests := s.service.requests, frame := .starting (s.wakes + 1) }
    else { s.serviceStep .wakeWordDetected with frame := .idle }
  | .starting wake =>
    match s.wakePromptWorker with
    | some previous =>
      { s with frame := if s.wakePromptDone then .joining wake previous else .refusing wake }
    | none => { s with frame := .storing wake }
  | .joining wake previous =>
    -- the join waits for the end of the thread
    if s.prompts previous = .finished then { s with wakePromptWorker := none, frame := .storing wake }
    else s
  | .storing wake => { s with wakePromptDone := false, frame := .numbering wake }
  | .numbering wake =>
    { s with
      wakePromptGeneration := s.wakePromptGeneration + 1
      frame := .spawning wake (s.wakePromptGeneration + 1) }
  | .spawning wake generation =>
    if a.threadStarts then
      { s with
        wakePromptWorker := some wake
        prompts := Function.update s.prompts wake (.started generation), frame := .idle }
    else { s with frame := .idle }
  | .refusing wake | .failing wake =>
    let s' := s.serviceStep (.wakePromptFailed wake)
    { s' with frame := if s'.promptFailureOver wake then .idle else .failing wake }

/-- One step of a wake prompt's thread. -/
def promptStep (wake : Nat) (ok : Bool) (s : VoiceInputGate) : VoiceInputGate :=
  let at' := fun (s : VoiceInputGate) (place : Prompt) =>
    { s with prompts := Function.update s.prompts wake place }
  match s.prompts wake with
  | .none | .finished => s
  | .started generation => at' s (.playing generation)
  | .playing generation => at' s (.played generation ok)
  | .played generation ok => at' { s with wakePromptDone := true } (.checking generation ok)
  | .checking generation ok =>
    at' s (if generation ≠ s.wakePromptGeneration then .finished else .notifying ok)
  | .notifying true => at' (s.serviceStep .wakePromptCompleted) .finished
  | .notifying false | .failing =>
    let s' := s.serviceStep (.wakePromptFailed wake)
    at' s' (if s'.promptFailureOver wake then .finished else .failing)

def step : GateEvent → VoiceInputGate × Unit
  | .frame a => (s.frameStep a, ())
  | .prompt wake ok => (s.promptStep wake ok, ())
  | .service event =>
    match event with
    | .wakeWordDetected | .wakePromptCompleted | .wakePromptFailed _ => (s, ())
    | _ => (s.serviceStep event, ())

/-- The gate and the service after `events`. -/
def after (config : KwsConfig) (service : VoiceConfig) (events : List GateEvent) : VoiceInputGate :=
  StepRun.run step (start config service) events

end VoiceInputGate

end Cockpit.Voice
