/-
  `SentinelService`: motion events start a recording and a photo, at most one per cooldown. A worker thread
  takes the events off a queue; any number of threads call `Submit`, `Arm`, `Disarm` and `Stop` beside it, and
  between two steps of one thread every other may take steps.
-/
import Cockpit.Event.EventQueue

namespace Cockpit.Sentinel

open Cockpit.Event

/-! ## The service -/

inductive SentinelState where
  | disabled
  | armed
  | triggered
  | cooldown
  | faulted
  deriving DecidableEq

inductive ChassisEventType where
  | motionDetected
  deriving DecidableEq

structure ChassisEvent where
  sequence : Nat
  timestampMs : Int
  type : ChassisEventType := .motionDetected
  motionDetected : Bool := true

structure SentinelPolicy where
  cooldownMs : Int := 30000
  maxEventAgeMs : Int := 5000
  queueCapacity : Nat := 64

structure SentinelStatus where
  state : SentinelState := .disabled
  cooldownUntilMs : Int := 0
  lastEventSequence : Nat := 0
  lastEventTimestampMs : Int := 0
  lastSnapshotPath : String := ""
  acceptedEvents : Nat := 0
  suppressedEvents : Nat := 0
  failedEvents : Nat := 0
  droppedEvents : Nat := 0
  lastError : String := ""

/-- An event that was submitted, with the mark of its `Submit`. -/
structure Pending where
  event : ChassisEvent
  mark : Nat

/-- Where the worker is in `Run`: before each of its locked sections, its wait and its actions. -/
inductive Worker where
  | top
  | waiting
  | popped (pending : Option Pending)
  | preparing (pending : Pending)
  | snapshotting (pending : Pending)
  | recording (pending : Pending) (path : String)
  | finishing (pending : Pending) (ok : Bool) (path error : String)
  | exited

/-- The event that the worker has in hand. -/
def Worker.pending : Worker → Option Pending
  | .popped pending => pending
  | .preparing pending | .snapshotting pending | .recording pending _ | .finishing pending _ _ _ =>
    some pending
  | .top | .waiting | .exited => none

/-- Where a call of `Submit` is: before its check, its push, the count of a refused push. -/
inductive SubmitPhase where
  | called
  | checked
  | refused (result : EventQueuePushResult)
  | returned (ok : Bool)
  deriving DecidableEq

/-- An event on its way in, marked with the number of `Disarm`s in effect when the call began. -/
structure SubmitCall where
  pending : Pending
  phase : SubmitPhase := .called

/-- What is left of a call of `Disarm` behind its locked section. -/
inductive DisarmPhase where
  | discarding
  | cancelling
  | returned

/-- What is left of the call of `Stop` that found the service running. -/
inductive StopPhase where
  | idle
  | closing
  | discarding
  | cancelling
  | joining
  | finishing

/-- A trigger, with the armed period it came in and the time of its locked section. -/
structure Trigger where
  sequence : Nat
  period : Nat
  steadyMs : Int

/-- The service and its calls. Marks, the count of armed periods and the log of triggers are no part of the
    code. -/
structure SentinelService where
  policy : SentinelPolicy
  events : EventQueue Pending
  status : SentinelStatus := {}
  running : Bool := true
  stopping : Bool := false
  cooldownUntilSteadyMs : Int := 0
  worker : Worker := .top
  submits : List SubmitCall := []
  disarmCalls : List DisarmPhase := []
  stop : StopPhase := .idle
  /-- The `Disarm`s that have taken effect, the armed periods begun, and all triggers. -/
  disarms : Nat := 0
  periods : Nat := 0
  triggers : List Trigger := []

/-- An action that is called. -/
inductive ActionCall where
  | prepareRecording (sequence : Nat)
  | takeSnapshot (sequence : Nat)
  | recordMotion (event : ChassisEvent) (path : String)
  | cancel

/-- Who takes a step.  The worker's step carries what an action would answer. -/
inductive Action where
  | submit (event : ChassisEvent)
  | submitProceed (i : Nat)
  | arm
  | disarm
  | disarmProceed (i : Nat)
  | stop
  | worker (ok : Bool) (path error : String)

/-- A step, and what the clocks read at it. -/
structure Event where
  action : Action
  steadyMs : Int
  wallMs : Int

namespace SentinelService

/-- The service after `Start`. -/
def start (policy : SentinelPolicy) (armed : Bool) : SentinelService :=
  { policy := policy
    events := { capacity := policy.queueCapacity }
    status := { state := if armed then .armed else .disabled } }

/-! ### `Submit` -/

variable (s : SentinelService)

/-- The check of `Submit`. -/
def refuses (event : ChassisEvent) : Bool :=
  !s.running || s.stopping || s.status.state = .disabled || event.type ≠ .motionDetected
    || !event.motionDetected || event.sequence = 0 || event.timestampMs ≤ 0

def setPhase (i : Nat) (phase : SubmitPhase) : SentinelService :=
  { s with submits := s.submits.modify i fun call => { call with phase := phase } }

def dropError : EventQueuePushResult → String
  | .full => "sentinel event queue is full"
  | _ => "sentinel event queue is closed"

def submitProceed (i : Nat) (call : SubmitCall) : SentinelService :=
  match call.phase with
  | .called =>
    if s.refuses call.pending.event then s.setPhase i (.returned false) else s.setPhase i .checked
  | .checked =>
    let (events, result) := s.events.push call.pending
    if result = .accepted then { s.setPhase i (.returned true) with events := events }
    else { s.setPhase i (.refused result) with events := events }
  | .refused result =>
    { s.setPhase i (.returned false) with status := { s.status with
        droppedEvents := s.status.droppedEvents + 1
        lastError := dropError result } }
  | .returned _ => s

/-! ### `Arm`, `Disarm`, `Stop` -/

/-- `Arm` begins an armed period. -/
def rearms : Bool :=
  s.running && !s.stopping && s.status.state ≠ .triggered && s.status.state ≠ .armed
    && s.status.state ≠ .cooldown

/-- A new armed period. -/
def arm : SentinelService :=
  if s.rearms then
    { s with
      status := { s.status with state := .armed, cooldownUntilMs := 0, lastError := "" }
      cooldownUntilSteadyMs := 0
      periods := s.periods + 1 }
  else s

/-- The locked section of `Disarm`. -/
def disarm : SentinelService :=
  if !s.running || s.stopping then s
  else
    { s with
      status := { s.status with state := .disabled, cooldownUntilMs := 0 }
      cooldownUntilSteadyMs := 0
      disarmCalls := s.disarmCalls ++ [.discarding]
      disarms := s.disarms + 1 }

def disarmProceed (i : Nat) : SentinelService × Option ActionCall :=
  match s.disarmCalls[i]? with
  | some .discarding =>
    ({ s with events := s.events.discardPending, disarmCalls := s.disarmCalls.set i .cancelling },
      none)
  | some .cancelling => ({ s with disarmCalls := s.disarmCalls.set i .returned }, some .cancel)
  | _ => (s, none)

/-- `lifecycle_mutex_` lets one call of `Stop` in at a time; only the first finds the service
    running. -/
def stopProceed : SentinelService × Option ActionCall :=
  match s.stop with
  | .idle => if s.running then ({ s with stopping := true, stop := .closing }, none) else (s, none)
  | .closing => ({ s with events := s.events.close, stop := .discarding }, none)
  | .discarding => ({ s with events := s.events.discardPending, stop := .cancelling }, none)
  | .cancelling => ({ s with stop := .joining }, some .cancel)
  | .joining =>
    match s.worker with
    | .exited => ({ s with stop := .finishing }, none)
    | _ => (s, none)
  | .finishing =>
    ({ s with
        status := { s.status with state := .disabled, cooldownUntilMs := 0 }
        running := false
        cooldownUntilSteadyMs := 0
        stop := .idle }, none)

/-! ### `Run` -/

/-- The cooldown is over. -/
def updateCooldownLocked (steadyNowMs : Int) : SentinelService :=
  if s.status.state = .cooldown && s.cooldownUntilSteadyMs ≤ steadyNowMs then
    { s with
      status := { s.status with state := .armed, cooldownUntilMs := 0 }
      cooldownUntilSteadyMs := 0 }
  else s

/-- The event is from the future, or too old. -/
def isStale (policy : SentinelPolicy) (event : ChassisEvent) (wallNowMs : Int) : Bool :=
  wallNowMs < event.timestampMs || policy.maxEventAgeMs < wallNowMs - event.timestampMs

/-- What the second locked section does with an event; the cooldown is up to date. -/
def decide_ (pending : Pending) (steadyNowMs wallNowMs : Int) : SentinelService :=
  let event := pending.event
  let duplicate := event.sequence ≤ s.status.lastEventSequence
  let status :=
    if duplicate then s.status
    else { s.status with
      lastEventSequence := event.sequence
      lastEventTimestampMs := event.timestampMs }
  if duplicate || isStale s.policy event wallNowMs || s.status.state ≠ .armed then
    { s with
      status := { status with suppressedEvents := status.suppressedEvents + 1 }
      worker := .top }
  else
    { s with
      status := { status with state := .triggered, lastError := "" }
      worker := .preparing pending
      triggers := s.triggers ++ [{ sequence := event.sequence, period := s.periods,
                                   steadyMs := steadyNowMs }] }

/-- The last locked section: what became of the actions. -/
def finish (ok : Bool) (path error : String) (steadyNowMs wallNowMs : Int) : SentinelService :=
  if s.stopping || s.status.state = .disabled then { s with worker := .top }
  else
    let status :=
      if ok then
        { s.status with
          acceptedEvents := s.status.acceptedEvents + 1
          lastSnapshotPath := path
          lastError := "" }
      else
        { s.status with
          failedEvents := s.status.failedEvents + 1
          lastError := if error = "" then "sentinel trigger action failed" else error }
    { s with
      status := { status with
        state := .cooldown
        cooldownUntilMs := wallNowMs + s.policy.cooldownMs }
      cooldownUntilSteadyMs := steadyNowMs + s.policy.cooldownMs
      worker := .top }

/-- The worker's next section, queue operation or action. -/
def workerProceed (ok : Bool) (path error : String)
    (steadyNowMs wallNowMs : Int) : SentinelService × Option ActionCall :=
  match s.worker with
  | .top => ({ s with worker := if s.stopping then .exited else .waiting }, none)
  | .waiting =>
    let (events, pending) := s.events.waitPopFor
    ({ s with events := events, worker := .popped pending }, none)
  | .popped pending =>
    if s.stopping then ({ s with worker := .exited }, none)
    else
      let s := s.updateCooldownLocked steadyNowMs
      match pending with
      | none => ({ s with worker := .top }, none)
      | some pending => (s.decide_ pending steadyNowMs wallNowMs, none)
  | .preparing pending =>
    ({ s with worker := if ok then .snapshotting pending else .finishing pending false "" error },
      some (.prepareRecording pending.event.sequence))
  | .snapshotting pending =>
    ({ s with worker := if ok then .recording pending path else .finishing pending false "" error },
      some (.takeSnapshot pending.event.sequence))
  | .recording pending path =>
    ({ s with worker := .finishing pending ok path error },
      some (.recordMotion pending.event path))
  | .finishing _ ok path error => (s.finish ok path error steadyNowMs wallNowMs, none)
  | .exited => (s, none)

def step (event : Event) : SentinelService × Option ActionCall :=
  match event.action with
  | .submit submitted =>
    ({ s with submits := s.submits ++
        [{ pending := { event := submitted, mark := s.disarms } }] }, none)
  | .submitProceed i =>
    match s.submits[i]? with
    | some call => (s.submitProceed i call, none)
    | none => (s, none)
  | .arm => (s.arm, none)
  | .disarm => (s.disarm, none)
  | .disarmProceed i => s.disarmProceed i
  | .stop => s.stopProceed
  | .worker ok path error => s.workerProceed ok path error event.steadyMs event.wallMs

end SentinelService

end Cockpit.Sentinel
