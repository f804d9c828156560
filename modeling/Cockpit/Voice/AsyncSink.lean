/-
  `AsyncVoiceResponseSink`: a bounded queue before a sink downstream, with one worker and any number of callers
  of `Submit`, `Interrupt` and `Stop`.

  The sink downstream refuses, throws, or accepts and invokes the completion exactly once, before it returns or
  later, from any thread. The join in `Stop`, the condition variable and the downstream's health in `metrics`
  are left out.
-/
import Cockpit.Voice.Interaction

namespace Cockpit.Voice

open Function

structure VoiceOutputResult where
  requestId : Nat
  status : VoiceOutputStatus
  error : String

/-- An output's number stands for the shared pointer. -/
structure PendingOutput where
  requestId : Nat
  text : String

/-- Where a call of `Complete` is: before the exchange, the count and the callback. -/
inductive Completing where
  | exchanging (status : VoiceOutputStatus) (error : String)
  | counting (status : VoiceOutputStatus) (error : String)
  | invoking (status : VoiceOutputStatus) (error : String)

/-- Where the worker is. -/
inductive SinkWorker where
  | waiting
  | popped (output : Nat)
  /-- In `SubmitCancellable`; whether the completion was invoked already. -/
  | calling (output : Nat) (invoked : Bool)
  | refused (output : Nat)
  | completing (output : Nat) (place : Completing)
  | clearing (output : Nat)
  | ended

/-- What the sink downstream has still to do for an output that it has accepted. -/
inductive Downstream where
  | nothing
  | owing
  /-- In the completion: before the look at the cancellation, and in `Complete`. -/
  | completing (status : VoiceOutputStatus) (error : String)
  | finishing (place : Completing)

/-- Where a caller of `CancelPending` is: in the call downstream, before the cancellation of the next of
    `pending`, and in its `Complete`. -/
inductive Cancelling where
  | idle
  | interrupting (pending : List Nat)
  | draining (pending : List Nat)
  | completing (output : Nat) (place : Completing) (pending : List Nat)

/-- How `SubmitCancellable` ends. -/
inductive SubmitAnswer where
  | accepted
  | refused
  | exception

/-- What the sink downstream sees. -/
inductive Downcall where
  | call (output : Nat)
  | returned (output : Nat)
  deriving DecidableEq

/-- The sink, its threads, and every output ever accepted. -/
structure AsyncVoiceResponseSink where
  capacity : Nat
  /-- Every output that was accepted, by its number. -/
  outputs : List PendingOutput := []
  cancellation : Nat → Bool := fun _ => false
  completed : Nat → Bool := fun _ => false
  queue : List Nat := []
  active : Option Nat := none
  stopRequested : Bool := false
  queued : Nat := 0
  played : Nat := 0
  failed : Nat := 0
  dropped : Nat := 0
  worker : SinkWorker := .waiting
  downstream : Nat → Downstream := fun _ => .nothing
  callers : Nat → Cancelling := fun _ => .idle
  /-- No part of the code: the completions that were invoked, the calls downstream, the outputs that
      were counted, those that were taken from the queue by a caller, and how many were refused. -/
  completions : List (Nat × VoiceOutputResult) := []
  downcalls : List Downcall := []
  counted : List Nat := []
  taken : List Nat := []
  refusals : Nat := 0

/-- Who takes a step. -/
inductive SinkEvent where
  | submit (requestId : Nat) (text : String) (completion : Bool)
  | worker (answer : SubmitAnswer)
  | downstream (output : Nat) (status : VoiceOutputStatus) (error : String)
  | cancel (caller : Nat) (stopping : Bool)

namespace AsyncVoiceResponseSink

variable (s : AsyncVoiceResponseSink)

/-- `Submit`. -/
def submit (requestId : Nat) (text : String) (completion : Bool) : AsyncVoiceResponseSink × Bool :=
  if s.stopRequested || requestId = 0 || text = "" || !completion || s.queue.length ≥ s.capacity then
    ({ s with dropped := s.dropped + 1, refusals := s.refusals + 1 }, false)
  else
    ({ s with
      outputs := s.outputs ++ [{ requestId := requestId, text := text }]
      queue := s.queue ++ [s.outputs.length], queued := s.queued + 1 }, true)

/-- The metrics of one completion. -/
def count (status : VoiceOutputStatus) : AsyncVoiceResponseSink :=
  match status with
  | .completed => { s with played := s.played + 1 }
  | .failed => { s with failed := s.failed + 1 }
  | .cancelled | .dropped => { s with dropped := s.dropped + 1 }

/-- `Complete`: the next step, and where the call is then. -/
def complete (output : Nat) : Completing → AsyncVoiceResponseSink × Option Completing
  | .exchanging status error =>
    if s.completed output then (s, none)
    else
      ({ s with completed := update s.completed output true }, some (.counting status error))
  | .counting status error =>
    ({ s.count status with counted := s.counted ++ [output] }, some (.invoking status error))
  | .invoking status error =>
    ({ s with
      completions := s.completions ++
        [(output, ⟨(s.outputs[output]?.map PendingOutput.requestId).getD 0, status, error⟩)] }, none)

/-- `Run`. -/
def workerStep (answer : SubmitAnswer) (s : AsyncVoiceResponseSink) : AsyncVoiceResponseSink :=
  match s.worker with
  | .waiting =>
    if s.stopRequested then { s with worker := .ended }
    else
      match s.queue with
      | [] => s
      | output :: queue => { s with queue := queue, active := some output, worker := .popped output }
  | .popped output =>
    { s with downcalls := s.downcalls ++ [.call output], worker := .calling output false }
  | .calling output invoked =>
    let returned := { s with downcalls := s.downcalls ++ [Downcall.returned output] }
    match answer with
    | .accepted =>
      { returned with
        downstream := if invoked then s.downstream else update s.downstream output .owing
        worker := .clearing output }
    -- whoever has invoked the completion neither refuses nor throws
    | .refused => if invoked then s else { returned with worker := .refused output }
    | .exception =>
      if invoked then s
      else { returned with worker := .completing output (.exchanging .failed "voice output failed") }
  | .refused output =>
    { s with
      worker := .completing output
        (if s.cancellation output then .exchanging .cancelled "voice output interrupted"
        else .exchanging .failed "voice output was rejected") }
  | .completing output place =>
    match s.complete output place with
    | (s', some place') => { s' with worker := .completing output place' }
    | (s', none) => { s' with worker := .clearing output }
  | .clearing output =>
    { s with active := if s.active = some output then none else s.active, worker := .waiting }
  | .ended => s

/-- The completion that `Run` hands downstream. -/
def downstreamStep (output : Nat) (status : VoiceOutputStatus) (error : String)
    (s : AsyncVoiceResponseSink) : AsyncVoiceResponseSink :=
  let at' := fun (s : AsyncVoiceResponseSink) (place : Downstream) =>
    { s with downstream := update s.downstream output place }
  match s.downstream output with
  | .nothing =>
    match s.worker with
    | .calling n false =>
      if n = output then { at' s (.completing status error) with worker := .calling n true } else s
    | _ => s
  | .owing => at' s (.completing status error)
  | .completing status error =>
    at' s (.finishing (.exchanging (if s.cancellation output then .cancelled else status) error))
  | .finishing place =>
    match s.complete output place with
    | (s', some place') => at' s' (.finishing place')
    | (s', none) => at' s' .nothing

/-- `CancelPending`. -/
def cancelStep (i : Nat) (stopping : Bool) (s : AsyncVoiceResponseSink) : AsyncVoiceResponseSink :=
  let at' := fun (s : AsyncVoiceResponseSink) (place : Cancelling) =>
    { s with callers := update s.callers i place }
  match s.callers i with
  | .idle =>
    if s.stopRequested then s
    else
      at'
        { s with
          stopRequested := stopping, queue := [], taken := s.taken ++ s.queue
          cancellation :=
            match s.active with
            | some output => update s.cancellation output true
            | none => s.cancellation }
        (.interrupting s.queue)
  | .interrupting pending => at' s (.draining pending)
  | .draining [] => at' s .idle
  | .draining (output :: pending) =>
    at' { s with cancellation := update s.cancellation output true }
      (.completing output (.exchanging .cancelled "voice output interrupted") pending)
  | .completing output place pending =>
    match s.complete output place with
    | (s', some place') => at' s' (.completing output place' pending)
    | (s', none) => at' s' (.draining pending)

/-- The step, and what `Submit` returned. -/
def step : SinkEvent → AsyncVoiceResponseSink × Bool
  | .submit requestId text completion => s.submit requestId text completion
  | .worker answer => (s.workerStep answer, false)
  | .downstream output status error => (s.downstreamStep output status error, false)
  | .cancel caller stopping => (s.cancelStep caller stopping, false)

/-- The sink after `events`. -/
def after (capacity : Nat) (events : List SinkEvent) : AsyncVoiceResponseSink :=
  StepRun.run step { capacity := capacity } events

end AsyncVoiceResponseSink

end Cockpit.Voice
