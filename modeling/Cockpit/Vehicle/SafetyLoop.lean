/-
  `VcanChassisSafetyLoop`: one period of the VM safety loop.

  What the socket delivers is the list of the results of `Receive` (a list that has run out is a quiet bus, so a
  timeout); what the step does to the outside is a list of events, so "evaluates exactly once" and "hands the
  command over" can be read off it.
-/
import Cockpit.Vehicle.ChassisSink
import Cockpit.Vehicle.StateSource

namespace Cockpit.Vehicle

open Cockpit.Can

/-! ## Receiving -/

/-- A result of `SocketCan::Receive`: its `CanIoStatus` with what comes along. -/
inductive ReceiveResult where
  | ok (frame : SocketCanFrame)
  | timeout
  | closed (error : String)
  | error (error : String)
  deriving DecidableEq

def ReceiveResult.isTimeout : ReceiveResult → Bool
  | .timeout => true
  | _ => false

/-- The loop can go on after this result: a frame that maps onto the logical clock and converts. -/
def ReceiveResult.isReadable (steadyNowMs : Int) : ReceiveResult → Bool
  | .ok frame =>
    (frame.mapToLogicalSteadyMilliseconds steadyNowMs).isSome && (fromSocketCanFrame frame).isOk
  | .timeout => true
  | .closed _ => false
  | .error _ => false

/-! ## The loop -/

/-- Drains up to 64 frames into the state source, evaluates the adapter and hands its command to the sink. -/
structure VcanChassisSafetyLoop where
  safetyAdapter : ChassisSafetyAdapter
  stateSource : ChassisCanSafetyStateSource

/-- What a step does to the outside: the evaluations of the adapter, and the calls of the sink with their answers. -/
inductive LoopEvent where
  | evaluated (state : ChassisSafetyState) (steadyNowMs : Int)
  | sent (command : SafeChassisCommand) (answer : Except String Unit)

/-- What a step leaves, returns and does to the outside. -/
structure StepOutcome where
  loop : VcanChassisSafetyLoop
  command : SafeChassisCommand
  result : Except String Unit
  events : List LoopEvent

namespace VcanChassisSafetyLoop

/-- A data frame of the drain: the loop's own command and outdated safety frames are skipped. -/
def acceptFrame (source : ChassisCanSafetyStateSource) (frame : CanFrame)
    (frameReceivedSteadyMs steadyNowMs wallMs : Int) : ChassisCanSafetyStateSource :=
  if frame.id = ChassisCanCodec.kVelocityCommandId then source
  else if (frame.id = ChassisCanCodec.kHeartbeatId ∨ frame.id = ChassisCanCodec.kFaultStatusId)
      ∧ ChassisHeartbeatMonitor.kTimeoutMs ≤ steadyNowMs - frameReceivedSteadyMs then source
  else (source.processFrame frame frameReceivedSteadyMs wallMs).1

/-- The receive loop of `Step`, with at most `count` frames to go. -/
def drain (steadyNowMs : Int) (wallMs : Nat → Int) : Nat → List ReceiveResult → ChassisCanSafetyStateSource →
      ChassisCanSafetyStateSource × Except String Unit
  | 0, _, source => (source, .ok ())
  | _ + 1, [], source => (source, .ok ())
  | _ + 1, .timeout :: _, source => (source, .ok ())
  | _ + 1, .closed error :: _, source => (source, .error error)
  | _ + 1, .error error :: _, source => (source, .error error)
  | count + 1, .ok socketFrame :: results, source =>
    match socketFrame.mapToLogicalSteadyMilliseconds steadyNowMs with
    | none => (source, .error "invalid SocketCAN kernel RX timestamp")
    | some frameReceivedSteadyMs =>
      match fromSocketCanFrame socketFrame with
      | .error decodeError => (source, .error decodeError)
      | .ok frame =>
        drain steadyNowMs wallMs count results
          (acceptFrame source frame frameReceivedSteadyMs steadyNowMs (wallMs count))

/-- `Submit`, against the interlock inputs of the moment. -/
def submit (loop : VcanChassisSafetyLoop) (request : ChassisVelocityRequest)
    (controls : ChassisSafetyState) (steadyNowMs wallMs : Int) : VcanChassisSafetyLoop × Except String Unit :=
  let (stateSource, state) := loop.stateSource.evaluate controls steadyNowMs wallMs
  let (safetyAdapter, result) := loop.safetyAdapter.submit request state steadyNowMs
  ({ safetyAdapter := safetyAdapter, stateSource := stateSource }, result)

/-- The end of `Step`, behind the drain: evaluate, and hand the command over. -/
def emit (loop : VcanChassisSafetyLoop) (socketSend : SocketCanFrame → Except String Unit)
    (controls : ChassisSafetyState) (steadyNowMs wallMs : Int) : StepOutcome :=
  let (stateSource, state) := loop.stateSource.evaluate controls steadyNowMs wallMs
  let (safetyAdapter, command) := loop.safetyAdapter.evaluate state steadyNowMs
  let result := SocketCanChassisSink.send socketSend command
  { loop := { safetyAdapter := safetyAdapter, stateSource := stateSource }, command := command, result := result,
    events := [.evaluated state steadyNowMs, .sent command result] }

/-- `command` is the content of the out-parameter before the call, `wallMs count` the wall clock
    when `count` frames are left to drain. -/
def step (loop : VcanChassisSafetyLoop) (socketSend : SocketCanFrame → Except String Unit)
    (results : List ReceiveResult) (controls : ChassisSafetyState)
    (steadyNowMs receiveTimeoutMs : Int) (command : SafeChassisCommand) (wallMs : Nat → Int) : StepOutcome :=
  if steadyNowMs < 0 || receiveTimeoutMs < 0 then
    { loop := loop, command := command, events := [],
      result := .error "invalid vcan chassis safety step arguments" }
  else
    match drain steadyNowMs wallMs 64 results loop.stateSource with
    | (stateSource, .error error) =>
      { loop := { loop with stateSource := stateSource }, command := command, events := [],
        result := .error error }
    | (stateSource, .ok ()) =>
      emit { loop with stateSource := stateSource } socketSend controls steadyNowMs (wallMs 0)

/-- `Stop`, which sends one stop frame. -/
def stop (loop : VcanChassisSafetyLoop) (socketSend : SocketCanFrame → Except String Unit)
    (steadyNowMs : Int) (command : SafeChassisCommand) : StepOutcome :=
  if steadyNowMs < 0 then
    { loop := loop, command := command, events := [],
      result := .error "invalid vcan chassis safety stop arguments" }
  else
    let stoppedState : ChassisSafetyState := { authorityGranted := true, peerAlive := true }
    let (safetyAdapter, command) :=
      (loop.safetyAdapter.reset steadyNowMs).evaluate stoppedState steadyNowMs
    let result := SocketCanChassisSink.send socketSend command
    { loop := { loop with safetyAdapter := safetyAdapter }, command := command, result := result,
      events := [.evaluated stoppedState steadyNowMs, .sent command result] }

/-! ## When a step emits its command -/

/-- The state source behind the drain of a step, and the safety state that it then says. -/
def drainedState (loop : VcanChassisSafetyLoop) (results : List ReceiveResult) (controls : ChassisSafetyState)
    (steadyNowMs : Int) (wallMs : Nat → Int) : ChassisCanSafetyStateSource × ChassisSafetyState :=
  (drain steadyNowMs wallMs 64 results loop.stateSource).1.evaluate controls steadyNowMs (wallMs 0)

/-- The step evaluated the adapter exactly once, at `steadyNowMs` and in the state that the drained source says with
    these controls, handed the resulting command to the sink, once, and returned the answer of the sink. -/
structure EmitsCommand (loop : VcanChassisSafetyLoop) (socketSend : SocketCanFrame → Except String Unit)
    (results : List ReceiveResult) (controls : ChassisSafetyState) (steadyNowMs : Int) (wallMs : Nat → Int)
    (outcome : StepOutcome) : Prop where
  source : outcome.loop.stateSource = (loop.drainedState results controls steadyNowMs wallMs).1
  evaluated : (outcome.loop.safetyAdapter, outcome.command) =
    loop.safetyAdapter.evaluate (loop.drainedState results controls steadyNowMs wallMs).2 steadyNowMs
  result : outcome.result = SocketCanChassisSink.send socketSend outcome.command
  events : outcome.events =
    [.evaluated (loop.drainedState results controls steadyNowMs wallMs).2 steadyNowMs,
      .sent outcome.command (SocketCanChassisSink.send socketSend outcome.command)]

/-- The drain has three exits that leave the step before it has evaluated: an I/O error, a receive time that
    does not map onto the logical clock, and an error or malformed frame. -/
theorem drain_ok_iff (steadyNowMs : Int) (wallMs : Nat → Int) (count : Nat)
    (results : List ReceiveResult) (source : ChassisCanSafetyStateSource) :
    (drain steadyNowMs wallMs count results source).2 = .ok ()
      ↔ ∀ result ∈ (results.take count).takeWhile (!·.isTimeout), result.isReadable steadyNowMs = true := by
  fun_induction drain steadyNowMs wallMs count results source with
  | case1 results source | case2 count source => simp
  | case3 count results source => simp [ReceiveResult.isTimeout]
  | case4 count error results source | case5 count error results source =>
    simp [ReceiveResult.isTimeout, ReceiveResult.isReadable]
  | case6 count socketFrame results source hmap =>
    simp [ReceiveResult.isTimeout, ReceiveResult.isReadable, hmap]
  | case7 count socketFrame results source receivedMs hmap error hconvert =>
    simp [ReceiveResult.isTimeout, ReceiveResult.isReadable, hmap, hconvert, Except.isOk, Except.toBool]
  | case8 count socketFrame results source receivedMs hmap frame hconvert ih =>
    have hreadable : (ReceiveResult.ok socketFrame).isReadable steadyNowMs = true := by
      simp [ReceiveResult.isReadable, hmap, hconvert, Except.isOk, Except.toBool]
    rw [ih, List.take_succ_cons, List.takeWhile_cons_of_pos rfl, List.forall_mem_cons]
    exact ⟨fun h => ⟨hreadable, h⟩, fun h => h.2⟩

variable (loop : VcanChassisSafetyLoop) (socketSend : SocketCanFrame → Except String Unit)
  (results : List ReceiveResult) (controls : ChassisSafetyState) (steadyNowMs : Int)

/-- A step is the drain, and behind a drain without an error the evaluation and the sink. -/
theorem step_eq {receiveTimeoutMs : Int} (hnow : 0 ≤ steadyNowMs) (htimeout : 0 ≤ receiveTimeoutMs)
    (command : SafeChassisCommand) (wallMs : Nat → Int) :
    loop.step socketSend results controls steadyNowMs receiveTimeoutMs command wallMs =
      match drain steadyNowMs wallMs 64 results loop.stateSource with
      | (stateSource, .error error) =>
        { loop := { loop with stateSource := stateSource }, command := command, events := [],
          result := .error error }
      | (stateSource, .ok ()) =>
        emit { loop with stateSource := stateSource } socketSend controls steadyNowMs
          (wallMs 0) := by
  have hargs : (decide (steadyNowMs < 0) || decide (receiveTimeoutMs < 0)) = false := by
    simp only [Bool.or_eq_false_iff, decide_eq_false_iff_not]
    omega
  simp only [step, hargs, Bool.false_eq_true, if_false]

/-- **When the loop emits its command.**  With valid arguments, a step evaluates the adapter
    exactly once and hands the command over if and only if every receive result that it reads,
    up to the 64th and before the first quiet poll, is readable. -/
theorem step_emitsCommand_iff {receiveTimeoutMs : Int} (hnow : 0 ≤ steadyNowMs)
    (htimeout : 0 ≤ receiveTimeoutMs) (command : SafeChassisCommand) (wallMs : Nat → Int) :
    loop.EmitsCommand socketSend results controls steadyNowMs wallMs
        (loop.step socketSend results controls steadyNowMs receiveTimeoutMs command wallMs)
      ↔ ∀ result ∈ (results.take 64).takeWhile (!·.isTimeout),
          result.isReadable steadyNowMs = true := by
  rw [step_eq loop socketSend results controls steadyNowMs hnow htimeout,
    ← drain_ok_iff steadyNowMs wallMs 64 results loop.stateSource]
  rcases hdrain : drain steadyNowMs wallMs 64 results loop.stateSource with ⟨stateSource, error | ⟨⟨⟩⟩⟩
  · constructor <;> intro h
    · cases h.events
    · cases h
  · have hstate : loop.drainedState results controls steadyNowMs wallMs =
        stateSource.evaluate controls steadyNowMs (wallMs 0) := by
      unfold drainedState
      rw [hdrain]
    refine ⟨fun _ => rfl, fun _ => ?_⟩
    constructor
    case source => rw [hstate]; rfl
    case evaluated => rw [hstate]; rfl
    case result => rfl
    case events => rw [hstate]; rfl

/-- A frame that the kernel stamped at 990 ms and the loop dequeues at once. -/
def stampedFrame (error : Bool) : SocketCanFrame :=
  { id := 0x123, error := error, errorMask := 4, kernelTimestampValid := true,
    receivedSteadyNs := 990000000, dequeuedSteadyNs := 990000000 }

def idleLoop : VcanChassisSafetyLoop where
  safetyAdapter := { policy := {} }
  stateSource := .init 0 0

theorem step_emitsCommand_foreignFrame :
    idleLoop.EmitsCommand (fun _ => .ok ()) [.ok (stampedFrame false)] { emergencyStop := true } 1000 (fun _ => 0)
      (idleLoop.step (fun _ => .ok ()) [.ok (stampedFrame false)] { emergencyStop := true } 1000 0 {} fun _ => 0) :=
  (step_emitsCommand_iff idleLoop _ _ _ 1000 (by decide) (by decide) _ _).mpr (by decide)

theorem step_silenced :
    let outcome := idleLoop.step (fun _ => .ok ()) [.ok (stampedFrame true)]
      { emergencyStop := true } 1000 0 {} fun _ => 0
    outcome.events = [] ∧ ¬ idleLoop.EmitsCommand (fun _ => .ok ()) [.ok (stampedFrame true)]
      { emergencyStop := true } 1000 (fun _ => 0) outcome := by
  have hevents : (idleLoop.step (fun _ => .ok ()) [.ok (stampedFrame true)]
      { emergencyStop := true } 1000 0 {} fun _ => 0).events = [] := by
    rw [← List.isEmpty_iff]
    decide +kernel
  refine ⟨hevents, fun h => ?_⟩
  cases hevents.symm.trans h.events

end VcanChassisSafetyLoop

end Cockpit.Vehicle
