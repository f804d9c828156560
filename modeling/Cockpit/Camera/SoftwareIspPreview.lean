/-
  The camera behind the software image signal processor
  (`driver/camera/capture/software_isp_preview_source.cc`): one session, from the moment at which `Start` has
  started both threads.

  Each block under `mutex_`, each atomic operation and each call to the capture or to the processor is one step.
  A wait on `queue_condition_` is taken apart further, into the test of its predicate, the block (which gives
  the mutex back) and the wake-up. Latencies and timings of `stats` are left out.
-/
import Mathlib.Algebra.Group.Int.Defs
import Cockpit.Camera.SoftwareIsp

namespace Cockpit.Camera

/-! ## The data -/

structure V4l2RawFrame where
  width : UInt32 := 0
  height : UInt32 := 0
  bytesPerLine : UInt32 := 0
  bytesUsed : UInt32 := 0
  sequence : UInt32 := 0
  timestampNs : Int := 0
  timestampFlags : UInt32 := 0
  data : List UInt8 := []

/-- A frame of the queue.  `number` tells the captured frames apart; the code has no such field. -/
structure PendingFrame where
  frame : RawBayerFrame := {}
  generation : Nat := 0
  number : Nat := 0

structure SoftwareIspPreviewStats where
  capturedFrames : Nat := 0
  processedFrames : Nat := 0
  droppedQueueFrames : Nat := 0
  sourceSequenceGaps : Nat := 0
  fatalCaptureErrors : Nat := 0
  reconnectAttempts : Nat := 0
  reconnectSuccesses : Nat := 0
  consecutiveFailures : UInt32 := 0
  lastReconnectBackoffMs : Nat := 0
  lastError : String := ""

def kReconnectBackoffMs : List Nat := [100, 200, 400, 800, 1600, 3200, 5000]

def kFirstOutputTimeout : Int := 2000000000

def V4L2_BUF_FLAG_TIMESTAMP_MASK : UInt32 := 0xe000
def V4L2_BUF_FLAG_TIMESTAMP_MONOTONIC : UInt32 := 0x2000

def recoveryTimeoutError : String := "camera recovery produced no valid output within 2s"

/-- What the world answers to one step, of which the step takes what it asks for. -/
structure PreviewWorld where
  /-- `steady_clock::now()`. -/
  now : Int := 0
  /-- `WallTime::Now()`, in nanoseconds. -/
  wallNs : Int := 0
  /-- `capture_factory_()` and `Start` of what it makes; the error is empty when there is no backend. -/
  opened : Except String Unit := .ok ()
  /-- `WaitFrame`; when it fails, its error and whether the capture is running still. -/
  frame : Except (String × Bool) V4l2RawFrame := .ok {}
  /-- `isp_->Process`. -/
  processed : Bool := true
  /-- Whether a `wait_for` ends because its time is over, or a `wait` for no reason. -/
  elapsed : Bool := false

/-! ## The places of the threads -/

/-- Where `CaptureLoop` is: about to do what the name says. -/
inductive CapturePlace where
  | loadStop
  | exchangeTimeout
  | resetTimedOut
  | getCapture
  | storeRecovering
  | countFailure
  | backOff (consecutiveFailures : UInt32)
  | testBackOff (consecutiveFailures : UInt32)
  /-- The predicate was false; the thread has the mutex. -/
  | blockBackOff (consecutiveFailures : UInt32)
  | asleepBackOff (consecutiveFailures : UInt32)
  /-- The time is over: the predicate is looked at once more. -/
  | endBackOff (consecutiveFailures : UInt32)
  | openCapture (consecutiveFailures : UInt32)
  | countAttempt (consecutiveFailures : UInt32) (opened : Except String Unit)
  | storeOpenError (consecutiveFailures : UInt32) (reopenError : String)
  | storeReplacement (consecutiveFailures : UInt32)
  | storeReopened
  | waitFrame
  | loadStopAfterFailure (error : String) (running : Bool)
  | storeLost (error : String)
  | resetLost
  | storeRecoveringAfterLoss
  | loadRecovering
  | checkDeadline
  | enqueue (raw : V4l2RawFrame)
  | exited

/-- Where `IspLoop` is. -/
inductive IspPlace where
  | loadStop
  /-- Takes the mutex, evaluates the predicate, and when it is true goes on to the end of the block. -/
  | testQueue
  /-- The predicate was false; the thread has the mutex. -/
  | blockQueue
  | asleepQueue (notified : Bool)
  | process (pending : PendingFrame)
  | loadRecovering
  | checkDeadline
  | commit (pending : PendingFrame)
  | loadTimeout (pending : PendingFrame) (deliverFrame : Bool)
  | notifyTimeout (pending : PendingFrame) (deliverFrame : Bool)
  | deliver (pending : PendingFrame)
  | storeStopped
  | exited

/-- Where `Stop` is. -/
inductive StopPlace where
  | notCalled
  /-- `stop_requested_` is stored. -/
  | stored
  /-- `notify_all` is issued. -/
  | notified
  | joinedCapture
  | joinedIsp
  | returned
  deriving DecidableEq

/-- The source, its two loops and `Stop`. -/
structure SoftwareIspPreviewSource where
  /-- Whether `capture_` is set. -/
  capture : Bool := true
  /-- Whether `callback_` is set. -/
  callback : Bool := true
  queue : List PendingFrame := []
  stats : SoftwareIspPreviewStats := {}
  stopRequested : Bool := false
  running : Bool := true
  recovering : Bool := false
  recoveryOutputTimeout : Bool := false
  consecutiveFailures : UInt32 := 0
  captureGeneration : Nat := 0
  /-- Zero is the unset time. -/
  recoveryDeadline : Int := 0
  /-- `previous_sequence` of `CaptureLoop`, when `have_sequence`. -/
  previousSequence : Option UInt32 := none
  captureLoop : CapturePlace := .loadStop
  ispLoop : IspPlace := .loadStop
  stop : StopPlace := .notCalled

/-- What a step does that matters to the frames. -/
inductive PreviewEvent where
  | captured (pending : PendingFrame)
  | lost (generation : Nat)
  | recoveringSet
  | reopened (generation : Nat)
  /-- `IspLoop` has decided whether it delivers the frame. -/
  | decided (pending : PendingFrame) (deliverFrame : Bool)
  | delivered (pending : PendingFrame)

namespace IspPlace

/-- Who is blocked is woken, and nobody else. -/
def notify : IspPlace → IspPlace
  | asleepQueue _ => asleepQueue true
  | place => place

/-- The mutex is held between test and block. -/
def isBlocking : IspPlace → Bool
  | blockQueue => true
  | _ => false

end IspPlace

namespace CapturePlace

def isBlocking : CapturePlace → Bool
  | blockBackOff _ => true
  | _ => false

end CapturePlace

namespace SoftwareIspPreviewSource

/-! ## CaptureLoop -/

variable (s : SoftwareIspPreviewSource)

/-- A block under the mutex waits for who holds it. -/
def lockedCapture
    (block : SoftwareIspPreviewSource × Option PreviewEvent) : SoftwareIspPreviewSource × Option PreviewEvent :=
  if s.ispLoop.isBlocking then (s, none) else block

def resetCapture : SoftwareIspPreviewSource :=
  { s with capture := false, recoveryDeadline := 0 }

def countFatal (error : String) : SoftwareIspPreviewSource :=
  { s with stats :=
    { s.stats with fatalCaptureErrors := s.stats.fatalCaptureErrors + 1, lastError := error } }

def isOverdue (now : Int) : Bool :=
  s.recoveryDeadline ≠ 0 && s.recoveryDeadline ≤ now

def toPending (raw : V4l2RawFrame) (receivedAtNs : Int) (generation number : Nat) : PendingFrame :=
  { frame :=
      { width := raw.width, height := raw.height, bytesPerLine := raw.bytesPerLine, bytesUsed := raw.bytesUsed
        sequence := raw.sequence.toNat
        timestampMs := (receivedAtNs.tdiv 1000000 % 2 ^ 64).toNat
        receivedAtNs := receivedAtNs
        sourceTimestampNs := raw.timestampNs
        sourceTimestampFlags := raw.timestampFlags.toNat
        sourceTimestampValid := raw.timestampNs > 0
        sourceClock :=
          if raw.timestampFlags &&& V4L2_BUF_FLAG_TIMESTAMP_MASK = V4L2_BUF_FLAG_TIMESTAMP_MONOTONIC then
            .monotonic
          else .unknown
        data := raw.data }
    generation, number }

/-- Frames that the driver has dropped. -/
def sequenceGap (previousSequence : Option UInt32) (sequence : UInt32) : Nat :=
  match previousSequence with
  | some previous => if sequence > previous + 1 then (sequence - previous - 1).toNat else 0
  | none => 0

/-- A full queue drops its oldest frame. -/
def enqueueFrame (raw : V4l2RawFrame) (receivedAtNs : Int) : SoftwareIspPreviewSource × PendingFrame :=
  let pending := toPending raw receivedAtNs s.captureGeneration (s.stats.capturedFrames + 1)
  let full := 2 ≤ s.queue.length
  let stats :=
    { s.stats with
      capturedFrames := s.stats.capturedFrames + 1
      sourceSequenceGaps := s.stats.sourceSequenceGaps + sequenceGap s.previousSequence raw.sequence
      droppedQueueFrames := s.stats.droppedQueueFrames + if full then 1 else 0 }
  ({ s with
      stats, previousSequence := some raw.sequence
      queue := (if full then s.queue.tail else s.queue) ++ [pending]
      ispLoop := s.ispLoop.notify, captureLoop := .loadStop }, pending)

/-- `CaptureLoop`: frames are taken from the capture, and a new one is opened when it is lost. -/
def captureStep (world : PreviewWorld) : SoftwareIspPreviewSource × Option PreviewEvent :=
  match s.captureLoop with
  | .loadStop =>
    ({ s with captureLoop := if s.stopRequested then .exited else .exchangeTimeout }, none)
  | .exchangeTimeout =>
    ({ s with
        recoveryOutputTimeout := false
        captureLoop := if s.recoveryOutputTimeout then .resetTimedOut else .getCapture }, none)
  | .resetTimedOut =>
    s.lockedCapture
      ({ (s.countFatal recoveryTimeoutError).resetCapture with captureLoop := .loadStop },
        some (.lost s.captureGeneration))
  | .getCapture =>
    s.lockedCapture ({ s with captureLoop := if s.capture then .waitFrame else .storeRecovering }, none)
  | .storeRecovering =>
    ({ s with recovering := true, captureLoop := .countFailure }, some .recoveringSet)
  | .countFailure =>
    ({ s with
        consecutiveFailures := s.consecutiveFailures + 1
        captureLoop := .backOff (s.consecutiveFailures + 1) }, none)
  | .backOff failures =>
    let backoffMs := kReconnectBackoffMs.getD (min (failures - 1).toNat (kReconnectBackoffMs.length - 1)) 0
    -- the predicate is tested under the same lock
    s.lockedCapture
      ({ s with
          stats := { s.stats with lastReconnectBackoffMs := backoffMs }
          captureLoop := if s.stopRequested then .exited else .blockBackOff failures }, none)
  | .testBackOff failures =>
    s.lockedCapture
      ({ s with captureLoop := if s.stopRequested then .exited else .blockBackOff failures }, none)
  | .blockBackOff failures => ({ s with captureLoop := .asleepBackOff failures }, none)
  | .asleepBackOff failures =>
    ({ s with captureLoop := if world.elapsed then .endBackOff failures else .testBackOff failures }, none)
  | .endBackOff failures =>
    s.lockedCapture ({ s with captureLoop := if s.stopRequested then .exited else .openCapture failures }, none)
  | .openCapture failures => ({ s with captureLoop := .countAttempt failures world.opened }, none)
  | .countAttempt failures opened =>
    s.lockedCapture
      ({ s with
          stats := { s.stats with reconnectAttempts := s.stats.reconnectAttempts + 1 }
          captureLoop :=
            match opened with
            | .ok () => .storeReplacement failures
            | .error reopenError => .storeOpenError failures reopenError }, none)
  | .storeOpenError failures reopenError =>
    s.lockedCapture
      ({ s with
          stats :=
            { s.stats with
              lastError := if reopenError.isEmpty then "capture factory returned no backend" else reopenError
              consecutiveFailures := failures }
          captureLoop := .loadStop }, none)
  | .storeReplacement failures =>
    s.lockedCapture
      ({ s with
          capture := true
          stats := { s.stats with consecutiveFailures := failures }
          captureGeneration := s.captureGeneration + 1
          recoveryDeadline := world.now + kFirstOutputTimeout
          captureLoop := .storeReopened }, some (.reopened (s.captureGeneration + 1)))
  | .storeReopened => ({ s with recovering := true, captureLoop := .loadStop }, some .recoveringSet)
  | .waitFrame =>
    ({ s with
        captureLoop :=
          match world.frame with
          | .ok raw => .enqueue raw
          | .error (error, running) => .loadStopAfterFailure error running }, none)
  | .loadStopAfterFailure error running =>
    ({ s with
        captureLoop :=
          if s.stopRequested then .exited else if running then .loadRecovering else .storeLost error }, none)
  | .storeLost error => s.lockedCapture ({ s.countFatal error with captureLoop := .resetLost }, none)
  | .resetLost =>
    s.lockedCapture
      ({ s.resetCapture with
          stats := { s.stats with consecutiveFailures := s.consecutiveFailures }
          captureLoop := .storeRecoveringAfterLoss }, some (.lost s.captureGeneration))
  | .storeRecoveringAfterLoss =>
    ({ s with recovering := true, captureLoop := .loadStop }, some .recoveringSet)
  | .loadRecovering =>
    ({ s with captureLoop := if s.recovering then .checkDeadline else .loadStop }, none)
  | .checkDeadline =>
    s.lockedCapture
      (if s.isOverdue world.now then
        ({ (s.countFatal recoveryTimeoutError).resetCapture with captureLoop := .loadStop },
          some (.lost s.captureGeneration))
      else ({ s with captureLoop := .loadStop }, none))
  | .enqueue raw =>
    s.lockedCapture
      (let (s', pending) := s.enqueueFrame raw world.wallNs
      (s', some (.captured pending)))
  | .exited => (s, none)

/-! ## IspLoop -/

def lockedIsp
    (block : SoftwareIspPreviewSource × Option PreviewEvent) : SoftwareIspPreviewSource × Option PreviewEvent :=
  if s.captureLoop.isBlocking then (s, none) else block

/-- The decision, under the mutex. -/
def commitFrame (pending : PendingFrame) (now : Int) : SoftwareIspPreviewSource × Bool :=
  let s := { s with stats := { s.stats with processedFrames := s.stats.processedFrames + 1 } }
  if s.recovering then
    if pending.generation = s.captureGeneration && s.isOverdue now then
      ({ s with recoveryOutputTimeout := true }, false)
    else if pending.generation = s.captureGeneration && s.recoveryDeadline ≠ 0 then
      ({ s with
          recovering := false
          stats :=
            { s.stats with reconnectSuccesses := s.stats.reconnectSuccesses + 1, consecutiveFailures := 0 }
          consecutiveFailures := 0
          recoveryDeadline := 0 }, true)
    else (s, false)
  else (s, true)

/-- `IspLoop`: frames of the queue are developed and delivered. -/
def ispStep (world : PreviewWorld) : SoftwareIspPreviewSource × Option PreviewEvent :=
  match s.ispLoop with
  | .loadStop => ({ s with ispLoop := if s.stopRequested then .storeStopped else .testQueue }, none)
  | .testQueue =>
    s.lockedIsp
      (match s.stopRequested, s.queue with
      | false, [] => ({ s with ispLoop := .blockQueue }, none)
      | true, [] => ({ s with ispLoop := .loadStop }, none)
      | _, pending :: queue =>
        ({ s with queue, ispLoop := if s.callback then .process pending else .storeStopped }, none))
  | .blockQueue => ({ s with ispLoop := .asleepQueue false }, none)
  | .asleepQueue notified =>
    ({ s with ispLoop := if notified || world.elapsed then .testQueue else .asleepQueue notified }, none)
  | .process pending =>
    ({ s with ispLoop := if world.processed then .commit pending else .loadRecovering }, none)
  | .loadRecovering => ({ s with ispLoop := if s.recovering then .checkDeadline else .loadStop }, none)
  | .checkDeadline =>
    -- whom `notify_all` could wake is `CaptureLoop`, which wakes up at any time anyway
    s.lockedIsp
      ({ s with
          recoveryOutputTimeout := s.recoveryOutputTimeout || s.isOverdue world.now
          ispLoop := .loadStop }, none)
  | .commit pending =>
    s.lockedIsp
      (let (s', deliverFrame) := s.commitFrame pending world.now
      ({ s' with ispLoop := .loadTimeout pending deliverFrame }, some (.decided pending deliverFrame)))
  | .loadTimeout pending deliverFrame =>
    ({ s with
        ispLoop :=
          if s.recoveryOutputTimeout then .notifyTimeout pending deliverFrame
          else if deliverFrame then .deliver pending else .loadStop }, none)
  | .notifyTimeout pending deliverFrame =>
    ({ s with ispLoop := if deliverFrame then .deliver pending else .loadStop }, none)
  | .deliver pending => ({ s with ispLoop := .loadStop }, some (.delivered pending))
  | .storeStopped => ({ s with running := false, ispLoop := .exited }, none)
  | .exited => (s, none)

/-! ## Stop -/

/-- `Stop`. -/
def stopStep : SoftwareIspPreviewSource :=
  match s.stop with
  | .notCalled => { s with stopRequested := true, stop := .stored }
  | .stored => { s with ispLoop := s.ispLoop.notify, stop := .notified }
  | .notified =>
    match s.captureLoop with
    | .exited => { s with stop := .joinedCapture }
    | _ => s
  | .joinedCapture =>
    match s.ispLoop with
    | .exited => { s with stop := .joinedIsp }
    | _ => s
  | .joinedIsp =>
    { s with
      queue := [], capture := false, callback := false, running := false, recovering := false
      recoveryOutputTimeout := false, consecutiveFailures := 0, recoveryDeadline := 0, stop := .returned }
  | .returned => s

/-! ## The session -/

inductive PreviewCall where
  | capture (world : PreviewWorld)
  | isp (world : PreviewWorld)
  | stop

def step : PreviewCall → SoftwareIspPreviewSource × Option PreviewEvent
  | .capture world => s.captureStep world
  | .isp world => s.ispStep world
  | .stop => (s.stopStep, none)

def started (captureGeneration : Nat) : SoftwareIspPreviewSource := { captureGeneration }

def after (captureGeneration : Nat) (calls : List PreviewCall) : SoftwareIspPreviewSource :=
  StepRun.run step (started captureGeneration) calls

/-! ## What a step leaves to the others -/

@[simp] theorem captureStep_stop (world : PreviewWorld) : (s.captureStep world).1.stop = s.stop := by
  unfold captureStep
  cases s.captureLoop <;> simp only [lockedCapture, enqueueFrame, countFatal, resetCapture] <;> repeat' split
  all_goals rfl

@[simp] theorem ispStep_stop (world : PreviewWorld) : (s.ispStep world).1.stop = s.stop := by
  unfold ispStep
  cases s.ispLoop <;> simp only [lockedIsp, commitFrame] <;> repeat' split
  all_goals rfl

@[simp] theorem ispStep_captureLoop (world : PreviewWorld) : (s.ispStep world).1.captureLoop = s.captureLoop := by
  unfold ispStep
  cases s.ispLoop <;> simp only [lockedIsp, commitFrame] <;> repeat' split
  all_goals rfl

theorem captureStep_ispLoop (world : PreviewWorld) :
    (s.captureStep world).1.ispLoop = s.ispLoop ∨ (s.captureStep world).1.ispLoop = s.ispLoop.notify := by
  unfold captureStep
  cases s.captureLoop <;> simp only [lockedCapture, enqueueFrame, countFatal, resetCapture] <;> repeat' split
  all_goals simp

end SoftwareIspPreviewSource

end Cockpit.Camera
