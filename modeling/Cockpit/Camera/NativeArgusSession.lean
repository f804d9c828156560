/-
  The buffers of the native capture (`Session` of `driver/camera/capture/native_argus_capture.cc`, and the calls
  of `NativeArgusCapture` that lead to it).

  The control mutex serialises the calls of the controller, which are cut where they call the SDK or enter a
  locked section; in between a lease is returned from any thread, under `returns_mutex`. Left out: `Initialize`
  (the session starts with all buffers in Argus), the metadata of the frames, and the CPU mapping of
  `SampleLuma`.
-/
import Cockpit.Camera.NativeTuning

namespace Cockpit.Camera

/-! ## The SDK -/

/-- The statuses that the session names; that of success is 0. -/
structure ArgusStatus where
  invalidParams : Int
  timeout : Int
  endOfStream : Int
  invalidParams_ne : invalidParams ≠ 0
  timeout_ne : timeout ≠ 0
  endOfStream_ne : endOfStream ≠ 0

/-- A buffer: whether the client has it, and the last frame that came in it. -/
structure ArgusBuffer where
  client : Bool := false
  frame : Option Nat := none
  deriving DecidableEq

/-- The SDK's buffers; the numbers of the frames are no part of the code. -/
structure ArgusPool where
  buffers : List ArgusBuffer
  nextFrame : Nat := 0
  /-- The frames that `releaseBuffer` was called for, with `none` for a buffer without one. -/
  releases : List (Option Nat) := []

/-- The answers of the SDK and of the clock at one step. -/
structure ArgusAnswer where
  status : Int := 0
  /-- The buffer that is yielded, if the client does not have it. -/
  buffer : Option Nat := none
  unmapped : Bool := true
  /-- Whatever fails in between, such as a frame without metadata. -/
  failure : Option String := none
  /-- The deadline has passed. -/
  late : Bool := false
  cancelStatus : Int := 0
  /-- The statuses of the two calls of `waitForIdle`. -/
  idleStatus : Int := 0
  idleAgainStatus : Int := 0
  /-- What the destructors of the slots report. -/
  destroyErrors : List String := []

namespace ArgusPool

/-- `acquireBuffer` yields a buffer that the client does not hold. -/
def yielded (p : ArgusPool) (wanted : Option Nat) : Option Nat :=
  match wanted with
  | some i =>
    match p.buffers[i]? with
    | some buffer => if buffer.client then none else some i
    | none => none
  | none => none

/-- The client holds it, with the next frame. -/
def acquire (p : ArgusPool) (i : Nat) : ArgusPool :=
  { p with
    buffers := p.buffers.set i { client := true, frame := some p.nextFrame }
    nextFrame := p.nextFrame + 1 }

/-- `releaseBuffer`. -/
def release (p : ArgusPool) (i : Nat) (status : Int) : ArgusPool :=
  match p.buffers[i]? with
  | some buffer =>
    { p with
      buffers := p.buffers.set i { buffer with client := buffer.client && status ≠ 0 }
      releases := p.releases ++ [buffer.frame] }
  | none => p

end ArgusPool

/-! ## The session -/

/-- The state of one buffer. -/
inductive SlotState where
  | inArgus
  | leased
  | pendingReturn
  | releaseFailed
  deriving DecidableEq

inductive NativeAcquireStatus where
  | frame
  | timeout
  | noBuffer
  | stopped
  | error
  deriving DecidableEq

inductive NativeStopStatus where
  | stopped
  | leasesOutstanding
  | error
  deriving DecidableEq

/-- The counters are unsigned in the code; here they could be seen to go below zero. -/
structure NativeCaptureStats where
  framesAcquired : Int := 0
  leasesReturned : Int := 0
  buffersReleased : Int := 0
  drained : Int := 0
  timeouts : Int := 0
  noBuffer : Int := 0
  releaseErrors : Int := 0
  outstandingLeases : Int := 0
  pendingReturns : Int := 0
  peakLeases : Int := 0
  nativeResourcesRetainedUntilExit : Bool := false
  cleanupErrors : List String := []
  deriving DecidableEq

/-- A lease that a consumer has: the slot in its callback, and the number of its frame. -/
structure NativeLease where
  index : Nat
  frame : Nat
  deriving DecidableEq

/-- What comes behind `FlushReturns`. -/
inductive FlushBehind where
  | acquire
  | stop
  | stopFinal
  deriving DecidableEq

/-- Where the controller is. -/
inductive SessionPlace where
  | idle
  /-- `FlushReturns`: before its locked section, before the release of the next index, and behind one. -/
  | flush (behind : FlushBehind)
  | flushing (behind : FlushBehind) (ready : List Nat) (ok : Bool)
  | flushed (behind : FlushBehind) (index : Nat) (status : Int) (ready : List Nat) (ok : Bool)
  | acquireHeld
  | acquireBuffer
  /-- A buffer was acquired, and its frame is made up. -/
  | acquired (index : Nat)
  | acquireFailed (index : Nat) (error : String)
  | stopOutstanding
  | drain
  | drained (index : Nat)
  | waitForIdle
  | clear
  deriving DecidableEq

/-- The session and its leases. -/
structure NativeSession where
  slots : List SlotState
  pool : ArgusPool
  /-- `active`, `stopping`, `closed` and the fault are there. -/
  control : TuningSession := {}
  stats : NativeCaptureStats := {}
  returns : List Nat := []
  leases : List NativeLease := []
  place : SessionPlace := .idle
  /-- `NativeArgusCapture` has the session; the leases have it too. -/
  owned : Bool := true

inductive SessionEvent where
  | acquireReturned (status : NativeAcquireStatus) (error : String)
  | stopReturned (status : NativeStopStatus) (error : String)
  | tuningReturned (result : Except String Nat)

inductive SessionCall where
  /-- With an empty lease and a positive timeout, or not. -/
  | acquire (valid : Bool)
  | setTuning (change : TuningChange) (world : ArgusWorld)
  /-- With the status of the end of the stream. -/
  | stop (endOfStreamStatus : Int)
  /-- `NativeArgusCapture` goes, behind its `Stop`. -/
  | abandon
  /-- The destructor of the session, when nobody has it any more. -/
  | destroy (endOfStreamStatus : Int)
  /-- The controller goes on. -/
  | resume (answer : ArgusAnswer)
  /-- The consumer that has the lease of this frame gives it up. -/
  | returnLease (frame : Nat)

namespace NativeSession

/-- All buffers are in Argus. -/
def started (bufferCount : Nat) : NativeSession where
  slots := List.replicate bufferCount .inArgus
  pool := { buffers := List.replicate bufferCount {} }

variable (s : NativeSession)

def report (text : String) : NativeSession :=
  { s with stats := { s.stats with cleanupErrors := s.stats.cleanupErrors ++ [text] } }

def goTo (place : SessionPlace) : NativeSession × Option SessionEvent := ({ s with place }, none)

def acquireReturns (status : NativeAcquireStatus) (error : String) : NativeSession × Option SessionEvent :=
  ({ s with place := .idle }, some (.acquireReturned status error))

def stopReturns (status : NativeStopStatus) (error : String) : NativeSession × Option SessionEvent :=
  ({ s with place := .idle, owned := s.owned && status = .leasesOutstanding }, some (.stopReturned status error))

/-- A return waits to be flushed. -/
def returnSlot (index : Nat) : NativeSession :=
  { s with
    slots := s.slots.set index .pendingReturn
    returns := s.returns ++ [index]
    stats :=
      { s.stats with
        outstandingLeases := s.stats.outstandingLeases - 1
        leasesReturned := s.stats.leasesReturned + 1
        pendingReturns := s.stats.pendingReturns + 1 } }

/-- From any thread. -/
def returnLease (frame : Nat) : NativeSession :=
  match s.leases.find? fun lease => lease.frame = frame with
  | some lease => { s.returnSlot lease.index with leases := s.leases.erase lease }
  | none => s

/-! ## `FlushReturns` -/

/-- The list, in one section. -/
def takeReturns (behind : FlushBehind) : NativeSession × Option SessionEvent :=
  { s with returns := [] }.goTo (.flushing behind s.returns true)

def flushEnds (ok : Bool) : FlushBehind → NativeSession × Option SessionEvent
  | .acquire => if ok then s.goTo .acquireHeld else s.acquireReturns .error "failed to return previous frame"
  | .stop => s.goTo .stopOutstanding
  | .stopFinal => s.goTo (if s.control.active then .drain else .clear)

/-- One buffer goes back to Argus. -/
def releaseIndex (argus : ArgusStatus) (s : NativeSession) (behind : FlushBehind) (index : Nat) (ready : List Nat)
    (ok : Bool) (answer : ArgusAnswer) : NativeSession × Option SessionEvent :=
  if answer.unmapped then
    { s with pool := s.pool.release index answer.status }.goTo (.flushed behind index answer.status ready ok)
  else (s.report "NvBufSurfaceUnMap CPU").goTo (.flushed behind index argus.invalidParams ready ok)

/-- The counters that follow. -/
def noteReleased (behind : FlushBehind) (index : Nat) (status : Int) (ready : List Nat)
    (ok : Bool) : NativeSession × Option SessionEvent :=
  let stats := { s.stats with pendingReturns := s.stats.pendingReturns - 1 }
  if status = 0 then
    { s with
      slots := s.slots.set index .inArgus
      stats := { stats with buffersReleased := stats.buffersReleased + 1 } }.goTo (.flushing behind ready ok)
  else
    ({ s with
      slots := s.slots.set index .releaseFailed
      stats := { stats with releaseErrors := stats.releaseErrors + 1 } }.report
        ("release returned buffer status=" ++ toString status)).goTo (.flushing behind ready false)

/-- `FlushReturns`, index by index. -/
def flushNext (argus : ArgusStatus) (s : NativeSession) (behind : FlushBehind) (ready : List Nat) (ok : Bool)
    (answer : ArgusAnswer) : NativeSession × Option SessionEvent :=
  match ready with
  | [] => s.flushEnds ok behind
  | index :: ready => s.releaseIndex argus behind index ready ok answer

/-! ## `Acquire` -/

/-- `Acquire`. -/
def beginAcquire (valid : Bool) : NativeSession × Option SessionEvent :=
  if !valid then s.acquireReturns .error "Acquire requires an empty lease and positive timeout"
  else if !s.owned then s.acquireReturns .stopped ""
  else if s.control.stopping || s.control.closed || !s.control.active then s.acquireReturns .stopped ""
  else if !s.control.tuningFault.isEmpty then s.acquireReturns .error s.control.tuningFault
  else s.goTo (.flush .acquire)

def acquireHeldStep : NativeSession × Option SessionEvent :=
  if s.stats.outstandingLeases = s.slots.length then
    { s with stats := { s.stats with noBuffer := s.stats.noBuffer + 1 } }.acquireReturns .noBuffer
      "all native buffers are held by consumers"
  else s.goTo .acquireBuffer

/-- `acquireBuffer`. -/
def acquireBufferStep (argus : ArgusStatus) (s : NativeSession) (answer : ArgusAnswer) :
    NativeSession × Option SessionEvent :=
  let buffer := s.pool.yielded answer.buffer
  let s := match buffer with
    | some i => { s with pool := s.pool.acquire i }
    | none => s
  if answer.status = argus.timeout then
    if answer.late then
      { s with stats := { s.stats with timeouts := s.stats.timeouts + 1 } }.acquireReturns .timeout
        "native frame acquire timed out"
    else s.goTo (.flush .acquire)
  else if answer.status = argus.endOfStream then s.acquireReturns .stopped ""
  else
    match buffer with
    | some i =>
      if answer.status ≠ 0 then
        s.acquireReturns .error ("acquireBuffer status=" ++ toString answer.status)
      else s.goTo (.acquired i)
    | none => s.acquireReturns .error ("acquireBuffer status=" ++ toString answer.status)

/-- The lease is there. -/
def register (index frame : Nat) : NativeSession :=
  { s with
    slots := s.slots.set index .leased
    stats :=
      { s.stats with
        framesAcquired := s.stats.framesAcquired + 1
        outstandingLeases := s.stats.outstandingLeases + 1
        peakLeases := max s.stats.peakLeases (s.stats.outstandingLeases + 1) }
    leases := s.leases ++ [{ index, frame }] }

def acquiredStep (index : Nat) (answer : ArgusAnswer) : NativeSession × Option SessionEvent :=
  if s.slots.length ≤ index then s.goTo (.acquireFailed index "acquired buffer is not in this session's pool")
  else
    match answer.failure, (s.pool.buffers[index]?).bind fun buffer => buffer.frame with
    | none, some frame => (s.register index frame).acquireReturns .frame ""
    | some error, _ => s.goTo (.acquireFailed index error)
    | none, none => s.goTo (.acquireFailed index "missing frame metadata")

/-- What cannot be used goes back. -/
def acquireFailedStep (index : Nat) (error : String) (answer : ArgusAnswer) : NativeSession × Option SessionEvent :=
  let s := { s with pool := s.pool.release index answer.status }
  (if answer.status ≠ 0 then s.report "release buffer after acquire error" else s).acquireReturns .error error

/-! ## `Stop` -/

def beginSessionStop (endOfStreamStatus : Int) : NativeSession × Option SessionEvent :=
  if s.control.closed then
    s.stopReturns (if s.stats.cleanupErrors.isEmpty then .stopped else .error) ""
  else if s.control.stopping then s.goTo (.flush .stop)
  else
    let s' := { s with control := { s.control with stopping := true } }
    (if s.control.active && endOfStreamStatus ≠ 0 then
      s'.report ("endOfStream status=" ++ toString endOfStreamStatus) else s').goTo (.flush .stop)

/-- What the counters should be in the end. -/
def resourcesBalanced (stats : NativeCaptureStats) : Bool :=
  stats.framesAcquired = stats.leasesReturned && stats.leasesReturned = stats.buffersReleased &&
    stats.outstandingLeases = 0 && stats.pendingReturns = 0 && stats.releaseErrors = 0 &&
    stats.cleanupErrors.isEmpty && !stats.nativeResourcesRetainedUntilExit

/-- `Stop`. -/
def beginStop (endOfStreamStatus : Int) : NativeSession × Option SessionEvent :=
  if s.owned then s.beginSessionStop endOfStreamStatus
  else (s, some (.stopReturned (if resourcesBalanced s.stats then .stopped else .error) ""))

/-- The last reference is gone. -/
def beginDestroy (endOfStreamStatus : Int) : NativeSession × Option SessionEvent :=
  if !s.owned && s.leases.isEmpty then s.beginSessionStop endOfStreamStatus else (s, none)

/-- Leases are left: `Stop` has to be called again. -/
def stopOutstandingStep : NativeSession × Option SessionEvent :=
  if s.stats.outstandingLeases ≠ 0 then
    s.stopReturns .leasesOutstanding "native frames are still leased; release them and call Stop again"
  else s.goTo (.flush .stopFinal)

def notDrained (answer : ArgusAnswer) : NativeSession × Option SessionEvent :=
  let s := s.report "stream did not drain before shutdown deadline"
  (if answer.cancelStatus ≠ 0 then s.report "cancelRequests after drain failure" else s).goTo .waitForIdle

/-- What Argus still yields is released at once. -/
def drainStep (argus : ArgusStatus) (s : NativeSession) (answer : ArgusAnswer) :
    NativeSession × Option SessionEvent :=
  if answer.late then s.notDrained answer
  else
    let buffer := s.pool.yielded answer.buffer
    let s := match buffer with
      | some i => { s with pool := s.pool.acquire i }
      | none => s
    if answer.status = argus.endOfStream then s.goTo .waitForIdle
    else
      match buffer with
      | some i => s.goTo (.drained i)
      | none => if answer.status ≠ argus.timeout then s.notDrained answer else s.goTo .drain

def drainedStep (index : Nat) (answer : ArgusAnswer) : NativeSession × Option SessionEvent :=
  let s := { s with pool := s.pool.release index answer.status }
  if answer.status ≠ 0 then (s.report "releaseBuffer during drain").notDrained answer
  else { s with stats := { s.stats with drained := s.stats.drained + 1 } }.goTo .drain

def waitForIdleStep (answer : ArgusAnswer) : NativeSession × Option SessionEvent :=
  if answer.idleStatus = 0 then s.goTo .clear
  else
    let s := s.report ("waitForIdle status=" ++ toString answer.idleStatus)
    let s := if answer.cancelStatus ≠ 0 then s.report "cancelRequests after idle failure" else s
    if answer.idleAgainStatus = 0 then s.goTo .clear
    else { s with stats := { s.stats with nativeResourcesRetainedUntilExit := true } }.goTo .clear

/-- The slots are given up. -/
def clearStep (answer : ArgusAnswer) : NativeSession × Option SessionEvent :=
  let cleanupErrors := s.stats.cleanupErrors ++ answer.destroyErrors
  { s with
    slots := []
    control := { s.control with active := false, closed := true }
    stats := { s.stats with cleanupErrors } }.stopReturns (if cleanupErrors.isEmpty then .stopped else .error)
      (cleanupErrors.getLast?.getD "")

/-! ## The steps -/

def changeTuning (change : TuningChange) (world : ArgusWorld) : NativeSession × Option SessionEvent :=
  if s.owned then
    let outcome := s.control.change world change
    ({ s with control := outcome.session }, some (.tuningReturned outcome.result))
  else (s, some (.tuningReturned (.error change.missing)))

/-- The next step of the call under way. -/
def resume (argus : ArgusStatus) (s : NativeSession) (answer : ArgusAnswer) : NativeSession × Option SessionEvent :=
  match s.place with
  | .idle => (s, none)
  | .flush behind => s.takeReturns behind
  | .flushing behind ready ok => s.flushNext argus behind ready ok answer
  | .flushed behind index status ready ok => s.noteReleased behind index status ready ok
  | .acquireHeld => s.acquireHeldStep
  | .acquireBuffer => s.acquireBufferStep argus answer
  | .acquired index => s.acquiredStep index answer
  | .acquireFailed index error => s.acquireFailedStep index error answer
  | .stopOutstanding => s.stopOutstandingStep
  | .drain => s.drainStep argus answer
  | .drained index => s.drainedStep index answer
  | .waitForIdle => s.waitForIdleStep answer
  | .clear => s.clearStep answer

def step (argus : ArgusStatus) (s : NativeSession) : SessionCall → NativeSession × Option SessionEvent
  | .acquire valid => if s.place = .idle then s.beginAcquire valid else (s, none)
  | .setTuning change world => if s.place = .idle then s.changeTuning change world else (s, none)
  | .stop endOfStreamStatus => if s.place = .idle then s.beginStop endOfStreamStatus else (s, none)
  | .abandon => if s.place = .idle then ({ s with owned := false }, none) else (s, none)
  | .destroy endOfStreamStatus => if s.place = .idle then s.beginDestroy endOfStreamStatus else (s, none)
  | .resume answer => s.resume argus answer
  | .returnLease frame => (s.returnLease frame, none)

def after (argus : ArgusStatus) (bufferCount : Nat) (calls : List SessionCall) : NativeSession :=
  StepRun.run (step argus) (started bufferCount) calls

end NativeSession

end Cockpit.Camera
