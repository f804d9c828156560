/-
  The broker of native frames (`driver/camera/frames/frame_broker.cc`, `native_frame.cc`). Each region under the
  mutex, each handle that goes and the allocation in `Publish` is one step; any number of calls is in progress.
-/
import Cockpit.Camera.SharedFrameBuffer
import Cockpit.Lib.SharedHeap

namespace Cockpit.Camera

/-- What the broker looks at of a frame. -/
structure NativeFrame where
  sessionId : Nat := 0
  dmabufFd : Int := -1
  width : Nat := 0
  height : Nat := 0
  format : CameraPixelFormat := .nv12
deriving DecidableEq

/-- A frame that is leased from the pool; `id` tells the leases apart. -/
structure FrameLease where
  id : Nat
  frame : NativeFrame
deriving DecidableEq

/-- An epoch is known by its session id, which is used once. -/
structure SharedNativeFrame where
  lease : FrameLease
  epoch : Nat
deriving DecidableEq

/-- Who takes frames. -/
inductive FrameConsumer
  | preview | transform
deriving DecidableEq

inductive FramePublishStatus
  | published | invalidFrame | wrongSession | budgetDropped
deriving DecidableEq

structure FrameBrokerConfig where
  poolSize : Nat := 6
  transformCapacity : Nat := 2
  captureReserve : Nat := 4
deriving DecidableEq

/-! ## The frames and their handles -/

/-- `heap`: the shared frames; `retained`: the counter of each epoch; `returned`: how often each lease was
    given back to the pool; `leases`: how many there were so far. -/
structure FrameMemory where
  heap : SharedHeap SharedNativeFrame := .empty
  retained : Nat → Nat := fun _ => 0
  returned : Nat → Nat := fun _ => 0
  leases : Nat := 0

namespace FrameMemory

variable (m : FrameMemory)

/-- A frame comes from the pool. -/
def lease : FrameMemory := { m with leases := m.leases + 1 }

/-- The lease goes back to the capture pool. -/
def giveBack (lease : FrameLease) : FrameMemory :=
  { m with returned := Function.update m.returned lease.id (m.returned lease.id + 1) }

/-- The epoch retains one more. -/
def reserve (epoch : Nat) : FrameMemory :=
  { m with retained := Function.update m.retained epoch (m.retained epoch + 1) }

/-- The epoch retains one less. -/
def unreserve (epoch : Nat) : FrameMemory :=
  { m with retained := Function.update m.retained epoch (m.retained epoch - 1) }

/-- A frame with its first handle. -/
def wrap (frame : SharedNativeFrame) : FrameMemory :=
  { m with heap := m.heap.make frame }

/-- One more handle. -/
def copy (m : FrameMemory) (frame : SharedNativeFrame) : FrameMemory :=
  { m with heap := m.heap.copy frame }

/-- The last handle returns the lease. -/
def drop (frame : SharedNativeFrame) : FrameMemory :=
  let released := { m with heap := (m.heap.release frame).1 }
  if (m.heap.release frame).2 then (released.giveBack frame.lease).unreserve frame.epoch else released

end FrameMemory

/-! ## The queues -/

/-- A queue with its statistics; `left`: the frames that have left it, in order. -/
structure BrokerQueue where
  frames : List SharedNativeFrame := []
  enqueued : Nat := 0
  dequeued : Nat := 0
  dropped : Nat := 0
  highWatermark : Nat := 0
  left : List SharedNativeFrame := []

namespace BrokerQueue

/-- The oldest go. -/
def evict : Nat → BrokerQueue → BrokerQueue × List SharedNativeFrame
  | 0, queue => (queue, [])
  | n + 1, queue =>
    match queue.frames with
    | [] => (queue, [])
    | frame :: frames =>
      let rest := { queue with
        frames := frames
        dropped := queue.dropped + 1
        left := queue.left ++ [frame] }
      ((evict n rest).1, frame :: (evict n rest).2)

/-- The frame goes behind the others. -/
def push (queue : BrokerQueue) (frame : SharedNativeFrame) : BrokerQueue :=
  { queue with
    frames := queue.frames ++ [frame]
    enqueued := queue.enqueued + 1
    highWatermark := max queue.highWatermark (queue.frames.length + 1) }

/-- The oldest frame is taken. -/
def pop (queue : BrokerQueue) : BrokerQueue × Option SharedNativeFrame :=
  match queue.frames with
  | [] => (queue, none)
  | frame :: frames =>
    ({ queue with
      frames := frames
      dequeued := queue.dequeued + 1
      left := queue.left ++ [frame] }, some frame)

end BrokerQueue

/-! ## The broker -/

/-- What a call returns. -/
inductive BrokerResult
  | publish (status : FramePublishStatus)
  | threw
  | beginSession (begun : Bool)
  | close
deriving DecidableEq

/-- What a step returns to a caller; `popped none` is an empty handle. -/
inductive BrokerOutput
  | nothing
  | returned (result : BrokerResult)
  | popped (frame : Option SharedNativeFrame)
deriving DecidableEq

/-- A call in progress.  `Publish` has its first locked region ahead in `entered`, gives up what it has
    evicted in `retire`, has its second locked region ahead in `reserve`, allocates in `allocate` and has
    its third locked region ahead in `enqueue`.  In `leaving` a call destroys what it still has. -/
inductive BrokerCall
  | entered (lease : FrameLease)
  | retire (lease : FrameLease) (epoch : Nat) (retired : List SharedNativeFrame)
  | reserve (lease : FrameLease) (epoch : Nat)
  | allocate (lease : FrameLease) (epoch : Nat)
  | enqueue (shared : SharedNativeFrame)
  | waiting (consumer : FrameConsumer) (epoch : Option Nat)
  | leaving (result : BrokerResult) (lease : Option FrameLease) (handles : List SharedNativeFrame)
  | done
deriving DecidableEq

/-- `held`: the handles that the consumers have; `published`: the frames that were put into the queues, in
    order. -/
structure NativeFrameBroker where
  config : FrameBrokerConfig
  epoch : Option Nat := none
  isOpen : Nat → Bool := fun _ => false
  lastSession : Nat := 0
  rejectedSession : Nat := 0
  rejectedInvalid : Nat := 0
  budgetDropped : Nat := 0
  budgetEvictions : Nat := 0
  peakRetained : Nat := 0
  preview : BrokerQueue := {}
  transform : BrokerQueue := {}
  memory : FrameMemory := {}
  held : List SharedNativeFrame := []
  calls : List BrokerCall := []
  published : List SharedNativeFrame := []

inductive BrokerEvent
  | publish (frame : Option NativeFrame)
  | beginSession (sessionId : Nat)
  | close
  | tryPop (consumer : FrameConsumer)
  | waitPop (consumer : FrameConsumer) (timeoutMs : Int)
  | step (n : Nat) (fails : Bool)
  | copy (n : Nat)
  | reset (n : Nat)
deriving DecidableEq

namespace NativeFrameBroker

/-- The bounds of the constructor. -/
def create (config : FrameBrokerConfig) : Option NativeFrameBroker :=
  if config.poolSize < 2 ∨ 32 < config.poolSize ∨ config.transformCapacity = 0 ∨
      config.poolSize ≤ config.transformCapacity ∨ config.captureReserve = 0 ∨
      config.poolSize ≤ config.captureReserve then none
  else some { config := config }

variable (s : NativeFrameBroker)

/-- How many frames an epoch may retain. -/
def limit : Nat := s.config.poolSize - s.config.captureReserve

def setCall (n : Nat) (call : BrokerCall) : NativeFrameBroker :=
  { s with calls := s.calls.set n call }

def addCall (call : BrokerCall) : NativeFrameBroker :=
  { s with calls := s.calls ++ [call] }

/-- The epoch is the open one. -/
def isCurrent (epoch : Nat) : Bool := s.epoch = some epoch && s.isOpen epoch

def evict (s : NativeFrameBroker) (previews transforms : Nat) : NativeFrameBroker × List SharedNativeFrame :=
  ({ s with
      preview := (s.preview.evict previews).1
      transform := (s.transform.evict transforms).1 },
    (s.preview.evict previews).2 ++ (s.transform.evict transforms).2)

/-- Both queues are emptied. -/
def evictAll : NativeFrameBroker × List SharedNativeFrame :=
  s.evict s.preview.frames.length s.transform.frames.length

/-- Make room for one more frame. -/
def evictObsolete : NativeFrameBroker × List SharedNativeFrame :=
  s.evict (if s.preview.frames.isEmpty then 0 else 1)
    (if s.transform.frames.length = s.config.transformCapacity then 1 else 0)

def pop (s : NativeFrameBroker) (consumer : FrameConsumer) : NativeFrameBroker × BrokerOutput :=
  match consumer with
  | .preview =>
    ({ s with preview := s.preview.pop.1, held := s.held ++ s.preview.pop.2.toList },
      .popped s.preview.pop.2)
  | .transform =>
    ({ s with transform := s.transform.pop.1, held := s.held ++ s.transform.pop.2.toList },
      .popped s.transform.pop.2)

def queue : FrameConsumer → BrokerQueue
  | .preview => s.preview
  | .transform => s.transform

def isValidFrame (frame : NativeFrame) : Bool :=
  0 ≤ frame.dmabufFd && frame.sessionId != 0 && frame.width != 0 && frame.height != 0 &&
    frame.format == .nv12

def publish (s : NativeFrameBroker) (frame : Option NativeFrame) : NativeFrameBroker :=
  match frame with
  | none =>
    { s with rejectedInvalid := s.rejectedInvalid + 1 }.addCall
      (.leaving (.publish .invalidFrame) none [])
  | some frame =>
    let lease := { id := s.memory.leases, frame := frame }
    let leased := { s with memory := s.memory.lease }
    if isValidFrame frame then leased.addCall (.entered lease)
    else
      { leased with rejectedInvalid := s.rejectedInvalid + 1 }.addCall
        (.leaving (.publish .invalidFrame) (some lease) [])

/-- The frame is not of the open epoch. -/
def rejectSession (n : Nat) (lease : Option FrameLease) (handles : List SharedNativeFrame) : NativeFrameBroker :=
  { s with rejectedSession := s.rejectedSession + 1 }.setCall n
    (.leaving (.publish .wrongSession) lease handles)

/-- The first region of `Publish`. -/
def makeRoom (n : Nat) (lease : FrameLease) : NativeFrameBroker :=
  let epoch := lease.frame.sessionId
  if !s.isCurrent epoch then s.rejectSession n (some lease) []
  else
    let obsolete := s.evictObsolete
    if s.limit ≤ s.memory.retained epoch then
      let all := obsolete.1.evictAll
      { all.1 with budgetEvictions := s.budgetEvictions + all.2.length }.setCall n
        (.retire lease epoch (obsolete.2 ++ all.2))
    else obsolete.1.setCall n (.retire lease epoch obsolete.2)

/-- The second: a place within the budget. -/
def reserve (s : NativeFrameBroker) (n : Nat) (lease : FrameLease) (epoch : Nat) : NativeFrameBroker :=
  if !s.isCurrent epoch then s.rejectSession n (some lease) []
  else if s.limit ≤ s.memory.retained epoch then
    { s with budgetDropped := s.budgetDropped + 1 }.setCall n
      (.leaving (.publish .budgetDropped) (some lease) [])
  else
    { s with
      memory := s.memory.reserve epoch
      peakRetained := max s.peakRetained (s.memory.retained epoch + 1) }.setCall n (.allocate lease epoch)

def allocate (n : Nat) (lease : FrameLease) (epoch : Nat) (fails : Bool) : NativeFrameBroker :=
  if fails then { s with memory := s.memory.unreserve epoch }.setCall n (.leaving .threw (some lease) [])
  else
    let shared := { lease := lease, epoch := epoch }
    { s with memory := s.memory.wrap shared }.setCall n (.enqueue shared)

/-- The third. A push does not throw here; frame_broker.cc:115 provides for allocation failure, and a throw of
    `transform.push_back` would leave the preview frame uncounted. -/
def enqueue (n : Nat) (shared : SharedNativeFrame) : NativeFrameBroker :=
  if !s.isCurrent shared.epoch then s.rejectSession n none [shared]
  else
    let obsolete := s.evictObsolete
    { obsolete.1 with
      preview := obsolete.1.preview.push shared
      transform := obsolete.1.transform.push shared
      memory := (s.memory.copy shared).copy shared
      published := s.published ++ [shared] }.setCall n
        (.leaving (.publish .published) none (obsolete.2 ++ [shared]))

/-- A consumer wakes up. -/
def wake (n : Nat) (consumer : FrameConsumer) (epoch : Option Nat)
    (timedOut : Bool) : NativeFrameBroker × BrokerOutput :=
  let isOver := match epoch with
    | none => true
    | some id => s.epoch != epoch || !s.isOpen id || !(s.queue consumer).frames.isEmpty
  if !timedOut && !isOver then (s, .nothing)
  else
    match epoch with
    | none => (s.setCall n .done, .popped none)
    | some id =>
      if s.epoch != epoch || !s.isOpen id then (s.setCall n .done, .popped none)
      else (s.setCall n .done).pop consumer

def stepCall (n : Nat) (call : BrokerCall) (fails : Bool) : NativeFrameBroker × BrokerOutput :=
  match call with
  | .entered lease => (s.makeRoom n lease, .nothing)
  | .retire lease epoch (frame :: retired) =>
    ({ s with memory := s.memory.drop frame }.setCall n (.retire lease epoch retired), .nothing)
  | .retire lease epoch [] => (s.setCall n (.reserve lease epoch), .nothing)
  | .reserve lease epoch => (s.reserve n lease epoch, .nothing)
  | .allocate lease epoch => (s.allocate n lease epoch fails, .nothing)
  | .enqueue shared => (s.enqueue n shared, .nothing)
  | .waiting consumer epoch => s.wake n consumer epoch fails
  | .leaving result lease (frame :: handles) =>
    ({ s with memory := s.memory.drop frame }.setCall n (.leaving result lease handles), .nothing)
  | .leaving result (some lease) [] =>
    ({ s with memory := s.memory.giveBack lease }.setCall n (.leaving result none []), .nothing)
  | .leaving result none [] => (s.setCall n .done, .returned result)
  | .done => (s, .nothing)

/-- The epoch is closed, and the queues are emptied. -/
def closeEpoch : NativeFrameBroker × List SharedNativeFrame :=
  match s.epoch with
  | none => s.evictAll
  | some epoch => { s with isOpen := Function.update s.isOpen epoch false }.evictAll

/-- Session ids only grow. -/
def beginSession (s : NativeFrameBroker) (sessionId : Nat) : NativeFrameBroker :=
  if sessionId = 0 ∨ sessionId ≤ s.lastSession then s.addCall (.leaving (.beginSession false) none [])
  else
    { s.closeEpoch.1 with
      lastSession := sessionId
      epoch := some sessionId
      isOpen := Function.update s.closeEpoch.1.isOpen sessionId true }.addCall
        (.leaving (.beginSession true) none s.closeEpoch.2)

def close (s : NativeFrameBroker) : NativeFrameBroker :=
  s.closeEpoch.1.addCall (.leaving .close none s.closeEpoch.2)

def step (s : NativeFrameBroker) : BrokerEvent → NativeFrameBroker × BrokerOutput
  | .publish frame => (s.publish frame, .nothing)
  | .beginSession sessionId => (s.beginSession sessionId, .nothing)
  | .close => (s.close, .nothing)
  | .tryPop consumer => s.pop consumer
  | .waitPop consumer timeoutMs =>
    if timeoutMs ≤ 0 then s.pop consumer else (s.addCall (.waiting consumer s.epoch), .nothing)
  | .step n fails =>
    match s.calls[n]? with
    | none => (s, .nothing)
    | some call => s.stepCall n call fails
  | .copy n =>
    match s.held[n]? with
    | none => (s, .nothing)
    | some frame => ({ s with memory := s.memory.copy frame, held := s.held ++ [frame] }, .nothing)
  | .reset n =>
    match s.held[n]? with
    | none => (s, .nothing)
    | some frame => ({ s with memory := s.memory.drop frame, held := s.held.eraseIdx n }, .nothing)

end NativeFrameBroker

end Cockpit.Camera
