/-
  Frames in shared memory (`driver/camera/shared_memory/shared_frame_buffer.cc`): one writer fills the slot that
  is not active and then makes it active; any number of readers copy the active slot out.

  Each operation on a robust mutex, each access to a slot and each atomic load or store is one step. A process
  may die while it holds a slot; one that dies elsewhere is one that takes no further step.
-/
import Mathlib.Algebra.Group.Nat.Defs
import Mathlib.Data.Fin.Basic
import Cockpit.Lib.Callers
import Cockpit.Lib.ListUpdate
import Cockpit.Lib.StepRun

namespace Cockpit.Camera

inductive CameraPixelFormat
  | unknown | rgb | bgrx | yuyv | mjpeg | nv12 | srgGb10
deriving DecidableEq

inductive CameraTimestampClock
  | unknown | monotonic | realtime | gstreamerRunningTime
deriving DecidableEq

structure CameraFrame where
  sequence : Nat := 0
  timestampMs : Nat := 0
  sourceTimestampNs : Int := 0
  receivedAtNs : Int := 0
  sourceClock : CameraTimestampClock := .unknown
  sourceTimestampFlags : Nat := 0
  sourceTimestampValid : Bool := false
  width : Nat := 0
  height : Nat := 0
  strideBytes : Nat := 0
  format : CameraPixelFormat := .unknown
  data : List UInt8 := []
deriving DecidableEq

namespace CameraFrame

def maxSize : Nat := 2 ^ 64 - 1

/-- `CheckedMultiply`. -/
def checkedMultiply (left right : Nat) : Option Nat :=
  if left ≠ 0 ∧ maxSize / left < right then none else some (left * right)

def bytesPerPixel : CameraPixelFormat → Nat
  | .rgb => 3
  | .bgrx => 4
  | .yuyv => 2
  | .srgGb10 => 2
  | .unknown | .mjpeg | .nv12 => 0

/-- The stride holds a row. -/
def hasValidLayout (frame : CameraFrame) : Bool :=
  if frame.width = 0 ∨ frame.height = 0 ∨ frame.strideBytes = 0 ∨ frame.format = .unknown then false
  else if bytesPerPixel frame.format ≠ 0 then
    match checkedMultiply frame.width (bytesPerPixel frame.format) with
    | none => false
    | some minimumStride => minimumStride ≤ frame.strideBytes
  else if frame.format = .nv12 then frame.height % 2 = 0 && frame.width ≤ frame.strideBytes
  else frame.format = .mjpeg

/-- The bytes of the planes. -/
def requiredSize (frame : CameraFrame) : Option Nat :=
  match checkedMultiply frame.strideBytes frame.height with
  | none => none
  | some luma =>
    if frame.format = .nv12 then
      match checkedMultiply frame.strideBytes (frame.height / 2) with
      | none => none
      | some chroma => if maxSize - luma < chroma then none else some (luma + chroma)
    else some luma

def hasValidPayloadSize (frame : CameraFrame) (payloadSize : Nat) : Bool :=
  if !frame.hasValidLayout || payloadSize = 0 then false
  else if frame.format = .mjpeg then true
  else
    match frame.requiredSize with
    | none => false
    | some required => required ≤ payloadSize

/-- The data are as many as the layout asks for. -/
def isValid (frame : CameraFrame) : Bool := frame.hasValidPayloadSize frame.data.length

theorem width_ne_zero {frame : CameraFrame} (h : frame.isValid = true) : frame.width ≠ 0 := by
  intro hwidth
  unfold isValid hasValidPayloadSize hasValidLayout at h
  simp [hwidth] at h

end CameraFrame

/-! ## The slots -/

/-- The header of a slot, and its payload. -/
structure SharedSlot where
  generation : Nat := 0
  sequence : Nat := 0
  timestampMs : Nat := 0
  sourceTimestampNs : Int := 0
  receivedAtNs : Int := 0
  payloadSize : Nat := 0
  width : Nat := 0
  height : Nat := 0
  strideBytes : Nat := 0
  format : CameraPixelFormat := .unknown
  sourceClock : CameraTimestampClock := .unknown
  sourceTimestampFlags : Nat := 0
  sourceTimestampValid : Bool := false
  payload : List UInt8 := []
deriving DecidableEq

/-- What a reader has copied: the frame and its generation. -/
structure FrameCopy where
  frame : CameraFrame := {}
  generation : Nat := 0
deriving DecidableEq

/-- The stores of `Publish`, in order. -/
def slotWrites (next : Nat) (frame : CameraFrame) : List (SharedSlot → SharedSlot) :=
  [ fun slot => { slot with generation := next },
    fun slot => { slot with sequence := frame.sequence },
    fun slot => { slot with timestampMs := frame.timestampMs },
    fun slot => { slot with sourceTimestampNs := frame.sourceTimestampNs },
    fun slot => { slot with receivedAtNs := frame.receivedAtNs },
    fun slot => { slot with payloadSize := frame.data.length },
    fun slot => { slot with width := frame.width },
    fun slot => { slot with height := frame.height },
    fun slot => { slot with strideBytes := frame.strideBytes },
    fun slot => { slot with format := frame.format },
    fun slot => { slot with sourceClock := frame.sourceClock },
    fun slot => { slot with sourceTimestampFlags := frame.sourceTimestampFlags },
    fun slot => { slot with sourceTimestampValid := frame.sourceTimestampValid },
    fun slot => { slot with payload := frame.data ++ slot.payload.drop frame.data.length } ]

/-- The stores that reset a slot whose owner died. -/
def clearWrites : List (SharedSlot → SharedSlot) :=
  [ fun slot => { slot with generation := 0 },
    fun slot => { slot with sequence := 0 },
    fun slot => { slot with timestampMs := 0 },
    fun slot => { slot with sourceTimestampNs := 0 },
    fun slot => { slot with receivedAtNs := 0 },
    fun slot => { slot with payloadSize := 0 },
    fun slot => { slot with width := 0 },
    fun slot => { slot with height := 0 },
    fun slot => { slot with strideBytes := 0 },
    fun slot => { slot with format := .unknown },
    fun slot => { slot with sourceClock := .unknown },
    fun slot => { slot with sourceTimestampFlags := 0 },
    fun slot => { slot with sourceTimestampValid := false } ]

/-- The loads of a reader, in order. -/
def slotReads : List (SharedSlot → FrameCopy → FrameCopy) :=
  [ fun slot copy => { copy with frame := { copy.frame with sequence := slot.sequence } },
    fun slot copy => { copy with frame := { copy.frame with timestampMs := slot.timestampMs } },
    fun slot copy => { copy with frame := { copy.frame with sourceTimestampNs := slot.sourceTimestampNs } },
    fun slot copy => { copy with frame := { copy.frame with receivedAtNs := slot.receivedAtNs } },
    fun slot copy => { copy with frame := { copy.frame with width := slot.width } },
    fun slot copy => { copy with frame := { copy.frame with height := slot.height } },
    fun slot copy => { copy with frame := { copy.frame with strideBytes := slot.strideBytes } },
    fun slot copy => { copy with frame := { copy.frame with format := slot.format } },
    fun slot copy => { copy with frame := { copy.frame with sourceClock := slot.sourceClock } },
    fun slot copy =>
      { copy with frame := { copy.frame with sourceTimestampFlags := slot.sourceTimestampFlags } },
    fun slot copy =>
      { copy with frame := { copy.frame with sourceTimestampValid := slot.sourceTimestampValid } },
    fun slot copy => { copy with frame := { copy.frame with data := slot.payload.take slot.payloadSize } },
    fun slot copy => { copy with generation := slot.generation } ]

/-! ## The mutexes -/

/-- Who holds a mutex. -/
inductive Owner
  | writer
  | reader (i : Nat)
deriving DecidableEq

/-- `abandoned`: the owner died; `lost`: it could not be made consistent again. -/
inductive SlotLock
  | free
  | held (owner : Owner)
  | abandoned
  | lost
deriving DecidableEq

inductive LockResult
  | blocked | failed | ownerDead | acquired
deriving DecidableEq

def SlotLock.lock (lock : SlotLock) (error : Bool) : LockResult :=
  match lock with
  | .held _ => .blocked
  | .lost => .failed
  | .abandoned => if error then .failed else .ownerDead
  | .free => if error then .failed else .acquired

/-! ## The mapping, its writer and its readers -/

/-- Where the writer is in `Publish`. -/
inductive WriterPc
  | idle
  | loadActive (frame : CameraFrame)
  | lockSlot (frame : CameraFrame) (target : Fin 2)
  | clearing (frame : CameraFrame) (target : Fin 2) (done : Nat)
  | loadGeneration (frame : CameraFrame) (target : Fin 2)
  | writing (frame : CameraFrame) (target : Fin 2) (next done : Nat)
  | storeActive (frame : CameraFrame) (target : Fin 2) (next : Nat)
  | storeGeneration (frame : CameraFrame) (next : Nat)
  | dead
deriving DecidableEq

/-- Where a reader is in `ReadLatest`. -/
inductive ReaderPc
  | idle
  | loadGeneration
  | loadActive
  | lockSlot (active : Fin 2)
  | clearing (active : Fin 2) (done : Nat)
  | checkSize (active : Fin 2)
  | copying (active : Fin 2) (done : Nat) (copy : FrameCopy)
  | checkFrame (copy : FrameCopy)
  | dead
deriving DecidableEq

/-- `published`: the frames of the calls of `Publish` that returned true, with the generation assigned;
    `reads`: what the successful calls of `ReadLatest` of each reader returned, in order. -/
structure SharedFrames where
  slotCapacity : Nat
  initialized : Bool
  activeSlot : Fin 2
  generation : Nat
  slots : Fin 2 → SharedSlot
  locks : Fin 2 → SlotLock
  writer : WriterPc
  readers : Nat → ReaderPc
  published : List FrameCopy
  reads : Nat → List FrameCopy

/-- A step of one of the processes. -/
inductive FrameEvent
  | publish (frame : CameraFrame)
  | writer (error : Bool)
  | read (reader : Nat)
  | reader (i : Nat) (error : Bool)
  | writerDies
  | readerDies (i : Nat)
  | close
deriving DecidableEq

/-- The first `n` accesses. -/
def applied {α : Type} (accesses : List (α → α)) (n : Nat) (a : α) : α :=
  (accesses.take n).foldl (fun a access => access a) a

namespace SharedFrames

/-- A mapping without a frame. -/
def create (slotCapacity : Nat) : SharedFrames where
  slotCapacity := slotCapacity
  initialized := true
  activeSlot := 0
  generation := 0
  slots := fun _ => {}
  locks := fun _ => .free
  writer := .idle
  readers := fun _ => .idle
  published := []
  reads := fun _ => []

variable (s : SharedFrames)

def setSlot (k : Fin 2) (slot : SharedSlot) : SharedFrames :=
  { s with slots := Function.update s.slots k slot }

def setLock (k : Fin 2) (lock : SlotLock) : SharedFrames :=
  { s with locks := Function.update s.locks k lock }

def setReader (i : Nat) (pc : ReaderPc) : SharedFrames :=
  { s with readers := Function.update s.readers i pc }

def publish (frame : CameraFrame) : SharedFrames :=
  match s.writer with
  | .idle =>
    if !frame.isValid || s.slotCapacity < frame.data.length then s
    else { s with writer := .loadActive frame }
  | _ => s

/-- The next access of the writer. -/
def stepWriter (error : Bool) : SharedFrames :=
  match s.writer with
  | .loadActive frame => { s with writer := .lockSlot frame (s.activeSlot + 1) }
  | .lockSlot frame target =>
    match (s.locks target).lock error with
    | .blocked => s
    | .failed => { s with writer := .idle }
    | .ownerDead => { s.setLock target (.held .writer) with writer := .clearing frame target 0 }
    | .acquired => { s.setLock target (.held .writer) with writer := .loadGeneration frame target }
  | .clearing frame target done =>
    match clearWrites[done]? with
    | some write =>
      { s.setSlot target (write (s.slots target)) with writer := .clearing frame target (done + 1) }
    | none =>
      if error then { s.setLock target .lost with writer := .idle }
      else { s with writer := .loadGeneration frame target }
  | .loadGeneration frame target => { s with writer := .writing frame target (s.generation + 1) 0 }
  | .writing frame target next done =>
    match (slotWrites next frame)[done]? with
    | some write =>
      { s.setSlot target (write (s.slots target)) with writer := .writing frame target next (done + 1) }
    | none => { s.setLock target .free with writer := .storeActive frame target next }
  | .storeActive frame target next =>
    { s with activeSlot := target, writer := .storeGeneration frame next }
  | .storeGeneration frame next =>
    { s with
      generation := next
      writer := .idle
      published := s.published ++ [{ frame := frame, generation := next }] }
  | .idle | .dead => s

def read (i : Nat) : SharedFrames :=
  match s.readers i with
  | .idle => if s.initialized then s.setReader i .loadGeneration else s
  | _ => s

/-- The next access of a reader. -/
def stepReader (i : Nat) (error : Bool) : SharedFrames :=
  match s.readers i with
  | .loadGeneration => s.setReader i (if s.generation = 0 then .idle else .loadActive)
  | .loadActive => s.setReader i (.lockSlot s.activeSlot)
  | .lockSlot active =>
    match (s.locks active).lock error with
    | .blocked => s
    | .failed => s.setReader i .idle
    | .ownerDead => (s.setLock active (.held (.reader i))).setReader i (.clearing active 0)
    | .acquired => (s.setLock active (.held (.reader i))).setReader i (.checkSize active)
  | .clearing active done =>
    match clearWrites[done]? with
    | some write =>
      (s.setSlot active (write (s.slots active))).setReader i (.clearing active (done + 1))
    | none => (s.setLock active (if error then .lost else .free)).setReader i .idle
  | .checkSize active =>
    if s.slotCapacity < (s.slots active).payloadSize then (s.setLock active .free).setReader i .idle
    else s.setReader i (.copying active 0 {})
  | .copying active done copy =>
    match slotReads[done]? with
    | some access => s.setReader i (.copying active (done + 1) (access (s.slots active) copy))
    | none => (s.setLock active .free).setReader i (.checkFrame copy)
  | .checkFrame copy =>
    if copy.frame.isValid then
      { s.setReader i .idle with reads := Function.update s.reads i (s.reads i ++ [copy]) }
    else s.setReader i .idle
  | .idle | .dead => s

/-- The slot that the writer has locked. -/
def writerHolds : Option (Fin 2) :=
  match s.writer with
  | .clearing _ target _ | .loadGeneration _ target | .writing _ target _ _ => some target
  | _ => none

/-- The writer dies with the slot that it holds. -/
def writerDies : SharedFrames :=
  match s.writerHolds with
  | some target => { s.setLock target .abandoned with writer := .dead }
  | none => s

/-- The slot that a reader has locked. -/
def holds : ReaderPc → Option (Fin 2)
  | .clearing active _ | .checkSize active | .copying active _ _ => some active
  | _ => none

def readerDies (i : Nat) : SharedFrames :=
  match holds (s.readers i) with
  | some active => (s.setLock active .abandoned).setReader i .dead
  | none => s

def close : SharedFrames :=
  match s.writer with
  | .idle => { s with initialized := false, writer := .dead }
  | _ => s

def step : FrameEvent → SharedFrames × Unit
  | .publish frame => (s.publish frame, ())
  | .writer error => (s.stepWriter error, ())
  | .read i => (s.read i, ())
  | .reader i error => (s.stepReader i error, ())
  | .writerDies => (s.writerDies, ())
  | .readerDies i => (s.readerDies i, ())
  | .close => (s.close, ())

def WriterOk : Prop :=
  match s.writer with
  | .lockSlot _ target | .clearing _ target _ | .loadGeneration _ target => target = s.activeSlot + 1
  | .writing frame target next done =>
    target = s.activeSlot + 1 ∧ next = s.generation + 1 ∧
      ∃ slot, s.slots target = applied (slotWrites next frame) done slot
  | .storeActive _ target next => target = s.activeSlot + 1 ∧ next = s.generation + 1
  | .storeGeneration _ next => next = s.generation + 1
  | .idle | .loadActive _ | .dead => True

end SharedFrames

end Cockpit.Camera
