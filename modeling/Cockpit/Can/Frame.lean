/-
  CAN frames, the SocketCAN frames they travel in, and the kernel receive time.

  Of the driver's frame only the fields that the modelled code reads are here: the decoded bus-error flags
  (`bus_off`, `ack_error`, ...) are diagnostics of another service.
-/

namespace Cockpit.Can

/-! ## Frames -/

/-- The payload of a CAN FD frame, with room for its longest. -/
abbrev FrameData := Vector UInt8 64

def kMaxDataLength : UInt8 := 64

def kStandardIdMask : UInt32 := 0x7FF
def kExtendedIdMask : UInt32 := 0x1FFFFFFF

/-- The frame that the codecs read and write. -/
structure CanFrame where
  id : UInt32 := 0
  data : FrameData := Vector.replicate 64 0
  dataLength : UInt8 := 0
  extended : Bool := false
  remote : Bool := false
  fd : Bool := false
  brs : Bool := false
  esi : Bool := false
  deriving DecidableEq

/-- `IsValid`: the id in the range of its kind, and a length that the kind of frame can have. -/
def CanFrame.isValid (frame : CanFrame) : Bool :=
  let idMask := if frame.extended then kExtendedIdMask else kStandardIdMask
  if kMaxDataLength < frame.dataLength || frame.id &&& ~~~idMask ≠ 0 then false
  else if frame.fd then !frame.remote
  else frame.dataLength ≤ 8 && !frame.brs && !frame.esi

/-- What the driver hands over, with the error flag and the receive time mapped into `CLOCK_MONOTONIC`. -/
structure SocketCanFrame where
  id : UInt32 := 0
  data : FrameData := Vector.replicate 64 0
  length : UInt8 := 0
  extended : Bool := false
  remote : Bool := false
  fd : Bool := false
  brs : Bool := false
  esi : Bool := false
  error : Bool := false
  errorMask : UInt32 := 0
  kernelTimestampValid : Bool := false
  receivedSteadyNs : Int := 0
  dequeuedSteadyNs : Int := 0
  deriving DecidableEq

/-- `IsValidForSend`: no error frame, and within its kind. -/
def SocketCanFrame.isValidForSend (frame : SocketCanFrame) : Bool :=
  let idMask := if frame.extended then kExtendedIdMask else kStandardIdMask
  if frame.id &&& ~~~idMask ≠ 0 || kMaxDataLength < frame.length || frame.error then false
  else if frame.fd then !frame.remote
  else frame.length ≤ 8 && !frame.brs && !frame.esi

/-! ## Conversions -/

/-- The first `length` bytes, and zeros behind them. -/
def copyBytes (data : FrameData) (length : UInt8) : FrameData :=
  data.mapFinIdx fun i byte _ => if i < length.toNat then byte else 0

/-- `ToSocketCanFrame`. -/
def toSocketCanFrame (frame : CanFrame) : SocketCanFrame where
  id := frame.id
  data := copyBytes frame.data frame.dataLength
  length := frame.dataLength
  extended := frame.extended
  remote := frame.remote
  fd := frame.fd
  brs := frame.brs
  esi := frame.esi

/-- `FromSocketCanFrame`, which refuses error frames and what is no frame of the codecs. -/
def fromSocketCanFrame (source : SocketCanFrame) : Except String CanFrame :=
  if source.error then
    .error ("SocketCAN error frame mask=" ++ toString source.errorMask)
  else
    let result : CanFrame :=
      { id := source.id, data := source.data, dataLength := source.length,
        extended := source.extended, remote := source.remote, fd := source.fd,
        brs := source.brs, esi := source.esi }
    if !result.isValid then .error "invalid SocketCAN data frame" else .ok result

theorem isValidForSend_toSocketCanFrame (frame : CanFrame) :
    (toSocketCanFrame frame).isValidForSend = frame.isValid := by
  have hor : ∀ a b : Bool, (a || b || false) = (b || a) := by decide
  simp only [SocketCanFrame.isValidForSend, CanFrame.isValid, toSocketCanFrame, hor]
  rfl

/-! ## Receive time -/

def kNanosecondsPerMillisecond : Int := 1000000

/-- How long the frame was queued, in milliseconds rounded up. -/
def SocketCanFrame.ageMs (frame : SocketCanFrame) : Int :=
  let ageNs := frame.dequeuedSteadyNs - frame.receivedSteadyNs
  ageNs / kNanosecondsPerMillisecond + if ageNs % kNanosecondsPerMillisecond ≠ 0 then 1 else 0

/-- The receive time on the clock of the caller's loop, where the kernel gave one that fits it. -/
def SocketCanFrame.mapToLogicalSteadyMilliseconds (frame : SocketCanFrame) (logicalDequeueMs : Int) : Option Int :=
  if !frame.kernelTimestampValid || logicalDequeueMs < 0 || frame.receivedSteadyNs ≤ 0
      || frame.dequeuedSteadyNs < frame.receivedSteadyNs then none
  else if logicalDequeueMs < frame.ageMs then none
  else some (logicalDequeueMs - frame.ageMs)

end Cockpit.Can
