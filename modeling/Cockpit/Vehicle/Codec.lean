/-
  The chassis CAN FD protocol: `ChassisCanCodec`.

  Commands (0x101), heartbeats (0x200) and fault status (0x240) end in a CRC-16 that also covers the identifier;
  motion (0x180) and odometry (0x181) carry none.  Encoders and decoders return `none` where the source returns
  `false`.
-/
import Cockpit.Can.Frame

namespace Cockpit.Vehicle

open Cockpit.Can

/-! ## Messages -/

/-- 0x101, to the chassis. -/
structure ChassisVelocityCommand where
  enabled : Bool := false
  sequence : UInt8 := 0
  linearVelocityMmS : Int16 := 0
  angularVelocityMradS : Int16 := 0
  deriving DecidableEq

/-- 0x180, what the wheels do. -/
structure ChassisMotionStatus where
  valid : Bool := false
  running : Bool := false
  sequence : UInt8 := 0
  controlState : UInt8 := 0
  leftVelocityMmS : Int16 := 0
  rightVelocityMmS : Int16 := 0
  linearVelocityMmS : Int16 := 0
  angularVelocityMradS : Int16 := 0
  leftOutputPermille : Int16 := 0
  rightOutputPermille : Int16 := 0
  deriving DecidableEq

/-- 0x181, where the chassis thinks it is. -/
structure ChassisOdometryReport where
  valid : Bool := false
  sequence : UInt8 := 0
  timestampMs : UInt32 := 0
  xMm : Int32 := 0
  yMm : Int32 := 0
  headingMrad : Int32 := 0
  linearVelocityMmS : Int16 := 0
  angularVelocityMradS : Int16 := 0
  deriving DecidableEq

/-- 0x200, with the uptime by which a reboot is seen. -/
structure ChassisHeartbeat where
  nodeState : UInt8 := 0
  sequence : UInt8 := 0
  flags : UInt8 := 0
  uptimeMs : UInt32 := 0
  faultSummary : UInt16 := 0
  deriving DecidableEq

/-- 0x240, the active and the latched faults. -/
structure ChassisFaultStatus where
  severity : UInt8 := 0
  sequence : UInt8 := 0
  flags : UInt8 := 0
  activeFaults : UInt32 := 0
  latchedFaults : UInt32 := 0
  faultSequence : UInt16 := 0
  deriving DecidableEq

/-- The report says that something is wrong with the chassis now. -/
def ChassisFaultStatus.faulted (status : ChassisFaultStatus) : Bool :=
  status.severity ≠ 0 || status.activeFaults ≠ 0

namespace ChassisCanCodec

def kVelocityCommandId : UInt32 := 0x101
def kMotionStatusId : UInt32 := 0x180
def kOdometryReportId : UInt32 := 0x181
def kHeartbeatId : UInt32 := 0x200
def kFaultStatusId : UInt32 := 0x240

def kSchemaVersion : UInt8 := 1

/-! ## Little-endian fields -/

theorem inFrame {i : Nat} (h : Nat.blt i 64 = true) : i < 64 := Nat.le_of_ble_eq_true h

theorem inFrame_of_next {at_ : Nat} (h : at_ + 1 < 64) : at_ < 64 := Nat.lt_of_succ_lt h

variable (data : FrameData) (at_ : Nat)

def getU16 (h : at_ + 1 < 64 := by decide) : UInt16 :=
  data[at_].toUInt16 ||| (data[at_ + 1].toUInt16 <<< 8)

def getI16 (h : at_ + 1 < 64 := by decide) : Int16 :=
  (getU16 data at_ h).toInt16

def getU32 (h : at_ + 3 < 64 := by decide) : UInt32 :=
  data[at_].toUInt32 ||| (data[at_ + 1].toUInt32 <<< 8) ||| (data[at_ + 2].toUInt32 <<< 16)
    ||| (data[at_ + 3].toUInt32 <<< 24)

def getI32 (h : at_ + 3 < 64 := by decide) : Int32 :=
  (getU32 data at_ h).toInt32

def putU16 (value : UInt16) (h : at_ + 1 < 64 := by decide) :
    FrameData :=
  (data.set at_ (value &&& 0xFF).toUInt8).set (at_ + 1) (value >>> 8).toUInt8

def putI16 (value : Int16) (h : at_ + 1 < 64 := by decide) :
    FrameData :=
  putU16 data at_ value.toUInt16 h

def putU32 (value : UInt32) (h : at_ + 3 < 64 := by decide) :
    FrameData :=
  (((data.set at_ (value &&& 0xFF).toUInt8).set (at_ + 1) ((value >>> 8) &&& 0xFF).toUInt8).set
    (at_ + 2) ((value >>> 16) &&& 0xFF).toUInt8).set (at_ + 3) (value >>> 24).toUInt8

/-! ## CRC-16 (polynomial 0x1021, seed 0xFFFF, identifier first) -/

/-- One round of the division. -/
def crcBit (crc : UInt16) : UInt16 :=
  if crc &&& 0x8000 ≠ 0 then (crc <<< 1) ^^^ 0x1021 else crc <<< 1

def crcBits : Nat → UInt16 → UInt16
  | 0, crc => crc
  | bits + 1, crc => crcBits bits (crcBit crc)

/-- The eight rounds of a byte. -/
def crcByte (crc : UInt16) (value : UInt8) : UInt16 := crcBits 8 (crc ^^^ (value.toUInt16 <<< 8))

/-- Over the identifier first, then over the payload. -/
def crc16 (identifier : UInt16) (payload : List UInt8) : UInt16 :=
  ([(identifier &&& 0xFF).toUInt8, (identifier >>> 8).toUInt8] ++ payload).foldl crcByte 0xFFFF

/-- The checksum that a frame of identifier `id` carries over its first `length` bytes. -/
def frameCrc (id : UInt32) (data : FrameData) (length : Nat) : UInt16 :=
  crc16 id.toUInt16 (data.toList.take length)

/-! ## Encoders -/

/-- A standard-id CAN FD frame with bit-rate switching, this long, whose first byte is the schema version. -/
def isFrame (frame : CanFrame) (id : UInt32) (length : UInt8) : Bool :=
  frame.id == id && !frame.extended && !frame.remote && frame.fd && frame.brs
    && frame.dataLength == length && frame.data[0] == kSchemaVersion

def emptyData : FrameData := Vector.replicate 64 0

/-- `EncodeVelocity`, within the range that the protocol has. -/
def encodeVelocity (command : ChassisVelocityCommand) : Option CanFrame :=
  if command.linearVelocityMmS < -2000 || 2000 < command.linearVelocityMmS
      || command.angularVelocityMradS < -10000 || 10000 < command.angularVelocityMradS
      || (!command.enabled
        && (command.linearVelocityMmS ≠ 0 || command.angularVelocityMradS ≠ 0)) then none
  else
    let data := (emptyData.set 0 kSchemaVersion).set 1 (if command.enabled then 1 else 0)
    let data := data.set 2 command.sequence
    let data := putI16 data 4 command.linearVelocityMmS
    let data := putI16 data 6 command.angularVelocityMradS
    let data := putU16 data 10 (frameCrc kVelocityCommandId data 10)
    some { id := kVelocityCommandId, data := data, dataLength := 12, fd := true, brs := true }

/-- `EncodeHeartbeat`. -/
def encodeHeartbeat (heartbeat : ChassisHeartbeat) : Option CanFrame :=
  if (5 : UInt8) < heartbeat.nodeState || heartbeat.flags &&& 0xFE ≠ 0 then none
  else
    let data := (emptyData.set 0 kSchemaVersion).set 1 heartbeat.nodeState
    let data := (data.set 2 heartbeat.sequence).set 3 heartbeat.flags
    let data := putU32 data 4 heartbeat.uptimeMs
    let data := putU16 data 8 heartbeat.faultSummary
    let data := putU16 data 10 (frameCrc kHeartbeatId data 10)
    some { id := kHeartbeatId, data := data, dataLength := 12, fd := true, brs := true }

/-! ## Decoders -/

/-- `DecodeMotion`. -/
def decodeMotion (frame : CanFrame) : Option ChassisMotionStatus :=
  let data := frame.data
  if !isFrame frame kMotionStatusId 16 || data[1] &&& 0xFC ≠ 0 || (5 : UInt8) < data[3] then none
  else
    let status : ChassisMotionStatus :=
      { valid := data[1] &&& 1 ≠ 0, running := data[1] &&& 2 ≠ 0, sequence := data[2],
        controlState := data[3], leftVelocityMmS := getI16 data 4,
        rightVelocityMmS := getI16 data 6, linearVelocityMmS := getI16 data 8,
        angularVelocityMradS := getI16 data 10, leftOutputPermille := getI16 data 12,
        rightOutputPermille := getI16 data 14 }
    if -1000 ≤ status.leftOutputPermille && status.leftOutputPermille ≤ 1000
        && -1000 ≤ status.rightOutputPermille && status.rightOutputPermille ≤ 1000 then
      some status
    else none

/-- `DecodeOdometry`. -/
def decodeOdometry (frame : CanFrame) : Option ChassisOdometryReport :=
  let data := frame.data
  if !isFrame frame kOdometryReportId 24 || data[1] &&& 0xFE ≠ 0 || data[3] ≠ 0 then none
  else
    some { valid := data[1] &&& 1 ≠ 0, sequence := data[2], timestampMs := getU32 data 4,
           xMm := getI32 data 8, yMm := getI32 data 12, headingMrad := getI32 data 16,
           linearVelocityMmS := getI16 data 20, angularVelocityMradS := getI16 data 22 }

/-- `DecodeHeartbeat`, behind its CRC. -/
def decodeHeartbeat (frame : CanFrame) : Option ChassisHeartbeat :=
  let data := frame.data
  if !isFrame frame kHeartbeatId 12 || (5 : UInt8) < data[1] || data[3] &&& 0xFE ≠ 0
      || getU16 data 10 ≠ frameCrc kHeartbeatId data 10 then none
  else
    some { nodeState := data[1], sequence := data[2], flags := data[3],
           uptimeMs := getU32 data 4, faultSummary := getU16 data 8 }

/-- `DecodeFault`, behind its CRC. -/
def decodeFault (frame : CanFrame) : Option ChassisFaultStatus :=
  let data := frame.data
  if !isFrame frame kFaultStatusId 16 || (2 : UInt8) < data[1] || data[3] &&& 0xFC ≠ 0
      || getU16 data 14 ≠ frameCrc kFaultStatusId data 14 then none
  else
    some { severity := data[1], sequence := data[2], flags := data[3],
           activeFaults := getU32 data 4, latchedFaults := getU32 data 8,
           faultSequence := getU16 data 12 }

/-! ## Facts for the layers above -/

variable {frame : CanFrame}

theorem isFrame_id {id : UInt32} {length : UInt8} (h : isFrame frame id length = true) : frame.id = id := by
  simp only [isFrame, Bool.and_eq_true, beq_iff_eq] at h
  exact h.1.1.1.1.1.1

variable {heartbeat : ChassisHeartbeat}

theorem decodeHeartbeat_eq_some (h : decodeHeartbeat frame = some heartbeat) :
    isFrame frame kHeartbeatId 12 = true ∧ frame.data[1] ≤ 5 ∧ frame.data[3] &&& 0xFE = 0
      ∧ getU16 frame.data 10 = frameCrc kHeartbeatId frame.data 10
      ∧ heartbeat = { nodeState := frame.data[1], sequence := frame.data[2], flags := frame.data[3],
                      uptimeMs := getU32 frame.data 4, faultSummary := getU16 frame.data 8 } := by
  unfold decodeHeartbeat at h
  dsimp only at h
  split at h
  · cases h
  · rename_i hguard
    simp only [Bool.or_eq_true, not_or, Bool.not_eq_true', Bool.not_eq_false, decide_eq_true_eq,
      UInt8.not_lt, ne_eq, Decidable.not_not] at hguard
    exact ⟨hguard.1.1.1, hguard.1.1.2, hguard.1.2, hguard.2, (Option.some.inj h).symm⟩

variable {status : ChassisFaultStatus}

theorem decodeFault_eq_some (h : decodeFault frame = some status) :
    isFrame frame kFaultStatusId 16 = true ∧ frame.data[1] ≤ 2 ∧ frame.data[3] &&& 0xFC = 0
      ∧ getU16 frame.data 14 = frameCrc kFaultStatusId frame.data 14
      ∧ status = { severity := frame.data[1], sequence := frame.data[2], flags := frame.data[3],
                   activeFaults := getU32 frame.data 4, latchedFaults := getU32 frame.data 8,
                   faultSequence := getU16 frame.data 12 } := by
  unfold decodeFault at h
  dsimp only at h
  split at h
  · cases h
  · rename_i hguard
    simp only [Bool.or_eq_true, not_or, Bool.not_eq_true', Bool.not_eq_false, decide_eq_true_eq,
      UInt8.not_lt, ne_eq, Decidable.not_not] at hguard
    exact ⟨hguard.1.1.1, hguard.1.1.2, hguard.1.2, hguard.2, (Option.some.inj h).symm⟩

/-- A decoder only accepts frames of its own identifier. -/
theorem decodeHeartbeat_id (h : decodeHeartbeat frame = some heartbeat) : frame.id = kHeartbeatId :=
  isFrame_id (decodeHeartbeat_eq_some h).1

theorem decodeFault_id (h : decodeFault frame = some status) : frame.id = kFaultStatusId :=
  isFrame_id (decodeFault_eq_some h).1

variable {command : ChassisVelocityCommand}

theorem encodeVelocity_isValid (h : encodeVelocity command = some frame) : frame.isValid = true := by
  unfold encodeVelocity at h
  split at h
  · cases h
  · rw [← Option.some.inj h]
    have hid : kVelocityCommandId &&& ~~~kStandardIdMask = 0 := by decide
    simp [CanFrame.isValid, hid, kMaxDataLength]

/-- A velocity command within the protocol's range is always encodable. -/
theorem encodeVelocity_isSome
    (hlinear : -2000 ≤ command.linearVelocityMmS.toInt ∧ command.linearVelocityMmS.toInt ≤ 2000)
    (hangular : -10000 ≤ command.angularVelocityMradS.toInt ∧ command.angularVelocityMradS.toInt ≤ 10000)
    (hrest : command.enabled = false → command.linearVelocityMmS = 0 ∧ command.angularVelocityMradS = 0) :
    (encodeVelocity command).isSome := by
  have h₁ : ¬ command.linearVelocityMmS < -2000 := by
    rw [Int16.lt_iff_toInt_lt]; exact Int.not_lt.mpr hlinear.1
  have h₂ : ¬ 2000 < command.linearVelocityMmS := by
    rw [Int16.lt_iff_toInt_lt]; exact Int.not_lt.mpr hlinear.2
  have h₃ : ¬ command.angularVelocityMradS < -10000 := by
    rw [Int16.lt_iff_toInt_lt]; exact Int.not_lt.mpr hangular.1
  have h₄ : ¬ 10000 < command.angularVelocityMradS := by
    rw [Int16.lt_iff_toInt_lt]; exact Int.not_lt.mpr hangular.2
  have h₅ : (!command.enabled
      && (command.linearVelocityMmS ≠ 0 || command.angularVelocityMradS ≠ 0)) = false := by
    cases he : command.enabled with
    | true => rfl
    | false =>
      obtain ⟨hl, ha⟩ := hrest he
      rw [hl, ha]
      rfl
  unfold encodeVelocity
  rw [if_neg]
  · rfl
  · simp only [h₁, h₂, h₃, h₄, h₅, decide_false, Bool.or_self, Bool.false_eq_true, not_false_eq_true]

end ChassisCanCodec

end Cockpit.Vehicle
