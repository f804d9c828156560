/-
  `ChassisHeartbeatMonitor` and `ChassisClient`: what the host knows of the chassis.

  The change of the heartbeat status is detected against `reportedHeartbeatStatus`, which every accepted frame
  overwrites.

  Steady times are `Int`; `wallMs` is what `WallTime::Now` returns during the call.
-/
import Mathlib.Algebra.Group.Nat.Defs
import Cockpit.Vehicle.Codec

namespace Cockpit.Vehicle

open Cockpit.Can

/-! ## Heartbeat monitor -/

inductive ChassisHeartbeatStatus where
  | unknown | alive | timeout
  deriving DecidableEq

/-- `GetSnapshot`, with the age of the last heartbeat. -/
structure ChassisHeartbeatSnapshot where
  status : ChassisHeartbeatStatus := .unknown
  heartbeat : ChassisHeartbeat := {}
  receivedMs : Int := 0
  ageMs : Int := 0
  peerRebootCount : UInt64 := 0

/-- Accepts heartbeats in sequence order, times the peer out and counts its reboots. -/
structure ChassisHeartbeatMonitor where
  snapshot : ChassisHeartbeatSnapshot := {}
  sequenceValid : Bool := false
  lastSequence : UInt8 := 0

namespace ChassisHeartbeatMonitor

def kTimeoutMs : Int := 300

def kSerialHalfRangeU32 : UInt32 := 0x80000000

/-- The heartbeat repeats the last one, or is older while the peer is not timed out. -/
def outOfSequence (monitor : ChassisHeartbeatMonitor) (heartbeat : ChassisHeartbeat) : Bool :=
  let delta := heartbeat.sequence - monitor.lastSequence
  monitor.sequenceValid
    && (delta == 0 || (monitor.snapshot.status != .timeout && (128 : UInt8) ≤ delta))

/-- The uptime went back by at most half its range: not a wrap, so the peer restarted. -/
def rebooted (monitor : ChassisHeartbeatMonitor) (heartbeat : ChassisHeartbeat) : Bool :=
  monitor.sequenceValid && heartbeat.uptimeMs < monitor.snapshot.heartbeat.uptimeMs
    && kSerialHalfRangeU32 ≤ heartbeat.uptimeMs - monitor.snapshot.heartbeat.uptimeMs

/-- `Accept`: what an accepted heartbeat changes. -/
def accept (monitor : ChassisHeartbeatMonitor) (heartbeat : ChassisHeartbeat) (nowMs : Int) :
    ChassisHeartbeatMonitor where
  sequenceValid := true
  lastSequence := heartbeat.sequence
  snapshot :=
    { status := .alive, heartbeat := heartbeat, receivedMs := nowMs, ageMs := 0,
      peerRebootCount := if monitor.rebooted heartbeat then monitor.snapshot.peerRebootCount + 1
        else monitor.snapshot.peerRebootCount }

/-- `Process`: accept a heartbeat that is one, and in order. -/
def process (monitor : ChassisHeartbeatMonitor) (frame : CanFrame) (nowMs : Int) : ChassisHeartbeatMonitor × Bool :=
  if nowMs < 0 then (monitor, false)
  else
    match ChassisCanCodec.decodeHeartbeat frame with
    | none => (monitor, false)
    | some heartbeat =>
      if monitor.outOfSequence heartbeat then (monitor, false)
      else (monitor.accept heartbeat nowMs, true)

/-- The peer has been silent for `kTimeoutMs`. -/
def expired (monitor : ChassisHeartbeatMonitor) (nowMs : Int) : Bool :=
  monitor.snapshot.status == .alive && kTimeoutMs ≤ nowMs - monitor.snapshot.receivedMs

/-- `Update`: time the peer out. -/
def update (monitor : ChassisHeartbeatMonitor) (nowMs : Int) : ChassisHeartbeatMonitor :=
  if monitor.expired nowMs then
    { monitor with snapshot := { monitor.snapshot with status := .timeout } }
  else monitor

/-- `GetSnapshot`. -/
def getSnapshot (monitor : ChassisHeartbeatMonitor) (nowMs : Int) : ChassisHeartbeatSnapshot :=
  if monitor.sequenceValid && monitor.snapshot.receivedMs ≤ nowMs then
    { monitor.snapshot with ageMs := nowMs - monitor.snapshot.receivedMs }
  else monitor.snapshot

@[simp] theorem getSnapshot_status (monitor : ChassisHeartbeatMonitor) (nowMs : Int) :
    (monitor.getSnapshot nowMs).status = monitor.snapshot.status := by
  unfold getSnapshot
  split <;> rfl

@[simp] theorem getSnapshot_peerRebootCount (monitor : ChassisHeartbeatMonitor) (nowMs : Int) :
    (monitor.getSnapshot nowMs).peerRebootCount = monitor.snapshot.peerRebootCount := by
  unfold getSnapshot
  split <;> rfl

@[simp] theorem getSnapshot_heartbeat (monitor : ChassisHeartbeatMonitor) (nowMs : Int) :
    (monitor.getSnapshot nowMs).heartbeat = monitor.snapshot.heartbeat := by
  unfold getSnapshot
  split <;> rfl

@[simp] theorem update_heartbeat (monitor : ChassisHeartbeatMonitor) (nowMs : Int) :
    (monitor.update nowMs).snapshot.heartbeat = monitor.snapshot.heartbeat := by
  unfold update
  split <;> rfl

@[simp] theorem update_receivedMs (monitor : ChassisHeartbeatMonitor) (nowMs : Int) :
    (monitor.update nowMs).snapshot.receivedMs = monitor.snapshot.receivedMs := by
  unfold update
  split <;> rfl

@[simp] theorem update_peerRebootCount (monitor : ChassisHeartbeatMonitor) (nowMs : Int) :
    (monitor.update nowMs).snapshot.peerRebootCount = monitor.snapshot.peerRebootCount := by
  unfold update
  split <;> rfl

theorem update_status (monitor : ChassisHeartbeatMonitor) (nowMs : Int) : (monitor.update nowMs).snapshot.status
      = if monitor.expired nowMs then .timeout else monitor.snapshot.status := by
  unfold update
  split <;> rfl

variable {monitor monitor' : ChassisHeartbeatMonitor}

theorem process_eq_true {frame : CanFrame} {nowMs : Int} (h : monitor.process frame nowMs = (monitor', true)) :
    ∃ heartbeat, ChassisCanCodec.decodeHeartbeat frame = some heartbeat
      ∧ monitor.outOfSequence heartbeat = false ∧ monitor' = monitor.accept heartbeat nowMs := by
  unfold process at h
  split at h
  · cases h
  · split at h
    · cases h
    · rename_i heartbeat hdecode
      split at h
      · cases h
      · rename_i hseq
        exact ⟨heartbeat, hdecode, by simpa using hseq, (Prod.mk.inj h).1.symm⟩

theorem process_eq_false {frame : CanFrame} {nowMs : Int} (h : monitor.process frame nowMs = (monitor', false)) :
    monitor' = monitor := by
  unfold process at h
  split at h
  · exact (Prod.mk.inj h).1.symm
  · split at h
    · exact (Prod.mk.inj h).1.symm
    · split at h
      · exact (Prod.mk.inj h).1.symm
      · cases h

end ChassisHeartbeatMonitor

/-! ## Client -/

/-- All that the chassis has reported. -/
structure ChassisState where
  timestampMs : Int := 0
  motionValid : Bool := false
  running : Bool := false
  controlState : UInt8 := 0
  leftVelocityMmS : Int16 := 0
  rightVelocityMmS : Int16 := 0
  linearVelocityMmS : Int16 := 0
  angularVelocityMradS : Int16 := 0
  leftOutputPermille : Int16 := 0
  rightOutputPermille : Int16 := 0
  odometryValid : Bool := false
  odometryTimestampMs : UInt32 := 0
  xMm : Int32 := 0
  yMm : Int32 := 0
  headingMrad : Int32 := 0
  odometryLinearVelocityMmS : Int16 := 0
  odometryAngularVelocityMradS : Int16 := 0
  heartbeatStatus : ChassisHeartbeatStatus := .unknown
  heartbeatAgeMs : Int := 0
  nodeState : UInt8 := 0
  uptimeMs : UInt32 := 0
  peerRebootCount : UInt64 := 0
  faultSummary : UInt16 := 0
  faultSeverity : UInt8 := 0
  activeFaults : UInt32 := 0
  latchedFaults : UInt32 := 0
  faultSequence : UInt16 := 0
  deriving DecidableEq

/-- What became of a frame. -/
inductive ChassisClientDecodeStatus where
  | updated | ignored | invalid
  deriving DecidableEq

/-- Keeps the last accepted report of every kind, and republishes it on each accepted frame. -/
structure ChassisClient where
  state : ChassisState := {}
  heartbeatMonitor : ChassisHeartbeatMonitor := {}
  reportedHeartbeatStatus : ChassisHeartbeatStatus := .unknown
  startedMs : Int := 0
  heartbeatDueMs : Int := 0
  heartbeatSequence : UInt8 := 0
  faultSequenceValid : Bool := false
  lastFaultSequence : UInt8 := 0

namespace ChassisClient

def kHeartbeatPeriodMs : Int := 100

def init (startedSteadyMs wallMs : Int) : ChassisClient where
  state := { timestampMs := wallMs }
  startedMs := startedSteadyMs
  heartbeatDueMs := startedSteadyMs

/-- Behind a timeout or a reboot the fault sequence begins anew. -/
def resetFaultSequenceBaseline (client : ChassisClient) : ChassisClient :=
  { client with faultSequenceValid := false, lastFaultSequence := 0 }

/-- Take over what the monitor knows. -/
def refreshHeartbeat (client : ChassisClient) (nowMs : Int) : ChassisClient :=
  let heartbeat := client.heartbeatMonitor.getSnapshot nowMs
  { client with
    state :=
      { client.state with
        heartbeatStatus := heartbeat.status, heartbeatAgeMs := heartbeat.ageMs,
        nodeState := heartbeat.heartbeat.nodeState, uptimeMs := heartbeat.heartbeat.uptimeMs,
        peerRebootCount := heartbeat.peerRebootCount,
        faultSummary := heartbeat.heartbeat.faultSummary } }

/-- Time the peer out before a frame is looked at. -/
def updateHeartbeatTimeout (client : ChassisClient) (nowMs : Int) : ChassisClient :=
  let previousStatus := client.state.heartbeatStatus
  let client := { client with heartbeatMonitor := client.heartbeatMonitor.update nowMs }
  let client := client.refreshHeartbeat nowMs
  if previousStatus ≠ .timeout ∧ client.state.heartbeatStatus = .timeout then
    client.resetFaultSequenceBaseline
  else client

def applyMotion (client : ChassisClient) (motion : ChassisMotionStatus) : ChassisClient :=
  { client with
    state :=
      { client.state with
        motionValid := motion.valid, running := motion.running, controlState := motion.controlState,
        leftVelocityMmS := motion.leftVelocityMmS, rightVelocityMmS := motion.rightVelocityMmS,
        linearVelocityMmS := motion.linearVelocityMmS,
        angularVelocityMradS := motion.angularVelocityMradS,
        leftOutputPermille := motion.leftOutputPermille,
        rightOutputPermille := motion.rightOutputPermille } }

def applyOdometry (client : ChassisClient) (odometry : ChassisOdometryReport) : ChassisClient :=
  { client with
    state :=
      { client.state with
        odometryValid := odometry.valid, odometryTimestampMs := odometry.timestampMs,
        xMm := odometry.xMm, yMm := odometry.yMm, headingMrad := odometry.headingMrad,
        odometryLinearVelocityMmS := odometry.linearVelocityMmS,
        odometryAngularVelocityMradS := odometry.angularVelocityMradS } }

/-- The fault report repeats the last one or is older. -/
def faultOutOfSequence (client : ChassisClient) (fault : ChassisFaultStatus) : Bool :=
  let delta := fault.sequence - client.lastFaultSequence
  client.faultSequenceValid && (delta == 0 || (128 : UInt8) ≤ delta)

def applyFault (client : ChassisClient) (fault : ChassisFaultStatus) : ChassisClient :=
  { client with
    faultSequenceValid := true, lastFaultSequence := fault.sequence,
    state :=
      { client.state with
        faultSeverity := fault.severity, activeFaults := fault.activeFaults,
        latchedFaults := fault.latchedFaults, faultSequence := fault.faultSequence } }

/-- The branches of `ProcessFrame`, one per identifier; an error is the early return with that
    status, which leaves the client as it was. -/
def applyFrame (client : ChassisClient) (frame : CanFrame) (nowMs : Int) :
    Except ChassisClientDecodeStatus ChassisClient :=
  if frame.id = ChassisCanCodec.kMotionStatusId then
    match ChassisCanCodec.decodeMotion frame with
    | none => .error .invalid
    | some motion => .ok (client.applyMotion motion)
  else if frame.id = ChassisCanCodec.kOdometryReportId then
    match ChassisCanCodec.decodeOdometry frame with
    | none => .error .invalid
    | some odometry => .ok (client.applyOdometry odometry)
  else if frame.id = ChassisCanCodec.kHeartbeatId then
    let previousRebootCount := client.state.peerRebootCount
    match client.heartbeatMonitor.process frame nowMs with
    | (_, false) =>
      .error (if (ChassisCanCodec.decodeHeartbeat frame).isSome then .ignored else .invalid)
    | (monitor, true) =>
      let client := { client with heartbeatMonitor := monitor }
      let client := client.refreshHeartbeat nowMs
      .ok (if client.state.peerRebootCount ≠ previousRebootCount then
        client.resetFaultSequenceBaseline else client)
  else if frame.id = ChassisCanCodec.kFaultStatusId then
    match ChassisCanCodec.decodeFault frame with
    | none => .error .invalid
    | some fault =>
      if client.faultOutOfSequence fault then .error .ignored else .ok (client.applyFault fault)
  else .error .ignored

/-- The state goes out to the caller, and its heartbeat status counts as reported. -/
def report (client : ChassisClient) (wallMs : Int) : ChassisClient :=
  { client with
    state := { client.state with timestampMs := wallMs },
    reportedHeartbeatStatus := client.state.heartbeatStatus }

/-- `ProcessFrame`; the state that it returns is the out-parameter. -/
def processFrame (client : ChassisClient) (frame : CanFrame) (nowMs wallMs : Int)
    (state : ChassisState) : ChassisClient × ChassisState × ChassisClientDecodeStatus :=
  if nowMs < 0 then (client, state, .invalid)
  else
    let client := client.updateHeartbeatTimeout nowMs
    match client.applyFrame frame nowMs with
    | .error status => (client, state, status)
    | .ok client => (client.report wallMs, (client.report wallMs).state, .updated)

/-- `Update`: republish on each change of the heartbeat status. -/
def update (client : ChassisClient) (nowMs wallMs : Int) (state : ChassisState) :
    ChassisClient × ChassisState × Bool :=
  if nowMs < 0 then (client, state, false)
  else
    let client := client.updateHeartbeatTimeout nowMs
    if client.state.heartbeatStatus = client.reportedHeartbeatStatus then (client, state, false)
    else (client.report wallMs, (client.report wallMs).state, true)

def heartbeatDue (client : ChassisClient) (nowMs : Int) : Bool := client.heartbeatDueMs ≤ nowMs

/-- `BuildHeartbeat`, for the frame that the host owes. -/
def buildHeartbeat (client : ChassisClient) (nowMs : Int) : ChassisClient × Option CanFrame :=
  if nowMs < client.startedMs || !client.heartbeatDue nowMs then (client, none)
  else
    let uptime := (nowMs - client.startedMs).toNat
    let heartbeat : ChassisHeartbeat :=
      { nodeState := 1, sequence := client.heartbeatSequence, flags := 1,
        uptimeMs := UInt32.ofNat (min uptime (2 ^ 32 - 1)), faultSummary := 0 }
    match ChassisCanCodec.encodeHeartbeat heartbeat with
    | none => (client, none)
    | some frame =>
      ({ client with
          heartbeatSequence := client.heartbeatSequence + 1,
          heartbeatDueMs := nowMs + kHeartbeatPeriodMs }, some frame)

/-- `GetState`. -/
def getState (client : ChassisClient) (nowMs : Int) : ChassisState :=
  let heartbeat := client.heartbeatMonitor.getSnapshot nowMs
  { client.state with heartbeatStatus := heartbeat.status, heartbeatAgeMs := heartbeat.ageMs }

/-! ## What a call does to the client -/

section Facts

variable (client : ChassisClient) (nowMs : Int)

@[simp] theorem refreshHeartbeat_heartbeatStatus : (client.refreshHeartbeat nowMs).state.heartbeatStatus
      = client.heartbeatMonitor.snapshot.status :=
  client.heartbeatMonitor.getSnapshot_status nowMs

@[simp] theorem refreshHeartbeat_peerRebootCount : (client.refreshHeartbeat nowMs).state.peerRebootCount
      = client.heartbeatMonitor.snapshot.peerRebootCount :=
  client.heartbeatMonitor.getSnapshot_peerRebootCount nowMs

@[simp] theorem updateHeartbeatTimeout_heartbeatMonitor : (client.updateHeartbeatTimeout nowMs).heartbeatMonitor
      = client.heartbeatMonitor.update nowMs := by
  unfold updateHeartbeatTimeout
  dsimp only
  split <;> rfl

@[simp] theorem updateHeartbeatTimeout_reportedHeartbeatStatus :
    (client.updateHeartbeatTimeout nowMs).reportedHeartbeatStatus = client.reportedHeartbeatStatus := by
  unfold updateHeartbeatTimeout
  dsimp only
  split <;> rfl

/-- Says once what the timeout does to the status. -/
@[simp] theorem updateHeartbeatTimeout_heartbeatStatus : (client.updateHeartbeatTimeout nowMs).state.heartbeatStatus
      = (client.heartbeatMonitor.update nowMs).snapshot.status := by
  unfold updateHeartbeatTimeout
  dsimp only
  split <;> exact refreshHeartbeat_heartbeatStatus _ nowMs

@[simp] theorem updateHeartbeatTimeout_peerRebootCount : (client.updateHeartbeatTimeout nowMs).state.peerRebootCount
      = client.heartbeatMonitor.snapshot.peerRebootCount := by
  have h := client.heartbeatMonitor.update_peerRebootCount nowMs
  unfold updateHeartbeatTimeout
  dsimp only
  split <;> exact (refreshHeartbeat_peerRebootCount _ nowMs).trans h

end Facts

variable {client : ChassisClient}

theorem applyFrame_error {frame : CanFrame} {nowMs : Int} {status : ChassisClientDecodeStatus}
    (h : client.applyFrame frame nowMs = .error status) : status ≠ .updated := by
  unfold applyFrame at h
  rintro rfl
  repeat' first | cases h | split at h

/-- Says once what the reports do: a heartbeat, a fault report, or one of the two that touch neither. -/
theorem applyFrame_cases {client' : ChassisClient} {frame : CanFrame} {nowMs : Int}
    (h : client.applyFrame frame nowMs = .ok client') : (frame.id = ChassisCanCodec.kHeartbeatId
      ∧ (∃ heartbeat, ChassisCanCodec.decodeHeartbeat frame = some heartbeat
        ∧ client.heartbeatMonitor.outOfSequence heartbeat = false) ∧ client'.heartbeatMonitor.snapshot.status = .alive
      ∧ client'.heartbeatMonitor.snapshot.receivedMs = nowMs ∧ client'.state.heartbeatStatus = .alive
      ∧ client'.state.peerRebootCount = client'.heartbeatMonitor.snapshot.peerRebootCount) ∨
    (frame.id ≠ ChassisCanCodec.kHeartbeatId ∧ client'.heartbeatMonitor = client.heartbeatMonitor
      ∧ client'.state.heartbeatStatus = client.state.heartbeatStatus
      ∧ client'.state.peerRebootCount = client.state.peerRebootCount ∧ ((frame.id = ChassisCanCodec.kFaultStatusId
          ∧ ∃ fault, ChassisCanCodec.decodeFault frame = some fault ∧ client.faultOutOfSequence fault = false
            ∧ client'.state.faultSeverity = fault.severity ∧ client'.state.activeFaults = fault.activeFaults)
        ∨ (frame.id ≠ ChassisCanCodec.kFaultStatusId ∧ ((ChassisCanCodec.decodeMotion frame).isSome = true
            ∨ (ChassisCanCodec.decodeOdometry frame).isSome = true)))) := by
  unfold applyFrame at h
  split at h
  · -- motion
    rename_i hid
    split at h
    · cases h
    · rename_i motion hmotion
      cases h
      refine .inr ⟨by rw [hid]; decide, rfl, rfl, rfl, .inr ⟨by rw [hid]; decide, .inl ?_⟩⟩
      rw [hmotion]
      rfl
  · split at h
    · -- odometry
      rename_i hid
      split at h
      · cases h
      · rename_i odometry hodometry
        cases h
        refine .inr ⟨by rw [hid]; decide, rfl, rfl, rfl, .inr ⟨by rw [hid]; decide, .inr ?_⟩⟩
        rw [hodometry]
        rfl
    · split at h
      · -- heartbeat
        rename_i hid
        dsimp only at h
        split at h
        · cases h
        · rename_i monitor hprocess
          obtain ⟨heartbeat, hdecode, hseq, rfl⟩ :=
            ChassisHeartbeatMonitor.process_eq_true hprocess
          refine .inl ⟨hid, ⟨heartbeat, hdecode, hseq⟩, ?_⟩
          -- the sequence baseline is the only difference a reboot makes to the client
          split at h <;> cases h
          all_goals
            exact ⟨rfl, rfl, refreshHeartbeat_heartbeatStatus _ nowMs,
              refreshHeartbeat_peerRebootCount _ nowMs⟩
      · rename_i hheartbeat
        split at h
        · -- fault
          rename_i hid
          split at h
          · cases h
          · rename_i fault hfault
            split at h
            · cases h
            · rename_i hseq
              cases h
              exact .inr ⟨hheartbeat, rfl, rfl, rfl,
                .inl ⟨hid, fault, hfault, by simpa using hseq, rfl, rfl⟩⟩
        · cases h

/-- A frame is turned away, or it is applied. -/
theorem processFrame_cases (client : ChassisClient) (frame : CanFrame) (nowMs wallMs : Int) (state : ChassisState) :
    (∃ client' status, client.processFrame frame nowMs wallMs state = (client', state, status)
      ∧ (client' = client ∨ client' = client.updateHeartbeatTimeout nowMs)
      ∧ status ≠ .updated) ∨
    (∃ applied, (client.updateHeartbeatTimeout nowMs).applyFrame frame nowMs = .ok applied
      ∧ client.processFrame frame nowMs wallMs state
        = (applied.report wallMs, (applied.report wallMs).state, .updated)) := by
  unfold processFrame
  by_cases hneg : nowMs < 0
  · rw [if_pos hneg]
    exact .inl ⟨client, .invalid, rfl, .inl rfl, nofun⟩
  · rw [if_neg hneg]
    dsimp only
    cases happly : (client.updateHeartbeatTimeout nowMs).applyFrame frame nowMs with
    | error status => exact .inl ⟨_, status, rfl, .inr rfl, applyFrame_error happly⟩
    | ok applied => exact .inr ⟨applied, rfl, rfl⟩

/-- `Update` looks at the timeout, and reports it where it has changed. -/
theorem update_cases (client : ChassisClient) (nowMs wallMs : Int) (state : ChassisState) :
    (∃ client', client.update nowMs wallMs state = (client', state, false)
      ∧ (client' = client ∨ client' = client.updateHeartbeatTimeout nowMs
        ∧ client'.state.heartbeatStatus = client'.reportedHeartbeatStatus)) ∨
    (client.update nowMs wallMs state = (((client.updateHeartbeatTimeout nowMs).report wallMs),
        ((client.updateHeartbeatTimeout nowMs).report wallMs).state, true)) := by
  unfold update
  by_cases hneg : nowMs < 0
  · rw [if_pos hneg]
    exact .inl ⟨client, rfl, .inl rfl⟩
  · rw [if_neg hneg]
    dsimp only
    split
    · rename_i hsame
      exact .inl ⟨_, rfl, .inr ⟨rfl, hsame⟩⟩
    · exact .inr rfl

end ChassisClient

end Cockpit.Vehicle
