/-
  `ChassisCanSafetyStateSource`: the interlock inputs that come from the chassis over CAN.

  The two calls of the source are `processFrame` and `evaluate`; `processFrame_effect` and `evaluate_effect` say
  once what each can do, with one named case for each outcome.
-/
import Cockpit.Shield.Adapter
import Cockpit.Vehicle.Client

namespace Cockpit.Vehicle

open Cockpit.Can

/-- The client, the tracker, and whether a fault report has been accepted since the peer was last lost. -/
structure ChassisCanSafetyStateSource where
  client : ChassisClient
  chassisState : ChassisState := {}
  tracker : ChassisSafetyStateTracker := { policy := {} }
  faultSeen : Bool := false
  observedPeerRebootCount : UInt64 := 0

namespace ChassisCanSafetyStateSource

def init (startedSteadyMs wallMs : Int) : ChassisCanSafetyStateSource where
  client := .init startedSteadyMs wallMs

/-- The bookkeeping of an accepted heartbeat. -/
def observeHeartbeat (source : ChassisCanSafetyStateSource) (steadyNowMs : Int) : ChassisCanSafetyStateSource :=
  let source :=
    if source.chassisState.peerRebootCount ≠ source.observedPeerRebootCount then
      { source with
        observedPeerRebootCount := source.chassisState.peerRebootCount, faultSeen := false }
    else source
  { source with tracker := (source.tracker.updatePeerHeartbeat steadyNowMs).1 }

/-- The bookkeeping of an accepted fault report; the tracker's refusal is dropped. -/
def observeFault (source : ChassisCanSafetyStateSource) (steadyNowMs : Int) : ChassisCanSafetyStateSource :=
  let faulted := source.chassisState.faultSeverity ≠ 0 || source.chassisState.activeFaults ≠ 0
  { source with
    faultSeen := true, tracker := (source.tracker.updateChassisFault faulted steadyNowMs).1 }

/-- `ProcessFrame`: feed the client, and from the frames it accepts keep the tracker's times. -/
def processFrame (source : ChassisCanSafetyStateSource) (frame : CanFrame)
    (steadyNowMs wallMs : Int) : ChassisCanSafetyStateSource × ChassisClientDecodeStatus :=
  let (client, chassisState, result) :=
    source.client.processFrame frame steadyNowMs wallMs source.chassisState
  let source := { source with client := client, chassisState := chassisState }
  let source :=
    if result = .updated ∧ frame.id = ChassisCanCodec.kHeartbeatId then
      source.observeHeartbeat steadyNowMs
    else source
  let source :=
    if result = .updated ∧ frame.id = ChassisCanCodec.kFaultStatusId then
      source.observeFault steadyNowMs
    else source
  (source, result)

/-- `Evaluate`: the tracker's answer, with the fault raised whenever the peer is alive and no report has been
    seen. -/
def evaluate (source : ChassisCanSafetyStateSource) (controls : ChassisSafetyState)
    (steadyNowMs wallMs : Int) : ChassisCanSafetyStateSource × ChassisSafetyState :=
  let (client, updatedState, updated) := source.client.update steadyNowMs wallMs {}
  let source := { source with client := client }
  let source :=
    if updated then
      { source with
        chassisState := updatedState,
        faultSeen := if updatedState.heartbeatStatus = .timeout then false else source.faultSeen }
    else source
  let result := source.tracker.evaluate controls steadyNowMs
  (source,
    if result.peerAlive && !source.faultSeen then { result with chassisFault := true } else result)

/-! ## What one call can do -/

section Facts

variable (source : ChassisCanSafetyStateSource) (steadyNowMs : Int)

@[simp] theorem observeHeartbeat_client : (source.observeHeartbeat steadyNowMs).client = source.client := by
  unfold observeHeartbeat
  dsimp only
  split <;> rfl

@[simp] theorem observeHeartbeat_chassisState :
    (source.observeHeartbeat steadyNowMs).chassisState = source.chassisState := by
  unfold observeHeartbeat
  dsimp only
  split <;> rfl

@[simp] theorem observeHeartbeat_observedPeerRebootCount :
    (source.observeHeartbeat steadyNowMs).observedPeerRebootCount = source.chassisState.peerRebootCount := by
  unfold observeHeartbeat
  dsimp only
  split
  · rfl
  · rename_i h
    exact (Decidable.not_not.mp h).symm

theorem observeHeartbeat_faultSeen : (source.observeHeartbeat steadyNowMs).faultSeen
      = if source.chassisState.peerRebootCount ≠ source.observedPeerRebootCount then false
        else source.faultSeen := by
  unfold observeHeartbeat
  dsimp only
  split <;> rfl

theorem observeHeartbeat_tracker_chassisFault :
    (source.observeHeartbeat steadyNowMs).tracker.chassisFault = source.tracker.chassisFault := by
  unfold observeHeartbeat ChassisSafetyStateTracker.updatePeerHeartbeat
  dsimp only
  split <;> split <;> rfl

@[simp] theorem observeFault_client : (source.observeFault steadyNowMs).client = source.client := rfl

@[simp] theorem observeFault_chassisState :
    (source.observeFault steadyNowMs).chassisState = source.chassisState := rfl

@[simp] theorem observeFault_observedPeerRebootCount : (source.observeFault steadyNowMs).observedPeerRebootCount
      = source.observedPeerRebootCount := rfl

@[simp] theorem observeFault_faultSeen : (source.observeFault steadyNowMs).faultSeen = true := rfl

end Facts

/-- What feeding one frame can do.  A rejected frame may still establish a timeout in the client;
    an accepted one is a heartbeat, a fault report, or one of the two other reports. -/
inductive FrameEffect (source : ChassisCanSafetyStateSource) (frame : CanFrame)
    (steadyNowMs : Int) : ChassisCanSafetyStateSource → ChassisClientDecodeStatus → Prop
  | rejected {client : ChassisClient} {status : ChassisClientDecodeStatus}
      (hclient : client = source.client ∨ client = source.client.updateHeartbeatTimeout steadyNowMs)
      (hstatus : status ≠ .updated) :
      FrameEffect source frame steadyNowMs { source with client := client } status
  | heartbeat {client : ChassisClient} {heartbeat : ChassisHeartbeat}
      (hid : frame.id = ChassisCanCodec.kHeartbeatId)
      (hdecode : ChassisCanCodec.decodeHeartbeat frame = some heartbeat)
      (hseq :
        (source.client.heartbeatMonitor.update steadyNowMs).outOfSequence heartbeat = false)
      (halive : client.heartbeatMonitor.snapshot.status = .alive)
      (hreceived : client.heartbeatMonitor.snapshot.receivedMs = steadyNowMs)
      (hreported : client.reportedHeartbeatStatus = .alive)
      (hcount : client.state.peerRebootCount = client.heartbeatMonitor.snapshot.peerRebootCount) :
      FrameEffect source frame steadyNowMs
        (observeHeartbeat { source with client := client, chassisState := client.state }
          steadyNowMs) .updated
  | fault {client : ChassisClient} {fault : ChassisFaultStatus}
      (hid : frame.id = ChassisCanCodec.kFaultStatusId)
      (hdecode : ChassisCanCodec.decodeFault frame = some fault)
      (hseq :
        (source.client.updateHeartbeatTimeout steadyNowMs).faultOutOfSequence fault = false)
      (hmon : client.heartbeatMonitor = source.client.heartbeatMonitor.update steadyNowMs)
      (hreported : client.reportedHeartbeatStatus = client.heartbeatMonitor.snapshot.status)
      (hcount : client.state.peerRebootCount = client.heartbeatMonitor.snapshot.peerRebootCount)
      (hfaulted : (client.state.faultSeverity ≠ 0 || client.state.activeFaults ≠ 0)
        = fault.faulted) :
      FrameEffect source frame steadyNowMs
        (observeFault { source with client := client, chassisState := client.state }
          steadyNowMs) .updated
  | other {client : ChassisClient}
      (hheartbeat : frame.id ≠ ChassisCanCodec.kHeartbeatId)
      (hfault : frame.id ≠ ChassisCanCodec.kFaultStatusId)
      (hdecode : (ChassisCanCodec.decodeMotion frame).isSome = true
        ∨ (ChassisCanCodec.decodeOdometry frame).isSome = true)
      (hmon : client.heartbeatMonitor = source.client.heartbeatMonitor.update steadyNowMs)
      (hreported : client.reportedHeartbeatStatus = client.heartbeatMonitor.snapshot.status)
      (hcount : client.state.peerRebootCount = client.heartbeatMonitor.snapshot.peerRebootCount) :
      FrameEffect source frame steadyNowMs
        { source with client := client, chassisState := client.state } .updated

variable {source : ChassisCanSafetyStateSource}

variable {source' : ChassisCanSafetyStateSource} {steadyNowMs wallMs : Int}

/-- All that a frame can do. -/
theorem processFrame_effect {frame : CanFrame} {status : ChassisClientDecodeStatus}
    (h : source.processFrame frame steadyNowMs wallMs = (source', status)) :
    FrameEffect source frame steadyNowMs source' status := by
  unfold processFrame at h
  rcases source.client.processFrame_cases frame steadyNowMs wallMs source.chassisState with
    ⟨client, status, heq, hclient, hstatus⟩ | ⟨applied, happly, heq⟩
  · simp only [heq, hstatus, false_and, if_false, Prod.mk.injEq] at h
    obtain ⟨rfl, rfl⟩ := h
    exact .rejected hclient hstatus
  · simp only [heq, true_and, Prod.mk.injEq] at h
    obtain ⟨hsource, rfl⟩ := h
    rcases ChassisClient.applyFrame_cases happly with
      ⟨hid, ⟨heartbeat, hdecode, hseq⟩, halive, hreceived, hstatus, hcount⟩
      | ⟨hheartbeat, hmon, hstatus, hcount, hreport⟩
    · have hfault : frame.id ≠ ChassisCanCodec.kFaultStatusId := by rw [hid]; decide
      rw [if_pos hid, if_neg hfault] at hsource
      rw [ChassisClient.updateHeartbeatTimeout_heartbeatMonitor] at hseq
      subst hsource
      exact .heartbeat hid hdecode hseq halive hreceived hstatus hcount
    · rw [if_neg hheartbeat] at hsource
      rw [ChassisClient.updateHeartbeatTimeout_heartbeatMonitor] at hmon
      rw [ChassisClient.updateHeartbeatTimeout_heartbeatStatus, ← hmon] at hstatus
      rw [ChassisClient.updateHeartbeatTimeout_peerRebootCount,
        ← ChassisHeartbeatMonitor.update_peerRebootCount _ steadyNowMs, ← hmon] at hcount
      rcases hreport with ⟨hid, fault, hdecode, hseq, hseverity, hactive⟩ | ⟨hfault, hdecode⟩
      · rw [if_pos hid] at hsource
        subst hsource
        refine .fault hid hdecode hseq hmon hstatus hcount ?_
        rw [ChassisFaultStatus.faulted, ← hseverity, ← hactive]
        rfl
      · rw [if_neg hfault] at hsource
        subst hsource
        exact .other hheartbeat hfault hdecode hmon hstatus hcount

/-- What an evaluation can do to the source: it has nothing to report, or it is the first to
    notice a change of the heartbeat status, and then a timeout clears the flag. -/
inductive EvaluateEffect (source : ChassisCanSafetyStateSource) (steadyNowMs : Int) :
    ChassisCanSafetyStateSource → Prop
  | silent {client : ChassisClient}
      (hclient : client = source.client
        ∨ client = source.client.updateHeartbeatTimeout steadyNowMs
          ∧ client.state.heartbeatStatus = client.reportedHeartbeatStatus) :
      EvaluateEffect source steadyNowMs { source with client := client }
  | reported {client : ChassisClient} {wallMs : Int}
      (hclient : client = (source.client.updateHeartbeatTimeout steadyNowMs).report wallMs) :
      EvaluateEffect source steadyNowMs
        { source with
          client := client, chassisState := client.state,
          faultSeen := if client.state.heartbeatStatus = .timeout then false else source.faultSeen }

variable {controls : ChassisSafetyState}

/-- All that an evaluation can do. -/
theorem evaluate_effect {state : ChassisSafetyState}
    (h : source.evaluate controls steadyNowMs wallMs = (source', state)) :
    EvaluateEffect source steadyNowMs source' := by
  unfold evaluate at h
  rcases source.client.update_cases steadyNowMs wallMs {} with ⟨client, heq, hclient⟩ | heq
  · simp only [heq, Bool.false_eq_true, if_false, Prod.mk.injEq] at h
    obtain ⟨rfl, -⟩ := h
    exact .silent hclient
  · simp only [heq, if_true, Prod.mk.injEq] at h
    obtain ⟨rfl, -⟩ := h
    exact .reported rfl

theorem evaluate_snd (source : ChassisCanSafetyStateSource) (controls : ChassisSafetyState)
    (steadyNowMs wallMs : Int) :
    (source.evaluate controls steadyNowMs wallMs).2 =
      let source' := (source.evaluate controls steadyNowMs wallMs).1
      let result := source.tracker.evaluate controls steadyNowMs
      if result.peerAlive && !source'.faultSeen then { result with chassisFault := true }
      else result := by
  unfold evaluate
  dsimp only
  rcases source.client.update_cases steadyNowMs wallMs {} with ⟨client, heq, hclient⟩ | heq
  · simp only [heq, Bool.false_eq_true, if_false]
  · simp only [heq, if_true]

theorem evaluate_chassisFault
    (h : (source.evaluate controls steadyNowMs wallMs).1.faultSeen = false ∨ source.tracker.chassisFault = true)
    (halive : (source.evaluate controls steadyNowMs wallMs).2.peerAlive = true) :
    (source.evaluate controls steadyNowMs wallMs).2.chassisFault = true := by
  rw [evaluate_snd] at halive ⊢
  dsimp only at halive ⊢
  rcases h with hseen | hfault
  · rw [hseen] at halive ⊢
    split
    · rfl
    · rename_i hpeer
      rw [if_neg hpeer] at halive
      simp [halive] at hpeer
  · split
    · rfl
    · rename_i hpeer
      rw [if_neg hpeer] at halive
      rw [ChassisSafetyStateTracker.evaluate_chassisFault hfault, halive]

end ChassisCanSafetyStateSource

/-! ## Runs of the source -/

/-- A call, with the clocks during it. -/
inductive SourceCall where
  | processFrame (frame : CanFrame) (steadyNowMs wallMs : Int)
  | evaluate (controls : ChassisSafetyState) (steadyNowMs wallMs : Int)

/-- What it returned. -/
inductive SourceAnswer where
  | decoded (status : ChassisClientDecodeStatus)
  | state (state : ChassisSafetyState)

/-- The steady time of a call. -/
def SourceCall.steadyNowMs : SourceCall → Int
  | .processFrame _ steadyNowMs _ => steadyNowMs
  | .evaluate _ steadyNowMs _ => steadyNowMs

namespace ChassisCanSafetyStateSource

/-- A call of the source. -/
def call (source : ChassisCanSafetyStateSource) : SourceCall → ChassisCanSafetyStateSource × SourceAnswer
  | .processFrame frame steadyNowMs wallMs =>
    let (source, status) := source.processFrame frame steadyNowMs wallMs
    (source, .decoded status)
  | .evaluate controls steadyNowMs wallMs =>
    let (source, state) := source.evaluate controls steadyNowMs wallMs
    (source, .state state)

variable {source source' : ChassisCanSafetyStateSource}

theorem call_processFrame {frame : CanFrame} {steadyNowMs wallMs : Int} {status : ChassisClientDecodeStatus}
    (h : source.processFrame frame steadyNowMs wallMs = (source', status)) :
    source.call (.processFrame frame steadyNowMs wallMs) = (source', .decoded status) := by
  simp only [call, h]

theorem call_evaluate {controls state : ChassisSafetyState} {steadyNowMs wallMs : Int}
    (h : source.evaluate controls steadyNowMs wallMs = (source', state)) :
    source.call (.evaluate controls steadyNowMs wallMs) = (source', .state state) := by
  simp only [call, h]

/-- The call is a frame of identifier `id` that the source accepts (`kUpdated`). -/
def Accepts (id : UInt32) (source : ChassisCanSafetyStateSource) : SourceCall → Prop
  | .processFrame frame steadyNowMs wallMs =>
    frame.id = id ∧ (source.processFrame frame steadyNowMs wallMs).2 = .updated
  | .evaluate _ _ _ => False

instance (id : UInt32) (source : ChassisCanSafetyStateSource) :
    (c : SourceCall) → Decidable (source.Accepts id c)
  | .processFrame _ _ _ => inferInstanceAs (Decidable (_ ∧ _))
  | .evaluate _ _ _ => inferInstanceAs (Decidable False)

end ChassisCanSafetyStateSource

end Cockpit.Vehicle
