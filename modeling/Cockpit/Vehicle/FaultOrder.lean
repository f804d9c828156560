/-
  `ChassisClient` takes fault reports over in order: seen through them it is a filter with a baseline.
-/
import Cockpit.Lib.OrderedFilter
import Cockpit.Vehicle.FaultLaws

namespace Cockpit.Vehicle

open Cockpit.Can OrderedFilter StepRun
open ChassisCanSafetyStateSource (heartbeatReport faultReport)

namespace ChassisClient

/-! ## Calls -/

inductive Call where
  | processFrame (frame : CanFrame) (nowMs wallMs : Int) (state : ChassisState)
  | update (nowMs wallMs : Int) (state : ChassisState)
  | buildHeartbeat (nowMs : Int)
  | getState (nowMs : Int)

/-- A call, with what `ProcessFrame` returns. -/
def step (client : ChassisClient) : Call → ChassisClient × Option ChassisClientDecodeStatus
  | .processFrame frame nowMs wallMs state =>
    let result := client.processFrame frame nowMs wallMs state
    (result.1, some result.2.2)
  | .update nowMs wallMs state => ((client.update nowMs wallMs state).1, none)
  | .buildHeartbeat nowMs => ((client.buildHeartbeat nowMs).1, none)
  | .getState _ => (client, none)

/-- The time at which a call looks for a timeout; a negative time is turned away before that. -/
def Call.timeoutMs : Call → Option Int
  | .processFrame _ nowMs _ _ | .update nowMs _ _ => if nowMs < 0 then none else some nowMs
  | .buildHeartbeat _ | .getState _ => none

/-! ## Fault reports and baseline resets -/

/-- The report `sequence` is newer than `last`: 1 to 127 steps on, modulo 256. -/
def Newer (last sequence : UInt8) : Prop :=
  1 ≤ (sequence - last).toNat ∧ (sequence - last).toNat ≤ 127

instance : DecidableRel Newer := fun _ _ => inferInstanceAs (Decidable (_ ∧ _))

/-- The sequence number of the valid fault report that a call hands over. -/
def Call.offeredFault : Call → Option UInt8
  | .processFrame frame nowMs _ _ =>
    if nowMs < 0 then none else (ChassisCanCodec.decodeFault frame).map (·.sequence)
  | _ => none

/-- The sequence number of the fault report that a call reported as an update. -/
def acceptedFault : Call × Option ChassisClientDecodeStatus → Option UInt8
  | (.processFrame frame _ _ _, some .updated) =>
    (ChassisCanCodec.decodeFault frame).map (·.sequence)
  | _ => none

/-- The call finds that the peer is lost. -/
def establishesTimeout (client : ChassisClient) (call : Call) : Prop :=
  ∃ nowMs ∈ call.timeoutMs, client.heartbeatMonitor.snapshot.status ≠ .timeout
    ∧ (client.heartbeatMonitor.update nowMs).snapshot.status = .timeout

/-- The call changes the reboot count that the client shows. -/
def countsReboot (client : ChassisClient) (call : Call) : Prop :=
  (client.step call).1.state.peerRebootCount ≠ client.state.peerRebootCount

/-- The two occasions on which the sequence numbers of the peer start anew. -/
def resetsBaseline (client : ChassisClient) (call : Call) : Prop :=
  client.establishesTimeout call ∨ client.countsReboot call

/-- The sequence number accepted last. -/
def baseline (client : ChassisClient) : Option UInt8 :=
  if client.faultSequenceValid then some client.lastFaultSequence else none

/-! ## What the client shows is what its monitor has -/

/-- What the client shows of the heartbeat is what its monitor has; so its own test for a reset is the test of
    the monitor. -/
structure Mirrored (client : ChassisClient) : Prop where
  heartbeatStatus : client.state.heartbeatStatus = client.heartbeatMonitor.snapshot.status
  nodeState : client.state.nodeState = client.heartbeatMonitor.snapshot.heartbeat.nodeState
  uptimeMs : client.state.uptimeMs = client.heartbeatMonitor.snapshot.heartbeat.uptimeMs
  peerRebootCount : client.state.peerRebootCount = client.heartbeatMonitor.snapshot.peerRebootCount
  faultSummary :
    client.state.faultSummary = client.heartbeatMonitor.snapshot.heartbeat.faultSummary

theorem mirrored_init (startedSteadyMs wallMs : Int) : (init startedSteadyMs wallMs).Mirrored :=
  ⟨rfl, rfl, rfl, rfl, rfl⟩

theorem mirrored_refreshHeartbeat (client : ChassisClient) (nowMs : Int) :
    (client.refreshHeartbeat nowMs).Mirrored := by
  have hheartbeat := client.heartbeatMonitor.getSnapshot_heartbeat nowMs
  constructor
  · exact refreshHeartbeat_heartbeatStatus client nowMs
  · exact congrArg ChassisHeartbeat.nodeState hheartbeat
  · exact congrArg ChassisHeartbeat.uptimeMs hheartbeat
  · exact refreshHeartbeat_peerRebootCount client nowMs
  · exact congrArg ChassisHeartbeat.faultSummary hheartbeat

variable {client : ChassisClient}

section

variable (h : client.Mirrored)
include h

theorem Mirrored.congr {other : ChassisClient} (hstate : other.state = client.state)
    (hmon : other.heartbeatMonitor = client.heartbeatMonitor) : other.Mirrored := by
  constructor
  · rw [hstate, hmon, h.heartbeatStatus]
  · rw [hstate, hmon, h.nodeState]
  · rw [hstate, hmon, h.uptimeMs]
  · rw [hstate, hmon, h.peerRebootCount]
  · rw [hstate, hmon, h.faultSummary]

theorem Mirrored.report (wallMs : Int) : (client.report wallMs).Mirrored :=
  ⟨h.heartbeatStatus, h.nodeState, h.uptimeMs, h.peerRebootCount, h.faultSummary⟩

theorem Mirrored.applyMotion (motion : ChassisMotionStatus) : (client.applyMotion motion).Mirrored :=
  ⟨h.heartbeatStatus, h.nodeState, h.uptimeMs, h.peerRebootCount, h.faultSummary⟩

theorem Mirrored.applyOdometry (odometry : ChassisOdometryReport) : (client.applyOdometry odometry).Mirrored :=
  ⟨h.heartbeatStatus, h.nodeState, h.uptimeMs, h.peerRebootCount, h.faultSummary⟩

theorem Mirrored.applyFault (fault : ChassisFaultStatus) : (client.applyFault fault).Mirrored :=
  ⟨h.heartbeatStatus, h.nodeState, h.uptimeMs, h.peerRebootCount, h.faultSummary⟩

theorem updateHeartbeatTimeout_eq (nowMs : Int) :
    let refreshed :=
      { client with heartbeatMonitor := client.heartbeatMonitor.update nowMs }.refreshHeartbeat nowMs
    (client.heartbeatMonitor.snapshot.status ≠ .timeout
      ∧ (client.heartbeatMonitor.update nowMs).snapshot.status = .timeout
      ∧ client.updateHeartbeatTimeout nowMs = refreshed.resetFaultSequenceBaseline) ∨
    (¬ (client.heartbeatMonitor.snapshot.status ≠ .timeout
      ∧ (client.heartbeatMonitor.update nowMs).snapshot.status = .timeout)
      ∧ client.updateHeartbeatTimeout nowMs = refreshed) := by
  intro refreshed
  have hstatus : refreshed.state.heartbeatStatus
      = (client.heartbeatMonitor.update nowMs).snapshot.status :=
    refreshHeartbeat_heartbeatStatus _ nowMs
  rw [← h.heartbeatStatus, ← hstatus]
  by_cases hreset : client.state.heartbeatStatus ≠ .timeout ∧ refreshed.state.heartbeatStatus = .timeout
  · exact .inl ⟨hreset.1, hreset.2, if_pos hreset⟩
  · exact .inr ⟨hreset, if_neg hreset⟩

theorem Mirrored.updateHeartbeatTimeout (nowMs : Int) : (client.updateHeartbeatTimeout nowMs).Mirrored := by
  have hrefreshed := mirrored_refreshHeartbeat
    { client with heartbeatMonitor := client.heartbeatMonitor.update nowMs } nowMs
  rcases updateHeartbeatTimeout_eq h nowMs with ⟨_, _, heq⟩ | ⟨_, heq⟩ <;> rw [heq]
  · exact hrefreshed.congr rfl rfl
  · exact hrefreshed

theorem updateHeartbeatTimeout_state (nowMs : Int) : ∃ status ageMs, (client.updateHeartbeatTimeout nowMs).state
      = { client.state with heartbeatStatus := status, heartbeatAgeMs := ageMs } := by
  let polled : ChassisClient :=
    { client with heartbeatMonitor := client.heartbeatMonitor.update nowMs }
  have hrefreshed : (polled.refreshHeartbeat nowMs).state
      = { client.state with
          heartbeatStatus := (polled.heartbeatMonitor.getSnapshot nowMs).status
          heartbeatAgeMs := (polled.heartbeatMonitor.getSnapshot nowMs).ageMs } := by
    dsimp only [refreshHeartbeat]
    rw [ChassisHeartbeatMonitor.getSnapshot_heartbeat,
      ChassisHeartbeatMonitor.getSnapshot_peerRebootCount, ChassisHeartbeatMonitor.update_heartbeat,
      ChassisHeartbeatMonitor.update_peerRebootCount, ← h.nodeState, ← h.uptimeMs,
      ← h.peerRebootCount, ← h.faultSummary]
  rcases updateHeartbeatTimeout_eq h nowMs with ⟨_, _, heq⟩ | ⟨_, heq⟩
  all_goals
    rw [heq]
    exact ⟨_, _, hrefreshed⟩

end

/-! ## What a call does to the baseline -/

theorem offer_eq (client : ChassisClient) (fault : ChassisFaultStatus) :
    offer Newer client.baseline (some fault.sequence)
      = if client.faultOutOfSequence fault then (none, client.baseline)
        else (some fault.sequence, some fault.sequence) := by
  have htest : ∀ delta : UInt8,
      (delta == 0 || decide ((128 : UInt8) ≤ delta)) = true
        ↔ ¬ (1 ≤ delta.toNat ∧ delta.toNat ≤ 127) := by
    intro delta
    have hzero : delta = 0 ↔ delta.toNat = 0 := by rw [← UInt8.toNat_inj]; rfl
    have hhalf : (128 : UInt8) ≤ delta ↔ 128 ≤ delta.toNat := UInt8.le_iff_toNat_le
    rw [Bool.or_eq_true, beq_iff_eq, decide_eq_true_eq, hzero, hhalf]
    omega
  unfold baseline faultOutOfSequence
  cases client.faultSequenceValid with
  | false => rfl
  | true =>
    rw [if_pos rfl, offer]
    dsimp only
    rw [Bool.true_and]
    by_cases hnewer : Newer client.lastFaultSequence fault.sequence
    · rw [if_pos hnewer, if_neg fun h => (htest _).mp h hnewer]
    · rw [if_neg hnewer, if_pos ((htest _).mpr hnewer)]

variable {frame : CanFrame}

theorem decodeFault_eq_none (h : frame.id ≠ ChassisCanCodec.kFaultStatusId) :
    ChassisCanCodec.decodeFault frame = none := by
  cases hfault : ChassisCanCodec.decodeFault frame with
  | none => rfl
  | some fault => exact absurd (ChassisCanCodec.decodeFault_id hfault) h

/-- The sequence number that a fault report carries. -/
def faultSequenceOf (frame : CanFrame) : Option UInt8 :=
  (ChassisCanCodec.decodeFault frame).map (·.sequence)

theorem applyFrame_filters (h : client.Mirrored) (frame : CanFrame) (nowMs : Int) :
    (∃ status, client.applyFrame frame nowMs = .error status ∧ status ≠ .updated
      ∧ offer Newer client.baseline (faultSequenceOf frame) = (none, client.baseline)) ∨
    (∃ applied, client.applyFrame frame nowMs = .ok applied ∧ applied.Mirrored
      ∧ ((applied.state.peerRebootCount ≠ client.state.peerRebootCount
          ∧ faultSequenceOf frame = none ∧ applied.baseline = none)
        ∨ (applied.state.peerRebootCount = client.state.peerRebootCount
          ∧ offer Newer client.baseline (faultSequenceOf frame) = (faultSequenceOf frame, applied.baseline)))) := by
  -- a frame of another kind offers no fault report
  have hother : frame.id ≠ ChassisCanCodec.kFaultStatusId → faultSequenceOf frame = none :=
    fun hid => by rw [faultSequenceOf, decodeFault_eq_none hid, Option.map_none]
  unfold applyFrame
  split
  · -- motion
    rename_i hid
    have hnone := hother (by rw [hid]; decide)
    rw [hnone, offer_nothing]
    split
    · exact .inl ⟨_, rfl, by decide, rfl⟩
    · exact .inr ⟨_, rfl, h.applyMotion _, .inr ⟨rfl, rfl⟩⟩
  · split
    · -- odometry
      rename_i hid
      have hnone := hother (by rw [hid]; decide)
      rw [hnone, offer_nothing]
      split
      · exact .inl ⟨_, rfl, by decide, rfl⟩
      · exact .inr ⟨_, rfl, h.applyOdometry _, .inr ⟨rfl, rfl⟩⟩
    · split
      · -- heartbeat
        rename_i hid
        have hnone := hother (by rw [hid]; decide)
        rw [hnone, offer_nothing]
        dsimp only
        split
        · refine .inl ⟨_, rfl, ?_, rfl⟩
          split <;> decide
        · rename_i monitor _
          have hrefreshed := mirrored_refreshHeartbeat { client with heartbeatMonitor := monitor } nowMs
          by_cases hcount : ({ client with heartbeatMonitor := monitor }.refreshHeartbeat
              nowMs).state.peerRebootCount = client.state.peerRebootCount
          · rw [if_neg (not_not_intro hcount)]
            exact .inr ⟨_, rfl, hrefreshed, .inr ⟨hcount, rfl⟩⟩
          · rw [if_pos hcount]
            exact .inr ⟨_, rfl, hrefreshed.congr rfl rfl, .inl ⟨hcount, rfl, rfl⟩⟩
      · split
        · -- fault
          split
          · rename_i hfault
            rw [faultSequenceOf, hfault, Option.map_none, offer_nothing]
            exact .inl ⟨_, rfl, by decide, rfl⟩
          · rename_i fault hfault
            rw [faultSequenceOf, hfault, Option.map_some, offer_eq]
            split
            · exact .inl ⟨_, rfl, by decide, rfl⟩
            · exact .inr ⟨_, rfl, h.applyFault _, .inr ⟨rfl, rfl⟩⟩
        · rename_i hid
          rw [hother hid, offer_nothing]
          exact .inl ⟨_, rfl, by decide, rfl⟩

theorem updateHeartbeatTimeout_baseline (h : client.Mirrored) (nowMs : Int) :
    (client.heartbeatMonitor.snapshot.status ≠ .timeout
      ∧ (client.heartbeatMonitor.update nowMs).snapshot.status = .timeout
      ∧ (client.updateHeartbeatTimeout nowMs).baseline = none) ∨
    (¬ (client.heartbeatMonitor.snapshot.status ≠ .timeout
      ∧ (client.heartbeatMonitor.update nowMs).snapshot.status = .timeout)
      ∧ (client.updateHeartbeatTimeout nowMs).baseline = client.baseline) := by
  rcases updateHeartbeatTimeout_eq h nowMs with ⟨hbefore, hafter, heq⟩ | ⟨hnot, heq⟩
  · exact .inl ⟨hbefore, hafter, by rw [heq]; rfl⟩
  · exact .inr ⟨hnot, by rw [heq]; rfl⟩

theorem processFrame_rejected (h : client.Mirrored) {nowMs wallMs : Int} {state : ChassisState}
    (hrejected : (client.processFrame frame nowMs wallMs state).2.2 ≠ .updated) :
    (client.processFrame frame nowMs wallMs state).2.1 = state
      ∧ ∃ status ageMs, (client.processFrame frame nowMs wallMs state).1.state
        = { client.state with heartbeatStatus := status, heartbeatAgeMs := ageMs } := by
  rcases client.processFrame_cases frame nowMs wallMs state with
    ⟨client', status, heq, hclient, -⟩ | ⟨applied, -, heq⟩
  · rw [heq]
    rcases hclient with rfl | rfl
    · exact ⟨rfl, _, _, rfl⟩
    · exact ⟨rfl, updateHeartbeatTimeout_state h nowMs⟩
  · rw [heq] at hrejected
    exact absurd rfl hrejected

/-- What a call does: from `start`, which is no baseline if it establishes a timeout and the client's
    own otherwise, it filters the report it was given, or it counts a reboot. -/
structure CallEffect (client : ChassisClient) (call : Call) (start : Option UInt8) : Prop where
  mirrored : (client.step call).1.Mirrored
  start_eq : (client.establishesTimeout call ∧ start = none)
    ∨ (¬ client.establishesTimeout call ∧ start = client.baseline)
  effect : (client.countsReboot call ∧ call.offeredFault = none
      ∧ acceptedFault (call, (client.step call).2) = none ∧ (client.step call).1.baseline = none)
    ∨ (¬ client.countsReboot call
      ∧ (acceptedFault (call, (client.step call).2), (client.step call).1.baseline)
        = offer Newer start call.offeredFault)

section Effects

variable {client : ChassisClient} (h : client.Mirrored) {nowMs : Int}

include h

theorem idle_effect {call : Call} (hstate : (client.step call).1.state = client.state)
    (hmon : (client.step call).1.heartbeatMonitor = client.heartbeatMonitor)
    (hbaseline : (client.step call).1.baseline = client.baseline)
    (htime : call.timeoutMs = none) (hoffered : call.offeredFault = none)
    (hacc : acceptedFault (call, (client.step call).2) = none) : CallEffect client call client.baseline := by
  constructor
  · exact h.congr hstate hmon
  · refine .inr ⟨?_, rfl⟩
    rintro ⟨nowMs, hmem, -⟩
    rw [htime] at hmem
    cases hmem
  · refine .inr ⟨?_, ?_⟩
    · intro hcounts
      exact hcounts (by rw [hstate])
    · rw [hacc, hoffered, hbaseline, offer_nothing]

theorem polled_start {call : Call} (htime : call.timeoutMs = some nowMs) :
    (client.establishesTimeout call ∧ (client.updateHeartbeatTimeout nowMs).baseline = none)
      ∨ (¬ client.establishesTimeout call ∧ (client.updateHeartbeatTimeout nowMs).baseline = client.baseline) := by
  rcases updateHeartbeatTimeout_baseline h nowMs with ⟨hbefore, hafter, hnone⟩ | ⟨hnot, hsame⟩
  · exact .inl ⟨⟨nowMs, htime, hbefore, hafter⟩, hnone⟩
  · refine .inr ⟨?_, hsame⟩
    rintro ⟨time, hmem, hbefore, hafter⟩
    rw [htime, Option.mem_some_iff] at hmem
    rw [← hmem] at hafter
    exact hnot ⟨hbefore, hafter⟩

theorem update_effect (hnow : ¬ nowMs < 0) (wallMs : Int) (state : ChassisState) :
    CallEffect client (.update nowMs wallMs state) (client.updateHeartbeatTimeout nowMs).baseline := by
  have htime : (Call.update nowMs wallMs state).timeoutMs = some nowMs := if_neg hnow
  have hpolled := h.updateHeartbeatTimeout nowMs
  have hcount : (client.updateHeartbeatTimeout nowMs).state.peerRebootCount
      = client.state.peerRebootCount := by
    rw [updateHeartbeatTimeout_peerRebootCount, h.peerRebootCount]
  have hstep : (client.step (.update nowMs wallMs state)).1 = client.updateHeartbeatTimeout nowMs
      ∨ (client.step (.update nowMs wallMs state)).1
        = (client.updateHeartbeatTimeout nowMs).report wallMs := by
    dsimp only [step, update]
    rw [if_neg hnow]
    split
    · exact .inl rfl
    · exact .inr rfl
  constructor
  · rcases hstep with heq | heq <;> rw [heq]
    · exact hpolled
    · exact hpolled.report wallMs
  · exact polled_start h htime
  · right
    constructor
    · rw [countsReboot]
      rcases hstep with heq | heq
      all_goals
        rw [heq]
        exact not_not_intro hcount
    · show (none, (client.step (.update nowMs wallMs state)).1.baseline) = offer Newer _ none
      rw [offer_nothing]
      rcases hstep with heq | heq
      · rw [heq]
      · rw [heq]
        rfl

theorem processFrame_effect (hnow : ¬ nowMs < 0) (frame : CanFrame) (wallMs : Int) (state : ChassisState) :
    CallEffect client (.processFrame frame nowMs wallMs state) (client.updateHeartbeatTimeout nowMs).baseline := by
  have htime : (Call.processFrame frame nowMs wallMs state).timeoutMs = some nowMs := if_neg hnow
  have hoffered : (Call.processFrame frame nowMs wallMs state).offeredFault = faultSequenceOf frame :=
    if_neg hnow
  have hpolled := h.updateHeartbeatTimeout nowMs
  have hcount : (client.updateHeartbeatTimeout nowMs).state.peerRebootCount
      = client.state.peerRebootCount := by
    rw [updateHeartbeatTimeout_peerRebootCount, h.peerRebootCount]
  rcases applyFrame_filters hpolled frame nowMs with
    ⟨status, happly, hstatus, hoffer⟩ | ⟨applied, happly, hmirrored, heffect⟩
  · have hstep : client.step (.processFrame frame nowMs wallMs state)
        = (client.updateHeartbeatTimeout nowMs, some status) := by
      dsimp only [step, processFrame]
      rw [if_neg hnow, happly]
    constructor
    · rw [hstep]
      exact hpolled
    · exact polled_start h htime
    · refine .inr ⟨?_, ?_⟩
      · rw [countsReboot, hstep]
        exact not_not_intro hcount
      · rw [hstep, hoffered, hoffer]
        cases status with
        | updated => exact absurd rfl hstatus
        | ignored | invalid => rfl
  · have hstep : client.step (.processFrame frame nowMs wallMs state)
        = (applied.report wallMs, some .updated) := by
      dsimp only [step, processFrame]
      rw [if_neg hnow, happly]
    constructor
    · rw [hstep]
      exact hmirrored.report wallMs
    · exact polled_start h htime
    · rw [countsReboot, hstep, hoffered]
      rcases heffect with ⟨hreboot, hnone, hbaseline⟩ | ⟨hsame, hoffer⟩
      · refine .inl ⟨?_, hnone, hnone, hbaseline⟩
        rw [← hcount]
        exact hreboot
      · refine .inr ⟨?_, ?_⟩
        · rw [← hcount]
          exact not_not_intro hsame
        · rw [hoffer]
          rfl

/-- What any call does to the baseline. -/
theorem call_effect (call : Call) : ∃ start, CallEffect client call start := by
  cases call with
  | processFrame frame nowMs wallMs state =>
    by_cases hnow : nowMs < 0
    · have hstep : client.step (.processFrame frame nowMs wallMs state) = (client, some .invalid) := by
        dsimp only [step, processFrame]
        rw [if_pos hnow]
      refine ⟨_, idle_effect h ?_ ?_ ?_ (if_pos hnow) (if_pos hnow) ?_⟩
      all_goals rw [hstep]
      rfl
    · exact ⟨_, processFrame_effect h hnow frame wallMs state⟩
  | update nowMs wallMs state =>
    by_cases hnow : nowMs < 0
    · have hstep : client.step (.update nowMs wallMs state) = (client, none) := by
        dsimp only [step, update]
        rw [if_pos hnow]
      refine ⟨_, idle_effect h ?_ ?_ ?_ (if_pos hnow) rfl rfl⟩
      all_goals rw [hstep]
    · exact ⟨_, update_effect h hnow wallMs state⟩
  | buildHeartbeat nowMs =>
    have hstep : (client.step (.buildHeartbeat nowMs)).1.state = client.state
        ∧ (client.step (.buildHeartbeat nowMs)).1.heartbeatMonitor = client.heartbeatMonitor
        ∧ (client.step (.buildHeartbeat nowMs)).1.baseline = client.baseline := by
      dsimp only [step, buildHeartbeat]
      split
      · exact ⟨rfl, rfl, rfl⟩
      · split <;> exact ⟨rfl, rfl, rfl⟩
    exact ⟨_, idle_effect h hstep.1 hstep.2.1 hstep.2.2 rfl rfl rfl⟩
  | getState nowMs => exact ⟨_, idle_effect h rfl rfl rfl rfl rfl rfl⟩

end Effects

/-- **The client is a filter on fault reports**, with the timeouts and reboots of the peer as resets. -/
theorem filters : Filters step Newer baseline Call.offeredFault acceptedFault resetsBaseline Mirrored where
  keeps client call h := by
    obtain ⟨_, heffect⟩ := call_effect h call
    exact heffect.mirrored
  resetting client call h hresets := by
    obtain ⟨start, heffect⟩ := call_effect h call
    rcases heffect.effect with ⟨_, hoffered, hacc, hbaseline⟩ | ⟨hnot, hoffer⟩
    · rw [hoffered, hacc, hbaseline, offer_nothing]
    · -- without a counted reboot it is the timeout that resets
      have htimeout := hresets.resolve_right hnot
      rcases heffect.start_eq with ⟨_, hstart⟩ | ⟨hnone, _⟩
      · rw [hoffer, hstart]
      · exact absurd htimeout hnone
  filtering client call h hkeeps := by
    obtain ⟨start, heffect⟩ := call_effect h call
    rcases heffect.effect with ⟨hcounts, _⟩ | ⟨_, hoffer⟩
    · exact absurd (.inr hcounts) hkeeps
    · rcases heffect.start_eq with ⟨htimeout, _⟩ | ⟨_, hstart⟩
      · exact absurd (.inl htimeout) hkeeps
      · rw [hoffer, hstart]

/-! ## The fault report that the client shows -/

/-- The fields that a fault report sets. -/
def shownFault (client : ChassisClient) : UInt8 × UInt32 × UInt32 × UInt16 :=
  (client.state.faultSeverity, client.state.activeFaults, client.state.latchedFaults,
    client.state.faultSequence)

theorem applyFrame_shownFault {applied : ChassisClient} {nowMs : Int}
    (happly : client.applyFrame frame nowMs = .ok applied) (hnone : faultSequenceOf frame = none) :
    applied.shownFault = client.shownFault := by
  unfold applyFrame at happly
  split at happly
  · split at happly <;> cases happly
    rfl
  · split at happly
    · split at happly <;> cases happly
      rfl
    · split at happly
      · dsimp only at happly
        split at happly <;> cases happly
        split <;> rfl
      · split at happly
        · split at happly
          · cases happly
          · rename_i fault hfault
            rw [faultSequenceOf, hfault] at hnone
            cases hnone
        · cases happly

theorem step_shownFault (h : client.Mirrored) {call : Call}
    (hnone : acceptedFault (call, (client.step call).2) = none) :
    (client.step call).1.shownFault = client.shownFault := by
  have hpolled : ∀ nowMs, (client.updateHeartbeatTimeout nowMs).shownFault = client.shownFault := by
    intro nowMs
    obtain ⟨status, ageMs, hstate⟩ := updateHeartbeatTimeout_state h nowMs
    rw [shownFault, hstate]
    rfl
  cases call with
  | processFrame frame nowMs wallMs state =>
    rcases client.processFrame_cases frame nowMs wallMs state with
      ⟨client', status, heq, hclient, -⟩ | ⟨applied, happly, heq⟩
    · dsimp only [step]
      rw [heq]
      rcases hclient with rfl | rfl
      · rfl
      · exact hpolled nowMs
    · dsimp only [step] at hnone ⊢
      rw [heq] at hnone ⊢
      exact (applyFrame_shownFault happly hnone).trans (hpolled nowMs)
  | update nowMs wallMs state =>
    dsimp only [step]
    rcases client.update_cases nowMs wallMs state with ⟨client', heq, hclient⟩ | heq <;> rw [heq]
    · rcases hclient with rfl | ⟨rfl, -⟩
      · rfl
      · exact hpolled nowMs
    · exact hpolled nowMs
  | buildHeartbeat nowMs =>
    dsimp only [step, buildHeartbeat]
    split
    · rfl
    · split <;> rfl
  | getState nowMs => rfl

/-! ## Runs -/

instance (client : ChassisClient) (call : Call) : Decidable (client.establishesTimeout call) :=
  match htime : call.timeoutMs with
  | none => isFalse fun ⟨_, hmem, _⟩ => by rw [htime] at hmem; cases hmem
  | some nowMs =>
    decidable_of_iff (client.heartbeatMonitor.snapshot.status ≠ .timeout
        ∧ (client.heartbeatMonitor.update nowMs).snapshot.status = .timeout)
      ⟨fun h => ⟨nowMs, htime, h⟩, fun ⟨_, hmem, h⟩ => by
        rw [htime, Option.mem_some_iff] at hmem
        rw [← hmem] at h
        exact h⟩

instance (client : ChassisClient) (call : Call) : Decidable (client.resetsBaseline call) :=
  inferInstanceAs (Decidable (_ ∨ ¬ _))

/-- **Fault frames are applied in order.**  After any calls `before`, and for any further calls `first`
    and `between`:

    * while none of `between` resets the baseline, every accepted fault report is newer than the one
      accepted before it, and only an accepted one changes the fault that is shown;
    * a frame that is ignored or invalid changes at most the status and the age of the heartbeat;
    * if `first` resets the baseline, the first valid fault report from then on is accepted. -/
theorem faults_in_order (startedMs wallMs : Int) (before : List Call) (first : Call)
    (between : List Call) :
    let client := run step (init startedMs wallMs) before
    let accepted := (trace step client (first :: between)).filterMap acceptedFault
    (Along step (fun c call => ¬ c.resetsBaseline call) (client.step first).1 between →
        accepted.IsChain Newer)
      ∧ (acceptedFault (first, (client.step first).2) = none →
        (client.step first).1.shownFault = client.shownFault)
      ∧ (∀ frame nowMs wallMs state, (client.processFrame frame nowMs wallMs state).2.2 ≠ .updated →
        (client.processFrame frame nowMs wallMs state).2.1 = state
          ∧ ∃ status ageMs, (client.processFrame frame nowMs wallMs state).1.state
            = { client.state with heartbeatStatus := status, heartbeatAgeMs := ageMs })
      ∧ (client.resetsBaseline first →
        accepted.head? = ((first :: between).filterMap Call.offeredFault).head?) := by
  intro client accepted
  have hmirrored : client.Mirrored :=
    run_invariant filters.keeps (mirrored_init startedMs wallMs) before
  refine ⟨?_, ?_, ?_, ?_⟩
  · intro hkeeps
    exact filters.chain hmirrored first hkeeps
  · intro hnone
    exact step_shownFault hmirrored hnone
  · intro frame nowMs wallMs state hrejected
    exact processFrame_rejected hmirrored hrejected
  · intro hresets
    exact filters.next_accepted hmirrored hresets between

/-- A peer that reports fault 100 and falls silent. -/
def lostPeer : List Call :=
  [.processFrame (heartbeatReport 1 1000) 100 0 {}, .processFrame (faultReport 100 2) 110 0 {}]

theorem faults_in_order_lost_peer :
    let client := run step (init 0 0) lostPeer
    let accepted := (trace step client [.update 400 0 {}, .processFrame (faultReport 5 0) 410 0 {},
      .processFrame (faultReport 5 0) 420 0 {}]).filterMap acceptedFault
    accepted.IsChain Newer ∧ accepted.head? = some 5
      ∧ (client.step (.update 400 0 {})).1.shownFault = client.shownFault
      ∧ (client.processFrame (faultReport 99 0) 120 0 {}).2.1 = {} := by
  obtain ⟨horder, hshown, hrejected, hnext⟩ := faults_in_order 0 0 lostPeer (.update 400 0 {})
    [.processFrame (faultReport 5 0) 410 0 {}, .processFrame (faultReport 5 0) 420 0 {}]
  refine ⟨horder (by decide +kernel), ?_, hshown (by decide +kernel), ?_⟩
  · rw [hnext (by decide +kernel)]
    decide +kernel
  · exact (hrejected (faultReport 99 0) 120 0 {} (by decide +kernel)).1

end ChassisClient

end Cockpit.Vehicle
