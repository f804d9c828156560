/-
  Two laws of the chassis fault, over runs of `ChassisCanSafetyStateSource`.

  Neither holds of every run, and for each the runs that break it share one step.  Along the runs without such a
  step the laws are proved: what holds right after the step that sets the law up is kept by every call that the
  law allows in between, and decides the evaluation at the end.
-/
import Cockpit.Vehicle.StateSource

namespace Cockpit.Vehicle

open Cockpit.Can StepRun

namespace ChassisCanSafetyStateSource

/-! ## The laws -/

/-- Every evaluation after the loss of the peer between two consecutive heartbeats `first` and
    `second` reports a live peer as faulted, as long as no fault report has been accepted since the
    loss: since 300 ms after `first` for a timeout, since `second` for a reboot. -/
def ClearanceLaw (source : ChassisCanSafetyStateSource) (calls : List SourceCall) : Prop :=
  ∀ earlier first between second later controls steadyNowMs wallMs rest,
    calls = earlier ++ first :: (between ++ second
      :: (later ++ .evaluate controls steadyNowMs wallMs :: rest)) →
    let s₀ := run call source earlier
    let s₁ := (s₀.call first).1
    let s₂ := run call s₁ between
    let s₃ := (s₂.call second).1
    let s₄ := run call s₃ later
    let state := (s₄.evaluate controls steadyNowMs wallMs).2
    s₀.Accepts ChassisCanCodec.kHeartbeatId first →
    Along call (fun s c => ¬ s.Accepts ChassisCanCodec.kHeartbeatId c) s₁ between →
    s₂.Accepts ChassisCanCodec.kHeartbeatId second →
    (first.steadyNowMs + ChassisHeartbeatMonitor.kTimeoutMs ≤ second.steadyNowMs
        ∧ Along call (fun s c => s.Accepts ChassisCanCodec.kFaultStatusId c →
            c.steadyNowMs < first.steadyNowMs + ChassisHeartbeatMonitor.kTimeoutMs) s₁ between
      ∨ s₃.chassisState.peerRebootCount ≠ s₂.chassisState.peerRebootCount) →
    Along call (fun s c => ¬ s.Accepts ChassisCanCodec.kFaultStatusId c) s₃ later →
    state.peerAlive = true → state.chassisFault = true

/-- The call is a frame that carries an active fault report. -/
def CarriesActiveFault : SourceCall → Prop
  | .processFrame frame _ _ => (ChassisCanCodec.decodeFault frame).any (·.faulted) = true
  | .evaluate _ _ _ => False

/-- Every evaluation after an accepted active fault report, and before the next accepted one,
    reports a live peer as faulted. -/
def ActiveFaultLaw (source : ChassisCanSafetyStateSource) (calls : List SourceCall) : Prop :=
  ∀ earlier report later controls steadyNowMs wallMs rest,
    calls = earlier ++ report :: (later ++ .evaluate controls steadyNowMs wallMs :: rest) →
    let s₀ := run call source earlier
    let s₁ := (s₀.call report).1
    let s₂ := run call s₁ later
    let state := (s₂.evaluate controls steadyNowMs wallMs).2
    s₀.Accepts ChassisCanCodec.kFaultStatusId report →
    CarriesActiveFault report →
    Along call (fun s c => ¬ s.Accepts ChassisCanCodec.kFaultStatusId c) s₁ later →
    state.peerAlive = true → state.chassisFault = true

/-! ## The steps that break them -/

/-- The frame is a report, other than of a fault, that the client takes over at `steadyNowMs`. -/
def isOtherReport (source : ChassisCanSafetyStateSource) (frame : CanFrame) (steadyNowMs : Int) : Bool :=
  (ChassisCanCodec.decodeMotion frame).isSome || (ChassisCanCodec.decodeOdometry frame).isSome
    || (ChassisCanCodec.decodeHeartbeat frame).any fun heartbeat =>
      !(source.client.heartbeatMonitor.update steadyNowMs).outOfSequence heartbeat

/-- The call takes over a report while the peer is timed out, the timeout has not been reported
    and a fault report from before it still counts as seen. -/
def ConsumesTimeout (source : ChassisCanSafetyStateSource) : SourceCall → Prop
  | .processFrame frame steadyNowMs _ =>
    (source.client.heartbeatMonitor.update steadyNowMs).snapshot.status = .timeout
      ∧ source.client.reportedHeartbeatStatus ≠ .timeout ∧ source.faultSeen = true
      ∧ source.isOtherReport frame steadyNowMs = true
  | .evaluate _ _ _ => False

/-- The call is an active fault report that the client takes over and the tracker refuses, while
    the tracker has no fault on record. -/
def RefusesActiveFault (source : ChassisCanSafetyStateSource) : SourceCall → Prop
  | .processFrame frame steadyNowMs _ =>
    (ChassisCanCodec.decodeFault frame).any (fun fault => fault.faulted
        && !(source.client.updateHeartbeatTimeout steadyNowMs).faultOutOfSequence fault) = true
      ∧ source.tracker.refuses source.tracker.lastFaultStateMs steadyNowMs = true
      ∧ source.tracker.chassisFault = false
  | .evaluate _ _ _ => False

instance : (c : SourceCall) → Decidable (CarriesActiveFault c)
  | .processFrame _ _ _ => inferInstanceAs (Decidable (_ = _))
  | .evaluate _ _ _ => inferInstanceAs (Decidable False)

instance (source : ChassisCanSafetyStateSource) :
    (c : SourceCall) → Decidable (source.ConsumesTimeout c)
  | .processFrame _ _ _ => inferInstanceAs (Decidable (_ ∧ _))
  | .evaluate _ _ _ => inferInstanceAs (Decidable False)

instance (source : ChassisCanSafetyStateSource) :
    (c : SourceCall) → Decidable (source.RefusesActiveFault c)
  | .processFrame _ _ _ => inferInstanceAs (Decidable (_ ∧ _))
  | .evaluate _ _ _ => inferInstanceAs (Decidable False)

/-! ## What a call keeps -/

/-- The three copies of the reboot counter agree. -/
structure Synced (source : ChassisCanSafetyStateSource) : Prop where
  client : source.client.state.peerRebootCount
    = source.client.heartbeatMonitor.snapshot.peerRebootCount
  chassisState : source.chassisState.peerRebootCount
    = source.client.heartbeatMonitor.snapshot.peerRebootCount
  observed : source.observedPeerRebootCount
    = source.client.heartbeatMonitor.snapshot.peerRebootCount

theorem Synced.init (startedSteadyMs wallMs : Int) : Synced (init startedSteadyMs wallMs) :=
  ⟨rfl, rfl, rfl⟩

section Calls

variable {source : ChassisCanSafetyStateSource}

theorem Synced.call (hs : Synced source) (c : SourceCall) : Synced (source.call c).1 := by
  obtain ⟨hclient, hstate, hobserved⟩ := hs
  cases c with
  | processFrame frame steadyNowMs wallMs =>
    rcases hcall : source.processFrame frame steadyNowMs wallMs with ⟨source', status⟩
    rw [call_processFrame hcall]
    cases processFrame_effect hcall with
    | rejected hsame _ =>
      rcases hsame with rfl | rfl
      · exact ⟨hclient, hstate, hobserved⟩
      · constructor <;> simp [hstate, hobserved]
    | heartbeat _ _ _ _ _ _ hcount => constructor <;> simpa using hcount
    | fault _ _ _ hmon _ hcount _ | other _ _ _ hmon _ hcount =>
      exact ⟨hcount, hcount, by simp [hobserved, hmon]⟩
  | evaluate controls steadyNowMs wallMs =>
    rcases hcall : source.evaluate controls steadyNowMs wallMs with ⟨source', state⟩
    rw [call_evaluate hcall]
    cases evaluate_effect hcall with
    | silent hsame =>
      rcases hsame with rfl | ⟨rfl, _⟩
      · exact ⟨hclient, hstate, hobserved⟩
      · constructor <;> simp [hstate, hobserved]
    | reported hreport =>
      subst hreport
      constructor <;> simp [ChassisClient.report, hobserved]

/-- The monitor and the tracker stay in step along any calls. -/
theorem Synced.run (hs : Synced source) (calls : List SourceCall) :
    Synced (StepRun.run ChassisCanSafetyStateSource.call source calls) :=
  run_invariant (fun _ c h => h.call c) hs calls

/-- Since the heartbeat at `firstMs` the peer has been silent: it still counts as alive, or it is
    timed out, which takes until `kTimeoutMs` later. -/
def SilentSince (firstMs nowMs : Int) (monitor : ChassisHeartbeatMonitor) : Prop :=
  (monitor.snapshot.status = .alive ∧ monitor.snapshot.receivedMs = firstMs) ∨
  (monitor.snapshot.status = .timeout ∧ firstMs + ChassisHeartbeatMonitor.kTimeoutMs ≤ nowMs)

variable {firstMs nowMs : Int}

variable {monitor : ChassisHeartbeatMonitor}

theorem SilentSince.mono {laterMs : Int} (h : SilentSince firstMs nowMs monitor) (hle : nowMs ≤ laterMs) :
    SilentSince firstMs laterMs monitor :=
  h.imp_right fun ⟨hstatus, htime⟩ => ⟨hstatus, by omega⟩

theorem SilentSince.update {laterMs : Int} (h : SilentSince firstMs nowMs monitor) (hle : nowMs ≤ laterMs) :
    SilentSince firstMs laterMs (monitor.update laterMs) ∧ (firstMs + ChassisHeartbeatMonitor.kTimeoutMs ≤ laterMs →
          (monitor.update laterMs).snapshot.status = .timeout) := by
  unfold SilentSince
  rw [ChassisHeartbeatMonitor.update_status, ChassisHeartbeatMonitor.update_receivedMs]
  rcases h with ⟨hstatus, hreceived⟩ | ⟨hstatus, htime⟩
  · have hexpired : monitor.expired laterMs
        = decide (firstMs + ChassisHeartbeatMonitor.kTimeoutMs ≤ laterMs) := by
      simp only [ChassisHeartbeatMonitor.expired, hstatus, hreceived, BEq.rfl, Bool.true_and]
      exact decide_eq_decide.mpr (by omega)
    rw [hexpired, hstatus, hreceived]
    by_cases hdue : firstMs + ChassisHeartbeatMonitor.kTimeoutMs ≤ laterMs <;> simp [hdue]
  · have hexpired : monitor.expired laterMs = false := by
      simp [ChassisHeartbeatMonitor.expired, hstatus]
    rw [hexpired, hstatus]
    exact ⟨.inr ⟨rfl, by omega⟩, fun _ => rfl⟩

theorem faultSeen_of_not_consumes {frame : CanFrame} {steadyNowMs wallMs : Int}
    (h : ¬ source.ConsumesTimeout (.processFrame frame steadyNowMs wallMs))
    (htimeout : (source.client.heartbeatMonitor.update steadyNowMs).snapshot.status = .timeout)
    (hreport : source.isOtherReport frame steadyNowMs = true)
    (hcleared : source.client.reportedHeartbeatStatus = .timeout → source.faultSeen = false) :
    source.faultSeen = false := by
  cases hseen : source.faultSeen with
  | false => rfl
  | true =>
    have hunreported : source.client.reportedHeartbeatStatus ≠ .timeout := fun hreported =>
      absurd (hcleared hreported) (by rw [hseen]; decide)
    exact absurd ⟨htimeout, hunreported, hseen, hreport⟩ h

/-- Between two heartbeats a timeout that has been reported has cleared the flag. -/
structure Watching (firstMs nowMs : Int) (source : ChassisCanSafetyStateSource) : Prop where
  silent : SilentSince firstMs nowMs source.client.heartbeatMonitor
  cleared : source.client.reportedHeartbeatStatus = .timeout → source.faultSeen = false

variable {c : SourceCall}

theorem Watching.of_heartbeat (h : source.Accepts ChassisCanCodec.kHeartbeatId c) :
    Watching c.steadyNowMs c.steadyNowMs (source.call c).1 := by
  cases c with
  | evaluate => exact h.elim
  | processFrame frame steadyNowMs wallMs =>
    obtain ⟨hid, hok⟩ := h
    rcases hcall : source.processFrame frame steadyNowMs wallMs with ⟨source', status⟩
    rw [call_processFrame hcall]
    rw [hcall] at hok
    cases processFrame_effect hcall with
    | rejected _ hstatus => exact absurd hok hstatus
    | heartbeat _ _ _ halive hreceived hreported _ =>
      exact ⟨.inl (by simp [halive, hreceived, SourceCall.steadyNowMs]), by simp [hreported]⟩
    | fault hid' => rw [hid] at hid'; exact absurd hid' (by decide)
    | other hid' => exact absurd hid hid'

/-- **Every call between the heartbeats keeps the watch**, unless it consumes the timeout. -/
theorem Watching.call (hw : Watching firstMs nowMs source) (htime : nowMs ≤ c.steadyNowMs)
    (hheartbeat : ¬ source.Accepts ChassisCanCodec.kHeartbeatId c)
    (hfault : source.Accepts ChassisCanCodec.kFaultStatusId c → c.steadyNowMs < firstMs +
      ChassisHeartbeatMonitor.kTimeoutMs) (hconsumes : ¬ source.ConsumesTimeout c) :
    Watching firstMs c.steadyNowMs (source.call c).1 := by
  obtain ⟨hsilent, hcleared⟩ := hw
  have hsame := hsilent.mono htime
  obtain ⟨hupdated, hdue⟩ := hsilent.update htime
  cases c with
  | processFrame frame steadyNowMs wallMs =>
    rcases hcall : source.processFrame frame steadyNowMs wallMs with ⟨source', status⟩
    rw [call_processFrame hcall]
    simp only [Accepts, hcall, SourceCall.steadyNowMs] at hheartbeat hfault hsame hupdated ⊢
    cases processFrame_effect hcall with
    | rejected hclient _ =>
      rcases hclient with rfl | rfl
      · exact ⟨hsame, hcleared⟩
      · exact ⟨by simpa using hupdated, by simpa using hcleared⟩
    | heartbeat hid => exact absurd ⟨hid, rfl⟩ hheartbeat
    | fault hid _ _ hmon hreported =>
      refine ⟨by rw [observeFault_client, hmon]; exact hupdated, fun htimeout => ?_⟩
      -- a fault report before the timeout is due cannot have been the one to report it
      have hbefore := hfault ⟨hid, rfl⟩
      rw [observeFault_client, hreported, hmon] at htimeout
      rcases hupdated with ⟨halive, _⟩ | ⟨_, hlate⟩
      · rw [halive] at htimeout
        cases htimeout
      · omega
    | other _ _ hdecode hmon hreported =>
      refine ⟨by simpa only [hmon] using hupdated, fun htimeout => ?_⟩
      rw [hreported, hmon] at htimeout
      have hreport : source.isOtherReport frame steadyNowMs = true := by
        rcases hdecode with hdecode | hdecode <;> simp [isOtherReport, hdecode]
      show source.faultSeen = false
      exact faultSeen_of_not_consumes hconsumes htimeout hreport hcleared
  | evaluate controls steadyNowMs wallMs =>
    rcases hcall : source.evaluate controls steadyNowMs wallMs with ⟨source', state⟩
    rw [call_evaluate hcall]
    simp only [SourceCall.steadyNowMs] at hsame hupdated ⊢
    cases evaluate_effect hcall with
    | silent hclient =>
      rcases hclient with rfl | ⟨rfl, _⟩
      · exact ⟨hsame, hcleared⟩
      · exact ⟨by simpa using hupdated, by simpa using hcleared⟩
    | reported hclient =>
      subst hclient
      refine ⟨by simpa [ChassisClient.report] using hupdated, fun htimeout => ?_⟩
      exact if_pos htimeout

/-- A heartbeat behind the timeout finds the old report forgotten. -/
theorem Watching.clears (hw : Watching firstMs nowMs source) (htime : nowMs ≤ c.steadyNowMs)
    (hdue : firstMs + ChassisHeartbeatMonitor.kTimeoutMs ≤ c.steadyNowMs)
    (hheartbeat : source.Accepts ChassisCanCodec.kHeartbeatId c) (hconsumes : ¬ source.ConsumesTimeout c) :
    (source.call c).1.faultSeen = false := by
  cases c with
  | evaluate => exact hheartbeat.elim
  | processFrame frame steadyNowMs wallMs =>
    obtain ⟨hid, hok⟩ := hheartbeat
    have htimeout := (hw.silent.update htime).2 hdue
    rcases hcall : source.processFrame frame steadyNowMs wallMs with ⟨source', status⟩
    rw [call_processFrame hcall]
    rw [hcall] at hok
    cases processFrame_effect hcall with
    | rejected _ hstatus => exact absurd hok hstatus
    | heartbeat _ hdecode hseq =>
      have hseen : source.faultSeen = false :=
        faultSeen_of_not_consumes hconsumes htimeout (by simp [isOtherReport, hdecode, hseq])
          hw.cleared
      rw [observeHeartbeat_faultSeen]
      split
      · rfl
      · exact hseen
    | fault hid' => rw [hid] at hid'; exact absurd hid' (by decide)
    | other hid' => exact absurd hid hid'

theorem Synced.reboot_clears (hs : Synced source) (hheartbeat : source.Accepts ChassisCanCodec.kHeartbeatId c)
    (hreboot : (source.call c).1.chassisState.peerRebootCount ≠ source.chassisState.peerRebootCount) :
    (source.call c).1.faultSeen = false := by
  cases c with
  | evaluate => exact hheartbeat.elim
  | processFrame frame steadyNowMs wallMs =>
    obtain ⟨hid, hok⟩ := hheartbeat
    rcases hcall : source.processFrame frame steadyNowMs wallMs with ⟨source', status⟩
    rw [call_processFrame hcall] at hreboot ⊢
    rw [hcall] at hok
    cases processFrame_effect hcall with
    | rejected _ hstatus => exact absurd hok hstatus
    | heartbeat =>
      rw [observeHeartbeat_chassisState, hs.chassisState, ← hs.observed] at hreboot
      rw [observeHeartbeat_faultSeen, if_pos hreboot]
    | fault hid' => rw [hid] at hid'; exact absurd hid' (by decide)
    | other hid' => exact absurd hid hid'

/-- No report is seen before one is accepted. -/
theorem faultSeen_call (hseen : source.faultSeen = false)
    (hfault : ¬ source.Accepts ChassisCanCodec.kFaultStatusId c) : (source.call c).1.faultSeen = false := by
  cases c with
  | processFrame frame steadyNowMs wallMs =>
    rcases hcall : source.processFrame frame steadyNowMs wallMs with ⟨source', status⟩
    rw [call_processFrame hcall]
    simp only [Accepts, hcall] at hfault
    cases processFrame_effect hcall with
    | rejected => exact hseen
    | heartbeat =>
      rw [observeHeartbeat_faultSeen]
      split
      · rfl
      · exact hseen
    | fault hid => exact absurd ⟨hid, rfl⟩ hfault
    | other => exact hseen
  | evaluate controls steadyNowMs wallMs =>
    rcases hcall : source.evaluate controls steadyNowMs wallMs with ⟨source', state⟩
    rw [call_evaluate hcall]
    cases evaluate_effect hcall with
    | silent => exact hseen
    | reported => simp [hseen]

theorem tracker_chassisFault_call (hfault : ¬ source.Accepts ChassisCanCodec.kFaultStatusId c) :
    (source.call c).1.tracker.chassisFault = source.tracker.chassisFault := by
  cases c with
  | processFrame frame steadyNowMs wallMs =>
    rcases hcall : source.processFrame frame steadyNowMs wallMs with ⟨source', status⟩
    rw [call_processFrame hcall]
    simp only [Accepts, hcall] at hfault
    cases processFrame_effect hcall with
    | rejected => rfl
    | heartbeat => exact observeHeartbeat_tracker_chassisFault _ _
    | fault hid => exact absurd ⟨hid, rfl⟩ hfault
    | other => rfl
  | evaluate controls steadyNowMs wallMs =>
    rcases hcall : source.evaluate controls steadyNowMs wallMs with ⟨source', state⟩
    rw [call_evaluate hcall]
    cases evaluate_effect hcall <;> rfl

theorem tracker_chassisFault_of_active (haccepts : source.Accepts ChassisCanCodec.kFaultStatusId c)
    (hactive : CarriesActiveFault c) (hrefuses : ¬ source.RefusesActiveFault c) :
    (source.call c).1.tracker.chassisFault = true := by
  cases c with
  | evaluate => exact haccepts.elim
  | processFrame frame steadyNowMs wallMs =>
    obtain ⟨hid, hok⟩ := haccepts
    rcases hcall : source.processFrame frame steadyNowMs wallMs with ⟨source', status⟩
    rw [call_processFrame hcall]
    rw [hcall] at hok
    cases processFrame_effect hcall with
    | rejected _ hstatus => exact absurd hok hstatus
    | heartbeat hid' => rw [hid] at hid'; exact absurd hid' (by decide)
    | other _ hid' => exact absurd hid hid'
    | @fault client fault _ hdecode hseq _ _ _ hfaulted =>
      have hfault : fault.faulted = true := by simpa [CarriesActiveFault, hdecode] using hactive
      unfold observeFault ChassisSafetyStateTracker.updateChassisFault
      dsimp only
      split
      · rename_i hrefused
        -- refused: the fault must have been on record before
        cases hrecord : source.tracker.chassisFault with
        | true => rfl
        | false =>
          exact absurd ⟨by simp [hdecode, hfault, hseq], hrefused, hrecord⟩ hrefuses
      · exact hfaulted.trans hfault

end Calls

/-! ## Runs of one peer, for the witnesses

The peer's own reports: heartbeats as `encodeHeartbeat` makes them, and fault reports in the layout
that `decodeFault` reads. -/

/-- A heartbeat of the peer. -/
def heartbeatReport (sequence : UInt8) (uptimeMs : UInt32) : CanFrame :=
  (ChassisCanCodec.encodeHeartbeat
    { nodeState := 1, sequence := sequence, uptimeMs := uptimeMs }).getD {}

/-- A fault report, active where its severity is not 0. -/
def faultReport (sequence severity : UInt8) : CanFrame :=
  let data := (ChassisCanCodec.emptyData.setIfInBounds 0 ChassisCanCodec.kSchemaVersion).setIfInBounds 1 severity
  let data := data.setIfInBounds 2 sequence
  let crc := ChassisCanCodec.frameCrc ChassisCanCodec.kFaultStatusId data 14
  let data := (data.setIfInBounds 14 (crc &&& 0xFF).toUInt8).setIfInBounds 15 (crc >>> 8).toUInt8
  { id := ChassisCanCodec.kFaultStatusId, data := data, dataLength := 16, fd := true, brs := true }

/-- A heartbeat, a healthy report, and the next heartbeat after 310 ms of silence. -/
def silentPeer (between : List SourceCall) : List SourceCall :=
  [.processFrame (heartbeatReport 1 1000) 1000 0, .processFrame (faultReport 1 0) 1290 0] ++ between
    ++ [.processFrame (heartbeatReport 2 1310) 1310 0, .evaluate {} 1311 0]

/-- A healthy report, an active one with a receive time of 1 ms earlier, and a heartbeat. -/
def faultyPeer (activeMs : Int) : List SourceCall :=
  [.processFrame (faultReport 1 0) 1000 0, .processFrame (faultReport 2 2) activeMs 0,
    .processFrame (heartbeatReport 1 1005) 1005 0, .evaluate {} 1010 0]

/-! ## The laws along the runs that avoid the step -/

/-- **Stale fault clearance.**  On a clock that does not go back, a run in which no call consumes a
    timeout obeys the clearance law. -/
theorem clearanceLaw_of_along (startedSteadyMs wallMs : Int) (calls : List SourceCall)
    (htime : (calls.map SourceCall.steadyNowMs).Pairwise (· ≤ ·))
    (hconsumes : Along call (fun s c => ¬ s.ConsumesTimeout c) (init startedSteadyMs wallMs) calls) :
    ClearanceLaw (init startedSteadyMs wallMs) calls := by
  rintro earlier first between second later controls steadyNowMs wallMs' rest rfl
  intro s₀ s₁ s₂ s₃ s₄ state hfirst hbetween hsecond hloss hlater
  -- the conditions of the run, split at the two heartbeats
  rw [along_append, along_cons, along_append, along_cons] at hconsumes
  obtain ⟨-, -, hbetween', hsecond', -⟩ := hconsumes
  rw [List.map_append, List.pairwise_append, List.map_cons] at htime
  have hclock := htime.2.1
  rw [List.map_append, List.map_cons, ← List.cons_append, List.pairwise_append] at hclock
  -- right after the second heartbeat the flag is cleared
  have hseen : s₃.faultSeen = false := by
    rcases hloss with ⟨hdue, hfault⟩ | hreboot
    · obtain ⟨last, hmem, hwatch⟩ :=
        Along.clocked_invariant SourceCall.steadyNowMs
          (I := fun now s => Watching first.steadyNowMs now s)
          (fun now s c hw hnow hP => hw.call hnow hP.1 hP.2.1 hP.2.2)
          (Watching.of_heartbeat hfirst) hclock.1 (hbetween.and (hfault.and hbetween'))
      exact hwatch.clears (hclock.2.2 _ hmem _ List.mem_cons_self) hdue hsecond hsecond'
    · have hsynced : Synced s₂ := (((Synced.init _ _).run earlier).call first).run between
      exact hsynced.reboot_clears hsecond hreboot
  -- and it stays so, the evaluation included
  have hseen' : s₄.faultSeen = false :=
    Along.invariant (I := fun s => s.faultSeen = false) (fun _ _ hs hP => faultSeen_call hs hP)
      hseen hlater
  exact evaluate_chassisFault (.inl (faultSeen_call hseen' (c := .evaluate controls _ wallMs') id))

theorem clearanceLaw_evaluated_gap :
    ClearanceLaw (init 0 0) (silentPeer [.evaluate {} 1305 0]) :=
  clearanceLaw_of_along 0 0 _ (by decide) (by decide +kernel)

theorem clearanceLaw_fails :
    ((silentPeer []).map SourceCall.steadyNowMs).Pairwise (· ≤ ·)
      ∧ ¬ ClearanceLaw (init 0 0) (silentPeer []) := by
  refine ⟨by decide, fun hlaw => ?_⟩
  have hfault := hlaw [] (.processFrame (heartbeatReport 1 1000) 1000 0)
    [.processFrame (faultReport 1 0) 1290 0] (.processFrame (heartbeatReport 2 1310) 1310 0) []
    {} 1311 0 [] rfl (by decide +kernel) (by decide +kernel) (by decide +kernel)
    (by decide +kernel) (by decide +kernel) (by decide +kernel)
  exact absurd hfault (by decide +kernel)

/-- **Active faults are kept.**  A run in which the tracker refuses no active report that it would
    need obeys the active-fault law, at any times. -/
theorem activeFaultLaw_of_along (startedSteadyMs wallMs : Int) (calls : List SourceCall)
    (hrefuses : Along call (fun s c => ¬ s.RefusesActiveFault c) (init startedSteadyMs wallMs)
      calls) :
    ActiveFaultLaw (init startedSteadyMs wallMs) calls := by
  rintro earlier report later controls steadyNowMs wallMs' rest rfl
  intro s₀ s₁ s₂ state haccepts hactive hlater
  rw [along_append, along_cons] at hrefuses
  have hrecord : s₁.tracker.chassisFault = true :=
    tracker_chassisFault_of_active haccepts hactive hrefuses.2.1
  have hrecord' : s₂.tracker.chassisFault = true :=
    Along.invariant (I := fun s => s.tracker.chassisFault = true)
      (fun _ _ hs hP => (tracker_chassisFault_call hP).trans hs) hrecord hlater
  exact evaluate_chassisFault (.inr hrecord')

theorem activeFaultLaw_in_order : ActiveFaultLaw (init 0 0) (faultyPeer 1001) :=
  activeFaultLaw_of_along 0 0 _ (by decide +kernel)

theorem activeFaultLaw_fails : ¬ ActiveFaultLaw (init 0 0) (faultyPeer 999) := by
  intro hlaw
  have hfault := hlaw [.processFrame (faultReport 1 0) 1000 0]
    (.processFrame (faultReport 2 2) 999 0) [.processFrame (heartbeatReport 1 1005) 1005 0]
    {} 1010 0 [] rfl (by decide +kernel) (by decide +kernel) (by decide +kernel)
    (by decide +kernel)
  exact absurd hfault (by decide +kernel)

end ChassisCanSafetyStateSource

end Cockpit.Vehicle
