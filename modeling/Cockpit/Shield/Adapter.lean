/-
  The chassis interlock: `ChassisSafetyAdapter` and `ChassisSafetyStateTracker`.

  The adapter stands between a velocity request and the wheels.  The fields interact: a request survives only
  until the first stop, rejection or reset, and the rate limiter's last output has to stay inside the velocity
  limits.  Both are one invariant of a run.

  Steady times and limits are `Int`.  With non-negative `int64` times no sum or difference in the source
  overflows; the one product that could (an acceleration times the elapsed time) wraps.
-/
import Cockpit.Lib.StepRun
import Cockpit.Lib.Binary64

namespace Cockpit.Vehicle

open Ieee754

/-! ## Policies and states -/

/-- Why a command is a stop. -/
inductive ChassisStopReason where
  | none | disabled | authorityLost | emergencyStop | peerUnavailable | chassisFault
  | noCommand | invalidCommand | commandStale | clockRegression
  deriving DecidableEq

/-- The limits of a command, and how long a request stands. -/
structure ChassisSafetyPolicy where
  maxLinearVelocityMmS : Int := 400
  maxAngularVelocityMradS : Int := 1200
  maxLinearAccelerationMmS2 : Int := 400
  maxAngularAccelerationMradS2 : Int := 1200
  commandTimeoutMs : Int := 250
  outputPeriodMs : Int := 20

/-- `IsValid`: positive limits, within what the protocol can carry. -/
def ChassisSafetyPolicy.isValid (policy : ChassisSafetyPolicy) : Bool :=
  0 < policy.maxLinearVelocityMmS && policy.maxLinearVelocityMmS ≤ 2000
    && 0 < policy.maxAngularVelocityMradS && policy.maxAngularVelocityMradS ≤ 10000
    && 0 < policy.maxLinearAccelerationMmS2 && 0 < policy.maxAngularAccelerationMradS2
    && 0 < policy.commandTimeoutMs && 0 < policy.outputPeriodMs
    && policy.outputPeriodMs ≤ policy.commandTimeoutMs

/-- The interlock inputs. -/
structure ChassisSafetyState where
  enabled : Bool := false
  authorityGranted : Bool := false
  emergencyStop : Bool := false
  peerAlive : Bool := false
  chassisFault : Bool := false
  deriving DecidableEq

/-- No interlock is active (`SafetyReady` in the ROS node, spelled out in `Submit`). -/
def ChassisSafetyState.ready (state : ChassisSafetyState) : Bool :=
  state.enabled && state.authorityGranted && !state.emergencyStop && state.peerAlive
    && !state.chassisFault

theorem ChassisSafetyState.ready_iff (state : ChassisSafetyState) :
    state.ready = true ↔ state.enabled = true ∧ state.authorityGranted = true
      ∧ state.emergencyStop = false ∧ state.peerAlive = true ∧ state.chassisFault = false := by
  simp [ready, and_assoc]

/-! ## Freshness of the chassis reports -/

/-- How old the last report of the peer and of its faults may be. -/
structure ChassisStateFreshnessPolicy where
  peerTimeoutMs : Int := 300
  faultStateTimeoutMs : Int := 300

/-- `IsValid`. -/
def ChassisStateFreshnessPolicy.isValid (policy : ChassisStateFreshnessPolicy) : Bool :=
  0 < policy.peerTimeoutMs && 0 < policy.faultStateTimeoutMs

/-- Derives peer liveness and chassis fault from the times of the last accepted reports. -/
structure ChassisSafetyStateTracker where
  policy : ChassisStateFreshnessPolicy
  lastPeerHeartbeatMs : Int := -1
  lastFaultStateMs : Int := -1
  chassisFault : Bool := true

namespace ChassisSafetyStateTracker

variable (tracker : ChassisSafetyStateTracker) (steadyNowMs : Int)

/-- An update at `steadyNowMs` is refused: negative time, or earlier than the update before it. -/
def refuses (lastMs steadyNowMs : Int) : Bool :=
  !tracker.policy.isValid || steadyNowMs < 0 || (0 ≤ lastMs && steadyNowMs < lastMs)

/-- `UpdatePeerHeartbeat`; a time that went back is refused. -/
def updatePeerHeartbeat : ChassisSafetyStateTracker × Bool :=
  if tracker.refuses tracker.lastPeerHeartbeatMs steadyNowMs then (tracker, false)
  else ({ tracker with lastPeerHeartbeatMs := steadyNowMs }, true)

/-- `UpdateChassisFault`; a time that went back is refused, with what it reports. -/
def updateChassisFault (faulted : Bool) (steadyNowMs : Int) : ChassisSafetyStateTracker × Bool :=
  if tracker.refuses tracker.lastFaultStateMs steadyNowMs then (tracker, false)
  else ({ tracker with chassisFault := faulted, lastFaultStateMs := steadyNowMs }, true)

/-- `Evaluate`: the controls, with the two inputs that the tracker has. -/
def evaluate (controls : ChassisSafetyState) (steadyNowMs : Int) : ChassisSafetyState :=
  let peerTimeValid := 0 ≤ tracker.lastPeerHeartbeatMs && tracker.lastPeerHeartbeatMs ≤ steadyNowMs
    && steadyNowMs - tracker.lastPeerHeartbeatMs ≤ tracker.policy.peerTimeoutMs
  let peerAlive := tracker.policy.isValid && peerTimeValid
  let faultTimeValid := 0 ≤ tracker.lastFaultStateMs && tracker.lastFaultStateMs ≤ steadyNowMs
    && steadyNowMs - tracker.lastFaultStateMs ≤ tracker.policy.faultStateTimeoutMs
  { controls with
    peerAlive := peerAlive, chassisFault := peerAlive && (!faultTimeValid || tracker.chassisFault) }

def reset : ChassisSafetyStateTracker :=
  { tracker with lastPeerHeartbeatMs := -1, lastFaultStateMs := -1, chassisFault := true }

theorem evaluate_chassisFault {tracker : ChassisSafetyStateTracker} (h : tracker.chassisFault = true)
    (controls : ChassisSafetyState) (steadyNowMs : Int) : (tracker.evaluate controls steadyNowMs).chassisFault
      = (tracker.evaluate controls steadyNowMs).peerAlive := by
  simp only [evaluate, h, Bool.or_true, Bool.and_true]

end ChassisSafetyStateTracker

/-! ## The adapter -/

/-- What the wheels are asked to do. -/
structure ChassisVelocityRequest where
  linearVelocityMS : Binary64 := .ofInt 0
  angularVelocityRadS : Binary64 := .ofInt 0

/-- What they are told: a step towards the request, or a stop with its reason. -/
structure SafeChassisCommand where
  enabled : Bool := false
  sequence : UInt8 := 0
  linearVelocityMmS : Int16 := 0
  angularVelocityMradS : Int16 := 0
  generatedAtSteadyMs : Int := 0
  stopReason : ChassisStopReason := .noCommand
  deriving DecidableEq

/-- Keeps at most one accepted request, and what the rate limiter last let through. -/
structure ChassisSafetyAdapter where
  policy : ChassisSafetyPolicy
  request : Option ChassisVelocityRequest := none
  lastRequestMs : Int := 0
  lastOutputMs : Int := 0
  lastLinearMmS : Int := 0
  lastAngularMradS : Int := 0
  nextSequence : UInt8 := 0
  invalidCommandPending : Bool := false

/-- `std::clamp`. -/
def clamp (value low high : Int) : Int :=
  if value < low then low else if high < value then high else value

/-- A step towards the target, no longer than `maximumDelta`. -/
def approach (current target maximumDelta : Int) : Int :=
  current + clamp (target - current) (-maximumDelta) maximumDelta

/-- A value of the request in the units of the command, if there is one. -/
def toScaledInteger (value scale : Binary64) : Option Int :=
  if !value.isFinite then none
  else
    let scaled := value.mul scale
    if scaled.lt (.ofInt (-2147483648)) || (Binary64.ofInt 2147483647).lt scaled then none
    else some (scaled.llround.bmod (2 ^ 32))

namespace ChassisSafetyAdapter

variable (adapter : ChassisSafetyAdapter) (steadyNowMs : Int)

/-- `Submit`: take the request over, or reject it and keep none. -/
def submit (request : ChassisVelocityRequest)
    (state : ChassisSafetyState) (steadyNowMs : Int) : ChassisSafetyAdapter × Except String Unit :=
  if !adapter.policy.isValid then
    ({ adapter with invalidCommandPending := true, request := none },
      .error "invalid chassis safety policy")
  else if !state.enabled || !state.authorityGranted || state.emergencyStop || !state.peerAlive
      || state.chassisFault then
    ({ adapter with request := none, lastRequestMs := 0 },
      .error "velocity command rejected while safety interlock is active")
  else if steadyNowMs < 0 || (toScaledInteger request.linearVelocityMS (.ofInt 1000)).isNone
      || (toScaledInteger request.angularVelocityRadS (.ofInt 1000)).isNone then
    ({ adapter with
        invalidCommandPending := true, request := none, lastRequestMs := steadyNowMs },
      .error "velocity command must be finite and representable")
  else
    ({ adapter with
        request := some request, lastRequestMs := steadyNowMs, invalidCommandPending := false },
      .ok ())

/-- `RejectInvalidCommand`: the next evaluation says that the command was invalid. -/
def rejectInvalidCommand : ChassisSafetyAdapter :=
  { adapter with request := none, lastRequestMs := steadyNowMs, invalidCommandPending := true }

def reset : ChassisSafetyAdapter :=
  { adapter with
    request := none, invalidCommandPending := false, lastRequestMs := 0,
    lastOutputMs := steadyNowMs, lastLinearMmS := 0, lastAngularMradS := 0 }

/-- `Stop`: forget the request, and command the rest. -/
def stop (reason : ChassisStopReason) (steadyNowMs : Int) : ChassisSafetyAdapter × SafeChassisCommand :=
  ({ adapter with
      request := none, lastRequestMs := 0, lastLinearMmS := 0, lastAngularMradS := 0,
      lastOutputMs := max 0 steadyNowMs, nextSequence := adapter.nextSequence + 1 },
    { sequence := adapter.nextSequence, generatedAtSteadyMs := steadyNowMs, stopReason := reason })

/-- The time the rate limiter accounts for: one period after a start, else what has passed. -/
def elapsedMs : Int :=
  if adapter.lastOutputMs = 0 then adapter.policy.outputPeriodMs
  else clamp (steadyNowMs - adapter.lastOutputMs) 0 adapter.policy.commandTimeoutMs

/-- The largest velocity change in `elapsedMs`, at least one unit. -/
def maximumDelta (acceleration elapsedMs : Int) : Int :=
  max 1 (((acceleration * elapsedMs).bmod (2 ^ 64)).tdiv 1000)

/-- The end of `Evaluate`, behind all its guards: one rate-limited step towards the targets. -/
def drive (targetLinear targetAngular steadyNowMs : Int) : ChassisSafetyAdapter × SafeChassisCommand :=
  let policy := adapter.policy
  let targetLinear := clamp targetLinear (-policy.maxLinearVelocityMmS) policy.maxLinearVelocityMmS
  let targetAngular :=
    clamp targetAngular (-policy.maxAngularVelocityMradS) policy.maxAngularVelocityMradS
  let elapsedMs := adapter.elapsedMs steadyNowMs
  let linear := approach adapter.lastLinearMmS targetLinear
    (maximumDelta policy.maxLinearAccelerationMmS2 elapsedMs)
  let angular := approach adapter.lastAngularMradS targetAngular
    (maximumDelta policy.maxAngularAccelerationMradS2 elapsedMs)
  ({ adapter with
      lastLinearMmS := linear, lastAngularMradS := angular, lastOutputMs := steadyNowMs,
      nextSequence := adapter.nextSequence + 1 },
    { enabled := true, sequence := adapter.nextSequence, linearVelocityMmS := Int16.ofInt linear,
      angularVelocityMradS := Int16.ofInt angular, generatedAtSteadyMs := steadyNowMs,
      stopReason := .none })

/-- `Evaluate`: every period the request is held against the interlock inputs. -/
def evaluate (state : ChassisSafetyState) (steadyNowMs : Int) : ChassisSafetyAdapter × SafeChassisCommand :=
  if !adapter.policy.isValid then adapter.stop .invalidCommand steadyNowMs
  else if state.emergencyStop then adapter.stop .emergencyStop steadyNowMs
  else if state.chassisFault then adapter.stop .chassisFault steadyNowMs
  else if !state.peerAlive then adapter.stop .peerUnavailable steadyNowMs
  else if !state.authorityGranted then adapter.stop .authorityLost steadyNowMs
  else if !state.enabled then adapter.stop .disabled steadyNowMs
  else if adapter.invalidCommandPending then adapter.stop .invalidCommand steadyNowMs
  else
    match adapter.request with
    | none => adapter.stop .noCommand steadyNowMs
    | some request =>
      if steadyNowMs < adapter.lastRequestMs || steadyNowMs < adapter.lastOutputMs then
        adapter.stop .clockRegression steadyNowMs
      else if adapter.policy.commandTimeoutMs < steadyNowMs - adapter.lastRequestMs then
        adapter.stop .commandStale steadyNowMs
      else
        match toScaledInteger request.linearVelocityMS (.ofInt 1000),
          toScaledInteger request.angularVelocityRadS (.ofInt 1000) with
        | some targetLinear, some targetAngular => adapter.drive targetLinear targetAngular steadyNowMs
        | _, _ => adapter.stop .invalidCommand steadyNowMs

end ChassisSafetyAdapter

/-! ## What one evaluation can do -/

theorem clamp_mem {low high : Int} (h : low ≤ high) (value : Int) :
    low ≤ clamp value low high ∧ clamp value low high ≤ high := by
  unfold clamp
  omega

theorem approach_mem {current target maximumDelta limit : Int} (hdelta : 0 ≤ maximumDelta)
    (hcur : -limit ≤ current ∧ current ≤ limit) (htarget : -limit ≤ target ∧ target ≤ limit) :
    -limit ≤ approach current target maximumDelta ∧ approach current target maximumDelta ≤ limit := by
  unfold approach clamp
  omega

namespace ChassisSafetyAdapter

theorem maximumDelta_nonneg (acceleration elapsedMs : Int) : 0 ≤ maximumDelta acceleration elapsedMs :=
  Int.le_trans (by decide) (Int.le_max_left 1 _)

/-- Says once what an evaluation can do, so that the invariant needs no case analysis of the ten exits. -/
theorem evaluate_cases (adapter : ChassisSafetyAdapter) (state : ChassisSafetyState) (steadyNowMs : Int) :
    (∃ reason, adapter.evaluate state steadyNowMs = adapter.stop reason steadyNowMs) ∨
    (∃ request targetLinear targetAngular, state.ready = true ∧ adapter.request = some request
      ∧ adapter.lastRequestMs ≤ steadyNowMs ∧ steadyNowMs - adapter.lastRequestMs ≤ adapter.policy.commandTimeoutMs
      ∧ adapter.evaluate state steadyNowMs = adapter.drive targetLinear targetAngular steadyNowMs) := by
  generalize h : adapter.evaluate state steadyNowMs = result
  unfold evaluate at h
  -- every exit but the last one is a stop
  repeat' first | exact .inl ⟨_, h.symm⟩ | split at h
  rename_i _ hestop hfault hpeer hauthority henabled _ _ request hreq hclock hstale _ _
    targetLinear targetAngular _ _
  refine .inr ⟨request, targetLinear, targetAngular, ?_, hreq, ?_, ?_, h.symm⟩
  · rw [ChassisSafetyState.ready_iff]
    exact ⟨by simpa using henabled, by simpa using hauthority, by simpa using hestop,
      by simpa using hpeer, by simpa using hfault⟩
  · simp only [Bool.or_eq_true, decide_eq_true_eq, not_or] at hclock
    omega
  · omega

variable {adapter : ChassisSafetyAdapter} {state : ChassisSafetyState}

variable {steadyNowMs : Int}

theorem ready_of_enabled (h : (adapter.evaluate state steadyNowMs).2.enabled = true) : state.ready = true := by
  rcases adapter.evaluate_cases state steadyNowMs with ⟨reason, hstop⟩ | ⟨_, _, _, hready, _⟩
  · rw [hstop] at h
    cases h
  · exact hready

theorem request_isSome_of_enabled (h : (adapter.evaluate state steadyNowMs).2.enabled = true) :
    adapter.request.isSome = true := by
  rcases adapter.evaluate_cases state steadyNowMs with ⟨reason, hstop⟩ | ⟨_, _, _, _, hreq, _⟩
  · rw [hstop] at h
    cases h
  · rw [hreq]
    rfl

theorem evaluate_disabled (h : (adapter.evaluate state steadyNowMs).2.enabled = false) :
    (adapter.evaluate state steadyNowMs).1.request = none
      ∧ (adapter.evaluate state steadyNowMs).2.linearVelocityMmS = 0
      ∧ (adapter.evaluate state steadyNowMs).2.angularVelocityMradS = 0 := by
  rcases adapter.evaluate_cases state steadyNowMs with ⟨reason, hstop⟩ | ⟨_, _, _, _, _, _, _, hdrive⟩
  · rw [hstop]
    exact ⟨rfl, rfl, rfl⟩
  · rw [hdrive] at h
    cases h

/-- A request is accepted where the state is ready, and else there is none any more. -/
theorem submit_cases (adapter : ChassisSafetyAdapter) (request : ChassisVelocityRequest)
    (state : ChassisSafetyState) (steadyNowMs : Int) :
    ((adapter.submit request state steadyNowMs).2 = .ok () ∧ state.ready = true
      ∧ (adapter.submit request state steadyNowMs).1.request = some request
      ∧ (adapter.submit request state steadyNowMs).1.lastRequestMs = steadyNowMs) ∨
    (∃ error, (adapter.submit request state steadyNowMs).2 = .error error
      ∧ (adapter.submit request state steadyNowMs).1.request = none) := by
  unfold submit
  split
  · exact .inr ⟨_, rfl, rfl⟩
  · split
    · exact .inr ⟨_, rfl, rfl⟩
    · rename_i hinterlock
      split
      · exact .inr ⟨_, rfl, rfl⟩
      · refine .inl ⟨rfl, ?_, rfl, rfl⟩
        rw [ChassisSafetyState.ready_iff]
        simpa [and_assoc] using hinterlock

theorem submit_frame (adapter : ChassisSafetyAdapter) (request : ChassisVelocityRequest)
    (state : ChassisSafetyState) (steadyNowMs : Int) :
    (adapter.submit request state steadyNowMs).1.policy = adapter.policy
      ∧ (adapter.submit request state steadyNowMs).1.lastLinearMmS = adapter.lastLinearMmS
      ∧ (adapter.submit request state steadyNowMs).1.lastAngularMradS = adapter.lastAngularMradS := by
  unfold submit
  repeat' first | exact ⟨rfl, rfl, rfl⟩ | split

end ChassisSafetyAdapter

/-! ## Runs of the adapter -/

/-- The operations of the adapter's interface. -/
inductive AdapterCall where
  | submit (request : ChassisVelocityRequest) (state : ChassisSafetyState) (steadyNowMs : Int)
  | rejectInvalidCommand (steadyNowMs : Int)
  | evaluate (state : ChassisSafetyState) (steadyNowMs : Int)
  | reset (steadyNowMs : Int)

/-- What a call returned. -/
inductive AdapterAnswer where
  | submitted (result : Except String Unit)
  | command (command : SafeChassisCommand)
  | done

/-- A call of the adapter. -/
def ChassisSafetyAdapter.call (adapter : ChassisSafetyAdapter) : AdapterCall → ChassisSafetyAdapter × AdapterAnswer
  | .submit request state steadyNowMs =>
    let (adapter, result) := adapter.submit request state steadyNowMs
    (adapter, .submitted result)
  | .rejectInvalidCommand steadyNowMs => (adapter.rejectInvalidCommand steadyNowMs, .done)
  | .evaluate state steadyNowMs =>
    let (adapter, command) := adapter.evaluate state steadyNowMs
    (adapter, .command command)
  | .reset steadyNowMs => (adapter.reset steadyNowMs, .done)

/-- An `Evaluate` that answered with motion: the only operation that keeps a request standing. -/
inductive Drives : AdapterCall × AdapterAnswer → Prop
  | intro {state : ChassisSafetyState} {steadyNowMs : Int} {command : SafeChassisCommand}
      (h : command.enabled = true) : Drives (.evaluate state steadyNowMs, .command command)

/-- The latest operation of a history that is not an enabled `Evaluate` is a `Submit` at
    `steadyMs` that was accepted. -/
def StandingSubmit (history : List (AdapterCall × AdapterAnswer)) (steadyMs : Int) : Prop :=
  ∃ earlier request state later,
    history = earlier ++ (.submit request state steadyMs, .submitted (.ok ())) :: later
      ∧ ∀ entry ∈ later, Drives entry

theorem StandingSubmit.of_accepted (history : List (AdapterCall × AdapterAnswer))
    (request : ChassisVelocityRequest) (state : ChassisSafetyState) (steadyMs : Int) :
    StandingSubmit (history ++ [(.submit request state steadyMs, .submitted (.ok ()))]) steadyMs :=
  ⟨history, request, state, [], rfl, fun _ h => nomatch h⟩

theorem StandingSubmit.append {history : List (AdapterCall × AdapterAnswer)} {steadyMs : Int}
    (h : StandingSubmit history steadyMs) {entry : AdapterCall × AdapterAnswer}
    (hdrives : Drives entry) : StandingSubmit (history ++ [entry]) steadyMs := by
  obtain ⟨earlier, request, state, later, rfl, hlater⟩ := h
  refine ⟨earlier, request, state, later ++ [entry], by simp, fun e he => ?_⟩
  rcases List.mem_append.mp he with he | he
  · exact hlater e he
  · rw [List.mem_singleton.mp he]
    exact hdrives

/-- The invariant of a run: the outputs stay inside the limits, and a request on file is the one
    of the standing accepted `Submit`. -/
structure Interlock (policy : ChassisSafetyPolicy) (history : List (AdapterCall × AdapterAnswer))
    (adapter : ChassisSafetyAdapter) : Prop where
  policy_eq : adapter.policy = policy
  linear : -policy.maxLinearVelocityMmS ≤ adapter.lastLinearMmS
    ∧ adapter.lastLinearMmS ≤ policy.maxLinearVelocityMmS
  angular : -policy.maxAngularVelocityMradS ≤ adapter.lastAngularMradS
    ∧ adapter.lastAngularMradS ≤ policy.maxAngularVelocityMradS
  standing : adapter.request.isSome = true → StandingSubmit history adapter.lastRequestMs

namespace Interlock

variable {policy : ChassisSafetyPolicy} {history : List (AdapterCall × AdapterAnswer)}
  {adapter : ChassisSafetyAdapter}

theorem limits_pos (hvalid : policy.isValid = true) :
    (0 < policy.maxLinearVelocityMmS ∧ policy.maxLinearVelocityMmS ≤ 2000)
      ∧ 0 < policy.maxAngularVelocityMradS ∧ policy.maxAngularVelocityMradS ≤ 10000 := by
  simp only [ChassisSafetyPolicy.isValid, Bool.and_eq_true, decide_eq_true_eq] at hvalid
  omega

theorem rest_mem {limit : Int} (h : 0 < limit) : -limit ≤ 0 ∧ 0 ≤ limit := by omega

theorem init (hvalid : policy.isValid = true) : Interlock policy [] { policy := policy } :=
  have ⟨hlinear, hangular⟩ := limits_pos hvalid
  ⟨rfl, rest_mem hlinear.1, rest_mem hangular.1, fun h => nomatch h⟩

theorem of_no_request {adapter' : ChassisSafetyAdapter} (hpolicy : adapter'.policy = policy)
    (hlinear : -policy.maxLinearVelocityMmS ≤ adapter'.lastLinearMmS
      ∧ adapter'.lastLinearMmS ≤ policy.maxLinearVelocityMmS)
    (hangular : -policy.maxAngularVelocityMradS ≤ adapter'.lastAngularMradS
      ∧ adapter'.lastAngularMradS ≤ policy.maxAngularVelocityMradS)
    (hnone : adapter'.request = none) : Interlock policy history adapter' :=
  ⟨hpolicy, hlinear, hangular, fun h => by rw [hnone] at h; cases h⟩

section

variable (hvalid : policy.isValid = true)
include hvalid

section

variable (hi : Interlock policy history adapter)
include hi

theorem linear_drive (targetLinear targetAngular steadyNowMs : Int) : -policy.maxLinearVelocityMmS
        ≤ (adapter.drive targetLinear targetAngular steadyNowMs).1.lastLinearMmS
      ∧ (adapter.drive targetLinear targetAngular steadyNowMs).1.lastLinearMmS ≤ policy.maxLinearVelocityMmS := by
  have := limits_pos hvalid
  have hpolicy := hi.policy_eq
  subst hpolicy
  exact approach_mem (ChassisSafetyAdapter.maximumDelta_nonneg _ _) hi.linear
    (clamp_mem (by omega) _)

theorem angular_drive (targetLinear targetAngular steadyNowMs : Int) : -policy.maxAngularVelocityMradS
        ≤ (adapter.drive targetLinear targetAngular steadyNowMs).1.lastAngularMradS
      ∧ (adapter.drive targetLinear targetAngular steadyNowMs).1.lastAngularMradS
        ≤ policy.maxAngularVelocityMradS := by
  have := limits_pos hvalid
  have hpolicy := hi.policy_eq
  subst hpolicy
  exact approach_mem (ChassisSafetyAdapter.maximumDelta_nonneg _ _) hi.angular
    (clamp_mem (by omega) _)

/-- **Every operation keeps the invariant.** -/
theorem call (op : AdapterCall) : Interlock policy (history ++ [(op, (adapter.call op).2)]) (adapter.call op).1 := by
  have ⟨hlinear, hangular⟩ := limits_pos hvalid
  cases op with
  | submit request state steadyNowMs =>
    obtain ⟨hpolicy, hlin, hang⟩ := adapter.submit_frame request state steadyNowMs
    have hcall : adapter.call (.submit request state steadyNowMs)
        = ((adapter.submit request state steadyNowMs).1,
          .submitted (adapter.submit request state steadyNowMs).2) := rfl
    rw [hcall]
    refine ⟨hpolicy.trans hi.policy_eq, hlin ▸ hi.linear, hang ▸ hi.angular, fun hsome => ?_⟩
    rcases adapter.submit_cases request state steadyNowMs with
      ⟨hok, _, _, hlast⟩ | ⟨error, _, hnone⟩
    · rw [hok, hlast]
      exact .of_accepted history request state steadyNowMs
    · rw [hnone] at hsome
      cases hsome
  | rejectInvalidCommand steadyNowMs =>
    exact of_no_request hi.policy_eq hi.linear hi.angular rfl
  | evaluate state steadyNowMs =>
    have hcall : adapter.call (.evaluate state steadyNowMs)
        = ((adapter.evaluate state steadyNowMs).1,
          .command (adapter.evaluate state steadyNowMs).2) := rfl
    rw [hcall]
    rcases adapter.evaluate_cases state steadyNowMs with
      ⟨reason, hstop⟩ | ⟨request, targetLinear, targetAngular, _, hreq, _, _, hdrive⟩
    · rw [hstop]
      exact of_no_request hi.policy_eq (rest_mem hlinear.1) (rest_mem hangular.1) rfl
    · rw [hdrive]
      refine ⟨hi.policy_eq, hi.linear_drive hvalid targetLinear targetAngular steadyNowMs,
        hi.angular_drive hvalid targetLinear targetAngular steadyNowMs, fun _ => ?_⟩
      exact (hi.standing (by rw [hreq]; rfl)).append ⟨rfl⟩
  | reset steadyNowMs =>
    exact of_no_request hi.policy_eq (rest_mem hlinear.1) (rest_mem hangular.1) rfl

end

theorem run (calls : List AdapterCall) :
    Interlock policy (StepRun.trace ChassisSafetyAdapter.call { policy := policy } calls)
      (StepRun.run ChassisSafetyAdapter.call { policy := policy } calls) :=
  StepRun.trace_invariant (fun _ _ op hi => hi.call hvalid op) (init hvalid) calls

theorem command_mem (hi : Interlock policy history adapter) (targetLinear targetAngular steadyNowMs : Int) :
    let command := (adapter.drive targetLinear targetAngular steadyNowMs).2
    (-policy.maxLinearVelocityMmS ≤ command.linearVelocityMmS.toInt
      ∧ command.linearVelocityMmS.toInt ≤ policy.maxLinearVelocityMmS)
    ∧ -policy.maxAngularVelocityMradS ≤ command.angularVelocityMradS.toInt
      ∧ command.angularVelocityMradS.toInt ≤ policy.maxAngularVelocityMradS := by
  have ⟨hlinear, hangular⟩ := limits_pos hvalid
  have hl := hi.linear_drive hvalid targetLinear targetAngular steadyNowMs
  have ha := hi.angular_drive hvalid targetLinear targetAngular steadyNowMs
  -- the narrowing casts are exact inside the limits
  have hcast : ∀ v : Int, -10000 ≤ v → v ≤ 10000 → (Int16.ofInt v).toInt = v := fun v h₁ h₂ =>
    Int16.toInt_ofInt_of_le (by omega) (by omega)
  have hlcast := hcast _ (by omega) (by omega : (adapter.drive targetLinear targetAngular
    steadyNowMs).1.lastLinearMmS ≤ 10000)
  have hacast := hcast _ (by omega) (by omega : (adapter.drive targetLinear targetAngular
    steadyNowMs).1.lastAngularMradS ≤ 10000)
  exact ⟨hlcast.symm ▸ hl, hacast.symm ▸ ha⟩

end

end Interlock

end Cockpit.Vehicle
