/-
  How fast the commands of `ChassisSafetyAdapter` may change: at most what the acceleration allows for the time
  that has passed, but never less than one unit (`kMinimumStep` thousandths), so that short periods do not
  freeze the output.

  The product of acceleration and time wraps in 64 bits; a wrapped product is never larger than the true one.
-/
import Cockpit.Shield.Adapter

namespace Cockpit.Vehicle

open StepRun

/-! ## One step of the rate limiter -/

/-- The step that is always allowed, in thousandths of a unit. -/
def kMinimumStep : Int := 1000

/-- Going from one velocity to the other in `elapsedMs` respects the acceleration, up to one unit. -/
def OnRamp (acceleration fromVelocity toVelocity elapsedMs : Int) : Prop :=
  ((toVelocity - fromVelocity).natAbs : Int) * 1000 ≤ max kMinimumStep (acceleration * elapsedMs)

theorem natAbs_approach_sub_le {maximumDelta : Int} (h : 0 ≤ maximumDelta) (current target : Int) :
    ((approach current target maximumDelta - current).natAbs : Int) ≤ maximumDelta := by
  have hclamp := clamp_mem (show -maximumDelta ≤ maximumDelta by omega) (target - current)
  unfold approach
  omega

theorem bmod_le_self {product : Int} (h : 0 ≤ product) : product.bmod (2 ^ 64) ≤ product := by
  rw [Int.bmod_def]
  split <;> omega

theorem tdiv_mul_le (dividend : Int) : dividend.tdiv 1000 * 1000 ≤ max 0 dividend := by
  rcases Int.le_total 0 dividend with h | h
  · rw [Int.tdiv_eq_ediv_of_nonneg h]
    omega
  · have hneg : dividend.tdiv 1000 = -((-dividend) / 1000) := by
      rw [← Int.tdiv_eq_ediv_of_nonneg (by omega), Int.neg_tdiv, Int.neg_neg]
    omega

/-- The calls that prepare a command and do not ask for one. -/
def AdapterCall.prepares : AdapterCall → Prop
  | .submit .. | .rejectInvalidCommand .. => True
  | .evaluate .. | .reset .. => False

namespace ChassisSafetyAdapter

theorem maximumDelta_mul_le {acceleration elapsedMs passedMs : Int} (hacceleration : 0 ≤ acceleration)
    (helapsed : 0 ≤ elapsedMs) (hpassed : elapsedMs = 0 ∨ elapsedMs ≤ passedMs) :
    maximumDelta acceleration elapsedMs * 1000 ≤ max kMinimumStep (acceleration * passedMs) := by
  have hproduct : 0 ≤ acceleration * elapsedMs := Int.mul_nonneg hacceleration helapsed
  have hwrap := bmod_le_self hproduct
  have hdiv := tdiv_mul_le ((acceleration * elapsedMs).bmod (2 ^ 64))
  have hmono : acceleration * elapsedMs ≤ max 0 (acceleration * passedMs) := by
    rcases hpassed with hzero | hle
    · rw [hzero, Int.mul_zero]
      omega
    · have hmul := Int.mul_le_mul_of_nonneg_left hle hacceleration
      omega
  unfold maximumDelta kMinimumStep
  omega

variable {adapter : ChassisSafetyAdapter}

theorem elapsedMs_le (houtput : adapter.lastOutputMs ≠ 0) (htimeout : 0 ≤ adapter.policy.commandTimeoutMs)
    (steadyNowMs : Int) : 0 ≤ adapter.elapsedMs steadyNowMs ∧ (adapter.elapsedMs steadyNowMs = 0
      ∨ adapter.elapsedMs steadyNowMs ≤ steadyNowMs - adapter.lastOutputMs) := by
  unfold elapsedMs clamp
  rw [if_neg houtput]
  omega

/-! ## Between two evaluations -/

/-- Where the rate limiter stands. -/
structure Stands (adapter : ChassisSafetyAdapter) (linear angular timeMs : Int) : Prop where
  linear_eq : adapter.lastLinearMmS = linear
  angular_eq : adapter.lastAngularMradS = angular
  output_eq : adapter.lastOutputMs = timeMs

variable {timeMs : Int}

variable {history : List (AdapterCall × AdapterAnswer)} {policy : ChassisSafetyPolicy}

theorem evaluate_stands (hvalid : policy.isValid = true) (hi : Interlock policy history adapter)
    (state : ChassisSafetyState) (hpos : 0 < timeMs) :
    Stands (adapter.evaluate state timeMs).1 (adapter.evaluate state timeMs).2.linearVelocityMmS.toInt
      (adapter.evaluate state timeMs).2.angularVelocityMradS.toInt timeMs := by
  rcases adapter.evaluate_cases state timeMs with
    ⟨reason, hstop⟩ | ⟨_, targetLinear, targetAngular, _, _, _, _, hdrive⟩
  · rw [hstop]
    exact ⟨rfl, rfl, Int.max_eq_right (Int.le_of_lt hpos)⟩
  · have hlimits := Interlock.limits_pos hvalid
    have hlinear := hi.linear_drive hvalid targetLinear targetAngular timeMs
    have hangular := hi.angular_drive hvalid targetLinear targetAngular timeMs
    rw [hdrive]
    -- the narrowing to 16 bits is exact inside the limits
    exact ⟨(Int16.toInt_ofInt_of_le (by omega) (by omega)).symm,
      (Int16.toInt_ofInt_of_le (by omega) (by omega)).symm, rfl⟩

theorem reset_stands (adapter : ChassisSafetyAdapter) (timeMs : Int) :
    Stands (adapter.reset timeMs) 0 0 timeMs := ⟨rfl, rfl, rfl⟩

variable {linear angular : Int}

theorem Stands.call (h : Stands adapter linear angular timeMs) {op : AdapterCall} (hop : op.prepares) :
    Stands (adapter.call op).1 linear angular timeMs := by
  cases op with
  | submit request state steadyNowMs =>
    have hframe := adapter.submit_frame request state steadyNowMs
    have houtput : (adapter.submit request state steadyNowMs).1.lastOutputMs = adapter.lastOutputMs := by
      unfold submit
      repeat' first | rfl | split
    exact ⟨hframe.2.1.trans h.linear_eq, hframe.2.2.trans h.angular_eq, houtput.trans h.output_eq⟩
  | rejectInvalidCommand steadyNowMs => exact ⟨h.linear_eq, h.angular_eq, h.output_eq⟩
  | evaluate state steadyNowMs | reset steadyNowMs => exact absurd hop not_false

/-- Calls that only prepare a command leave the limiter where it stands. -/
theorem Stands.run (h : Stands adapter linear angular timeMs) {calls : List AdapterCall}
    (hcalls : ∀ op ∈ calls, op.prepares) :
    Stands (StepRun.run ChassisSafetyAdapter.call adapter calls) linear angular timeMs :=
  Along.invariant (I := fun adapter => Stands adapter linear angular timeMs)
    (P := fun _ op => AdapterCall.prepares op) (fun _ _ hs hop => Stands.call hs hop) h
    (along_of_forall (fun op hmem _ => hcalls op hmem) adapter)

/-- **One command.**  An enabled command is on the ramp that starts where the limiter stands. -/
theorem evaluate_onRamp (hvalid : policy.isValid = true) (hi : Interlock policy history adapter) {fromMs : Int}
    (hstands : Stands adapter linear angular fromMs) (hfrom : 0 < fromMs) {state : ChassisSafetyState}
    (hpos : 0 < timeMs) (henabled : (adapter.evaluate state timeMs).2.enabled = true) :
    let command := (adapter.evaluate state timeMs).2
    OnRamp policy.maxLinearAccelerationMmS2 linear command.linearVelocityMmS.toInt (timeMs - fromMs)
      ∧ OnRamp policy.maxAngularAccelerationMradS2 angular command.angularVelocityMradS.toInt
        (timeMs - fromMs) := by
  intro command
  have hstands' := evaluate_stands hvalid hi state hpos
  have hpolicy := hi.policy_eq
  have hlimits : 0 < policy.maxLinearAccelerationMmS2 ∧ 0 < policy.maxAngularAccelerationMradS2
      ∧ 0 < policy.commandTimeoutMs := by
    simp only [ChassisSafetyPolicy.isValid, Bool.and_eq_true, decide_eq_true_eq] at hvalid
    omega
  obtain ⟨helapsed, hpassed⟩ := elapsedMs_le
    (show adapter.lastOutputMs ≠ 0 by rw [hstands.output_eq]; omega) (by rw [hpolicy]; omega) timeMs
  rw [hstands.output_eq] at hpassed
  rcases adapter.evaluate_cases state timeMs with
    ⟨reason, hstop⟩ | ⟨_, targetLinear, targetAngular, _, _, _, _, hdrive⟩
  · rw [hstop] at henabled
    cases henabled
  · have hstep : ∀ current target acceleration : Int, 0 < acceleration →
        OnRamp acceleration current
          (approach current target (maximumDelta acceleration (adapter.elapsedMs timeMs)))
          (timeMs - fromMs) := by
      intro current target acceleration hacceleration
      have hsize := natAbs_approach_sub_le
        (maximumDelta_nonneg acceleration (adapter.elapsedMs timeMs)) current target
      have hbound := maximumDelta_mul_le (Int.le_of_lt hacceleration) helapsed hpassed
      exact Int.le_trans (Int.mul_le_mul_of_nonneg_right hsize (by decide)) hbound
    rw [← hstands'.linear_eq, ← hstands'.angular_eq, hdrive, ← hstands.linear_eq,
      ← hstands.angular_eq, ← hpolicy]
    exact ⟨hstep _ _ _ (by rw [hpolicy]; exact hlimits.1),
      hstep _ _ _ (by rw [hpolicy]; exact hlimits.2.1)⟩

/-! ## Runs -/

/-- **Acceleration limit.**  In every run, from one evaluation to the next enabled one the velocities
    stay on the configured ramp, up to one unit; a reset in between moves the start of the ramp to
    rest at the time of the reset. -/
theorem acceleration_limited (policy : ChassisSafetyPolicy) (hvalid : policy.isValid = true)
    (before between : List AdapterCall) (hbetween : ∀ op ∈ between, op.prepares)
    (startMs timeMs : Int) (hstart : 0 < startMs) (htime : 0 < timeMs) (state : ChassisSafetyState) :
    let adapter := StepRun.run ChassisSafetyAdapter.call { policy := policy } before
    (∀ state₁,
      let first := adapter.evaluate state₁ startMs
      let second := (StepRun.run ChassisSafetyAdapter.call first.1 between).evaluate state timeMs
      second.2.enabled = true →
        OnRamp policy.maxLinearAccelerationMmS2 first.2.linearVelocityMmS.toInt
            second.2.linearVelocityMmS.toInt (timeMs - startMs)
          ∧ OnRamp policy.maxAngularAccelerationMradS2 first.2.angularVelocityMradS.toInt
            second.2.angularVelocityMradS.toInt (timeMs - startMs))
    ∧ (let second := (StepRun.run ChassisSafetyAdapter.call (adapter.reset startMs) between).evaluate
        state timeMs
      second.2.enabled = true →
        OnRamp policy.maxLinearAccelerationMmS2 0 second.2.linearVelocityMmS.toInt (timeMs - startMs)
          ∧ OnRamp policy.maxAngularAccelerationMradS2 0 second.2.angularVelocityMradS.toInt
            (timeMs - startMs)) := by
  intro adapter
  have hinterlock : ∀ start : AdapterCall,
      Interlock policy (trace ChassisSafetyAdapter.call { policy := policy }
          (before ++ start :: between))
        (StepRun.run ChassisSafetyAdapter.call (adapter.call start).1 between) := by
    intro start
    have hrun := Interlock.run hvalid (before ++ start :: between)
    rw [run_append, run_cons] at hrun
    exact hrun
  constructor
  · intro state₁ first second henabled
    have hstands := (evaluate_stands hvalid (Interlock.run hvalid before) state₁ hstart).run hbetween
    exact evaluate_onRamp hvalid (hinterlock (.evaluate state₁ startMs)) hstands hstart htime henabled
  · intro second henabled
    have hstands := (reset_stands adapter startMs).run hbetween
    exact evaluate_onRamp hvalid (hinterlock (.reset startMs)) hstands hstart htime henabled

/-- A request of 1 m/s on a chassis without active interlocks. -/
def submitFullSpeed (timeMs : Int) : AdapterCall :=
  .submit { linearVelocityMS := .ofInt 1 }
    { enabled := true, authorityGranted := true, peerAlive := true } timeMs

/-- All is well. -/
def readyState : ChassisSafetyState := { enabled := true, authorityGranted := true, peerAlive := true }

theorem acceleration_limited_fresh_request :
    let adapter := StepRun.run ChassisSafetyAdapter.call { policy := {} } [submitFullSpeed 1000]
    let first := adapter.evaluate readyState 1000
    let second := (StepRun.run ChassisSafetyAdapter.call first.1 [submitFullSpeed 1100]).evaluate
      readyState 1100
    let restarted := (StepRun.run ChassisSafetyAdapter.call (adapter.reset 1000)
      [submitFullSpeed 1100]).evaluate readyState 1100
    OnRamp 400 first.2.linearVelocityMmS.toInt second.2.linearVelocityMmS.toInt 100
      ∧ OnRamp 400 0 restarted.2.linearVelocityMmS.toInt 100 := by
  have hbetween : ∀ op ∈ [submitFullSpeed 1100], op.prepares := by
    intro op hop
    rw [List.mem_singleton.mp hop]
    trivial
  obtain ⟨hnext, hreset⟩ := acceleration_limited {} (by decide) [submitFullSpeed 1000]
    [submitFullSpeed 1100] hbetween 1000 1100 (by decide) (by decide) readyState
  exact ⟨(hnext readyState (by decide +kernel)).1, (hreset (by decide +kernel)).1⟩

/-- Two evaluations at the same time still move by one unit. -/
theorem ramp_left_at_once :
    let adapter := StepRun.run ChassisSafetyAdapter.call { policy := {} } [submitFullSpeed 1000]
    let first := adapter.evaluate readyState 1000
    let second := first.1.evaluate readyState 1000
    let restarted := (StepRun.run ChassisSafetyAdapter.call (first.1.reset 1000)
      [submitFullSpeed 1000]).evaluate readyState 1000
    second.2.enabled = true ∧ restarted.2.enabled = true
      ∧ first.2.linearVelocityMmS = 8 ∧ second.2.linearVelocityMmS = 9
      ∧ restarted.2.linearVelocityMmS = 1
      ∧ ¬ (second.2.linearVelocityMmS.toInt - first.2.linearVelocityMmS.toInt).natAbs * 1000
        ≤ (400 * (1000 - 1000) : Int)
      ∧ ¬ (restarted.2.linearVelocityMmS.toInt - first.2.linearVelocityMmS.toInt).natAbs * 1000
        ≤ (400 * (1000 - 1000) : Int) := by
  decide +kernel

end ChassisSafetyAdapter

end Cockpit.Vehicle
