/-
  What `ChassisOdometryTimeMapper` computes, over whole runs: between two resets the accepted samples are mapped
  by the least offset seen so far.
-/
import Mathlib.Algebra.Order.Group.Int
import Cockpit.Lib.ClockOffset
import Cockpit.Vehicle.OdometryTimeMapper

namespace Cockpit.Vehicle

namespace ChassisOdometryTimeMapper

/-! ## Calls -/

/-- `Map`, which never overflows. -/
def call (mapper : ChassisOdometryTimeMapper) (output : Bool) (deviceTimestampMs : UInt32)
    (receivedRealtimeNs : Int64) : ChassisOdometryTimeMapper × Except MapRejection MappedSample :=
  (mapper.map output deviceTimestampMs receivedRealtimeNs).get (mapper.map_isSome ..)

theorem call_eq {mapper : ChassisOdometryTimeMapper} {output : Bool} {deviceTimestampMs : UInt32}
    {receivedNs : Int64} {result : ChassisOdometryTimeMapper × Except MapRejection MappedSample}
    (h : mapper.map output deviceTimestampMs receivedNs = some result) :
    mapper.call output deviceTimestampMs receivedNs = result := by
  unfold call
  simp only [h, Option.get_some]

/-- The two calls. -/
inductive Call where
  | map (output : Bool) (deviceTimestampMs : UInt32) (receivedRealtimeNs : Int64)
  | reset

def step (mapper : ChassisOdometryTimeMapper) :
    Call → ChassisOdometryTimeMapper × Option (Except MapRejection MappedSample)
  | .map output deviceTimestampMs receivedRealtimeNs =>
    let result := mapper.call output deviceTimestampMs receivedRealtimeNs
    (result.1, some result.2)
  | .reset => (mapper.reset, none)

/-! ## Accepted and rejected calls -/

variable {mapper : ChassisOdometryTimeMapper} {output : Bool} {deviceTimestampMs : UInt32}
  {receivedNs : Int64}

/-- The device time of a call on the extended clock. -/
def deviceNs (mapper : ChassisOdometryTimeMapper) (deviceTimestampMs : UInt32) : Int :=
  deviceTimeNs (mapper.countWrap deviceTimestampMs).wrapCount.toNat deviceTimestampMs.toNat

theorem call_ok {sample : MappedSample} (h : (mapper.call output deviceTimestampMs receivedNs).2 = .ok sample) :
    mapper.argumentsValid output receivedNs = true ∧ mapper.deviceWentBack deviceTimestampMs = false
      ∧ mapper.deviceNs deviceTimestampMs < 2 ^ 63 ∧ ∃ offsetNs : Int64,
        offsetNs.toInt = min (mapper.startOffset (mapper.deviceNs deviceTimestampMs) receivedNs.toInt)
          (receivedNs.toInt - mapper.deviceNs deviceTimestampMs)
        ∧ sample.sampleRealtimeNs.toInt = offsetNs.toInt + mapper.deviceNs deviceTimestampMs
        ∧ (mapper.call output deviceTimestampMs receivedNs).1
          = { mapper.countWrap deviceTimestampMs with
              initialized := true, lastDeviceTimestampMs := deviceTimestampMs,
              realtimeOffsetNs := offsetNs, lastReceivedRealtimeNs := receivedNs,
              lastSampleRealtimeNs := sample.sampleRealtimeNs, explicitResetPending := false } := by
  rcases mapper.map_cases output deviceTimestampMs receivedNs with
    ⟨_, hmap, _⟩ | ⟨hargs, hback, counted, deviceNs, rfl, rfl,
      ⟨_, hmap⟩ | ⟨_, _, _, hmap⟩ | ⟨offsetNs, mapped, hrange, hoffset, hmapped, hmap⟩⟩
  · rw [call_eq hmap] at h
    cases h
  · rw [call_eq hmap] at h
    cases h
  · rw [call_eq hmap] at h
    cases h
  · rw [call_eq hmap] at h ⊢
    unfold accept at h ⊢
    split at h
    · cases h
    · rename_i hlast
      cases h
      rw [if_neg hlast]
      exact ⟨hargs, hback, hrange, offsetNs, hoffset, hmapped, rfl⟩

/-- The last sample was not later than its receive time: true of every mapper in use. -/
def Sane (mapper : ChassisOdometryTimeMapper) : Prop :=
  mapper.initialized = true
    → mapper.lastSampleRealtimeNs.toInt ≤ mapper.lastReceivedRealtimeNs.toInt

theorem lastReceived_le (hinit : mapper.initialized = true) (h : mapper.argumentsValid output receivedNs = true) :
    mapper.lastReceivedRealtimeNs.toInt ≤ receivedNs.toInt := by
  simp only [argumentsValid, hinit, Bool.true_and, Bool.not_or, Bool.and_eq_true, Bool.not_eq_true',
    decide_eq_false_iff_not, Int64.not_lt, Int64.le_iff_toInt_le] at h
  exact h.2

theorem call_error (hsane : mapper.Sane) {exit : MapRejection}
    (h : (mapper.call output deviceTimestampMs receivedNs).2 = .error exit) :
    ((mapper.argumentsValid output receivedNs = false ∨ mapper.deviceWentBack deviceTimestampMs = true)
      ∧ (mapper.call output deviceTimestampMs receivedNs).1 = mapper) ∨
    (mapper.argumentsValid output receivedNs = true
      ∧ (mapper.call output deviceTimestampMs receivedNs).1 = mapper.countWrap deviceTimestampMs) := by
  -- an offset that is still the old one makes no difference
  have hkeeps : ∀ offsetNs : Int64, offsetNs.toInt = mapper.realtimeOffsetNs.toInt →
      { mapper.countWrap deviceTimestampMs with realtimeOffsetNs := offsetNs }
        = mapper.countWrap deviceTimestampMs := by
    intro offsetNs hoffset
    rw [Int64.toInt_inj.mp hoffset, ← mapper.countWrap_realtimeOffsetNs deviceTimestampMs]
  rcases mapper.map_cases output deviceTimestampMs receivedNs with
    ⟨_, hmap, hearly⟩ | ⟨hargs, -, counted, deviceNs, rfl, rfl,
      ⟨-, hmap⟩ | ⟨offsetNs, hoffset, hrange, hmap⟩ | ⟨offsetNs, mapped, -, hoffset, hmapped, hmap⟩⟩
  · rw [call_eq hmap]
    exact .inl ⟨hearly.imp And.left And.left, rfl⟩
  · rw [call_eq hmap]
    exact .inr ⟨hargs, rfl⟩
  · rw [call_eq hmap]
    refine .inr ⟨hargs, hkeeps offsetNs ?_⟩
    unfold startOffset at hoffset
    split at hoffset
    · exact hoffset
    · -- the first sample is mapped to its receive time, which is in range
      have hlow := receivedNs.le_toInt
      have hhigh := receivedNs.toInt_lt
      exact absurd ⟨by omega, by omega⟩ hrange
  · rw [call_eq hmap] at h ⊢
    unfold accept at h ⊢
    split at h
    · rename_i hlast
      rw [if_pos hlast]
      simp only [Bool.and_eq_true, decide_eq_true_eq, Int64.lt_iff_toInt_lt, countWrap_initialized,
        countWrap_lastSampleRealtimeNs] at hlast
      obtain ⟨hinit, hlast⟩ := hlast
      have hreceived := lastReceived_le hinit hargs
      have hbefore := hsane hinit
      refine .inr ⟨hargs, hkeeps offsetNs ?_⟩
      -- a lowered offset maps the sample to its receive time, which is not before the last sample
      unfold startOffset at hoffset
      rw [if_pos hinit] at hoffset
      omega
    · cases h

/-! ## The invariant of every run -/

theorem Sane.reset (mapper : ChassisOdometryTimeMapper) : mapper.reset.Sane :=
  fun h => Bool.noConfusion h

theorem Sane.of_eq {mapper' : ChassisOdometryTimeMapper} (h : mapper.Sane)
    (hinit : mapper'.initialized = mapper.initialized)
    (hsample : mapper'.lastSampleRealtimeNs = mapper.lastSampleRealtimeNs)
    (hreceived : mapper'.lastReceivedRealtimeNs = mapper.lastReceivedRealtimeNs) : mapper'.Sane := by
  intro hinit'
  rw [hsample, hreceived]
  exact h (hinit ▸ hinit')

theorem Sane.countWrap (h : mapper.Sane) (deviceTimestampMs : UInt32) :
    (mapper.countWrap deviceTimestampMs).Sane := by
  unfold ChassisOdometryTimeMapper.countWrap
  split
  · exact h.of_eq rfl rfl rfl
  · exact h

theorem Sane.call (h : mapper.Sane) (output : Bool) (deviceTimestampMs : UInt32)
    (receivedNs : Int64) : (mapper.call output deviceTimestampMs receivedNs).1.Sane := by
  cases hresult : (mapper.call output deviceTimestampMs receivedNs).2 with
  | error exit =>
    rcases call_error h hresult with ⟨-, hsame⟩ | ⟨-, hsame⟩ <;> rw [hsame]
    · exact h
    · exact h.countWrap deviceTimestampMs
  | ok sample =>
    obtain ⟨-, -, -, offsetNs, hoffset, hsample, hcall⟩ := call_ok hresult
    rw [hcall]
    intro _
    show sample.sampleRealtimeNs.toInt ≤ receivedNs.toInt
    omega

/-- Every mapper that a program can have is sane. -/
theorem sane_run (calls : List Call) : (StepRun.run step {} calls).Sane := by
  refine StepRun.run_invariant ?_ (fun h => Bool.noConfusion h) calls
  intro mapper call h
  cases call with
  | map output deviceTimestampMs receivedNs => exact h.call output deviceTimestampMs receivedNs
  | reset => exact Sane.reset mapper

/-! ## A rejected sample leaves no trace, unless it counts a wrap -/

/-- The call gets behind the argument check, and its device time counts a wrap. -/
def countsWrap (mapper : ChassisOdometryTimeMapper) : Call → Bool
  | .map output deviceTimestampMs receivedNs =>
    mapper.argumentsValid output receivedNs && mapper.wrapped deviceTimestampMs
  | .reset => false

/-- The call returned `kInvalid`. -/
def isRejection : Option (Except MapRejection MappedSample) → Bool
  | some (.error _) => true
  | _ => false

/-- The call is turned away. -/
def rejects (mapper : ChassisOdometryTimeMapper) (call : Call) : Bool :=
  isRejection (step mapper call).2

theorem rejects_map {mapper : ChassisOdometryTimeMapper} {call : Call} (h : mapper.rejects call = true) :
    ∃ output deviceTimestampMs receivedNs exit, call = .map output deviceTimestampMs receivedNs
      ∧ (mapper.call output deviceTimestampMs receivedNs).2 = .error exit := by
  cases call with
  | reset => cases h
  | map output deviceTimestampMs receivedNs =>
    cases hresult : (mapper.call output deviceTimestampMs receivedNs).2 with
    | error exit => exact ⟨output, deviceTimestampMs, receivedNs, exit, rfl, hresult⟩
    | ok sample =>
      simp only [rejects, isRejection, step, hresult] at h
      cases h

theorem countWrap_ne (h : mapper.wrapped deviceTimestampMs = true) : mapper.countWrap deviceTimestampMs ≠ mapper := by
  intro heq
  have hcount := congrArg wrapCount heq
  unfold countWrap at hcount
  rw [if_pos h] at hcount
  have hnat : (mapper.wrapCount.toNat + 1) % 2 ^ 64 = mapper.wrapCount.toNat :=
    congrArg UInt64.toNat hcount
  omega

/-- A rejected sample leaves the mapper as it was, unless it counts a wrap. -/
theorem rejected_unchanged_iff (hsane : mapper.Sane) {call : Call} (h : mapper.rejects call = true) :
    (step mapper call).1 = mapper ↔ mapper.countsWrap call = false := by
  obtain ⟨output, deviceTimestampMs, receivedNs, exit, rfl, hexit⟩ := rejects_map h
  show (mapper.call output deviceTimestampMs receivedNs).1 = mapper
    ↔ (mapper.argumentsValid output receivedNs && mapper.wrapped deviceTimestampMs) = false
  rcases call_error hsane hexit with ⟨hearly, hsame⟩ | ⟨hargs, hsame⟩
  · rw [hsame]
    have hnot : (mapper.argumentsValid output receivedNs && mapper.wrapped deviceTimestampMs) = false := by
      rcases hearly with hargs | hback
      · rw [hargs, Bool.false_and]
      · -- a device time that went back has not wrapped
        unfold deviceWentBack at hback
        unfold wrapped
        simp only [Bool.and_eq_true, Bool.not_eq_true'] at hback
        rw [hback.2, Bool.and_false, Bool.and_false]
    exact ⟨fun _ => hnot, fun _ => rfl⟩
  · rw [hsame, hargs, Bool.true_and]
    cases hwrapped : mapper.wrapped deviceTimestampMs with
    | false =>
      unfold countWrap
      rw [hwrapped]
      exact ⟨fun _ => rfl, fun _ => rfl⟩
    | true =>
      exact ⟨fun heq => absurd heq (countWrap_ne hwrapped), fun hfalse => Bool.noConfusion hfalse⟩

/-- The calls of a run that were not rejected, with what they returned. -/
def accepted (calls : List Call) : List (Call × Option (Except MapRejection MappedSample)) :=
  (StepRun.trace step {} calls).filter fun entry => !isRejection entry.2

/-- **A rejected sample leaves no trace exactly when it counts no wrap**: then the state is as before,
    and over a run the accepted calls return what they would if the rejected ones had never been
    made. -/
theorem rejected_leaves_no_trace (calls : List Call) :
    (∀ call, (StepRun.run step {} calls).rejects call = true →
      ((step (StepRun.run step {} calls) call).1 = StepRun.run step {} calls
        ↔ (StepRun.run step {} calls).countsWrap call = false)) ∧
    (StepRun.Along step (fun mapper call => mapper.rejects call = true →
        mapper.countsWrap call = false) {} calls →
      accepted calls = StepRun.trace step {} ((accepted calls).map Prod.fst)) := by
  constructor
  · intro call h
    exact rejected_unchanged_iff (sane_run calls) h
  · intro h
    have hidle : StepRun.Along step (fun mapper call =>
        (!isRejection (step mapper call).2) = false → (step mapper call).1 = mapper) {} calls := by
      refine StepRun.Along.of_invariant (I := Sane) ?_ ?_ (fun h => Bool.noConfusion h) h
      · intro mapper call hsane _
        cases call with
        | map output deviceTimestampMs receivedNs => exact hsane.call _ _ _
        | reset => exact Sane.reset mapper
      · intro mapper call hsane hcounts hrejected
        rw [Bool.not_eq_false'] at hrejected
        exact (rejected_unchanged_iff hsane hrejected).mpr (hcounts hrejected)
    exact (StepRun.trace_erase hidle).symm

theorem rejected_leaves_no_trace_late :
    (step (StepRun.run step {} [.map true 1000 5000000]) (.map true 1001 4000000)).1
        = StepRun.run step {} [.map true 1000 5000000] ∧
      accepted [.map true 1000 5000000, .map true 1001 4000000, .map true 999 6000000,
          .map true 1001 7000000]
        = StepRun.trace step {} ((accepted [.map true 1000 5000000, .map true 1001 4000000,
          .map true 999 6000000, .map true 1001 7000000]).map Prod.fst) :=
  ⟨((rejected_leaves_no_trace [.map true 1000 5000000]).1 (.map true 1001 4000000) (by decide)).mpr
      (by decide),
    (rejected_leaves_no_trace _).2 (by decide)⟩

/-- **A rejected sample can leave a trace.**  The device clock wraps on the last sample that fits the
    range: the call is rejected with its wrap counted.  From then on the mapper also rejects the sample
    that it would have mapped without that call. -/
theorem rejected_leaves_trace :
    (StepRun.run step {} [.map true 0xFFFFFFFF Int64.maxValue]).rejects (.map true 0 Int64.maxValue)
        = true ∧
      (step (StepRun.run step {} [.map true 0xFFFFFFFF Int64.maxValue])
          (.map true 0 Int64.maxValue)).1
        ≠ StepRun.run step {} [.map true 0xFFFFFFFF Int64.maxValue] ∧
      (StepRun.run step {} [.map true 0xFFFFFFFF Int64.maxValue, .map true 0 Int64.maxValue]).rejects
          (.map true 0xFFFFFFFF Int64.maxValue) = true ∧
      (StepRun.run step {} [.map true 0xFFFFFFFF Int64.maxValue]).rejects
          (.map true 0xFFFFFFFF Int64.maxValue) = false := by
  decide

/-! ## Consistency: what no rejected call has disturbed -/

/-- The last sample is the last device time under the offset. -/
structure Consistent (mapper : ChassisOdometryTimeMapper) : Prop where
  cleared : mapper.initialized = false → mapper.wrapCount = 0
  sample : mapper.initialized = true → mapper.lastSampleRealtimeNs.toInt = mapper.realtimeOffsetNs.toInt
    + deviceTimeNs mapper.wrapCount.toNat mapper.lastDeviceTimestampMs.toNat
  received : mapper.initialized = true
    → mapper.lastSampleRealtimeNs.toInt ≤ mapper.lastReceivedRealtimeNs.toInt
  inRange : mapper.initialized = true
    → deviceTimeNs mapper.wrapCount.toNat mapper.lastDeviceTimestampMs.toNat < 2 ^ 63

theorem Consistent.init : Consistent {} :=
  ⟨fun _ => rfl, fun h => Bool.noConfusion h, fun h => Bool.noConfusion h, fun h => Bool.noConfusion h⟩

theorem Consistent.reset (mapper : ChassisOdometryTimeMapper) : mapper.reset.Consistent :=
  ⟨fun _ => rfl, fun h => Bool.noConfusion h, fun h => Bool.noConfusion h, fun h => Bool.noConfusion h⟩

section

variable (h : mapper.Consistent)
include h

theorem wrapCount_countWrap (deviceTimestampMs : UInt32) : (mapper.countWrap deviceTimestampMs).wrapCount.toNat
      = mapper.wrapCount.toNat + if mapper.wrapped deviceTimestampMs then 1 else 0 := by
  unfold countWrap
  cases hwrapped : mapper.wrapped deviceTimestampMs with
  | false => rfl
  | true =>
    have hinit : mapper.initialized = true := by
      unfold wrapped at hwrapped
      simp only [Bool.and_eq_true] at hwrapped
      exact hwrapped.1.1
    have hrange := h.inRange hinit
    unfold deviceTimeNs at hrange
    show (mapper.wrapCount + 1).toNat = mapper.wrapCount.toNat + 1
    rw [UInt64.toNat_add]
    show (mapper.wrapCount.toNat + 1) % 2 ^ 64 = mapper.wrapCount.toNat + 1
    omega

theorem deviceNs_mono (hinit : mapper.initialized = true) (hback : mapper.deviceWentBack deviceTimestampMs = false) :
    deviceTimeNs mapper.wrapCount.toNat mapper.lastDeviceTimestampMs.toNat ≤ mapper.deviceNs deviceTimestampMs := by
  have hlast : mapper.lastDeviceTimestampMs.toNat < 2 ^ 32 := mapper.lastDeviceTimestampMs.toNat_lt
  unfold deviceNs
  rw [wrapCount_countWrap h]
  unfold deviceTimeNs
  cases hwrapped : mapper.wrapped deviceTimestampMs with
  | true =>
    simp only [if_true]
    omega
  | false =>
    -- neither a wrap nor a step back: the counter value itself did not decrease
    have hle : mapper.lastDeviceTimestampMs.toNat ≤ deviceTimestampMs.toNat := by
      unfold wrapped at hwrapped
      unfold deviceWentBack at hback
      rw [hinit, Bool.true_and] at hwrapped hback
      refine Nat.le_of_not_lt fun hlt => ?_
      rw [decide_eq_true (UInt32.lt_iff_toNat_lt.mpr hlt), Bool.true_and] at hwrapped hback
      rw [hwrapped] at hback
      cases hback
    simp only [Bool.false_eq_true, if_false]
    omega

theorem lastSample_le (hinit : mapper.initialized = true) (hargs : mapper.argumentsValid output receivedNs = true)
    (hback : mapper.deviceWentBack deviceTimestampMs = false) {offsetNs : Int64} (hoffset : offsetNs.toInt
      = min (mapper.startOffset (mapper.deviceNs deviceTimestampMs) receivedNs.toInt)
        (receivedNs.toInt - mapper.deviceNs deviceTimestampMs)) :
    mapper.lastSampleRealtimeNs.toInt ≤ offsetNs.toInt + mapper.deviceNs deviceTimestampMs := by
  have hsample := h.sample hinit
  have hlast := h.received hinit
  have hreceived := lastReceived_le hinit hargs
  have hmono := deviceNs_mono h hinit hback
  unfold startOffset at hoffset
  rw [if_pos hinit] at hoffset
  omega

/-- **The last check of `Map` does not reject**, where no call before was rejected. -/
theorem call_ne_sampleBackwards : (mapper.call output deviceTimestampMs receivedNs).2 ≠ .error .sampleBackwards := by
  intro hexit
  rcases mapper.map_cases output deviceTimestampMs receivedNs with
    ⟨exit, hmap, hearly⟩ | ⟨hargs, hback, counted, deviceNs, rfl, rfl,
      ⟨-, hmap⟩ | ⟨_, _, _, hmap⟩ | ⟨offsetNs, mapped, -, hoffset, hmapped, hmap⟩⟩
  · rw [call_eq hmap] at hexit
    cases hexit
    rcases hearly with ⟨-, hne⟩ | ⟨-, hne⟩ <;> cases hne
  · rw [call_eq hmap] at hexit
    cases hexit
  · rw [call_eq hmap] at hexit
    cases hexit
  · rw [call_eq hmap] at hexit
    unfold accept at hexit
    split at hexit
    · rename_i hlast
      simp only [Bool.and_eq_true, decide_eq_true_eq, Int64.lt_iff_toInt_lt, countWrap_initialized,
        countWrap_lastSampleRealtimeNs] at hlast
      have hle := lastSample_le h hlast.1 hargs hback hoffset
      have hlt := hlast.2
      rw [hmapped] at hlt
      exact absurd hle (Int.not_le.mpr hlt)
    · cases hexit

end

theorem Consistent.of_ok {sample : MappedSample}
    (hok : (mapper.call output deviceTimestampMs receivedNs).2 = .ok sample) :
    (mapper.call output deviceTimestampMs receivedNs).1.Consistent := by
  obtain ⟨hargs, hback, hrange, offsetNs, hoffset, hsample, hcall⟩ :=
    ChassisOdometryTimeMapper.call_ok hok
  rw [hcall]
  refine ⟨fun hinit => Bool.noConfusion hinit, fun _ => hsample, fun _ => ?_, fun _ => hrange⟩
  show sample.sampleRealtimeNs.toInt ≤ receivedNs.toInt
  omega

/-! ## The samples between two resets -/

/-- The arguments of one call. -/
structure OdometrySample where
  deviceTimestampMs : UInt32
  receivedRealtimeNs : Int64

def callOn (mapper : ChassisOdometryTimeMapper) (sample : OdometrySample) :
    ChassisOdometryTimeMapper × Except MapRejection MappedSample :=
  mapper.call true sample.deviceTimestampMs sample.receivedRealtimeNs

/-- The mapper after the first `n` samples. -/
def after (start : ChassisOdometryTimeMapper) (samples : ℕ → OdometrySample) : ℕ → ChassisOdometryTimeMapper
  | 0 => start
  | n + 1 => ((after start samples n).callOn (samples n)).1

/-- How often the device counter has wrapped up to sample `n`: whenever its value went back. -/
def wraps (samples : ℕ → OdometrySample) : ℕ → ℕ
  | 0 => 0
  | n + 1 => wraps samples n
      + if (samples (n + 1)).deviceTimestampMs < (samples n).deviceTimestampMs then 1 else 0

/-- The device time of sample `n`, extended across the wraps. -/
def extendedNs (samples : ℕ → OdometrySample) (n : ℕ) : Int :=
  deviceTimeNs (wraps samples n) (samples n).deviceTimestampMs.toNat

def receiveNs (samples : ℕ → OdometrySample) (n : ℕ) : Int := (samples n).receivedRealtimeNs.toInt

/-- A mapper that starts afresh: a new one, or one that was reset. -/
def Fresh (mapper : ChassisOdometryTimeMapper) : Prop :=
  mapper = {} ∨ ∃ before : ChassisOdometryTimeMapper, mapper = before.reset

/-- The mapper after it has accepted the samples up to `n`. -/
structure Follows (samples : ℕ → OdometrySample) (n : ℕ) (mapper : ChassisOdometryTimeMapper) : Prop where
  consistent : mapper.Consistent
  initialized : mapper.initialized = true
  device : mapper.lastDeviceTimestampMs = (samples n).deviceTimestampMs
  wrapped : mapper.wrapCount.toNat = wraps samples n
  offset : mapper.realtimeOffsetNs.toInt = ClockOffset.offset (extendedNs samples) (receiveNs samples) n

theorem Follows.sample {samples : ℕ → OdometrySample} {n : ℕ} (h : Follows samples n mapper) :
    mapper.lastSampleRealtimeNs.toInt = ClockOffset.estimate (extendedNs samples) (receiveNs samples) n := by
  have hsample := h.consistent.sample h.initialized
  rw [h.device, h.wrapped, h.offset] at hsample
  rw [hsample]
  exact add_comm _ _

theorem Fresh.follows {samples : ℕ → OdometrySample} (h : mapper.Fresh) {result : MappedSample}
    (hok : (mapper.callOn (samples 0)).2 = .ok result) : Follows samples 0 (mapper.callOn (samples 0)).1 := by
  have hcleared : mapper.initialized = false ∧ mapper.wrapCount = 0 := by
    rcases h with rfl | ⟨before, rfl⟩ <;> exact ⟨rfl, rfl⟩
  obtain ⟨-, -, -, offsetNs, hoffset, -, hcall⟩ := call_ok hok
  have hcount : mapper.countWrap (samples 0).deviceTimestampMs = mapper := by
    unfold countWrap wrapped
    rw [hcleared.1]
    rfl
  have hdevice : mapper.deviceNs (samples 0).deviceTimestampMs = extendedNs samples 0 := by
    unfold deviceNs extendedNs
    rw [hcount, hcleared.2]
    rfl
  have hconsistent : (mapper.callOn (samples 0)).1.Consistent := Consistent.of_ok hok
  unfold callOn at hconsistent ⊢
  rw [hcall] at hconsistent ⊢
  refine ⟨hconsistent, rfl, rfl, ?_, ?_⟩
  · show (mapper.countWrap (samples 0).deviceTimestampMs).wrapCount.toNat = 0
    rw [hcount, hcleared.2]
    rfl
  · show offsetNs.toInt = _
    unfold startOffset at hoffset
    rw [hcleared.1, hdevice] at hoffset
    rw [ClockOffset.offset_zero, hoffset]
    exact min_self _

/-- The next accepted sample follows. -/
theorem Follows.step {samples : ℕ → OdometrySample} {n : ℕ} (h : Follows samples n mapper)
    {result : MappedSample} (hok : (mapper.callOn (samples (n + 1))).2 = .ok result) :
    Follows samples (n + 1) (mapper.callOn (samples (n + 1))).1 := by
  obtain ⟨-, hback, -, offsetNs, hoffset, -, hcall⟩ := call_ok hok
  have hcount := wrapCount_countWrap h.consistent (samples (n + 1)).deviceTimestampMs
  -- an accepted sample whose counter value went back is one that wrapped
  have hwrapped : mapper.wrapped (samples (n + 1)).deviceTimestampMs
      = decide ((samples (n + 1)).deviceTimestampMs < (samples n).deviceTimestampMs) := by
    unfold ChassisOdometryTimeMapper.wrapped
    unfold deviceWentBack at hback
    rw [h.initialized, h.device, Bool.true_and] at hback ⊢
    cases hlt : decide ((samples (n + 1)).deviceTimestampMs < (samples n).deviceTimestampMs) with
    | false => rfl
    | true =>
      rw [hlt, Bool.true_and, Bool.not_eq_false'] at hback
      rw [Bool.true_and, hback]
  have hwraps : (mapper.countWrap (samples (n + 1)).deviceTimestampMs).wrapCount.toNat
      = wraps samples (n + 1) := by
    rw [hcount, h.wrapped, hwrapped, wraps]
    simp only [decide_eq_true_eq]
  have hdevice : mapper.deviceNs (samples (n + 1)).deviceTimestampMs = extendedNs samples (n + 1) := by
    unfold deviceNs extendedNs
    rw [hwraps]
  have hconsistent : (mapper.callOn (samples (n + 1))).1.Consistent := Consistent.of_ok hok
  unfold callOn at hconsistent ⊢
  rw [hcall] at hconsistent ⊢
  refine ⟨hconsistent, rfl, rfl, hwraps, ?_⟩
  show offsetNs.toInt = _
  unfold startOffset at hoffset
  rw [if_pos h.initialized, hdevice, h.offset] at hoffset
  rw [ClockOffset.offset_succ, hoffset]
  rfl

/-- The calls `0` to `n` on the samples all succeed, with these results. -/
def Succeeds (start : ChassisOdometryTimeMapper) (samples : ℕ → OdometrySample)
    (results : ℕ → MappedSample) (n : ℕ) : Prop :=
  ∀ k ≤ n, ((after start samples k).callOn (samples k)).2 = .ok (results k)

theorem Succeeds.follows {start : ChassisOdometryTimeMapper} {samples : ℕ → OdometrySample}
    {results : ℕ → MappedSample} (hstart : start.Fresh) {n : ℕ} (h : Succeeds start samples results n) :
    Follows samples n (after start samples (n + 1)) := by
  induction n with
  | zero => exact hstart.follows (h 0 le_rfl)
  | succ n ih => exact (ih fun k hk => h k (hk.trans n.le_succ)).step (h (n + 1) le_rfl)

/-- **The n-th result** is the sample's device time under the least offset seen so far. -/
theorem Succeeds.result_eq {start : ChassisOdometryTimeMapper} {samples : ℕ → OdometrySample}
    {results : ℕ → MappedSample} (hstart : start.Fresh) {n : ℕ} (h : Succeeds start samples results n) :
    (results n).sampleRealtimeNs.toInt = ClockOffset.estimate (extendedNs samples) (receiveNs samples) n := by
  have hfollows := h.follows hstart
  obtain ⟨-, -, -, _, -, -, hcall⟩ := call_ok (h n le_rfl)
  rw [← hfollows.sample]
  show _ = ((after start samples n).callOn (samples n)).1.lastSampleRealtimeNs.toInt
  rw [callOn, hcall]

theorem extendedNs_mono (samples : ℕ → OdometrySample) (n : ℕ) :
    extendedNs samples n ≤ extendedNs samples (n + 1) := by
  have hlast : (samples n).deviceTimestampMs.toNat < 2 ^ 32 := (samples n).deviceTimestampMs.toNat_lt
  unfold extendedNs deviceTimeNs
  rw [wraps]
  split
  · omega
  · rename_i hle
    rw [UInt32.lt_iff_toNat_lt] at hle
    omega

theorem Succeeds.receiveNs_mono {start : ChassisOdometryTimeMapper} {samples : ℕ → OdometrySample}
    {results : ℕ → MappedSample} {n : ℕ} (h : Succeeds start samples results (n + 1)) :
    receiveNs samples n ≤ receiveNs samples (n + 1) := by
  obtain ⟨-, -, -, _, -, -, hcall⟩ := call_ok (h n n.le_succ)
  obtain ⟨hargs, -⟩ := call_ok (h (n + 1) le_rfl)
  have hafter : after start samples (n + 1) = ((after start samples n).call true
      (samples n).deviceTimestampMs (samples n).receivedRealtimeNs).1 := rfl
  rw [hafter, hcall] at hargs
  exact lastReceived_le rfl hargs

/-! ## Runs with resets -/

/-- No call of the run was rejected. -/
def AllAccepted (mapper : ChassisOdometryTimeMapper) (calls : List Call) : Prop :=
  StepRun.Along step (fun mapper call => mapper.rejects call = false) mapper calls

/-- The receive times of the samples of a run. -/
def receiveTimes (calls : List Call) : List Int :=
  calls.filterMap fun
    | .map _ _ receivedRealtimeNs => some receivedRealtimeNs.toInt
    | .reset => none

/-- The mapped times of a run. -/
def mappedTimes (mapper : ChassisOdometryTimeMapper) (calls : List Call) : List Int :=
  (StepRun.trace step mapper calls).filterMap fun
    | (_, some (.ok sample)) => some sample.sampleRealtimeNs.toInt
    | _ => none

theorem le_receiveTimes {calls : List Call} : ∀ time ∈ receiveTimes calls, -2 ^ 63 ≤ time := by
  intro time htime
  obtain ⟨call, -, hcall⟩ := List.mem_filterMap.mp htime
  cases call with
  | map output deviceTimestampMs receivedRealtimeNs =>
    rw [← Option.some.inj hcall]
    exact receivedRealtimeNs.le_toInt
  | reset => cases hcall

theorem ok_of_not_rejects (h : mapper.rejects (.map output deviceTimestampMs receivedNs) = false) :
    ∃ sample, (mapper.call output deviceTimestampMs receivedNs).2 = .ok sample := by
  cases hresult : (mapper.call output deviceTimestampMs receivedNs).2 with
  | error exit =>
    simp only [rejects, isRejection, step, hresult] at h
    cases h
  | ok sample => exact ⟨sample, rfl⟩

theorem Consistent.of_accepted {call : Call} (hacc : mapper.rejects call = false) :
    (step mapper call).1.Consistent := by
  cases call with
  | map output deviceTimestampMs receivedNs =>
    obtain ⟨sample, hok⟩ := ok_of_not_rejects hacc
    exact .of_ok hok
  | reset => exact .reset mapper

theorem Consistent.sample_mem (h : mapper.Consistent) {low : Int}
    (hlow : mapper.initialized = true → low ≤ mapper.lastSampleRealtimeNs.toInt)
    (hreceived : low ≤ receivedNs.toInt) {sample : MappedSample}
    (hok : (mapper.call output deviceTimestampMs receivedNs).2 = .ok sample) :
    low ≤ sample.sampleRealtimeNs.toInt ∧ sample.sampleRealtimeNs.toInt ≤ receivedNs.toInt := by
  obtain ⟨hargs, hback, -, offsetNs, hoffset, hsample, -⟩ := call_ok hok
  refine ⟨?_, by omega⟩
  cases hinit : mapper.initialized with
  | true =>
    have hlast := lastSample_le h hinit hargs hback hoffset
    have hbefore := hlow hinit
    omega
  | false =>
    -- the first sample is mapped to its receive time
    unfold startOffset at hoffset
    rw [hinit] at hoffset
    simp only [Bool.false_eq_true, if_false] at hoffset
    omega

/-- **Mapped times do not go back, not even across a reset.** -/
theorem mappedTimes_pairwise {calls : List Call} {low : Int} (h : mapper.Consistent)
    (hacc : AllAccepted mapper calls) (hreceived : (receiveTimes calls).Pairwise (· ≤ ·))
    (hlow : ∀ time ∈ receiveTimes calls, low ≤ time)
    (hlast : mapper.initialized = true → low ≤ mapper.lastSampleRealtimeNs.toInt) :
    (mappedTimes mapper calls).Pairwise (· ≤ ·) ∧ ∀ time ∈ mappedTimes mapper calls, low ≤ time := by
  induction calls generalizing mapper low with
  | nil => exact ⟨List.Pairwise.nil, fun time htime => absurd htime List.not_mem_nil⟩
  | cons call calls ih =>
    obtain ⟨hcall, hrest⟩ := hacc
    have hconsistent := Consistent.of_accepted hcall
    cases call with
    | reset => exact ih hconsistent hrest hreceived hlow fun hinit => Bool.noConfusion hinit
    | map output deviceTimestampMs receivedNs =>
      obtain ⟨sample, hok⟩ := ok_of_not_rejects hcall
      obtain ⟨hfirst, htail⟩ := List.pairwise_cons.mp hreceived
      have hmem := h.sample_mem hlast (hlow _ List.mem_cons_self) hok
      obtain ⟨-, -, -, _, -, -, hmapper⟩ := call_ok hok
      -- from here on nothing is earlier than this sample
      obtain ⟨hpairwise, hbound⟩ := ih hconsistent hrest htail
        (fun time htime => hmem.2.trans (hfirst time htime)) (fun _ => by
          show _ ≤ (mapper.call output deviceTimestampMs receivedNs).1.lastSampleRealtimeNs.toInt
          rw [hmapper])
      have hcons : mappedTimes mapper (.map output deviceTimestampMs receivedNs :: calls)
          = sample.sampleRealtimeNs.toInt
            :: mappedTimes (step mapper (.map output deviceTimestampMs receivedNs)).1 calls := by
        unfold mappedTimes
        rw [StepRun.trace]
        simp only [step, hok, List.filterMap_cons]
      rw [hcons]
      refine ⟨List.pairwise_cons.mpr ⟨hbound, hpairwise⟩, fun time htime => ?_⟩
      rcases List.mem_cons.mp htime with rfl | htime
      · exact hmem.1
      · exact hmem.1.trans (hbound time htime)

theorem AllAccepted.consistent {calls : List Call} (h : AllAccepted {} calls) :
    (StepRun.run step {} calls).Consistent :=
  StepRun.Along.invariant (fun _ _ _ hcall => .of_accepted hcall) Consistent.init h

/-- **Odometry time mapping.**  No signed operation overflows.  Between two resets, where every call
    succeeds, result `n` is the extended device time plus the least of the offsets seen so far; so it
    is not before the result before it, not after its receive time, and not further from the result
    before it than the device clock went.  Results do not go back across a reset either, where receive
    times do not.  And the last check never rejects where no call before was rejected. -/
theorem odometry_time_mapping :
    (∀ (mapper : ChassisOdometryTimeMapper) output deviceTimestampMs receivedNs,
      (mapper.map output deviceTimestampMs receivedNs).isSome = true) ∧
    (∀ start samples results n, Fresh start → Succeeds start samples results n →
      (results n).sampleRealtimeNs.toInt = extendedNs samples n
        + (Finset.range (n + 1)).inf' ⟨0, Finset.mem_range.mpr n.succ_pos⟩
          fun j => receiveNs samples j - extendedNs samples j) ∧
    (∀ start samples results n, Fresh start → Succeeds start samples results n →
      (results n).sampleRealtimeNs.toInt ≤ receiveNs samples n) ∧
    (∀ start samples results n, Fresh start → Succeeds start samples results (n + 1) →
      (results n).sampleRealtimeNs.toInt ≤ (results (n + 1)).sampleRealtimeNs.toInt ∧
      (results (n + 1)).sampleRealtimeNs.toInt - (results n).sampleRealtimeNs.toInt
        ≤ extendedNs samples (n + 1) - extendedNs samples n) ∧
    (∀ calls, AllAccepted {} calls → (receiveTimes calls).Pairwise (· ≤ ·) →
      (mappedTimes {} calls).Pairwise (· ≤ ·)) ∧
    (∀ calls, AllAccepted {} calls → ∀ output deviceTimestampMs receivedNs,
      ((StepRun.run step {} calls).call output deviceTimestampMs receivedNs).2
        ≠ .error .sampleBackwards) := by
  refine ⟨fun mapper output deviceTimestampMs receivedNs => mapper.map_isSome _ _ _, ?_, ?_, ?_, ?_, ?_⟩
  · intro start samples results n hstart h
    exact h.result_eq hstart
  · intro start samples results n hstart h
    rw [h.result_eq hstart]
    exact ClockOffset.estimate_le n
  · intro start samples results n hstart h
    have hbefore : Succeeds start samples results n := fun k hk => h k (hk.trans n.le_succ)
    rw [h.result_eq hstart, hbefore.result_eq hstart]
    exact ⟨ClockOffset.estimate_mono (extendedNs_mono samples n) h.receiveNs_mono,
      ClockOffset.estimate_advance n⟩
  · intro calls h hreceived
    exact (mappedTimes_pairwise Consistent.init h hreceived le_receiveTimes
      fun hinit => Bool.noConfusion hinit).1
  · intro calls h output deviceTimestampMs receivedNs
    exact call_ne_sampleBackwards h.consistent

/-- Two samples with a wrap of the device counter in between. -/
def samplesAcrossWrap (n : ℕ) : OdometrySample :=
  if n = 0 then ⟨0xFFFFFFF0, 2000000000000000⟩ else ⟨0x10, 2000000040000000⟩

def resultsAcrossWrap (n : ℕ) : MappedSample :=
  if n = 0 then ⟨.mapped, 2000000000000000⟩ else ⟨.mapped, 2000000032000000⟩

theorem odometry_time_mapping_wrap :
    (resultsAcrossWrap 1).sampleRealtimeNs.toInt = extendedNs samplesAcrossWrap 1
        + (Finset.range 2).inf' ⟨0, by decide⟩
          (fun j => receiveNs samplesAcrossWrap j - extendedNs samplesAcrossWrap j) ∧
      (mappedTimes {} [.map true 1000 10000000000, .reset, .map true 5 10060000000]).Pairwise (· ≤ ·) :=
  ⟨odometry_time_mapping.2.1 {} samplesAcrossWrap resultsAcrossWrap 1 (.inl rfl) (by
      unfold Succeeds
      decide),
    odometry_time_mapping.2.2.2.2.1 _ (by
      unfold AllAccepted
      decide) (by decide)⟩

end ChassisOdometryTimeMapper

end Cockpit.Vehicle
