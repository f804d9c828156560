/-
  `ChassisOdometryTimeMapper`: the 32-bit millisecond clock of the STM32 on the host's realtime clock. `Map`
  extends the device time over the wraps of its counter, and adds an offset that it lowers whenever a sample
  would otherwise lie after its own receive time.
-/
import Mathlib.Algebra.Group.Nat.Defs
import Cockpit.Lib.CheckedInt
import Cockpit.Lib.StepRun

namespace Cockpit.Vehicle

open Option

/-! ## The mapper -/

inductive ChassisOdometryTimeMapStatus where
  | mapped | reset | invalid
  deriving DecidableEq

/-- The `return kInvalid` that a call took. -/
inductive MapRejection where
  | arguments | deviceBackwards | deviceRange | sampleRange | sampleBackwards
  deriving DecidableEq

/-- What a successful call returns, with the value that it stores through the pointer. -/
structure MappedSample where
  status : ChassisOdometryTimeMapStatus
  sampleRealtimeNs : Int64
  deriving DecidableEq

/-- `ChassisOdometryTimeMapper`. -/
structure ChassisOdometryTimeMapper where
  initialized : Bool := false
  lastDeviceTimestampMs : UInt32 := 0
  wrapCount : UInt64 := 0
  realtimeOffsetNs : Int64 := 0
  lastReceivedRealtimeNs : Int64 := 0
  lastSampleRealtimeNs : Int64 := 0
  explicitResetPending : Bool := false
  deriving DecidableEq

def kClockModulus : UInt64 := 0x100000000
def kWrapThreshold : UInt32 := 0x80000000
def kNanosecondsPerMillisecond : UInt64 := 1000000

/-- `DeviceNanoseconds`; the products and the sum are unsigned. -/
def deviceNanoseconds (wrapCount : UInt64) (timestampMs : UInt32) : Option Int64 :=
  if 0xFFFFFFFFFFFFFFFF / kClockModulus < wrapCount then none
  else
    let extendedMs := wrapCount * kClockModulus + timestampMs.toUInt64
    if 0x7FFFFFFFFFFFFFFF / kNanosecondsPerMillisecond < extendedMs then none
    else some (extendedMs * kNanosecondsPerMillisecond).toInt64

namespace ChassisOdometryTimeMapper

variable (mapper : ChassisOdometryTimeMapper) (deviceTimestampMs : UInt32)

/-- The device time is so far behind the last one that its counter has wrapped. -/
def wrapped : Bool :=
  mapper.initialized && deviceTimestampMs < mapper.lastDeviceTimestampMs
    && kWrapThreshold < mapper.lastDeviceTimestampMs - deviceTimestampMs

/-- The device time is behind the last one, and not by a wrap. -/
def deviceWentBack : Bool :=
  mapper.initialized && deviceTimestampMs < mapper.lastDeviceTimestampMs
    && !(kWrapThreshold < mapper.lastDeviceTimestampMs - deviceTimestampMs : Bool)

/-- The first check of `Map`; `output` says that the pointer is not null. -/
def argumentsValid (output : Bool) (receivedRealtimeNs : Int64) : Bool :=
  !(!output || receivedRealtimeNs ≤ 0
    || (mapper.initialized && receivedRealtimeNs < mapper.lastReceivedRealtimeNs))

/-- It stays counted when the call is rejected afterwards. -/
def countWrap : ChassisOdometryTimeMapper :=
  if mapper.wrapped deviceTimestampMs then { mapper with wrapCount := mapper.wrapCount + 1 }
  else mapper

/-- The offset before its lowering: the first sample fixes it. -/
def anchor (deviceTimestampNs receivedRealtimeNs : Int64) : Option Int64 :=
  if mapper.initialized then some mapper.realtimeOffsetNs
  else CheckedInt.sub receivedRealtimeNs deviceTimestampNs

/-- Adding the offset would leave the range of the type. -/
def sampleOutOfRange (offsetNs deviceTimestampNs : Int64) : Option Bool :=
  if 0 < offsetNs then
    (CheckedInt.sub Int64.maxValue offsetNs).map fun bound => bound < deviceTimestampNs
  else if offsetNs < 0 then
    (CheckedInt.sub Int64.minValue offsetNs).map fun bound => deviceTimestampNs < bound
  else some false

/-- The mapped time and the offset, which is lowered where the time is later than the receive time. -/
def ratchet (offsetNs deviceTimestampNs receivedRealtimeNs : Int64) : Option (Int64 × Int64) := do
  let mappedRealtimeNs ← CheckedInt.add offsetNs deviceTimestampNs
  if receivedRealtimeNs < mappedRealtimeNs then
    let lateNs ← CheckedInt.sub mappedRealtimeNs receivedRealtimeNs
    let offsetNs ← CheckedInt.sub offsetNs lateNs
    some (offsetNs, receivedRealtimeNs)
  else some (offsetNs, mappedRealtimeNs)

/-- The end of `Map`: the last check, and what a successful call stores and returns. -/
def accept (receivedRealtimeNs mappedRealtimeNs : Int64) :
    ChassisOdometryTimeMapper × Except MapRejection MappedSample :=
  if mapper.initialized && mappedRealtimeNs < mapper.lastSampleRealtimeNs then
    (mapper, .error .sampleBackwards)
  else
    ({ mapper with
        initialized := true, lastDeviceTimestampMs := deviceTimestampMs,
        lastReceivedRealtimeNs := receivedRealtimeNs, lastSampleRealtimeNs := mappedRealtimeNs,
        explicitResetPending := false },
      .ok
        { status := if mapper.explicitResetPending then .reset else .mapped,
          sampleRealtimeNs := mappedRealtimeNs })

/-- The exits come after some of the assignments: the mapper is as it was until then. `none` when a signed
    operation overflows. -/
def map (output : Bool) (deviceTimestampMs : UInt32) (receivedRealtimeNs : Int64) :
    Option (ChassisOdometryTimeMapper × Except MapRejection MappedSample) :=
  if !mapper.argumentsValid output receivedRealtimeNs then some (mapper, .error .arguments)
  else if mapper.deviceWentBack deviceTimestampMs then some (mapper, .error .deviceBackwards)
  else
    let mapper := mapper.countWrap deviceTimestampMs
    match deviceNanoseconds mapper.wrapCount deviceTimestampMs with
    | none => some (mapper, .error .deviceRange)
    | some deviceTimestampNs => do
      let offsetNs ← mapper.anchor deviceTimestampNs receivedRealtimeNs
      let outOfRange ← sampleOutOfRange offsetNs deviceTimestampNs
      if outOfRange then
        some ({ mapper with realtimeOffsetNs := offsetNs }, .error .sampleRange)
      else
        let (offsetNs, mappedRealtimeNs) ← ratchet offsetNs deviceTimestampNs receivedRealtimeNs
        some ({ mapper with realtimeOffsetNs := offsetNs }.accept deviceTimestampMs
          receivedRealtimeNs mappedRealtimeNs)

/-- The next sample anchors the clock anew. -/
def reset (mapper : ChassisOdometryTimeMapper) : ChassisOdometryTimeMapper :=
  { mapper with
    initialized := false, lastDeviceTimestampMs := 0, wrapCount := 0, realtimeOffsetNs := 0,
    lastReceivedRealtimeNs := 0, lastSampleRealtimeNs := 0, explicitResetPending := true }

end ChassisOdometryTimeMapper

/-- The status that the source returns. -/
def mapStatus : Except MapRejection MappedSample → ChassisOdometryTimeMapStatus
  | .error _ => .invalid
  | .ok sample => sample.status

/-! ## The stages over the integers -/

/-- The device time in nanoseconds that `wrapCount` wraps and the counter value stand for. -/
def deviceTimeNs (wrapCount timestampMs : Nat) : Int :=
  ((wrapCount * 2 ^ 32 + timestampMs) * 1000000 : Nat)

theorem deviceTimeNs_nonneg (wrapCount timestampMs : Nat) : 0 ≤ deviceTimeNs wrapCount timestampMs :=
  Int.natCast_nonneg _

theorem deviceNanoseconds_eq_some {wrapCount : UInt64} {timestampMs : UInt32} {ns : Int64} :
    deviceNanoseconds wrapCount timestampMs = some ns
      ↔ ns.toInt = deviceTimeNs wrapCount.toNat timestampMs.toNat := by
  have hts : timestampMs.toNat < 2 ^ 32 := timestampMs.toNat_lt
  have hlt := ns.toInt_lt
  unfold deviceNanoseconds deviceTimeNs kClockModulus kNanosecondsPerMillisecond
  have hmax : ((0xFFFFFFFFFFFFFFFF / 0x100000000 : UInt64) < wrapCount) ↔ 2 ^ 32 ≤ wrapCount.toNat := by
    rw [UInt64.lt_iff_toNat_lt]
    show 4294967295 < wrapCount.toNat ↔ _
    omega
  by_cases hwraps : 2 ^ 32 ≤ wrapCount.toNat
  · rw [if_pos (hmax.mpr hwraps)]
    constructor <;> intro h
    · cases h
    · omega
  · rw [if_neg (mt hmax.mp hwraps)]
    -- below the first bound neither the product nor the sum wraps
    have hextended : (wrapCount * 0x100000000 + timestampMs.toUInt64 : UInt64).toNat
        = wrapCount.toNat * 2 ^ 32 + timestampMs.toNat := by
      rw [UInt64.toNat_add, UInt64.toNat_mul, UInt32.toNat_toUInt64]
      show (wrapCount.toNat * 4294967296 % 2 ^ 64 + timestampMs.toNat) % 2 ^ 64 = _
      omega
    generalize wrapCount * 0x100000000 + timestampMs.toUInt64 = extended at hextended
    have hbound : ((0x7FFFFFFFFFFFFFFF / 1000000 : UInt64) < extended)
        ↔ 9223372036854 < extended.toNat := by
      rw [UInt64.lt_iff_toNat_lt]
      show 9223372036854 < extended.toNat ↔ _
      rfl
    dsimp only
    rw [← hextended]
    by_cases hlarge : 9223372036854 < extended.toNat
    · rw [if_pos (hbound.mpr hlarge)]
      constructor <;> intro h
      · cases h
      · omega
    · rw [if_neg (mt hbound.mp hlarge), some_inj, ← Int64.toInt_inj]
      have hproduct : (extended * 1000000).toInt64.toInt = (extended.toNat * 1000000 : Nat) := by
        have hnat : (extended * 1000000).toNat = extended.toNat * 1000000 := by
          rw [UInt64.toNat_mul]
          show extended.toNat * 1000000 % 2 ^ 64 = _
          omega
        rw [← hnat]
        exact BitVec.toInt_eq_toNat_of_lt (by show 2 * (extended * 1000000).toNat < _; omega)
      rw [hproduct]
      exact eq_comm

namespace ChassisOdometryTimeMapper

variable (mapper : ChassisOdometryTimeMapper)

/-- The offset that a call starts from. -/
def startOffset (deviceNs receivedNs : Int) : Int :=
  if mapper.initialized then mapper.realtimeOffsetNs.toInt else receivedNs - deviceNs

variable {receivedNs : Int64}

/-- The first offset, over the integers. -/
theorem anchor_spec {deviceNs : Int64} (hdevice : 0 ≤ deviceNs.toInt) (hreceived : 0 < receivedNs.toInt) :
    ∃ offsetNs, mapper.anchor deviceNs receivedNs = some offsetNs
      ∧ offsetNs.toInt = mapper.startOffset deviceNs.toInt receivedNs.toInt := by
  unfold anchor startOffset
  cases mapper.initialized with
  | true => exact ⟨_, rfl, rfl⟩
  | false =>
    have hlt := receivedNs.toInt_lt
    have hdeviceLt := deviceNs.toInt_lt
    exact CheckedInt.exists_exact _ (by omega) (by omega)

/-- The range check, over the integers. -/
theorem sampleOutOfRange_spec (offsetNs deviceNs : Int64) :
    ∃ outOfRange, sampleOutOfRange offsetNs deviceNs = some outOfRange
      ∧ (outOfRange = false ↔ -2 ^ 63 ≤ offsetNs.toInt + deviceNs.toInt
        ∧ offsetNs.toInt + deviceNs.toInt < 2 ^ 63) := by
  have hlow := offsetNs.le_toInt
  have hhigh := offsetNs.toInt_lt
  have hdeviceLow := deviceNs.le_toInt
  have hdeviceHigh := deviceNs.toInt_lt
  have hzero : (0 : Int64).toInt = 0 := rfl
  have hmax : Int64.maxValue.toInt = 2 ^ 63 - 1 := rfl
  have hmin : Int64.minValue.toInt = -2 ^ 63 := rfl
  unfold sampleOutOfRange
  split
  · -- a positive offset can only leave the range above
    rename_i hpos
    rw [Int64.lt_iff_toInt_lt] at hpos
    obtain ⟨bound, hsub, hbound⟩ :=
      CheckedInt.exists_exact (Int64.maxValue.toInt - offsetNs.toInt) (by omega) (by omega)
    refine ⟨_, congrArg (Option.map _) hsub, ?_⟩
    rw [decide_eq_false_iff_not, Int64.lt_iff_toInt_lt]
    omega
  · split
    · -- and a negative one only below
      rename_i hneg
      rw [Int64.lt_iff_toInt_lt] at hneg
      obtain ⟨bound, hsub, hbound⟩ :=
        CheckedInt.exists_exact (Int64.minValue.toInt - offsetNs.toInt) (by omega) (by omega)
      refine ⟨_, congrArg (Option.map _) hsub, ?_⟩
      rw [decide_eq_false_iff_not, Int64.lt_iff_toInt_lt]
      omega
    · rename_i hpos hneg
      rw [Int64.lt_iff_toInt_lt] at hpos hneg
      refine ⟨false, rfl, ?_⟩
      simp only [true_iff]
      omega

/-- The offset is lowered to the least one. -/
theorem ratchet_spec {offsetNs deviceNs : Int64} (hdevice : 0 ≤ deviceNs.toInt) (hreceived : 0 < receivedNs.toInt)
    (hlow : -2 ^ 63 ≤ offsetNs.toInt + deviceNs.toInt) (hhigh : offsetNs.toInt + deviceNs.toInt < 2 ^ 63) :
    ∃ lowered mapped, ratchet offsetNs deviceNs receivedNs = some (lowered, mapped)
      ∧ lowered.toInt = min offsetNs.toInt (receivedNs.toInt - deviceNs.toInt)
      ∧ mapped.toInt = lowered.toInt + deviceNs.toInt := by
  have hreceivedLt := receivedNs.toInt_lt
  have hdeviceLt := deviceNs.toInt_lt
  obtain ⟨mapped, hadd, hmapped⟩ := CheckedInt.exists_exact _ hlow hhigh
  have hadd' : CheckedInt.add offsetNs deviceNs = some mapped := hadd
  unfold ratchet
  rw [hadd']
  simp only [bind_eq_bind, bind_some]
  split <;> rename_i hlate <;> rw [Int64.lt_iff_toInt_lt] at hlate
  · obtain ⟨late, hsub, hlateNs⟩ :=
      CheckedInt.exists_exact (mapped.toInt - receivedNs.toInt) (by omega) (by omega)
    have hsub' : CheckedInt.sub mapped receivedNs = some late := hsub
    -- the lowered offset is this sample's own, whose range is known
    obtain ⟨lowered, hlower, hlowered⟩ :=
      CheckedInt.exists_exact (offsetNs.toInt - late.toInt) (by omega) (by omega)
    have hlower' : CheckedInt.sub offsetNs late = some lowered := hlower
    rw [hsub', bind_some, hlower', bind_some]
    exact ⟨lowered, receivedNs, rfl, by omega, by omega⟩
  · exact ⟨offsetNs, mapped, rfl, by omega, hmapped⟩

/-! ## What one call can do -/

variable (deviceTimestampMs : UInt32)

@[simp] theorem countWrap_initialized : (mapper.countWrap deviceTimestampMs).initialized = mapper.initialized := by
  unfold countWrap
  split <;> rfl

@[simp] theorem countWrap_realtimeOffsetNs :
    (mapper.countWrap deviceTimestampMs).realtimeOffsetNs = mapper.realtimeOffsetNs := by
  unfold countWrap
  split <;> rfl

@[simp] theorem countWrap_lastSampleRealtimeNs :
    (mapper.countWrap deviceTimestampMs).lastSampleRealtimeNs = mapper.lastSampleRealtimeNs := by
  unfold countWrap
  split <;> rfl

theorem received_pos {output : Bool} (h : mapper.argumentsValid output receivedNs = true) : 0 < receivedNs.toInt := by
  have hzero : (0 : Int64).toInt = 0 := rfl
  simp only [argumentsValid, Bool.not_or, Bool.and_eq_true, Bool.not_eq_true', decide_eq_false_iff_not,
    Int64.not_le, Int64.lt_iff_toInt_lt, hzero] at h
  exact h.1.2

/-- `Map` leaves by one of its exits, or accepts the sample. -/
theorem map_cases (output : Bool) (deviceTimestampMs : UInt32) (receivedNs : Int64) :
    (∃ exit, mapper.map output deviceTimestampMs receivedNs = some (mapper, .error exit)
      ∧ (mapper.argumentsValid output receivedNs = false ∧ exit = .arguments
        ∨ mapper.deviceWentBack deviceTimestampMs = true ∧ exit = .deviceBackwards)) ∨
    (mapper.argumentsValid output receivedNs = true ∧ mapper.deviceWentBack deviceTimestampMs = false
      ∧ ∃ counted deviceNs, counted = mapper.countWrap deviceTimestampMs
        ∧ deviceNs = deviceTimeNs counted.wrapCount.toNat deviceTimestampMs.toNat ∧ ((2 ^ 63 ≤ deviceNs
            ∧ mapper.map output deviceTimestampMs receivedNs = some (counted, .error .deviceRange))
          ∨ (∃ offsetNs : Int64, offsetNs.toInt = mapper.startOffset deviceNs receivedNs.toInt
            ∧ ¬ (-2 ^ 63 ≤ offsetNs.toInt + deviceNs ∧ offsetNs.toInt + deviceNs < 2 ^ 63)
            ∧ mapper.map output deviceTimestampMs receivedNs
              = some ({ counted with realtimeOffsetNs := offsetNs }, .error .sampleRange))
          ∨ (∃ offsetNs mapped : Int64, deviceNs < 2 ^ 63
              ∧ offsetNs.toInt
                = min (mapper.startOffset deviceNs receivedNs.toInt) (receivedNs.toInt - deviceNs)
              ∧ mapped.toInt = offsetNs.toInt + deviceNs
              ∧ mapper.map output deviceTimestampMs receivedNs
                = some ({ counted with realtimeOffsetNs := offsetNs }.accept deviceTimestampMs
                  receivedNs mapped)))) := by
  unfold map
  cases hargs : mapper.argumentsValid output receivedNs with
  | false => exact .inl ⟨.arguments, rfl, .inl ⟨rfl, rfl⟩⟩
  | true =>
    cases hback : mapper.deviceWentBack deviceTimestampMs with
    | true => exact .inl ⟨.deviceBackwards, rfl, .inr ⟨rfl, rfl⟩⟩
    | false =>
      refine .inr ⟨rfl, rfl, mapper.countWrap deviceTimestampMs, _, rfl, rfl, ?_⟩
      simp only [Bool.not_true, Bool.false_eq_true, if_false]
      have hreceived := mapper.received_pos hargs
      cases hdevice :
          deviceNanoseconds (mapper.countWrap deviceTimestampMs).wrapCount deviceTimestampMs with
      | none =>
        -- a device time that fitted would have been returned
        refine .inl ⟨Int.not_lt.mp fun hfits => ?_, rfl⟩
        obtain ⟨ns, -, hns⟩ := CheckedInt.exists_exact _
          (Int.le_trans (by decide) (deviceTimeNs_nonneg
            (mapper.countWrap deviceTimestampMs).wrapCount.toNat deviceTimestampMs.toNat))
          hfits
        rw [deviceNanoseconds_eq_some.mpr hns] at hdevice
        cases hdevice
      | some ns =>
        refine .inr ?_
        have hns := deviceNanoseconds_eq_some.mp hdevice
        have hnonneg : 0 ≤ ns.toInt := by
          rw [hns]
          exact deviceTimeNs_nonneg _ _
        rw [← hns]
        obtain ⟨offsetNs, hanchor, hoffset⟩ :=
          (mapper.countWrap deviceTimestampMs).anchor_spec hnonneg hreceived
        have hstart : (mapper.countWrap deviceTimestampMs).startOffset ns.toInt receivedNs.toInt
            = mapper.startOffset ns.toInt receivedNs.toInt := by
          unfold startOffset countWrap
          split <;> rfl
        rw [hstart] at hoffset
        obtain ⟨outOfRange, hrange, hiff⟩ := sampleOutOfRange_spec offsetNs ns
        simp only [hanchor, hrange, bind_eq_bind, bind_some]
        cases outOfRange with
        | true =>
          refine .inl ⟨offsetNs, hoffset, ?_, rfl⟩
          rw [← hiff]
          decide
        | false =>
          obtain ⟨hlow, hhigh⟩ := hiff.mp rfl
          obtain ⟨lowered, mapped, hratchet, hlowered, hmapped⟩ :=
            ratchet_spec hnonneg hreceived hlow hhigh
          refine .inr ⟨lowered, mapped, ns.toInt_lt, ?_, hmapped, ?_⟩
          · rw [hlowered, hoffset]
          · simp only [hratchet, bind_some, Bool.false_eq_true, if_false]

/-- **No signed operation of `Map` overflows**, in any state and for any arguments. -/
theorem map_isSome (output : Bool) (deviceTimestampMs : UInt32) (receivedNs : Int64) :
    (mapper.map output deviceTimestampMs receivedNs).isSome = true := by
  rcases mapper.map_cases output deviceTimestampMs receivedNs with
    ⟨_, h, _⟩ | ⟨_, _, _, _, _, _, ⟨_, h⟩ | ⟨_, _, _, h⟩ | ⟨_, _, _, _, _, h⟩⟩ <;> rw [h] <;> rfl

end ChassisOdometryTimeMapper

end Cockpit.Vehicle
