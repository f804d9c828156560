/-
  `AudioFrame`: 20 ms of samples, with a sequence number, the time of capture and flags.
-/

namespace Cockpit.Audio

/-- A set of flags, one bit each. -/
abbrev AudioFrameFlag := UInt32

namespace AudioFrameFlag

def kNone : AudioFrameFlag := 0

def kDiscontinuity : AudioFrameFlag := (1 : UInt32) <<< 0

def kRecoveredFromXrun : AudioFrameFlag := (1 : UInt32) <<< 1

def kDroppedBefore : AudioFrameFlag := (1 : UInt32) <<< 2

end AudioFrameFlag

def kSampleRateHz : Nat := 16000

def kChannels : Nat := 1

def kFrameMs : Nat := 20

/-- The samples of 20 ms. -/
def kSampleCount : Nat := kSampleRateHz * kFrameMs / 1000

/-- A sample count that is not `kSampleCount` cannot be built. -/
structure AudioFrame where
  sequence : UInt64
  captureTimeNs : Int64
  flags : AudioFrameFlag
  samples : List Int16
  samples_length : samples.length = kSampleCount
  deriving DecidableEq

namespace AudioFrame

/-- One of these bits is set. -/
def hasFlag (frame : AudioFrame) (flag : AudioFrameFlag) : Bool := frame.flags &&& flag ≠ 0

def withFlags (frame : AudioFrame) (flags : AudioFrameFlag) : AudioFrame := { frame with flags := flags }

theorem hasFlag_withFlags_or (frame : AudioFrame) (flags : AudioFrameFlag) {flag : AudioFrameFlag}
    (hflag : flag ≠ 0) : (frame.withFlags (flags ||| flag)).hasFlag flag = true := by
  have habsorb : (flags ||| flag) &&& flag = flag := by
    apply UInt32.toBitVec_inj.mp
    ext i
    simp only [UInt32.toBitVec_and, UInt32.toBitVec_or, BitVec.getElem_and, BitVec.getElem_or]
    cases flag.toBitVec[i] <;> simp
  unfold hasFlag withFlags
  rw [habsorb]
  exact decide_eq_true hflag

theorem samples_ne_nil (frame : AudioFrame) : frame.samples ≠ [] := by
  intro hnil
  have hlen := frame.samples_length
  rw [hnil] at hlen
  exact absurd hlen (by decide)

theorem length_flatMap_samples (frames : List AudioFrame) :
    (frames.flatMap samples).length = frames.length * kSampleCount := by
  induction frames with
  | nil => rfl
  | cons frame frames ih =>
    rw [List.flatMap_cons, List.length_append, frame.samples_length, ih, List.length_cons,
      Nat.add_mul, Nat.one_mul, Nat.add_comm]

end AudioFrame

end Cockpit.Audio
