/-
  PCM formats (`driver/audio/frames/pcm_format.cc`), and samples as little-endian bytes.
-/
import Cockpit.Lib.LittleEndian

namespace Cockpit.Audio

open LittleEndian List

/-- The one format of samples. -/
inductive PcmSampleFormat where
  | signed16LittleEndian
  deriving DecidableEq

/-- `PcmFormat`. -/
structure PcmFormat where
  sampleRateHz : Int := 16000
  channels : Int := 1
  frameMs : Int := 20
  sampleFormat : PcmSampleFormat := .signed16LittleEndian
  deriving DecidableEq

namespace PcmFormat

/-- `BytesPerSample`. -/
def bytesPerSample (format : PcmFormat) : Nat :=
  if format.sampleFormat = .signed16LittleEndian then 2 else 0

/-- One sample of each channel. -/
def bytesPerFrame (format : PcmFormat) : Nat := format.bytesPerSample * format.channels.toNat

/-- How many of these a period has. -/
def framesPerPeriod (format : PcmFormat) : Nat := format.sampleRateHz.toNat * format.frameMs.toNat / 1000

/-- The error names the field. -/
def isValid (format : PcmFormat) : Except String Unit :=
  if format.sampleRateHz < 8000 ∨ format.sampleRateHz > 192000 then
    .error "sample_rate_hz must be between 8000 and 192000"
  else if format.channels < 1 ∨ format.channels > 8 then .error "channels must be between 1 and 8"
  else if format.frameMs < 1 ∨ format.frameMs > 100 then .error "frame_ms must be between 1 and 100"
  else if format.framesPerPeriod = 0 then .error "audio period must contain at least one frame"
  else if format.sampleFormat ≠ .signed16LittleEndian then .error "unsupported PCM sample format"
  else .ok ()

/-- What a valid format promises. -/
theorem range_of_isValid {format : PcmFormat} (h : format.isValid = .ok ()) :
    8000 ≤ format.sampleRateHz ∧ format.sampleRateHz ≤ 192000 ∧ 1 ≤ format.channels ∧
      format.channels ≤ 8 := by
  unfold isValid at h
  split at h
  · cases h
  · split at h
    · cases h
    · omega

/-- Nothing else is checked. -/
theorem isValid_of_range {format : PcmFormat} (hrate : 8000 ≤ format.sampleRateHz ∧ format.sampleRateHz ≤ 192000)
    (hchannels : 1 ≤ format.channels ∧ format.channels ≤ 8) (hframe : format.frameMs = 20) :
    format.isValid = .ok () := by
  have hperiod : format.framesPerPeriod ≠ 0 := by
    have hms : format.frameMs.toNat = 20 := by rw [hframe]; rfl
    unfold framesPerPeriod
    rw [hms]
    omega
  have hformat : format.sampleFormat = .signed16LittleEndian := by cases format.sampleFormat; rfl
  unfold isValid
  rw [if_neg (by omega), if_neg (by omega), if_neg (by omega), if_neg hperiod, if_neg (by simp [hformat])]

end PcmFormat

/-! ## Samples as bytes -/

/-- Two bytes, the lower first. -/
def sampleBytes (sample : Int16) : List UInt8 := put 2 sample.toUInt16.toNat

theorem length_sampleBytes (sample : Int16) : (sampleBytes sample).length = 2 := length_put _ _

theorem length_flatMap_sampleBytes (samples : List Int16) :
    (samples.flatMap sampleBytes).length = samples.length * 2 := by
  induction samples with
  | nil => rfl
  | cons sample samples ih =>
    rw [flatMap_cons, length_append, ih, length_sampleBytes, length_cons]
    omega

theorem drop_flatMap_sampleBytes (samples : List Int16) (i : Nat) :
    (samples.flatMap sampleBytes).drop (i * 2) = (samples.drop i).flatMap sampleBytes := by
  induction i generalizing samples with
  | zero => rw [Nat.zero_mul, drop_zero, drop_zero]
  | succ i ih =>
    cases samples with
    | nil => simp
    | cons sample samples =>
      rw [flatMap_cons, Nat.succ_mul, Nat.add_comm, ← drop_drop,
        drop_left' (length_sampleBytes sample), ih, drop_succ_cons]

end Cockpit.Audio
