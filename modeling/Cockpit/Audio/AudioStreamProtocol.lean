/-
  The packets of the audio stream (`driver/audio/transport/audio_stream_protocol.cc`): a header of 48 bytes and
  the samples of one frame, all of it little-endian at fixed offsets. Encoder and decoder go by the same table
  of offsets.
-/
import Cockpit.Audio.AudioFrame
import Cockpit.Audio.PcmFormat

namespace Cockpit.Audio.StreamProtocol

open LittleEndian List

/-! ## The code -/

def kAudioStreamProtocolVersion : UInt16 := 1
def kAudioStreamHeaderBytes : Nat := 48
def kAudioStreamCapturePacketBytes : Nat := kAudioStreamHeaderBytes + kSampleCount * 2

def kMagic : UInt32 := 0x41554443
def kCaptureFrameMessage : UInt16 := 1
def kMagicOffset : Nat := 0
def kVersionOffset : Nat := 4
def kMessageOffset : Nat := 6
def kPacketSizeOffset : Nat := 8
def kFlagsOffset : Nat := 12
def kSequenceOffset : Nat := 16
def kCaptureTimeOffset : Nat := 24
def kSampleRateOffset : Nat := 32
def kChannelsOffset : Nat := 36
def kSampleCountOffset : Nat := 40
def kReservedOffset : Nat := 44
def kSamplesOffset : Nat := kAudioStreamHeaderBytes

def putUint16 (output : List UInt8) (offset : Nat) (value : UInt16) : List UInt8 :=
  write 2 output offset value.toNat

def putUint32 (output : List UInt8) (offset : Nat) (value : UInt32) : List UInt8 :=
  write 4 output offset value.toNat

def putUint64 (output : List UInt8) (offset : Nat) (value : UInt64) : List UInt8 :=
  write 8 output offset value.toNat

def getUint16 (input : List UInt8) (offset : Nat) : UInt16 := UInt16.ofNat (read 2 input offset)

def getUint32 (input : List UInt8) (offset : Nat) : UInt32 := UInt32.ofNat (read 4 input offset)

def getUint64 (input : List UInt8) (offset : Nat) : UInt64 := UInt64.ofNat (read 8 input offset)

/-- Sample by sample. -/
def putSamples : List Int16 → Nat → List UInt8 → List UInt8
  | [], _, packet => packet
  | sample :: samples, index, packet =>
    putSamples samples (index + 1) (putUint16 packet (kSamplesOffset + index * 2) sample.toUInt16)

/-- The numbers are written to a cleared packet one by one. -/
def encodeAudioStreamCaptureFrame (frame : AudioFrame) : List UInt8 :=
  let packet := List.replicate kAudioStreamCapturePacketBytes 0
  let packet := putUint32 packet kMagicOffset kMagic
  let packet := putUint16 packet kVersionOffset kAudioStreamProtocolVersion
  let packet := putUint16 packet kMessageOffset kCaptureFrameMessage
  let packet := putUint32 packet kPacketSizeOffset (UInt32.ofNat kAudioStreamCapturePacketBytes)
  let packet := putUint32 packet kFlagsOffset frame.flags
  let packet := putUint64 packet kSequenceOffset frame.sequence
  let packet := putUint64 packet kCaptureTimeOffset frame.captureTimeNs.toUInt64
  let packet := putUint32 packet kSampleRateOffset (UInt32.ofNat kSampleRateHz)
  let packet := putUint32 packet kChannelsOffset (UInt32.ofNat kChannels)
  let packet := putUint32 packet kSampleCountOffset (UInt32.ofNat kSampleCount)
  let packet := putUint32 packet kReservedOffset 0
  putSamples frame.samples 0 packet

/-- Other flags are refused. -/
def kKnownFlags : UInt32 :=
  AudioFrameFlag.kDiscontinuity ||| AudioFrameFlag.kRecoveredFromXrun ||| AudioFrameFlag.kDroppedBefore

/-- As many as a frame has. -/
def getSamples (bytes : List UInt8) : List Int16 :=
  (List.range kSampleCount).map fun index => (getUint16 bytes (kSamplesOffset + index * 2)).toInt16

theorem length_getSamples (bytes : List UInt8) : (getSamples bytes).length = kSampleCount := by
  rw [getSamples, length_map, length_range]

/-- The header is checked first. -/
def decodeAudioStreamCaptureFrame (packet : Option (List UInt8)) : Except String AudioFrame :=
  match packet with
  | none => .error "audio stream packet is null"
  | some bytes =>
    if bytes.length ≠ kAudioStreamCapturePacketBytes then .error "audio stream packet size is invalid"
    else if getUint32 bytes kMagicOffset ≠ kMagic then .error "audio stream packet magic is invalid"
    else if getUint16 bytes kVersionOffset ≠ kAudioStreamProtocolVersion then
      .error "audio stream protocol version is incompatible"
    else if getUint16 bytes kMessageOffset ≠ kCaptureFrameMessage then
      .error "audio stream message type is unsupported"
    else if (getUint32 bytes kPacketSizeOffset).toNat ≠ kAudioStreamCapturePacketBytes then
      .error "audio stream packet declares an invalid size"
    else if (getUint32 bytes kSampleRateOffset).toNat ≠ kSampleRateHz ∨
        (getUint32 bytes kChannelsOffset).toNat ≠ kChannels ∨
        (getUint32 bytes kSampleCountOffset).toNat ≠ kSampleCount then
      .error "audio stream PCM format is incompatible"
    else if getUint32 bytes kFlagsOffset &&& ~~~kKnownFlags ≠ 0 then
      .error "audio stream frame flags are invalid"
    else .ok
      { sequence := getUint64 bytes kSequenceOffset
        captureTimeNs := (getUint64 bytes kCaptureTimeOffset).toInt64
        flags := getUint32 bytes kFlagsOffset
        samples := getSamples bytes
        samples_length := length_getSamples bytes }

/-! ## The packet as a whole -/

theorem putSamples_eq (samples : List Int16) (index : Nat) (before : List UInt8) (n : Nat)
    (hbefore : before.length = kSamplesOffset + index * 2) (hn : n = samples.length * 2) :
    putSamples samples index (before ++ List.replicate n 0) = before ++ samples.flatMap sampleBytes := by
  induction samples generalizing index before n with
  | nil =>
    rw [hn]
    simp [putSamples]
  | cons sample samples ih =>
    rw [length_cons] at hn
    rw [putSamples, putUint16, write_next _ (by omega) hbefore, ih]
    · rw [flatMap_cons, append_assoc]
      rfl
    · rw [length_append, length_put, hbefore]
      omega
    · omega

/-- The header, with the widths of its numbers. -/
def headerNumbers (frame : AudioFrame) : List (Nat × Nat) :=
  [ (4, kMagic.toNat),
    (2, kAudioStreamProtocolVersion.toNat),
    (2, kCaptureFrameMessage.toNat),
    (4, kAudioStreamCapturePacketBytes),
    (4, frame.flags.toNat),
    (8, frame.sequence.toNat),
    (8, frame.captureTimeNs.toUInt64.toNat),
    (4, kSampleRateHz),
    (4, kChannels),
    (4, kSampleCount),
    (4, 0) ]

/-- The table leaves no gap. -/
theorem encode_eq (frame : AudioFrame) :
    encodeAudioStreamCaptureFrame frame = row (headerNumbers frame) ++ frame.samples.flatMap sampleBytes := by
  have hempty : List.replicate kAudioStreamCapturePacketBytes (0 : UInt8) =
      [] ++ List.replicate kAudioStreamCapturePacketBytes 0 := (nil_append _).symm
  simp only [encodeAudioStreamCaptureFrame, putUint16, putUint32, putUint64]
  rw [hempty, write_next, write_next, write_next, write_next, write_next, write_next, write_next,
    write_next, write_next, write_next, write_next, putSamples_eq]
  · simp only [row, headerNumbers, flatMap_cons, flatMap_nil, append_nil, nil_append, append_assoc]
    rfl
  · simp only [length_append, length_put, length_nil]
    rfl
  · rw [frame.samples_length]
    rfl
  -- each number ends where the table has the next one
  all_goals first
    | decide
    | (simp only [length_append, length_put, length_nil]; rfl)

theorem length_encode (frame : AudioFrame) :
    (encodeAudioStreamCaptureFrame frame).length = kAudioStreamCapturePacketBytes := by
  rw [encode_eq, length_append, length_flatMap_sampleBytes, frame.samples_length]
  rfl

/-! ## Frames come back -/

variable {bytes : List UInt8} {offset : Nat}

theorem getUint16_eq (h : offset + 2 ≤ bytes.length) :
    getUint16 bytes offset = UInt16.ofNat (field bytes offset 2) := by
  rw [getUint16, read_eq h, field]

theorem getUint32_eq (h : offset + 4 ≤ bytes.length) :
    getUint32 bytes offset = UInt32.ofNat (field bytes offset 4) := by
  rw [getUint32, read_eq h, field]

theorem getUint64_eq (h : offset + 8 ≤ bytes.length) :
    getUint64 bytes offset = UInt64.ofNat (field bytes offset 8) := by
  rw [getUint64, read_eq h, field]

/-- What the decoder finds at its offsets. -/
structure Fields (frame : AudioFrame) (bytes : List UInt8) : Prop where
  magic : getUint32 bytes kMagicOffset = kMagic
  version : getUint16 bytes kVersionOffset = kAudioStreamProtocolVersion
  message : getUint16 bytes kMessageOffset = kCaptureFrameMessage
  packetSize : (getUint32 bytes kPacketSizeOffset).toNat = kAudioStreamCapturePacketBytes
  flags : getUint32 bytes kFlagsOffset = frame.flags
  sequence : getUint64 bytes kSequenceOffset = frame.sequence
  captureTime : (getUint64 bytes kCaptureTimeOffset).toInt64 = frame.captureTimeNs
  sampleRate : (getUint32 bytes kSampleRateOffset).toNat = kSampleRateHz
  channels : (getUint32 bytes kChannelsOffset).toNat = kChannels
  sampleCount : (getUint32 bytes kSampleCountOffset).toNat = kSampleCount
  samples : getSamples bytes = frame.samples

theorem field_encode (frame : AudioFrame) (i : Nat) {k n : Nat} (hnum : (headerNumbers frame)[i]? = some (k, n))
    (hoffset : (row ((headerNumbers frame).take i)).length = offset) (h : n < 256 ^ k) :
    field (encodeAudioStreamCaptureFrame frame) offset k = n := by
  rw [encode_eq]
  exact field_row i _ hnum hoffset h

theorem fields_encode (frame : AudioFrame) : Fields frame (encodeAudioStreamCaptureFrame frame) := by
  have hlen := length_encode frame
  have hmagic : field (encodeAudioStreamCaptureFrame frame) kMagicOffset 4 = kMagic.toNat :=
    field_encode frame 0 rfl rfl (by decide)
  have hver : field (encodeAudioStreamCaptureFrame frame) kVersionOffset 2 = kAudioStreamProtocolVersion.toNat :=
    field_encode frame 1 rfl rfl (by decide)
  have hmessage : field (encodeAudioStreamCaptureFrame frame) kMessageOffset 2 = kCaptureFrameMessage.toNat :=
    field_encode frame 2 rfl rfl (by decide)
  have hpacketSize : field (encodeAudioStreamCaptureFrame frame) kPacketSizeOffset 4 = kAudioStreamCapturePacketBytes :=
    field_encode frame 3 rfl rfl (by decide)
  have hflags : field (encodeAudioStreamCaptureFrame frame) kFlagsOffset 4 = frame.flags.toNat :=
    field_encode frame 4 rfl rfl frame.flags.toNat_lt
  have hseq : field (encodeAudioStreamCaptureFrame frame) kSequenceOffset 8 = frame.sequence.toNat :=
    field_encode frame 5 rfl rfl frame.sequence.toNat_lt
  have hcaptureTime : field (encodeAudioStreamCaptureFrame frame) kCaptureTimeOffset 8 = frame.captureTimeNs.toUInt64.toNat :=
    field_encode frame 6 rfl rfl (UInt64.toNat_lt _)
  have hsampleRate : field (encodeAudioStreamCaptureFrame frame) kSampleRateOffset 4 = kSampleRateHz :=
    field_encode frame 7 rfl rfl (by decide)
  have hchannels : field (encodeAudioStreamCaptureFrame frame) kChannelsOffset 4 = kChannels :=
    field_encode frame 8 rfl rfl (by decide)
  have hsampleCount : field (encodeAudioStreamCaptureFrame frame) kSampleCountOffset 4 = kSampleCount :=
    field_encode frame 9 rfl rfl (by decide)
  constructor
  · rw [getUint32_eq (by rw [hlen]; decide), hmagic]
    rfl
  · rw [getUint16_eq (by rw [hlen]; decide), hver]
    rfl
  · rw [getUint16_eq (by rw [hlen]; decide), hmessage]
    rfl
  · rw [getUint32_eq (by rw [hlen]; decide), hpacketSize]
    rfl
  · rw [getUint32_eq (by rw [hlen]; decide), hflags]
    exact UInt32.ofNat_toNat
  · rw [getUint64_eq (by rw [hlen]; decide), hseq]
    exact UInt64.ofNat_toNat
  · rw [getUint64_eq (by rw [hlen]; decide), hcaptureTime]
    rw [UInt64.ofNat_toNat]
    exact Int64.toInt64_toUInt64 _
  · rw [getUint32_eq (by rw [hlen]; decide), hsampleRate]
    rfl
  · rw [getUint32_eq (by rw [hlen]; decide), hchannels]
    rfl
  · rw [getUint32_eq (by rw [hlen]; decide), hsampleCount]
    rfl
  · apply ext_getElem
    · rw [length_getSamples, frame.samples_length]
    · intro i hi hi'
      rw [length_getSamples] at hi
      have hoffset : kSamplesOffset + i * 2 + 2 ≤ (encodeAudioStreamCaptureFrame frame).length := by
        rw [hlen]
        unfold kAudioStreamCapturePacketBytes kSamplesOffset
        omega
      have hheader : (row (headerNumbers frame)).length = kSamplesOffset := rfl
      have hsample : field (encodeAudioStreamCaptureFrame frame) (kSamplesOffset + i * 2) 2 =
          (frame.samples.get ⟨i, hi'⟩).toUInt16.toNat := by
        rw [field, encode_eq, ← drop_drop, drop_left' hheader, drop_flatMap_sampleBytes,
          drop_eq_getElem_cons hi', flatMap_cons,
          take_left' (length_sampleBytes _)]
        exact get_put (UInt16.toNat_lt _)
      simp only [getSamples, getElem_map, getElem_range, getUint16_eq hoffset, hsample,
        UInt16.ofNat_toNat, Int16.toInt16_toUInt16]
      rfl

variable {frame : AudioFrame}

/-- **What is accepted**, and as what. -/
theorem decode_eq_ok :
    decodeAudioStreamCaptureFrame (some bytes) = .ok frame ↔
      bytes.length = kAudioStreamCapturePacketBytes ∧ Fields frame bytes ∧
        frame.flags &&& ~~~kKnownFlags = 0 := by
  constructor
  · intro h
    unfold decodeAudioStreamCaptureFrame at h
    dsimp only at h
    repeat' split at h
    all_goals try cases h
    rename_i hlen hmagic hver hmessage hsize hformat hflags
    simp only [not_or, Decidable.not_not] at *
    exact ⟨hlen, ⟨hmagic, hver, hmessage, hsize, rfl, rfl, rfl, hformat.1, hformat.2.1,
      hformat.2.2, rfl⟩, hflags⟩
  · rintro ⟨hlen, hfields, hflags⟩
    obtain ⟨sequence, captureTimeNs, flags, samples, hsamples⟩ := frame
    simp only [decodeAudioStreamCaptureFrame, hlen, hfields.magic, hfields.version,
      hfields.message, hfields.packetSize, hfields.sampleRate, hfields.channels, hfields.sampleCount,
      hfields.sequence, hfields.captureTime, hfields.flags, hfields.samples]
    simpa using hflags

/-! ## Packets come back -/

theorem field_of_getUint16 (h : offset + 2 ≤ bytes.length) :
    (getUint16 bytes offset).toNat = field bytes offset 2 := by
  rw [getUint16_eq h, UInt16.toNat_ofNat']
  exact Nat.mod_eq_of_lt (field_lt h)

theorem field_of_getUint32 (h : offset + 4 ≤ bytes.length) :
    (getUint32 bytes offset).toNat = field bytes offset 4 := by
  rw [getUint32_eq h, UInt32.toNat_ofNat']
  exact Nat.mod_eq_of_lt (field_lt h)

theorem field_of_getUint64 (h : offset + 8 ≤ bytes.length) :
    (getUint64 bytes offset).toNat = field bytes offset 8 := by
  rw [getUint64_eq h, UInt64.toNat_ofNat']
  exact Nat.mod_eq_of_lt (field_lt h)

theorem flatMap_getSamples (hlen : bytes.length = kAudioStreamCapturePacketBytes) :
    (getSamples bytes).flatMap sampleBytes = bytes.drop kSamplesOffset := by
  have hsum : kAudioStreamCapturePacketBytes = kSamplesOffset + kSampleCount * 2 := rfl
  suffices h : ∀ n ≤ kSampleCount,
      ((List.range n).map fun index => (getUint16 bytes (kSamplesOffset + index * 2)).toInt16).flatMap
        sampleBytes = (bytes.drop kSamplesOffset).take (n * 2) by
    rw [getSamples, h _ (Nat.le_refl _)]
    apply take_of_length_le
    rw [length_drop]
    omega
  intro n
  induction n with
  | zero =>
    intro _
    rw [Nat.zero_mul, take_zero]
    rfl
  | succ n ih =>
    intro hn
    have hoffset : kSamplesOffset + n * 2 + 2 ≤ bytes.length := by omega
    have hsample : sampleBytes (getUint16 bytes (kSamplesOffset + n * 2)).toInt16 =
        ((bytes.drop kSamplesOffset).drop (n * 2)).take 2 := by
      rw [sampleBytes, UInt16.toUInt16_toInt16, field_of_getUint16 hoffset, put_field hoffset, drop_drop]
    rw [range_succ, map_append, flatMap_append, ih (by omega), Nat.succ_mul, take_add, ← hsample]
    simp

/-- A packet that is accepted is that of its frame, except for the reserved bytes. -/
theorem encode_of_decode (h : decodeAudioStreamCaptureFrame (some bytes) = .ok frame) :
    encodeAudioStreamCaptureFrame frame =
      bytes.take kReservedOffset ++ (List.replicate 4 0 ++ bytes.drop kSamplesOffset) := by
  obtain ⟨hlen, hfields, -⟩ := decode_eq_ok.1 h
  have hin : ∀ offset k, offset + k ≤ kAudioStreamCapturePacketBytes → offset + k ≤ bytes.length := by
    intro offset k hle
    rw [hlen]
    exact hle
  have hnumbers : headerNumbers frame = fieldsFrom bytes 0 [4, 2, 2, 4, 4, 8, 8, 4, 4, 4] ++ [(4, 0)] := by
    have hmagic : field bytes kMagicOffset 4 = kMagic.toNat := by
      rw [← field_of_getUint32 (hin _ 4 (by decide)), hfields.magic]
    have hver : field bytes kVersionOffset 2 = kAudioStreamProtocolVersion.toNat := by
      rw [← field_of_getUint16 (hin _ 2 (by decide)), hfields.version]
    have hmessage : field bytes kMessageOffset 2 = kCaptureFrameMessage.toNat := by
      rw [← field_of_getUint16 (hin _ 2 (by decide)), hfields.message]
    have hpacketSize : field bytes kPacketSizeOffset 4 = kAudioStreamCapturePacketBytes := by
      rw [← field_of_getUint32 (hin _ 4 (by decide)), hfields.packetSize]
    have hflags : field bytes kFlagsOffset 4 = frame.flags.toNat := by
      rw [← field_of_getUint32 (hin _ 4 (by decide)), hfields.flags]
    have hseq : field bytes kSequenceOffset 8 = frame.sequence.toNat := by
      rw [← field_of_getUint64 (hin _ 8 (by decide)), hfields.sequence]
    have hcaptureTime : field bytes kCaptureTimeOffset 8 = frame.captureTimeNs.toUInt64.toNat := by
      rw [← field_of_getUint64 (hin _ 8 (by decide)), ← hfields.captureTime, UInt64.toUInt64_toInt64]
    have hsampleRate : field bytes kSampleRateOffset 4 = kSampleRateHz := by
      rw [← field_of_getUint32 (hin _ 4 (by decide)), hfields.sampleRate]
    have hchannels : field bytes kChannelsOffset 4 = kChannels := by
      rw [← field_of_getUint32 (hin _ 4 (by decide)), hfields.channels]
    have hsampleCount : field bytes kSampleCountOffset 4 = kSampleCount := by
      rw [← field_of_getUint32 (hin _ 4 (by decide)), hfields.sampleCount]
    rw [headerNumbers, ← hmagic, ← hver, ← hmessage, ← hpacketSize, ← hflags, ← hseq,
      ← hcaptureTime, ← hsampleRate, ← hchannels, ← hsampleCount]
    rfl
  have hrow : row (headerNumbers frame) = bytes.take kReservedOffset ++ List.replicate 4 0 := by
    rw [hnumbers, row, flatMap_append, ← row,
      row_fieldsFrom (n := kReservedOffset) rfl (hin 0 kReservedOffset (by decide))]
    rfl
  rw [encode_eq, hrow, ← hfields.samples, flatMap_getSamples hlen, append_assoc]

theorem decode_encode (hflags : frame.flags &&& ~~~kKnownFlags = 0) :
    decodeAudioStreamCaptureFrame (some (encodeAudioStreamCaptureFrame frame)) = .ok frame :=
  decode_eq_ok.2 ⟨length_encode frame, fields_encode frame, hflags⟩

theorem getElem?_encode_of_decode (h : decodeAudioStreamCaptureFrame (some bytes) = .ok frame) {i : Nat}
    (hi : ¬ (kReservedOffset ≤ i ∧ i < kSamplesOffset)) : (encodeAudioStreamCaptureFrame frame)[i]? = bytes[i]? := by
  obtain ⟨hlen, -⟩ := decode_eq_ok.1 h
  have hsize : kAudioStreamCapturePacketBytes = 688 := rfl
  have hreserved : kReservedOffset = 44 := rfl
  have hsamples : kSamplesOffset = 48 := rfl
  have htake : (bytes.take kReservedOffset).length = kReservedOffset := by
    rw [length_take]
    omega
  rw [encode_of_decode h]
  by_cases hbefore : i < kReservedOffset
  · rw [List.getElem?_append_left (by omega), List.getElem?_take_of_lt hbefore]
  · have hbehind : kSamplesOffset ≤ i := by omega
    have hskip : kSamplesOffset + (i - kReservedOffset - 4) = i := by omega
    rw [List.getElem?_append_right (by omega), htake, List.getElem?_append_right (by simp; omega),
      length_replicate, List.getElem?_drop, hskip]

/-- **The codec of the audio stream**: frames with known flags come back, and so does every accepted
    packet but for its reserved bytes. -/
theorem codec_roundTrip :
    (∀ frame : AudioFrame, frame.flags &&& ~~~kKnownFlags = 0 →
      decodeAudioStreamCaptureFrame (some (encodeAudioStreamCaptureFrame frame)) = .ok frame) ∧
    (∀ (bytes : List UInt8) (frame : AudioFrame),
      decodeAudioStreamCaptureFrame (some bytes) = .ok frame →
      (encodeAudioStreamCaptureFrame frame).length = bytes.length ∧
      ∀ i, ¬ (44 ≤ i ∧ i < 48) → (encodeAudioStreamCaptureFrame frame)[i]? = bytes[i]?) ∧
    (∀ (first second : List UInt8) (frame : AudioFrame),
      decodeAudioStreamCaptureFrame (some first) = .ok frame →
      decodeAudioStreamCaptureFrame (some second) = .ok frame →
      ∀ i, ¬ (44 ≤ i ∧ i < 48) → first[i]? = second[i]?) := by
  refine ⟨?_, ?_, ?_⟩
  · intro frame hflags
    exact decode_encode hflags
  · intro bytes frame h
    refine ⟨?_, fun i hi => getElem?_encode_of_decode h hi⟩
    rw [length_encode, (decode_eq_ok.1 h).1]
  · intro first second frame hfirst hsecond i hi
    rw [← getElem?_encode_of_decode hfirst hi, ← getElem?_encode_of_decode hsecond hi]

/-- All bits set. -/
def loudFrame : AudioFrame where
  sequence := 0xFFFFFFFFFFFFFFFF
  captureTimeNs := -1
  flags := AudioFrameFlag.kDiscontinuity ||| AudioFrameFlag.kDroppedBefore
  samples := List.replicate kSampleCount (-32768)
  samples_length := length_replicate

theorem codec_roundTrip_loudFrame :
    decodeAudioStreamCaptureFrame (some (encodeAudioStreamCaptureFrame loudFrame)) = .ok loudFrame ∧
    (encodeAudioStreamCaptureFrame loudFrame).length = 688 := by
  have hdecode := codec_roundTrip.1 loudFrame (by decide)
  obtain ⟨hlen, -⟩ := codec_roundTrip.2.1 _ _ hdecode
  exact ⟨hdecode, hlen.symm.trans (length_encode loudFrame)⟩

end Cockpit.Audio.StreamProtocol
