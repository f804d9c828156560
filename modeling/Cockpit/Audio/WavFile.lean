/-
  WAV files (`driver/audio/wav/wav_file.cc`): a RIFF header, a format chunk and a data chunk. The sizes are
  those of the file, so a seek may lead behind its end, which is no error; the next read finds out.
-/
import Cockpit.Audio.PcmFormat

namespace Cockpit.Audio

open LittleEndian

/-- `PcmBuffer`. -/
structure PcmBuffer where
  format : PcmFormat := {}
  samples : List Int16 := []
  deriving DecidableEq

def kMaxPcmDataBytes : Nat := 512 * 1024 * 1024

def kRiffTag : List UInt8 := [82, 73, 70, 70]
def kWaveTag : List UInt8 := [87, 65, 86, 69]
def kFormatTag : List UInt8 := [102, 109, 116, 32]
def kDataTag : List UInt8 := [100, 97, 116, 97]

/-! ## Writing -/

/-- What the system says to the output file. -/
inductive OutputAnswer where
  | notOpened
  | notWritten
  | written
  deriving DecidableEq

def writeU16 (output : List UInt8) (value : UInt16) : List UInt8 := output ++ put 2 value.toNat

def writeU32 (output : List UInt8) (value : UInt32) : List UInt8 := output ++ put 4 value.toNat

/-- Without padding: the samples have an even size. -/
def wavBytes (format : PcmFormat) (samples : List Int16) : List UInt8 :=
  let dataBytes := samples.length * 2
  let sampleRate := UInt32.ofNat format.sampleRateHz.toNat
  let output := kRiffTag
  let output := writeU32 output (UInt32.ofNat (36 + dataBytes))
  let output := output ++ kWaveTag
  let output := output ++ kFormatTag
  let output := writeU32 output 16
  let output := writeU16 output 1
  let output := writeU16 output (UInt16.ofNat format.channels.toNat)
  let output := writeU32 output sampleRate
  let output := writeU32 output (sampleRate * UInt32.ofNat format.bytesPerFrame)
  let output := writeU16 output (UInt16.ofNat format.bytesPerFrame)
  let output := writeU16 output 16
  let output := output ++ kDataTag
  let output := writeU32 output (UInt32.ofNat dataBytes)
  samples.foldl (fun output sample => writeU16 output sample.toUInt16) output

/-- `WritePcm16Wav`. -/
def writePcm16Wav (path : String) (format : PcmFormat) (samples : List Int16) (answer : OutputAnswer) :
    Except String (List UInt8) :=
  match format.isValid with
  | .error error => .error ("invalid WAV format: " ++ error)
  | .ok () =>
    if samples.length % format.channels.toNat ≠ 0 then .error "sample count must contain complete PCM frames"
    else if samples.length * 2 > 2 ^ 32 - 1 - 36 then .error "PCM data is too large for a RIFF WAV file"
    else match answer with
      | .notOpened => .error ("failed to open WAV output: " ++ path)
      | .notWritten => .error ("failed to write WAV output: " ++ path)
      | .written => .ok (wavBytes format samples)

/-! ## Reading -/

/-- All of it, or nothing. -/
def readExact (bytes : List UInt8) (pos size : Nat) : Option (List UInt8) :=
  if pos + size ≤ bytes.length then some ((bytes.drop pos).take size) else none

def readU16 (bytes : List UInt8) (pos : Nat) : Option UInt16 :=
  (readExact bytes pos 2).map fun value => UInt16.ofNat (get value)

def readU32 (bytes : List UInt8) (pos : Nat) : Option UInt32 :=
  (readExact bytes pos 4).map fun value => UInt32.ofNat (get value)

/-- What the loop has found. -/
structure WavState where
  foundFormat : Bool := false
  foundData : Bool := false
  audioFormat : UInt16 := 0
  channels : UInt16 := 0
  sampleRate : UInt32 := 0
  bitsPerSample : UInt16 := 0
  samples : List Int16 := []
  deriving DecidableEq

/-- The format chunk. -/
def readFormat (bytes : List UInt8) (start : Nat) (size : UInt32) (state : WavState) : Except String WavState :=
  if size < 16 then .error "invalid WAV format chunk"
  else match readU16 bytes start, readU16 bytes (start + 2), readU32 bytes (start + 4),
      readU32 bytes (start + 8), readU16 bytes (start + 12), readU16 bytes (start + 14) with
    | some audioFormat, some channels, some sampleRate, some _, some _, some bitsPerSample =>
      .ok { state with audioFormat, channels, sampleRate, bitsPerSample, foundFormat := true }
    | _, _, _, _, _, _ => .error "invalid WAV format chunk"

/-- Sample by sample. -/
def readSamples (bytes : List UInt8) : Nat → Nat → Option (List Int16)
  | _, 0 => some []
  | pos, count + 1 =>
    match readU16 bytes pos with
    | none => none
    | some value => (readSamples bytes (pos + 2) count).map (value.toInt16 :: ·)

/-- The data chunk. -/
def readData (bytes : List UInt8) (start : Nat) (size : UInt32) (state : WavState) : Except String WavState :=
  if size.toNat > kMaxPcmDataBytes then .error "WAV data chunk exceeds the supported size limit"
  else if size.toNat % 2 ≠ 0 then .error "WAV PCM16 data size is not sample aligned"
  else match readSamples bytes start (size.toNat / 2) with
    | none => .error "truncated WAV data chunk"
    | some samples => .ok { state with samples, foundData := true }

/-- Unknown chunks are skipped. -/
def readChunk (bytes : List UInt8) (tag : List UInt8) (start : Nat) (size : UInt32) (state : WavState) :
    Except String WavState :=
  if tag = kFormatTag then readFormat bytes start size state
  else if tag = kDataTag then readData bytes start size state
  else .ok state

/-- The next chunk is at an even offset. -/
def paddedSize (size : Nat) : Nat := size + size % 2

inductive ChunkTurn where
  | fails (error : String)
  | leaves (state : WavState)
  | goesOn (pos : Nat) (state : WavState)

/-- Tag and size of a chunk, what it is needed for, and the seek behind it. -/
def chunkTurn (bytes : List UInt8) (pos : Nat) (state : WavState) : ChunkTurn :=
  if state.foundFormat && state.foundData then .leaves state
  else match readExact bytes pos 4, readU32 bytes (pos + 4) with
    | some tag, some size =>
      match readChunk bytes tag (pos + 8) size state with
      | .error error => .fails error
      | .ok state => .goesOn (pos + 8 + paddedSize size.toNat) state
    | _, _ => .leaves state

theorem goesOn_further {bytes : List UInt8} {pos pos' : Nat} {state state' : WavState}
    (h : chunkTurn bytes pos state = .goesOn pos' state') : pos + 8 ≤ bytes.length ∧ pos + 8 ≤ pos' := by
  unfold chunkTurn at h
  split at h
  · cases h
  · split at h
    · rename_i tag size htag hsize
      split at h
      · cases h
      · cases h
        refine ⟨?_, Nat.le_add_right _ _⟩
        unfold readU32 readExact at hsize
        split at hsize
        · omega
        · cases hsize
    · cases h

/-- A turn that goes on goes on at least eight bytes further. -/
def readChunks (bytes : List UInt8) (pos : Nat) (state : WavState) : Except String WavState :=
  match _hturn : chunkTurn bytes pos state with
  | .fails error => .error error
  | .leaves state => .ok state
  | .goesOn pos state => readChunks bytes pos state
termination_by bytes.length - pos
decreasing_by
  have := goesOn_further _hturn
  omega

/-- What is checked behind the loop. -/
def finishWav (state : WavState) : Except String PcmBuffer :=
  if !state.foundFormat || !state.foundData then .error "WAV file must contain format and data chunks"
  else if state.audioFormat ≠ 1 ∨ state.bitsPerSample ≠ 16 then
    .error "only uncompressed PCM16 WAV files are supported"
  else
    let format : PcmFormat := { sampleRateHz := state.sampleRate.toInt32.toInt, channels := state.channels.toNat }
    match format.isValid with
    | .error error => .error ("invalid WAV audio format: " ++ error)
    | .ok () =>
      if state.samples.length % format.channels.toNat ≠ 0 then
        .error "WAV data does not contain complete PCM frames"
      else .ok { format, samples := state.samples }

/-- The file, behind its opening. -/
def readWav (bytes : List UInt8) : Except String PcmBuffer :=
  if readExact bytes 0 4 ≠ some kRiffTag ∨ readU32 bytes 4 = none ∨ readExact bytes 8 4 ≠ some kWaveTag then
    .error "input is not a RIFF WAVE file"
  else match readChunks bytes 12 {} with
    | .error error => .error error
    | .ok state => finishWav state

/-- `ReadPcm16Wav`. -/
def readPcm16Wav (path : String) (file : Option (List UInt8)) (buffer : Option PcmBuffer) :
    Except String Unit × Option PcmBuffer :=
  match buffer with
  | none => (.error "WAV output buffer is null", none)
  | some buffer =>
    match file with
    | none => (.error ("failed to open WAV input: " ++ path), some buffer)
    | some bytes =>
      match readWav bytes with
      | .error error => (.error error, some buffer)
      | .ok result => (.ok (), some result)

end Cockpit.Audio
