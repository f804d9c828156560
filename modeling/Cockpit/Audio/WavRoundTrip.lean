/-
  WAV files that are written come back, whatever stands between their chunks; and one that is cut before the end
  of its samples is refused.
-/
import Cockpit.Audio.WavFile

namespace Cockpit.Audio

open LittleEndian List Option

/-! ## Places -/

/-- The part stands at this position of the file. -/
def At (whole : List UInt8) (pos : Nat) (part : List UInt8) : Prop :=
  ∃ front rest, whole = front ++ (part ++ rest) ∧ front.length = pos

variable {whole : List UInt8} {pos : Nat}

theorem at_append {first second : List UInt8} (h : At whole pos (first ++ second)) :
    At whole pos first ∧ At whole (pos + first.length) second := by
  obtain ⟨front, rest, rfl, rfl⟩ := h
  constructor
  · exact ⟨front, second ++ rest, by rw [append_assoc], rfl⟩
  · exact ⟨front ++ first, rest, by simp only [append_assoc], length_append⟩

theorem readExact_of_at {part : List UInt8} (h : At whole pos part) :
    readExact whole pos part.length = some part := by
  obtain ⟨front, rest, rfl, rfl⟩ := h
  have hle : front.length + part.length ≤ (front ++ (part ++ rest)).length := by
    simp only [length_append]
    omega
  rw [readExact, if_pos hle, drop_left' rfl, take_left' rfl]

variable {n : Nat}

theorem readU16_of_at (h : At whole pos (put 2 n)) (hn : n < 2 ^ 16) : readU16 whole pos = some (UInt16.ofNat n) := by
  have hread := readExact_of_at h
  rw [length_put] at hread
  rw [readU16, hread, map_some, get_put hn]

theorem readU32_of_at (h : At whole pos (put 4 n)) (hn : n < 2 ^ 32) : readU32 whole pos = some (UInt32.ofNat n) := by
  have hread := readExact_of_at h
  rw [length_put] at hread
  rw [readU32, hread, map_some, get_put hn]

/-- What is read of a cut file stands in front of the cut. -/
theorem readExact_take {value : List UInt8} {size : Nat} (h : readExact (whole.take n) pos size = some value) :
    pos + size ≤ n ∧ readExact whole pos size = some value := by
  unfold readExact at h ⊢
  split at h
  · rename_i hle
    rw [length_take] at hle
    have hwhole : pos + size ≤ whole.length := by omega
    refine ⟨by omega, ?_⟩
    rw [if_pos hwhole, ← h, drop_take, take_take]
    congr 2
    omega
  · cases h

theorem readU32_take {value : UInt32} (h : readU32 (whole.take n) pos = some value) :
    pos + 4 ≤ n ∧ readU32 whole pos = some value := by
  obtain ⟨bytes, hbytes, rfl⟩ := map_eq_some_iff.1 h
  obtain ⟨hle, hread⟩ := readExact_take hbytes
  exact ⟨hle, by rw [readU32, hread]; rfl⟩

/-! ## Chunks -/

/-- A chunk of a file; one of odd size has a byte of padding. -/
structure Chunk where
  tag : List UInt8
  body : List UInt8
  pad : UInt8 := 0
  tag_length : tag.length = 4
  body_length : body.length < 2 ^ 32

namespace Chunk

/-- Padded to an even size. -/
def bytes (chunk : Chunk) : List UInt8 :=
  chunk.tag ++ (put 4 chunk.body.length ++ (chunk.body ++ List.replicate (chunk.body.length % 2) chunk.pad))

/-- Neither of the two that are looked for. -/
def Unknown (chunk : Chunk) : Prop := chunk.tag ≠ kFormatTag ∧ chunk.tag ≠ kDataTag

theorem length_bytes (chunk : Chunk) : chunk.bytes.length = 8 + paddedSize chunk.body.length := by
  simp only [bytes, length_append, length_put, length_replicate, chunk.tag_length, paddedSize]
  omega

end Chunk

theorem header_of_at {tag body : List UInt8} (htag : tag.length = 4) (hbody : body.length < 2 ^ 32)
    (h : At whole pos (tag ++ (put 4 body.length ++ body))) :
    readExact whole pos 4 = some tag ∧ readU32 whole (pos + 4) = some (UInt32.ofNat body.length) ∧
      At whole (pos + 8) body := by
  obtain ⟨hat, hrest⟩ := at_append h
  obtain ⟨hsize, hrest⟩ := at_append hrest
  rw [htag] at hsize hrest
  rw [length_put] at hrest
  have hread := readExact_of_at hat
  rw [htag] at hread
  exact ⟨hread, readU32_of_at hsize hbody, hrest⟩

theorem toNat_size {size : Nat} (h : size < 2 ^ 32) : (UInt32.ofNat size).toNat = size :=
  UInt32.toNat_ofNat_of_lt' h

theorem chunk_of_at {chunk : Chunk} (h : At whole pos chunk.bytes) :
    readExact whole pos 4 = some chunk.tag ∧
      readU32 whole (pos + 4) = some (UInt32.ofNat chunk.body.length) ∧ At whole (pos + 8) chunk.body := by
  have hbytes : chunk.bytes = (chunk.tag ++ (put 4 chunk.body.length ++ chunk.body)) ++
      List.replicate (chunk.body.length % 2) chunk.pad := by
    simp only [Chunk.bytes, append_assoc]
  rw [hbytes] at h
  exact header_of_at chunk.tag_length chunk.body_length (at_append h).1

variable {bytes : List UInt8} {state : WavState}

variable {size : UInt32}

theorem chunkTurn_eq {tag : List UInt8} (hopen : (state.foundFormat && state.foundData) = false)
    (htag : readExact bytes pos 4 = some tag) (hsize : readU32 bytes (pos + 4) = some size) :
    chunkTurn bytes pos state = match readChunk bytes tag (pos + 8) size state with
      | .error error => .fails error
      | .ok state => .goesOn (pos + 8 + paddedSize size.toNat) state := by
  cases hread : readChunk bytes tag (pos + 8) size state <;>
    simp only [chunkTurn, hopen, htag, hsize, hread, Bool.false_eq_true, if_false]

variable {state' : WavState}

variable {pos' : Nat}

theorem readChunks_goesOn (h : chunkTurn bytes pos state = .goesOn pos' state') :
    readChunks bytes pos state = readChunks bytes pos' state' := by
  rw [readChunks]
  split <;> rename_i hturn <;> rw [h] at hturn
  · cases hturn
  · cases hturn
  · cases hturn
    rfl

theorem readChunks_leaves (h : chunkTurn bytes pos state = .leaves state') :
    readChunks bytes pos state = .ok state' := by
  rw [readChunks]
  split <;> rename_i hturn <;> rw [h] at hturn
  · cases hturn
  · cases hturn
    rfl
  · cases hturn

variable {error : String}

theorem readChunks_fails (h : chunkTurn bytes pos state = .fails error) :
    readChunks bytes pos state = .error error := by
  rw [readChunks]
  split <;> rename_i hturn <;> rw [h] at hturn
  · cases hturn
    rfl
  · cases hturn
  · cases hturn

/-- The loop comes from one place to another. -/
inductive ComesTo (bytes : List UInt8) : Nat → WavState → Nat → WavState → Prop
  | here (pos : Nat) (state : WavState) : ComesTo bytes pos state pos state
  | turn {pos pos' last : Nat} {state state' final : WavState}
      (h : chunkTurn bytes pos state = .goesOn pos' state') (rest : ComesTo bytes pos' state' last final) :
      ComesTo bytes pos state last final

variable {final : WavState} {last : Nat}

theorem ComesTo.trans {middle : Nat} {next : WavState} (first : ComesTo bytes pos state middle next)
    (second : ComesTo bytes middle next last final) : ComesTo bytes pos state last final := by
  induction first with
  | here => exact second
  | turn h rest ih => exact .turn h (ih second)

theorem ComesTo.readChunks_eq (h : ComesTo bytes pos state last final) :
    readChunks bytes pos state = readChunks bytes last final := by
  induction h with
  | here => rfl
  | turn h rest ih => rw [readChunks_goesOn h, ih]

/-- Here the loop finds a data chunk with samples up to `stop`. -/
structure DataAt (bytes : List UInt8) (pos : Nat) (state : WavState) (stop : Nat) : Prop where
  unfinished : (state.foundFormat && state.foundData) = false
  tag : readExact bytes pos 4 = some kDataTag
  size : ∃ size, readU32 bytes (pos + 4) = some size ∧ stop = pos + 8 + size.toNat

/-- **Unknown chunks are skipped**, whatever their size. -/
theorem comesTo_skip {chunks : List Chunk} (hunknown : ∀ chunk ∈ chunks, chunk.Unknown)
    (hat : At whole pos (chunks.flatMap Chunk.bytes)) (hopen : (state.foundFormat && state.foundData) = false) :
    ComesTo whole pos state (pos + (chunks.flatMap Chunk.bytes).length) state := by
  induction chunks generalizing pos with
  | nil => exact .here pos state
  | cons chunk chunks ih =>
    rw [flatMap_cons] at hat
    obtain ⟨hchunk, hrest⟩ := at_append hat
    obtain ⟨htag, hsize, -⟩ := chunk_of_at hchunk
    obtain ⟨hformat, hdata⟩ := hunknown chunk mem_cons_self
    have hturn := chunkTurn_eq hopen htag hsize
    rw [readChunk, if_neg hformat, if_neg hdata, toNat_size chunk.body_length] at hturn
    have hnext : pos + 8 + paddedSize chunk.body.length = pos + chunk.bytes.length := by
      rw [chunk.length_bytes]
      omega
    rw [hnext] at hturn
    rw [flatMap_cons, length_append, ← Nat.add_assoc]
    exact .turn hturn (ih (fun c hc => hunknown c (mem_cons_of_mem _ hc)) hrest)

/-! ## The two chunks -/

/-- The format chunk, with the widths of its numbers. -/
def formatNumbers (format : PcmFormat) : List (Nat × Nat) :=
  [ (2, 1),
    (2, format.channels.toNat),
    (4, format.sampleRateHz.toNat),
    (4, (UInt32.ofNat format.sampleRateHz.toNat * UInt32.ofNat format.bytesPerFrame).toNat),
    (2, format.bytesPerFrame),
    (2, 16) ]

def formatBody (format : PcmFormat) : List UInt8 := row (formatNumbers format)

def formatChunk (format : PcmFormat) : List UInt8 :=
  kFormatTag ++ (put 4 (formatBody format).length ++ formatBody format)

def dataBody (samples : List Int16) : List UInt8 := samples.flatMap sampleBytes

def dataChunk (samples : List Int16) : List UInt8 :=
  kDataTag ++ (put 4 (dataBody samples).length ++ dataBody samples)

theorem length_formatBody (format : PcmFormat) : (formatBody format).length = 16 := rfl

theorem length_dataBody (samples : List Int16) : (dataBody samples).length = samples.length * 2 :=
  length_flatMap_sampleBytes samples

theorem at_row {k : Nat} {numbers : List (Nat × Nat)} (h : At whole pos (row ((k, n) :: numbers))) :
    At whole pos (put k n) ∧ At whole (pos + k) (row numbers) := by
  obtain ⟨hnum, hrest⟩ := at_append (show At whole pos (put k n ++ row numbers) from h)
  rw [length_put] at hrest
  exact ⟨hnum, hrest⟩

variable {format : PcmFormat}

theorem bytesPerFrame_lt (h : format.isValid = .ok ()) : format.bytesPerFrame < 2 ^ 16 := by
  obtain ⟨-, -, hlow, hhigh⟩ := PcmFormat.range_of_isValid h
  have hsample : format.bytesPerSample ≤ 2 := by
    unfold PcmFormat.bytesPerSample
    split <;> omega
  calc format.bytesPerFrame ≤ 2 * 8 := Nat.mul_le_mul hsample (by omega)
    _ < 2 ^ 16 := by decide

/-- **A format chunk is taken.** -/
theorem readFormat_of_at (h : format.isValid = .ok ()) (hat : At whole pos (formatBody format)) (state : WavState) :
    readFormat whole pos 16 state = .ok
      { state with
        audioFormat := 1
        channels := UInt16.ofNat format.channels.toNat
        sampleRate := UInt32.ofNat format.sampleRateHz.toNat
        bitsPerSample := 16
        foundFormat := true } := by
  obtain ⟨hrateLow, hrateHigh, hlow, hhigh⟩ := PcmFormat.range_of_isValid h
  have hframe := bytesPerFrame_lt h
  obtain ⟨haudio, hat⟩ := at_row hat
  obtain ⟨hchannels, hat⟩ := at_row hat
  obtain ⟨hrate, hat⟩ := at_row hat
  obtain ⟨hbytes, hat⟩ := at_row hat
  obtain ⟨halign, hat⟩ := at_row hat
  obtain ⟨hbits, -⟩ := at_row hat
  have haudio := readU16_of_at haudio (by decide)
  have hchannels := readU16_of_at hchannels (by omega)
  have hrate := readU32_of_at hrate (by omega)
  have hbytes := readU32_of_at hbytes (UInt32.toNat_lt _)
  have halign := readU16_of_at halign hframe
  have hbits := readU16_of_at hbits (by decide)
  simp only [Nat.add_assoc, Nat.reduceAdd] at hrate hbytes halign hbits
  rw [readFormat, if_neg (by decide), haudio, hchannels, hrate, hbytes, halign, hbits]
  rfl

theorem toInt16_ofNat (sample : Int16) : (UInt16.ofNat sample.toUInt16.toNat).toInt16 = sample := by
  rw [UInt16.ofNat_toNat]
  exact Int16.toInt16_toUInt16 sample

variable {samples : List Int16}

/-- **Samples are read back**, the last one last. -/
theorem readSamples_of_at (h : At whole pos (dataBody samples)) :
    readSamples whole pos samples.length = some samples := by
  induction samples generalizing pos with
  | nil => rfl
  | cons sample samples ih =>
    obtain ⟨hsample, hrest⟩ := at_append (show At whole pos (sampleBytes sample ++ dataBody samples) from h)
    rw [length_sampleBytes] at hrest
    have hread := readU16_of_at hsample (UInt16.toNat_lt _)
    rw [length_cons, readSamples, hread]
    show (readSamples whole (pos + 2) samples.length).map _ = _
    rw [ih hrest, map_some, toInt16_ofNat]

theorem readData_of_at (hsize : samples.length * 2 ≤ kMaxPcmDataBytes) (hat : At whole pos (dataBody samples))
    (state : WavState) :
    readData whole pos (UInt32.ofNat (samples.length * 2)) state = .ok { state with samples, foundData := true } := by
  have hlt : samples.length * 2 < 2 ^ 32 := Nat.lt_of_le_of_lt hsize (by decide)
  rw [readData, toNat_size hlt, if_neg (by omega), if_neg (by omega), Nat.mul_div_cancel _ Nat.two_pos,
    readSamples_of_at hat]

/-! ## Files -/

/-- A file with other chunks in front, between and behind. -/
def wavFile (riffSize : Nat) (format : PcmFormat) (samples : List Int16) (before between after : List Chunk) :
    List UInt8 :=
  kRiffTag ++ (put 4 riffSize ++ (kWaveTag ++ (before.flatMap Chunk.bytes ++ (formatChunk format ++
    (between.flatMap Chunk.bytes ++ (dataChunk samples ++ after.flatMap Chunk.bytes))))))

theorem foldl_writeU16 (samples : List Int16) (output : List UInt8) :
    samples.foldl (fun output sample => writeU16 output sample.toUInt16) output = output ++ dataBody samples := by
  induction samples generalizing output with
  | nil => exact (append_nil output).symm
  | cons sample samples ih =>
    rw [foldl_cons, ih, writeU16, append_assoc]
    rfl

theorem wavBytes_eq (h : format.isValid = .ok ()) (hsize : 36 + samples.length * 2 < 2 ^ 32) :
    wavBytes format samples = wavFile (36 + samples.length * 2) format samples [] [] [] := by
  obtain ⟨hrateLow, hrateHigh, hlow, hhigh⟩ := PcmFormat.range_of_isValid h
  have hdata : (UInt32.ofNat (samples.length * 2)).toNat = samples.length * 2 := toNat_size (by omega)
  have hriff : (UInt32.ofNat (36 + samples.length * 2)).toNat = 36 + samples.length * 2 := toNat_size hsize
  have hrate : (UInt32.ofNat format.sampleRateHz.toNat).toNat = format.sampleRateHz.toNat := toNat_size (by omega)
  have hchannels : (UInt16.ofNat format.channels.toNat).toNat = format.channels.toNat :=
    UInt16.toNat_ofNat_of_lt' (show format.channels.toNat < 2 ^ 16 by omega)
  have hframe : (UInt16.ofNat format.bytesPerFrame).toNat = format.bytesPerFrame :=
    UInt16.toNat_ofNat_of_lt' (bytesPerFrame_lt h)
  have hbody : formatBody format = put 2 1 ++ (put 2 format.channels.toNat ++ (put 4 format.sampleRateHz.toNat ++
      (put 4 (UInt32.ofNat format.sampleRateHz.toNat * UInt32.ofNat format.bytesPerFrame).toNat ++
        (put 2 format.bytesPerFrame ++ (put 2 16 ++ []))))) := rfl
  unfold wavBytes
  rw [foldl_writeU16]
  unfold wavFile formatChunk dataChunk
  rw [length_formatBody, length_dataBody, hbody]
  simp only [writeU16, writeU32, hdata, hriff, hrate, hchannels, hframe, flatMap_nil, append_assoc,
    nil_append, append_nil]
  rfl

def formatState (format : PcmFormat) : WavState :=
  { audioFormat := 1
    channels := UInt16.ofNat format.channels.toNat
    sampleRate := UInt32.ofNat format.sampleRateHz.toNat
    bitsPerSample := 16
    foundFormat := true }

/-- Where the samples are. -/
def dataStart (before between : List Chunk) : Nat :=
  12 + (before.flatMap Chunk.bytes).length + 24 + (between.flatMap Chunk.bytes).length

section Taken

variable (riffSize : Nat) (format : PcmFormat) (samples : List Int16) (before between after : List Chunk)

theorem wavFile_places :
    At (wavFile riffSize format samples before between after) 12 (before.flatMap Chunk.bytes) ∧
      At (wavFile riffSize format samples before between after) (12 + (before.flatMap Chunk.bytes).length)
        (formatChunk format) ∧
      At (wavFile riffSize format samples before between after) (12 + (before.flatMap Chunk.bytes).length + 24)
        (between.flatMap Chunk.bytes) ∧
      At (wavFile riffSize format samples before between after) (dataStart before between) (dataChunk samples) := by
  have hwhole : At (wavFile riffSize format samples before between after) 0
      (wavFile riffSize format samples before between after) := ⟨[], [], (append_nil _).symm, rfl⟩
  obtain ⟨-, hrest⟩ := at_append hwhole
  obtain ⟨-, hrest⟩ := at_append hrest
  obtain ⟨-, hrest⟩ := at_append hrest
  obtain ⟨hbefore, hrest⟩ := at_append hrest
  obtain ⟨hformat, hrest⟩ := at_append hrest
  obtain ⟨hbetween, hrest⟩ := at_append hrest
  obtain ⟨hdata, -⟩ := at_append hrest
  exact ⟨hbefore, hformat, hbetween, hdata⟩

theorem riff_header :
    readExact (wavFile riffSize format samples before between after) 0 4 = some kRiffTag ∧
      readU32 (wavFile riffSize format samples before between after) 4 ≠ none ∧
      readExact (wavFile riffSize format samples before between after) 8 4 = some kWaveTag := by
  have hwhole : At (wavFile riffSize format samples before between after) 0
      (wavFile riffSize format samples before between after) := ⟨[], [], (append_nil _).symm, rfl⟩
  obtain ⟨hriff, hrest⟩ := at_append hwhole
  obtain ⟨hsize, hrest⟩ := at_append hrest
  obtain ⟨hwave, -⟩ := at_append hrest
  refine ⟨readExact_of_at hriff, ?_, readExact_of_at hwave⟩
  have hexact : readExact (wavFile riffSize format samples before between after) 4 4 = some (put 4 riffSize) :=
    readExact_of_at hsize
  rw [readU32, hexact, map_some]
  exact some_ne_none _

variable {format before between}

theorem comesTo_data (h : format.isValid = .ok ()) (hbefore : ∀ chunk ∈ before, chunk.Unknown)
    (hbetween : ∀ chunk ∈ between, chunk.Unknown) :
    ComesTo (wavFile riffSize format samples before between after) 12 {} (dataStart before between)
      (formatState format) := by
  obtain ⟨hatBefore, hatFormat, hatBetween, -⟩ := wavFile_places riffSize format samples before between after
  have hlen : (formatBody format).length < 2 ^ 32 := by
    rw [length_formatBody]
    decide
  have hopen : (({} : WavState).foundFormat && ({} : WavState).foundData) = false := rfl
  obtain ⟨htag, hsize, hbody⟩ := header_of_at rfl hlen hatFormat
  have hturn := chunkTurn_eq hopen htag hsize
  rw [length_formatBody, readChunk, if_pos rfl, show UInt32.ofNat 16 = 16 from rfl, readFormat_of_at h hbody] at hturn
  exact (comesTo_skip hbefore hatBefore hopen).trans (.turn hturn (comesTo_skip hbetween hatBetween rfl))

theorem dataAt_wavFile (hsize : samples.length * 2 ≤ kMaxPcmDataBytes) :
    DataAt (wavFile riffSize format samples before between after) (dataStart before between) (formatState format)
      (dataStart before between + 8 + samples.length * 2) := by
  obtain ⟨-, -, -, hatData⟩ := wavFile_places riffSize format samples before between after
  have hlen : (dataBody samples).length < 2 ^ 32 := by
    rw [length_dataBody]
    exact Nat.lt_of_le_of_lt hsize (by decide)
  obtain ⟨htag, hread, -⟩ := header_of_at rfl hlen hatData
  refine ⟨rfl, htag, UInt32.ofNat (dataBody samples).length, hread, ?_⟩
  rw [toNat_size hlen, length_dataBody]

theorem readChunks_wavFile (h : format.isValid = .ok ()) (hsize : samples.length * 2 ≤ kMaxPcmDataBytes)
    (hbefore : ∀ chunk ∈ before, chunk.Unknown) (hbetween : ∀ chunk ∈ between, chunk.Unknown) :
    readChunks (wavFile riffSize format samples before between after) 12 {} =
      .ok { formatState format with samples, foundData := true } := by
  obtain ⟨-, -, -, hatData⟩ := wavFile_places riffSize format samples before between after
  have hlen : (dataBody samples).length < 2 ^ 32 := by
    rw [length_dataBody]
    exact Nat.lt_of_le_of_lt hsize (by decide)
  have hopen : ((formatState format).foundFormat && (formatState format).foundData) = false := rfl
  obtain ⟨htag, hread, hbody⟩ := header_of_at rfl hlen hatData
  have hturn := chunkTurn_eq hopen htag hread
  rw [length_dataBody, readChunk, if_neg (by decide), if_pos rfl, readData_of_at hsize hbody] at hturn
  rw [(comesTo_data riffSize samples after h hbefore hbetween).readChunks_eq, readChunks_goesOn hturn]
  exact readChunks_leaves rfl

theorem finishWav_formatState (h : format.isValid = .ok ()) (hframes : samples.length % format.channels.toNat = 0) :
    finishWav { formatState format with samples, foundData := true } =
      .ok { format := { sampleRateHz := format.sampleRateHz, channels := format.channels }, samples } := by
  obtain ⟨hrateLow, hrateHigh, hlow, hhigh⟩ := PcmFormat.range_of_isValid h
  have hrate : (UInt32.ofNat format.sampleRateHz.toNat).toInt32.toInt = format.sampleRateHz := by
    show (Int32.ofNat format.sampleRateHz.toNat).toInt = format.sampleRateHz
    rw [Int32.toInt_ofNat_of_lt (by omega)]
    omega
  have hchannels : ((UInt16.ofNat format.channels.toNat).toNat : Int) = format.channels := by
    rw [UInt16.toNat_ofNat_of_lt' (show format.channels.toNat < 2 ^ 16 by omega)]
    omega
  have hvalid : PcmFormat.isValid { sampleRateHz := format.sampleRateHz, channels := format.channels } = .ok () :=
    PcmFormat.isValid_of_range ⟨hrateLow, hrateHigh⟩ ⟨hlow, hhigh⟩ rfl
  unfold finishWav formatState
  simp only [hrate, hchannels]
  rw [if_neg (by decide), if_neg (by decide), hvalid]
  exact if_neg fun hnot => hnot hframes

/-- **The samples come back**, whatever unknown chunks there are. -/
theorem readWav_wavFile (h : format.isValid = .ok ()) (hframes : samples.length % format.channels.toNat = 0)
    (hsize : samples.length * 2 ≤ kMaxPcmDataBytes) (hbefore : ∀ chunk ∈ before, chunk.Unknown)
    (hbetween : ∀ chunk ∈ between, chunk.Unknown) :
    readWav (wavFile riffSize format samples before between after) =
      .ok { format := { sampleRateHz := format.sampleRateHz, channels := format.channels }, samples } := by
  obtain ⟨hriff, hriffSize, hwave⟩ := riff_header riffSize format samples before between after
  have hheader : ¬ (readExact (wavFile riffSize format samples before between after) 0 4 ≠ some kRiffTag ∨
      readU32 (wavFile riffSize format samples before between after) 4 = none ∨
      readExact (wavFile riffSize format samples before between after) 8 4 ≠ some kWaveTag) := by
    rintro (hnot | hnot | hnot)
    · exact hnot hriff
    · exact hriffSize hnot
    · exact hnot hwave
  rw [readWav, if_neg hheader, readChunks_wavFile riffSize samples after h hsize hbefore hbetween]
  exact finishWav_formatState samples h hframes

end Taken

/-! ## Cut files -/

theorem readU16_take {value : UInt16} (h : readU16 (whole.take n) pos = some value) :
    pos + 2 ≤ n ∧ readU16 whole pos = some value := by
  obtain ⟨bytes, hbytes, rfl⟩ := map_eq_some_iff.1 h
  obtain ⟨hle, hread⟩ := readExact_take hbytes
  exact ⟨hle, by rw [readU16, hread]; rfl⟩

theorem readSamples_take {count : Nat} (hpos : pos ≤ n) (h : readSamples (whole.take n) pos count = some samples) :
    pos + count * 2 ≤ n ∧ readSamples whole pos count = some samples := by
  induction count generalizing pos samples with
  | zero => exact ⟨hpos, h⟩
  | succ count ih =>
    unfold readSamples at h ⊢
    split at h
    · cases h
    · rename_i value hvalue
      obtain ⟨hle, hread⟩ := readU16_take hvalue
      obtain ⟨rest, hrest, rfl⟩ := map_eq_some_iff.1 h
      obtain ⟨hend, hwhole⟩ := ih hle hrest
      constructor
      · omega
      · rw [hread]
        show (readSamples whole (pos + 2) count).map _ = _
        rw [hwhole]
        rfl

theorem readFormat_take {start : Nat} (h : readFormat (whole.take n) start size state = .ok state') :
    readFormat whole start size state = .ok state' := by
  unfold readFormat at h ⊢
  split at h
  · cases h
  · rename_i hsize
    rw [if_neg hsize]
    split at h
    · rename_i haudio hchannels hrate hbytes halign hbits
      rw [(readU16_take haudio).2, (readU16_take hchannels).2, (readU32_take hrate).2, (readU32_take hbytes).2,
        (readU16_take halign).2, (readU16_take hbits).2]
      exact h
    · cases h

theorem readData_take {start : Nat} (hstart : start ≤ n) (h : readData (whole.take n) start size state = .ok state') :
    start + size.toNat ≤ n ∧ readData whole start size state = .ok state' := by
  unfold readData at h ⊢
  split at h
  · cases h
  · rename_i hlimit
    split at h
    · cases h
    · rename_i heven
      split at h
      · cases h
      · rename_i samples hsamples
        obtain ⟨hend, hwhole⟩ := readSamples_take hstart hsamples
        constructor
        · omega
        · rw [if_neg hlimit, if_neg heven, hwhole]
          exact h

/-- A turn that goes on has read a tag and a size. -/
theorem goesOn_cases (h : chunkTurn bytes pos state = .goesOn pos' state') :
    (state.foundFormat && state.foundData) = false ∧ ∃ tag size, readExact bytes pos 4 = some tag ∧
      readU32 bytes (pos + 4) = some size ∧ readChunk bytes tag (pos + 8) size state = .ok state' ∧
      pos' = pos + 8 + paddedSize size.toNat := by
  unfold chunkTurn at h
  split at h
  · cases h
  · rename_i hopen
    split at h
    · rename_i tag size htag hsize
      split at h
      · cases h
      · rename_i next hchunk
        cases h
        exact ⟨Bool.eq_false_iff.2 hopen, tag, size, htag, hsize, hchunk, rfl⟩
    · cases h

theorem leaves_same (h : chunkTurn bytes pos state = .leaves state') : state' = state := by
  unfold chunkTurn at h
  split at h
  · cases h
    rfl
  · split at h
    · split at h <;> cases h
    · cases h
      rfl

theorem chunkTurn_take (h : chunkTurn (whole.take n) pos state = .goesOn pos' state') :
    chunkTurn whole pos state = .goesOn pos' state' := by
  obtain ⟨hopen, tag, size, htag, hsize, hchunk, rfl⟩ := goesOn_cases h
  obtain ⟨hheader, hsize⟩ := readU32_take hsize
  rw [chunkTurn_eq hopen (readExact_take htag).2 hsize]
  suffices hwhole : readChunk whole tag (pos + 8) size state = .ok state' by rw [hwhole]
  unfold readChunk at hchunk ⊢
  split at hchunk <;> rename_i hformat
  · rw [if_pos hformat]
    exact readFormat_take hchunk
  · rw [if_neg hformat]
    split at hchunk
    · rename_i hdata
      rw [if_pos hdata]
      exact (readData_take (by omega) hchunk).2
    · rename_i hdata
      rw [if_neg hdata]
      exact hchunk

variable {stop : Nat}

/-- **Of a file that is cut before the end of its samples the loop does not find both chunks.** -/
theorem readChunks_cut {result : WavState} (hcomes : ComesTo whole pos state last final)
    (hdata : DataAt whole last final stop) (hn : n < stop) (h : readChunks (whole.take n) pos state = .ok result) :
    (result.foundFormat && result.foundData) = false := by
  induction hcomes with
  | here pos state =>
    cases hturn : chunkTurn (whole.take n) pos state with
    | fails error =>
      rw [readChunks_fails hturn] at h
      cases h
    | leaves next =>
      rw [readChunks_leaves hturn] at h
      cases h
      rw [leaves_same hturn]
      exact hdata.unfinished
    | goesOn pos' next =>
      -- the turn takes the data chunk, so the samples are there
      obtain ⟨-, tag, size, htag, hsize, hchunk, -⟩ := goesOn_cases hturn
      obtain ⟨wholeSize, hwholeSize, rfl⟩ := hdata.size
      obtain ⟨hheader, hsize⟩ := readU32_take hsize
      obtain rfl : tag = kDataTag := Option.some.inj ((readExact_take htag).2.symm.trans hdata.tag)
      obtain rfl : wholeSize = size := Option.some.inj (hwholeSize.symm.trans hsize)
      rw [readChunk, if_neg (by decide), if_pos rfl] at hchunk
      have hend := (readData_take (by omega) hchunk).1
      omega
  | turn hwhole hrest ih =>
    rename_i pos pos' last state state' final
    cases hturn : chunkTurn (whole.take n) pos state with
    | fails error =>
      rw [readChunks_fails hturn] at h
      cases h
    | leaves next =>
      rw [readChunks_leaves hturn] at h
      cases h
      rw [leaves_same hturn]
      exact (goesOn_cases hwhole).1
    | goesOn next nextState =>
      have hsame := (chunkTurn_take hturn).symm.trans hwhole
      cases hsame
      rw [readChunks_goesOn hturn] at h
      exact ih hdata h

theorem readWav_cut (hcomes : ComesTo whole 12 {} last final) (hdata : DataAt whole last final stop) (hn : n < stop) :
    ∃ error, readWav (whole.take n) = .error error := by
  unfold readWav
  split
  · exact ⟨_, rfl⟩
  · cases hloop : readChunks (whole.take n) 12 {} with
    | error error => exact ⟨error, rfl⟩
    | ok result =>
      have hmissing := readChunks_cut hcomes hdata hn hloop
      refine ⟨"WAV file must contain format and data chunks", ?_⟩
      show finishWav result = _
      unfold finishWav
      rw [← Bool.not_and, hmissing]
      rfl

/-! ## The loop ends -/

/-- The loop, with a bound on its turns. -/
def chunkLoop (bytes : List UInt8) : Nat → Nat → WavState → Option (Except String WavState)
  | 0, _, _ => none
  | turns + 1, pos, state =>
    match chunkTurn bytes pos state with
    | .fails error => some (.error error)
    | .leaves state => some (.ok state)
    | .goesOn pos state => chunkLoop bytes turns pos state

/-- **Each turn takes eight bytes**, so the bytes that are left bound the turns. -/
theorem chunkLoop_eq {turns : Nat} (state : WavState) (h : bytes.length < pos + 8 * turns) :
    chunkLoop bytes (turns + 1) pos state = some (readChunks bytes pos state) := by
  induction turns generalizing pos state with
  | zero =>
    rw [chunkLoop]
    cases hturn : chunkTurn bytes pos state with
    | fails error => rw [readChunks_fails hturn]
    | leaves next => rw [readChunks_leaves hturn]
    | goesOn pos' next =>
      have := goesOn_further hturn
      omega
  | succ turns ih =>
    rw [chunkLoop]
    cases hturn : chunkTurn bytes pos state with
    | fails error => rw [readChunks_fails hturn]
    | leaves next => rw [readChunks_leaves hturn]
    | goesOn pos' next =>
      have := goesOn_further hturn
      rw [readChunks_goesOn hturn]
      exact ih next (by omega)

/-! ## The results -/

theorem readPcm16Wav_of_ok {result : PcmBuffer} (h : readWav bytes = .ok result) (path : String) (buffer : PcmBuffer) :
    readPcm16Wav path (some bytes) (some buffer) = (.ok (), some result) := by
  simp only [readPcm16Wav, h]

theorem readPcm16Wav_of_error (h : readWav bytes = .error error) (path : String) (buffer : PcmBuffer) :
    readPcm16Wav path (some bytes) (some buffer) = (.error error, some buffer) := by
  simp only [readPcm16Wav, h]

theorem readPcm16Wav_leaves {path : String} {file : Option (List UInt8)} {buffer : Option PcmBuffer}
    (h : (readPcm16Wav path file buffer).1 = .error error) : (readPcm16Wav path file buffer).2 = buffer := by
  cases buffer with
  | none => rfl
  | some buffer =>
    cases file with
    | none => rfl
    | some bytes =>
      cases hread : readWav bytes with
      | error error => rw [readPcm16Wav_of_error hread]
      | ok result =>
        rw [readPcm16Wav_of_ok hread] at h
        cases h

theorem readPcm16Wav_cut (hcomes : ComesTo whole 12 {} last final) (hdata : DataAt whole last final stop)
    (hn : n < stop) (path : String) (buffer : PcmBuffer) :
    ∃ error, readPcm16Wav path (some (whole.take n)) (some buffer) = (.error error, some buffer) := by
  obtain ⟨error, herror⟩ := readWav_cut hcomes hdata hn
  exact ⟨error, readPcm16Wav_of_error herror path buffer⟩

theorem writePcm16Wav_ok {path : String} (h : format.isValid = .ok ())
    (hframes : samples.length % format.channels.toNat = 0) (hsize : samples.length * 2 ≤ kMaxPcmDataBytes) :
    writePcm16Wav path format samples .written = .ok (wavBytes format samples) := by
  have hlimit : kMaxPcmDataBytes ≤ 2 ^ 32 - 1 - 36 := by decide
  unfold writePcm16Wav
  rw [h, if_neg (fun hnot => hnot hframes), if_neg (by omega)]

/-- **WAV files come back, and no part of one does.**

    For frames of a valid format within the limit the written file has no chunks beside its two, and the reader
    returns rate, channels and samples, of this file and of each with unknown chunks in it.  The loop ends on every
    file.  Cut before the end of the samples of a data chunk that the loop comes to, a file is refused; so is each
    file with unknown chunks.  A call that fails leaves the buffer. -/
theorem wav_roundTrip :
    (∀ path format samples buffer, format.isValid = .ok () → samples.length % format.channels.toNat = 0 →
      samples.length * 2 ≤ kMaxPcmDataBytes →
      writePcm16Wav path format samples .written = .ok (wavBytes format samples) ∧
      wavBytes format samples = wavFile (36 + samples.length * 2) format samples [] [] [] ∧
      ∀ riffSize before between after, (∀ chunk ∈ before, chunk.Unknown) → (∀ chunk ∈ between, chunk.Unknown) →
        readPcm16Wav path (some (wavFile riffSize format samples before between after)) (some buffer) =
          (.ok (), some { format := { sampleRateHz := format.sampleRateHz, channels := format.channels }, samples }) ∧
        ∀ n, n < dataStart before between + 8 + samples.length * 2 →
          ∃ error, readPcm16Wav path (some ((wavFile riffSize format samples before between after).take n))
            (some buffer) = (.error error, some buffer)) ∧
    (∀ bytes, chunkLoop bytes (bytes.length / 8 + 1) 12 {} = some (readChunks bytes 12 {})) ∧
    (∀ path bytes buffer pos state stop n, ComesTo bytes 12 {} pos state → DataAt bytes pos state stop → n < stop →
      ∃ error, readPcm16Wav path (some (bytes.take n)) (some buffer) = (.error error, some buffer)) ∧
    (∀ path file buffer error, (readPcm16Wav path file buffer).1 = .error error →
      (readPcm16Wav path file buffer).2 = buffer) := by
  refine ⟨?_, ?_, ?_, ?_⟩
  · intro path format samples buffer h hframes hsize
    refine ⟨writePcm16Wav_ok h hframes hsize, ?_, ?_⟩
    · have hlimit : 36 + kMaxPcmDataBytes < 2 ^ 32 := by decide
      exact wavBytes_eq h (by omega)
    · intro riffSize before between after hbefore hbetween
      constructor
      · exact readPcm16Wav_of_ok (readWav_wavFile riffSize samples after h hframes hsize hbefore hbetween) path buffer
      · intro n hn
        have hcomes := comesTo_data riffSize samples after h hbefore hbetween
        exact readPcm16Wav_cut hcomes (dataAt_wavFile riffSize samples after hsize) hn path buffer
  · intro bytes
    exact chunkLoop_eq {} (by omega)
  · intro path bytes buffer pos state stop n hcomes hdata hn
    exact readPcm16Wav_cut hcomes hdata hn path buffer
  · intro path file buffer error h
    exact readPcm16Wav_leaves h

def oddList : Chunk where
  tag := [76, 73, 83, 84]
  body := [1, 2, 3]
  tag_length := rfl
  body_length := by decide

theorem wav_roundTrip_stereo :
    readPcm16Wav "a.wav" (some (wavFile 0 { channels := 2 } [-32768, 32767] [oddList] [] [oddList])) (some {}) =
        (.ok (), some { format := { channels := 2 }, samples := [-32768, 32767] }) ∧
      ∃ error, readPcm16Wav "a.wav"
        (some ((wavFile 0 { channels := 2 } [-32768, 32767] [oddList] [] [oddList]).take 59)) (some {}) =
          (.error error, some {}) := by
  have hunknown : ∀ chunk ∈ [oddList], chunk.Unknown := by
    intro chunk hmem
    rw [mem_singleton.1 hmem]
    exact ⟨by decide, by decide⟩
  obtain ⟨-, -, hfiles⟩ := wav_roundTrip.1 "a.wav" { channels := 2 } [-32768, 32767] {} rfl rfl (by decide)
  obtain ⟨hread, hcut⟩ := hfiles 0 [oddList] [] [oddList] hunknown (fun _ hmem => by cases hmem)
  exact ⟨hread, hcut 59 (by decide)⟩

end Cockpit.Audio
