/-
  The software image signal processor (`driver/camera/isp`): RAW10 samples become a BGRx frame. Every access to
  the raw data, the matrix of samples and the output may fault; what OpenCV makes of the samples in between is
  `develop`.

  The stride of the output is `width * 4` modulo `2^32`: from `2^30` columns on the output is too small for its
  pixels.
-/
import Cockpit.Camera.CpuVideoFrame
import Cockpit.Lib.LittleEndian

namespace Cockpit.Camera

open CheckedMemory

/-! ## The frames -/

inductive BayerPattern where
  | rggb
  /-- A value outside of the enumerators. -/
  | other (value : Int32)
  deriving DecidableEq

/-- `RawBayerFrame`. -/
structure RawBayerFrame where
  width : UInt32 := 0
  height : UInt32 := 0
  bytesPerLine : UInt32 := 0
  bytesUsed : UInt32 := 0
  sequence : Nat := 0
  timestampMs : Nat := 0
  sourceTimestampNs : Int := 0
  receivedAtNs : Int := 0
  sourceClock : CameraTimestampClock := .unknown
  sourceTimestampFlags : Nat := 0
  sourceTimestampValid : Bool := false
  pattern : BayerPattern := .rggb
  data : List UInt8 := []

/-- A `float`, as far as the check looks at it. -/
structure Setting where
  isFinite : Bool := true
  isPositive : Bool := true

structure SoftwareIspConfig where
  blackLevel : UInt16 := 64
  redGain : Setting := {}
  greenGain : Setting := {}
  blueGain : Setting := {}
  gamma : Setting := {}

def validConfig (config : SoftwareIspConfig) : Bool :=
  config.redGain.isFinite && config.greenGain.isFinite && config.blueGain.isFinite && config.gamma.isFinite &&
    config.redGain.isPositive && config.greenGain.isPositive && config.blueGain.isPositive &&
    config.gamma.isPositive && config.blackLevel < 1023

/-! ## The samples -/

/-- The upper ten of sixteen bits. -/
def unpackSample (source : List UInt8) (offset : Nat) : Except Fault UInt16 := do
  let low ← read source offset
  let high ← read source (offset + 1)
  return (low.toUInt16 ||| high.toUInt16 <<< 8) >>> 6

def unpackAt (source : List UInt8) (sourceRow destinationRow : Nat) (destination : List UInt16) (x : Nat) :
    Except Fault (List UInt16) := do
  write destination (destinationRow + x) (← unpackSample source (sourceRow + x * 2))

/-- Sample by sample. -/
def unpackRaw10RowScalar (source : List UInt8) (sourceRow width : Nat) (destination : List UInt16)
    (destinationRow : Nat) : Except Fault (List UInt16) :=
  (List.range width).foldlM (unpackAt source sourceRow destinationRow) destination

/-- `uint16x8_t`: eight lanes of 16 bits. -/
abbrev Lanes := Vector UInt16 8

/-- Loads eight elements of two bytes each at once, in the native order, that of a little-endian machine. -/
def vld1q_u16 (memory : List UInt8) (address : Nat) : Except Fault Lanes :=
  if address + 16 ≤ memory.length then
    .ok (.ofFn fun lane => UInt16.ofNat (LittleEndian.field memory (address + lane * 2) 2))
  else .error .outside

/-- Shifts each of the lanes. -/
def vshrq_n_u16 (lanes : Lanes) (n : UInt16) : Lanes := lanes.map (· >>> n)

/-- Stores the eight lanes at once. -/
def vst1q_u16 (memory : List UInt16) (index : Nat) (lanes : Lanes) : Except Fault (List UInt16) :=
  if index + 8 ≤ memory.length then .ok (memory.take index ++ (lanes.toList ++ memory.drop (index + 8)))
  else .error .outside

/-- The columns go by eights while eight are left, and then one by one.  A width of `2^31` or more does not come here. -/
def unpackRaw10RowNeon (source : List UInt8) (sourceRow width : Nat) (destination : List UInt16)
    (destinationRow : Nat) : Except Fault (List UInt16) := do
  let destination ← (List.range (width / 8)).foldlM (fun destination block => do
      let samples ← vld1q_u16 source (sourceRow + block * 8 * 2)
      vst1q_u16 destination (destinationRow + block * 8) (vshrq_n_u16 samples 6)) destination
  (List.range (width % 8)).foldlM (fun destination x =>
    unpackAt source sourceRow destinationRow destination (width / 8 * 8 + x)) destination

/-- Row by row. -/
def unpackRaw10 (neon : Bool) (source : List UInt8) (width height sourceStrideBytes : Nat)
    (destination : List UInt16) (destinationStrideElements : Nat) : Except Fault (List UInt16) :=
  let unpackRow := if neon then unpackRaw10RowNeon else unpackRaw10RowScalar
  (List.range height).foldlM (fun destination y =>
    unpackRow source (y * sourceStrideBytes) width destination (y * destinationStrideElements)) destination

/-! ## The pixels -/

def writePixel (data : List UInt8) (index : Nat) (pixel : UInt8 × UInt8 × UInt8) : Except Fault (List UInt8) := do
  let data ← write data index pixel.1
  let data ← write data (index + 1) pixel.2.1
  let data ← write data (index + 2) pixel.2.2
  write data (index + 3) 255

/-- The step of a matrix without one is its row. -/
def matStep (cols step : Nat) : Nat := if step = 0 then cols * 4 else step

def writeRow (pixel : Nat → Nat → UInt8 × UInt8 × UInt8) (cols step : Nat) (data : List UInt8) (y : Nat) :
    Except Fault (List UInt8) :=
  (List.range cols).foldlM (fun data x => writePixel data (y * step + x * 4) (pixel y x)) data

/-- What OpenCV writes. -/
def writePixels (pixel : Nat → Nat → UInt8 × UInt8 × UInt8) (rows cols step : Nat) (data : List UInt8) :
    Except Fault (List UInt8) :=
  (List.range rows).foldlM (writeRow pixel cols (matStep cols step)) data

def matDimension (value : UInt32) : Except Fault Nat :=
  if value.toNat < 2 ^ 31 then .ok value.toNat else .error .wraps

def resized (data : List UInt8) (size : Nat) : List UInt8 := data.take size ++ List.replicate (size - data.length) 0

/-! ## `Process` -/

namespace SoftwareIsp

/-- The check, in the arithmetic of the fields. -/
def isAccepted (config : SoftwareIspConfig) (raw : RawBayerFrame) : Bool :=
  let minimumBytes := raw.bytesPerLine.toUInt64 * raw.height.toUInt64
  !(raw.width = 0 || raw.height = 0 || raw.bytesPerLine < raw.width * 2 || raw.data.length < raw.bytesUsed.toNat ||
    raw.bytesUsed.toUInt64 < minimumBytes || !validConfig config)

/-- What OpenCV makes of so many rows and columns of samples: the blue, green and red of each pixel. -/
abbrev Develop := SoftwareIspConfig → Nat → Nat → List UInt16 → Nat → Nat → UInt8 × UInt8 × UInt8

def outputOf (raw : RawBayerFrame) (strideBytes : UInt32) : CameraFrame where
  sequence := raw.sequence
  timestampMs := raw.timestampMs
  sourceTimestampNs := raw.sourceTimestampNs
  receivedAtNs := raw.receivedAtNs
  sourceClock := raw.sourceClock
  sourceTimestampFlags := raw.sourceTimestampFlags
  sourceTimestampValid := raw.sourceTimestampValid
  width := raw.width.toNat
  height := raw.height.toNat
  strideBytes := strideBytes.toNat
  format := .bgrx

/-- `Process`. -/
def process (develop : Develop) (neon : Bool) (config : SoftwareIspConfig) (raw : RawBayerFrame)
    (output : Option CameraFrame) : Except Fault (Call CameraFrame) :=
  match output with
  | none => .ok ⟨false, some "invalid RAW Bayer frame or software ISP configuration", none⟩
  | some previous =>
    if !isAccepted config raw then
      .ok ⟨false, some "invalid RAW Bayer frame or software ISP configuration", some previous⟩
    else if raw.pattern ≠ .rggb then .ok ⟨false, some "unsupported Bayer pattern", some previous⟩
    else do
      let rows ← matDimension raw.height
      let cols ← matDimension raw.width
      let raw16 ← unpackRaw10 neon raw.data raw.width.toNat raw.height.toNat raw.bytesPerLine.toNat
        (List.replicate (rows * cols) 0) cols
      let strideBytes := raw.width * 4
      let outputSize := strideBytes.toUInt64 * raw.height.toUInt64
      let data ← writePixels (develop config rows cols raw16) rows cols strideBytes.toNat
        (resized previous.data outputSize.toNat)
      return ⟨true, none, some { outputOf raw strideBytes with data := data }⟩

end SoftwareIsp

/-! ## The lanes -/

open List

variable {source : List UInt8} {destination : List UInt16} {sourceRow destinationRow width height n : Nat}

/-- The sample of two bytes of the source. -/
def sampleAt (source : List UInt8) (offset : Nat) : UInt16 :=
  ((source.getD offset 0).toUInt16 ||| (source.getD (offset + 1) 0).toUInt16 <<< 8) >>> 6

theorem unpackAt_eq (x : Nat) : unpackAt source sourceRow destinationRow destination x =
    if sourceRow + x * 2 + 1 < source.length ∧ destinationRow + x < destination.length then
      .ok (destination.set (destinationRow + x) (sampleAt source (sourceRow + x * 2))) else .error .outside := by
  unfold unpackAt unpackSample sampleAt CheckedMemory.read
  rw [getD_eq_getElem?_getD, getD_eq_getElem?_getD]
  rcases Nat.lt_or_ge (sourceRow + x * 2 + 1) source.length with hinside | houtside
  · rw [List.getElem?_eq_getElem hinside, List.getElem?_eq_getElem (Nat.lt_of_succ_lt hinside)]
    show write _ _ _ = _
    unfold write
    by_cases hroom : destinationRow + x < destination.length
    · rw [if_pos hroom, if_pos ⟨hinside, hroom⟩]
      rfl
    · rw [if_neg hroom, if_neg fun h => hroom h.2]
  · rw [if_neg fun h => Nat.not_lt.mpr houtside h.1, List.getElem?_eq_none houtside]
    cases source[sourceRow + x * 2]? <;> rfl

/-- Samples in the place of as many. -/
def replaced (destination : List UInt16) (index : Nat) (samples : List UInt16) : List UInt16 :=
  destination.take index ++ (samples ++ destination.drop (index + samples.length))

theorem replaced_nil (destination : List UInt16) (index : Nat) : replaced destination index [] = destination :=
  take_append_drop index destination

theorem set_replaced {index : Nat} {samples : List UInt16} (h : index + samples.length < destination.length)
    (sample : UInt16) : (replaced destination index samples).set (index + samples.length) sample =
      replaced destination index (samples ++ [sample]) := by
  have hfront : (destination.take index).length = index := by
    rw [length_take]
    omega
  unfold replaced
  rw [set_append_right _ _ (by omega), hfront, Nat.add_sub_cancel_left,
    set_append_right _ _ (Nat.le_refl _), Nat.sub_self, drop_eq_getElem_cons h, set_cons_zero,
    length_append, length_singleton, append_assoc, singleton_append, ← Nat.add_assoc]

theorem length_replaced {index : Nat} {samples : List UInt16} (h : index + samples.length ≤ destination.length) :
    (replaced destination index samples).length = destination.length := by
  unfold replaced
  rw [length_append, length_append, length_take, length_drop]
  omega

/-- **So many columns one by one**: their samples, or a fault where one of them is outside. -/
theorem foldlM_unpackAt (x count : Nat) : (List.range count).foldlM (fun destination lane =>
        unpackAt source sourceRow destinationRow destination (x + lane)) destination =
      if 0 < count → sourceRow + (x + count) * 2 ≤ source.length ∧ destinationRow + (x + count) ≤ destination.length then
        .ok (replaced destination (destinationRow + x)
          ((List.range count).map fun lane => sampleAt source (sourceRow + (x + lane) * 2)))
      else .error .outside := by
  induction count with
  | zero =>
    rw [if_pos fun h => absurd h (Nat.lt_irrefl 0), range_zero, map_nil, replaced_nil]
    rfl
  | succ count ih =>
    rw [range_succ, foldlM_append, ih]
    simp only [foldlM_cons, foldlM_nil, bind_pure]
    by_cases hinside : sourceRow + (x + (count + 1)) * 2 ≤ source.length ∧
        destinationRow + (x + (count + 1)) ≤ destination.length
    · have hlen : ((List.range count).map fun lane => sampleAt source (sourceRow + (x + lane) * 2)).length = count := by
        rw [length_map, length_range]
      have hsource : sourceRow + (x + count) * 2 + 1 < source.length := by omega
      have hroom : destinationRow + x + count < destination.length := by omega
      rw [if_pos fun _ => by omega, if_pos fun _ => hinside]
      show unpackAt _ _ _ (replaced _ _ _) (x + count) = _
      rw [unpackAt_eq, length_replaced (by rw [hlen]; omega), if_pos ⟨hsource, by omega⟩, map_append,
        map_singleton, ← set_replaced (by rw [hlen]; exact hroom), hlen, Nat.add_assoc]
    · have hnot : ¬ (0 < count + 1 → sourceRow + (x + (count + 1)) * 2 ≤ source.length ∧
          destinationRow + (x + (count + 1)) ≤ destination.length) := fun h => hinside (h (Nat.zero_lt_succ count))
      rw [if_neg hnot]
      by_cases hbefore : 0 < count →
          sourceRow + (x + count) * 2 ≤ source.length ∧ destinationRow + (x + count) ≤ destination.length
      · -- the columns before are inside, and the last is not
        rw [if_pos hbefore]
        show unpackAt _ _ _ (replaced _ _ _) (x + count) = _
        rw [unpackAt_eq, if_neg]
        rcases Nat.eq_zero_or_pos count with rfl | hpos
        · rw [range_zero, map_nil, replaced_nil]
          omega
        · rw [length_replaced (by rw [length_map, length_range]; have := hbefore hpos; omega)]
          omega
      · rw [if_neg hbefore]
        rfl

/-- The native load is that of the container that the loop puts together. -/
theorem container_eq (low high : UInt8) :
    UInt16.ofNat (LittleEndian.get [low, high]) = low.toUInt16 ||| high.toUInt16 <<< 8 := by
  have hlow := low.toNat_lt
  have hhigh := high.toNat_lt
  apply UInt16.toNat_inj.mp
  rw [UInt16.toNat_ofNat', UInt16.toNat_or, UInt16.toNat_shiftLeft, UInt8.toNat_toUInt16, UInt8.toNat_toUInt16]
  have hfits : high.toNat <<< 8 < 2 ^ 16 := by
    rw [Nat.shiftLeft_eq]
    omega
  show (low.toNat + 256 * (high.toNat + 256 * 0)) % 2 ^ 16 = low.toNat ||| high.toNat <<< 8 % 2 ^ 16
  rw [Nat.mod_eq_of_lt hfits, Nat.or_comm, ← Nat.shiftLeft_add_eq_or_of_lt hlow, Nat.shiftLeft_eq]
  omega

theorem field_two {offset : Nat} (h : offset + 2 ≤ source.length) :
    LittleEndian.field source offset 2 = LittleEndian.get [source.getD offset 0, source.getD (offset + 1) 0] := by
  have hlow : offset < source.length := by omega
  have hhigh : offset + 1 < source.length := by omega
  unfold LittleEndian.field
  rw [drop_eq_getElem_cons hlow, drop_eq_getElem_cons hhigh, getD_eq_getElem?_getD,
    getD_eq_getElem?_getD, List.getElem?_eq_getElem hlow, List.getElem?_eq_getElem hhigh]
  rfl

/-- **The vector instructions unpack eight columns as the loop does**, one by one. -/
theorem vector_eq (x : Nat) : (do
      let samples ← vld1q_u16 source (sourceRow + x * 2)
      vst1q_u16 destination (destinationRow + x) (vshrq_n_u16 samples 6)) =
      (List.range 8).foldlM (fun destination lane =>
        unpackAt source sourceRow destinationRow destination (x + lane)) destination := by
  rw [foldlM_unpackAt]
  unfold vld1q_u16
  by_cases hsource : sourceRow + x * 2 + 16 ≤ source.length
  · rw [if_pos hsource]
    show vst1q_u16 _ _ _ = _
    unfold vst1q_u16
    have hlanes : (vshrq_n_u16 (.ofFn fun lane =>
        UInt16.ofNat (LittleEndian.field source (sourceRow + x * 2 + lane * 2) 2)) 6).toList =
          (List.range 8).map fun lane => sampleAt source (sourceRow + (x + lane) * 2) := by
      apply ext_getElem
      · rw [Vector.length_toList, length_map, length_range]
      · intro lane hlane _
        rw [Vector.length_toList] at hlane
        simp only [vshrq_n_u16, Vector.getElem_toList, Vector.getElem_map, Vector.getElem_ofFn, getElem_map,
          getElem_range]
        rw [field_two (by omega), container_eq, show sourceRow + x * 2 + lane * 2 = sourceRow + (x + lane) * 2 by omega]
        rfl
    by_cases hroom : destinationRow + x + 8 ≤ destination.length
    · rw [if_pos hroom, if_pos fun _ => by omega, hlanes]
      unfold replaced
      rw [length_map, length_range]
    · rw [if_neg hroom, if_neg fun h => by have := h (by decide); omega]
  · rw [if_neg hsource, if_neg fun h => by have := h (by decide); omega]
    rfl

theorem unpackRaw10RowNeon_eq : unpackRaw10RowNeon = unpackRaw10RowScalar := by
  funext source sourceRow width destination destinationRow
  unfold unpackRaw10RowNeon unpackRaw10RowScalar
  simp only [vector_eq]
  rw [foldlM_blocks, ← foldlM_range_add, Nat.div_add_mod']

/-! ## Unpacking -/

theorem unpackAt_keeps {x : Nat} (hx : x < width) (hsource : sourceRow + width * 2 ≤ source.length)
    (hdestination : destinationRow + width ≤ n) (hlen : destination.length = n) :
    ∃ destination', unpackAt source sourceRow destinationRow destination x = .ok destination' ∧
      destination'.length = n := by
  rw [unpackAt_eq, if_pos ⟨by omega, by omega⟩]
  exact ⟨_, rfl, by rw [length_set, hlen]⟩

/-- A row within its memory is unpacked without a fault. -/
theorem unpackRow_keeps (neon : Bool) (hsource : sourceRow + width * 2 ≤ source.length)
    (hdestination : destinationRow + width ≤ n) (hlen : destination.length = n) :
    ∃ destination', (if neon then unpackRaw10RowNeon else unpackRaw10RowScalar) source sourceRow width destination
      destinationRow = .ok destination' ∧ destination'.length = n := by
  rw [unpackRaw10RowNeon_eq, ite_self]
  refine foldlM_keeps (P := fun destination : List UInt16 => destination.length = n) (fun x hx destination hlen => ?_) hlen
  exact unpackAt_keeps (mem_range.mp hx) hsource hdestination hlen

theorem row_le {y : Nat} (pitch : Nat) (hy : y < height) : y * pitch + pitch ≤ height * pitch := by
  rw [← Nat.succ_mul]
  exact Nat.mul_le_mul_right _ hy

/-- **The samples are unpacked** without a fault where the rows are in the source and in the destination. -/
theorem unpackRaw10_keeps (neon : Bool) {sourceStride destinationStride : Nat}
    (hsourceRow : width * 2 ≤ sourceStride) (hsource : height * sourceStride ≤ source.length)
    (hdestinationRow : width ≤ destinationStride) (hdestination : height * destinationStride = destination.length) :
    ∃ destination', unpackRaw10 neon source width height sourceStride destination destinationStride =
      .ok destination' ∧ destination'.length = destination.length := by
  refine foldlM_keeps (P := fun destination' : List UInt16 => destination'.length = destination.length)
    (fun y hy destination' hlen => ?_) rfl
  rw [mem_range] at hy
  have hrow := row_le sourceStride hy
  have hrow' := row_le destinationStride hy
  exact unpackRow_keeps neon (by omega) (by omega) hlen

/-! ## Writing the pixels -/

variable {data : List UInt8} {index : Nat}

theorem writePixel_keeps (h : index + 4 ≤ data.length) (pixel : UInt8 × UInt8 × UInt8) :
    ∃ data', writePixel data index pixel = .ok data' ∧ data'.length = data.length := by
  obtain ⟨blue, hblue, hlen⟩ := write_eq (show index < data.length by omega) pixel.1
  obtain ⟨green, hgreen, hlen'⟩ := write_eq (show index + 1 < blue.length by omega) pixel.2.1
  obtain ⟨red, hred, hlen''⟩ := write_eq (show index + 2 < green.length by omega) pixel.2.2
  obtain ⟨alpha, halpha, hlen'''⟩ := write_eq (show index + 3 < red.length by omega) 255
  refine ⟨alpha, ?_, by omega⟩
  unfold writePixel
  rw [hblue]
  dsimp only [bind, Except.bind]
  rw [hgreen]
  dsimp only
  rw [hred]
  exact halpha

theorem writePixel_outside (h : data.length ≤ index) (pixel : UInt8 × UInt8 × UInt8) (data' : List UInt8) :
    writePixel data index pixel ≠ .ok data' := by
  unfold writePixel
  rw [write_outside h]
  exact nofun

theorem length_writePixel {pixel : UInt8 × UInt8 × UInt8} {data' : List UInt8}
    (h : writePixel data index pixel = .ok data') : data'.length = data.length := by
  obtain ⟨blue, hblue, h⟩ := exists_of_bind h
  obtain ⟨green, hgreen, h⟩ := exists_of_bind h
  obtain ⟨red, hred, h⟩ := exists_of_bind h
  rw [length_write h, length_write hred, length_write hgreen, length_write hblue]

variable {pixel : Nat → Nat → UInt8 × UInt8 × UInt8} {rows cols step : Nat}

/-- A row within its memory is written without a fault. -/
theorem writeRow_keeps (pixel : Nat → Nat → UInt8 × UInt8 × UInt8) {y : Nat} (h : y * step + cols * 4 ≤ data.length) :
    ∃ data', writeRow pixel cols step data y = .ok data' ∧ data'.length = data.length := by
  refine foldlM_keeps (P := fun data' : List UInt8 => data'.length = data.length) (fun x hx data' hlen => ?_) rfl
  rw [mem_range] at hx
  obtain ⟨data'', hwrite, hlen'⟩ := writePixel_keeps (show y * step + x * 4 + 4 ≤ data'.length by omega)
    (pixel y x)
  exact ⟨data'', hwrite, hlen'.trans hlen⟩

theorem length_writeRow {y : Nat} {data' : List UInt8} (h : writeRow pixel cols step data y = .ok data') :
    data'.length = data.length := by
  unfold writeRow at h
  generalize List.range cols = columns at h
  induction columns generalizing data with
  | nil =>
    cases h
    rfl
  | cons x columns ih =>
    rw [foldlM_cons] at h
    obtain ⟨next, hnext, hrest⟩ := exists_of_bind h
    rw [ih hrest, length_writePixel hnext]

/-- **The pixels fit** an output whose rows are those of the pixels. -/
theorem writePixels_keeps (pixel : Nat → Nat → UInt8 × UInt8 × UInt8) (hcols : 0 < cols) (h : data.length = rows * (cols * 4)) :
    ∃ data', writePixels pixel rows cols (cols * 4) data = .ok data' ∧ data'.length = data.length := by
  have hstep : matStep cols (cols * 4) = cols * 4 := if_neg (by omega)
  unfold writePixels
  rw [hstep]
  refine foldlM_keeps (P := fun data' : List UInt8 => data'.length = data.length) (fun y hy data' hlen => ?_) rfl
  rw [mem_range] at hy
  have hrow := row_le (cols * 4) hy
  have hinside : y * (cols * 4) + cols * 4 ≤ data'.length := by omega
  obtain ⟨data'', hwrite, hlen'⟩ := writeRow_keeps pixel hinside
  exact ⟨data'', hwrite, hlen'.trans hlen⟩

/-- **They do not fit** one whose rows are shorter: the last pixel of the last row is outside. -/
theorem writePixels_faults (pixel : Nat → Nat → UInt8 × UInt8 × UInt8) (hrows : 0 < rows) (hcols : 0 < cols)
    (hshort : step + 4 ≤ cols * 4) (h : data.length = rows * step) (data' : List UInt8) :
    writePixels pixel rows cols step data ≠ .ok data' := by
  have hlast : rows * step ≤ (rows - 1) * matStep cols step + (cols - 1) * 4 := by
    unfold matStep
    split
    case isTrue hzero =>
      rw [hzero, Nat.mul_zero]
      exact Nat.zero_le _
    case isFalse =>
      have hrow : rows * step = (rows - 1) * step + step := by
        rw [← Nat.succ_mul, Nat.succ_eq_add_one, Nat.sub_add_cancel hrows]
      omega
  refine foldlM_faults (P := fun data' : List UInt8 => data'.length = rows * step)
    (mem_range.mpr (Nat.sub_lt hrows Nat.one_pos)) (fun data hdata => ?_) (fun y _ data hdata data' h => ?_) h data'
  · refine foldlM_faults (P := fun data' : List UInt8 => data'.length = rows * step)
      (mem_range.mpr (Nat.sub_lt hcols Nat.one_pos)) (fun data hdata => ?_) (fun x _ data hdata data' h => ?_) hdata
    · exact writePixel_outside (by rw [hdata]; exact hlast) _
    · exact (length_writePixel h).trans hdata
  · exact (length_writeRow h).trans hdata

@[simp] theorem length_resized (data : List UInt8) (size : Nat) : (resized data size).length = size := by
  unfold resized
  rw [length_append, length_take, length_replicate]
  omega

/-! ## The check -/

namespace SoftwareIsp

variable {develop : Develop} {neon : Bool} {config : SoftwareIspConfig} {raw : RawBayerFrame}

/-- The check, on numbers. -/
theorem isAccepted_iff : isAccepted config raw = true ↔ 0 < raw.width.toNat ∧ 0 < raw.height.toNat ∧
    raw.width.toNat * 2 % 2 ^ 32 ≤ raw.bytesPerLine.toNat ∧ raw.bytesUsed.toNat ≤ raw.data.length ∧
    raw.bytesPerLine.toNat * raw.height.toNat ≤ raw.bytesUsed.toNat ∧ validConfig config = true := by
  have hlineLt := raw.bytesPerLine.toNat_lt
  have hheightLt := raw.height.toNat_lt
  have hproduct : raw.bytesPerLine.toNat * raw.height.toNat ≤ (2 ^ 32 - 1) * (2 ^ 32 - 1) :=
    Nat.mul_le_mul (by omega) (by omega)
  have hminimum : (raw.bytesPerLine.toUInt64 * raw.height.toUInt64).toNat =
      raw.bytesPerLine.toNat * raw.height.toNat := by
    rw [UInt64.toNat_mul, UInt32.toNat_toUInt64, UInt32.toNat_toUInt64, Nat.mod_eq_of_lt (by omega)]
  have hline : raw.bytesPerLine < raw.width * 2 ↔ raw.bytesPerLine.toNat < raw.width.toNat * 2 % 2 ^ 32 := by
    rw [UInt32.lt_iff_toNat_lt, UInt32.toNat_mul]
    rfl
  have hused : raw.bytesUsed.toUInt64 < raw.bytesPerLine.toUInt64 * raw.height.toUInt64 ↔
      raw.bytesUsed.toNat < raw.bytesPerLine.toNat * raw.height.toNat := by
    rw [UInt64.lt_iff_toNat_lt, UInt32.toNat_toUInt64, hminimum]
  have hwidth : raw.width = 0 ↔ raw.width.toNat = 0 := UInt32.toNat_inj.symm
  have hheight : raw.height = 0 ↔ raw.height.toNat = 0 := UInt32.toNat_inj.symm
  unfold isAccepted
  simp only [Bool.not_eq_true', Bool.or_eq_false_iff, decide_eq_false_iff_not, hwidth, hheight, hline, hused,
    Bool.not_eq_false', Nat.not_lt, Nat.pos_iff_ne_zero, and_assoc, ne_eq]

section

variable (h : isAccepted config raw = true)
include h

theorem bounds_of_isAccepted (hwidth : raw.width.toNat < 2 ^ 31) :
    raw.width.toNat * 2 ≤ raw.bytesPerLine.toNat ∧ raw.height.toNat < 2 ^ 31 ∧
      raw.height.toNat * raw.bytesPerLine.toNat ≤ raw.data.length ∧
      raw.width.toNat * 4 * raw.height.toNat < 2 ^ 33 := by
  obtain ⟨hw, hh, hline, hused, hminimum, _⟩ := isAccepted_iff.mp h
  rw [Nat.mod_eq_of_lt (by omega)] at hline
  have husedLt := raw.bytesUsed.toNat_lt
  have hrows : 2 * raw.height.toNat ≤ raw.bytesPerLine.toNat * raw.height.toNat := Nat.mul_le_mul_right _ (by omega)
  have hpixels : raw.width.toNat * 4 * raw.height.toNat ≤ 2 * (raw.bytesPerLine.toNat * raw.height.toNat) := by
    rw [← Nat.mul_assoc]
    exact Nat.mul_le_mul_right _ (by omega)
  refine ⟨hline, by omega, ?_, by omega⟩
  rw [Nat.mul_comm]
  omega

theorem unpack_of_isAccepted (hwidth : raw.width.toNat < 2 ^ 31) (neon : Bool) :
    ∃ raw16, unpackRaw10 neon raw.data raw.width.toNat raw.height.toNat raw.bytesPerLine.toNat
      (List.replicate (raw.height.toNat * raw.width.toNat) 0) raw.width.toNat = .ok raw16 := by
  obtain ⟨hline, _, hdata, _⟩ := bounds_of_isAccepted h hwidth
  have hdestination : raw.height.toNat * raw.width.toNat =
      (List.replicate (raw.height.toNat * raw.width.toNat) (0 : UInt16)).length := length_replicate.symm
  obtain ⟨raw16, hunpack, _⟩ := unpackRaw10_keeps neon hline hdata (Nat.le_refl raw.width.toNat) hdestination
  exact ⟨raw16, hunpack⟩

theorem process_eq (hpattern : raw.pattern = .rggb)
    (hwidth : raw.width.toNat < 2 ^ 31) (develop : Develop) (neon : Bool) (previous : CameraFrame) :
    ∃ raw16, process develop neon config raw (some previous) =
      (writePixels (develop config raw.height.toNat raw.width.toNat raw16) raw.height.toNat raw.width.toNat
        (raw.width * 4).toNat
        (resized previous.data ((raw.width * 4).toUInt64 * raw.height.toUInt64).toNat)).map fun data =>
          ⟨true, none, some { outputOf raw (raw.width * 4) with data := data }⟩ := by
  obtain ⟨raw16, hunpack⟩ := unpack_of_isAccepted h hwidth neon
  obtain ⟨_, hheight, _⟩ := bounds_of_isAccepted h hwidth
  refine ⟨raw16, ?_⟩
  have hrows : matDimension raw.height = .ok raw.height.toNat := if_pos hheight
  have hcols : matDimension raw.width = .ok raw.width.toNat := if_pos hwidth
  unfold process
  dsimp only
  rw [h, if_neg (by decide), if_neg (not_not_intro hpattern), hrows, hcols]
  dsimp only [bind, Except.bind]
  rw [hunpack]
  dsimp only
  generalize writePixels _ _ _ _ _ = written
  cases written with
  | error fault | ok data => rfl

end

theorem outputSize_eq : ((raw.width * 4).toUInt64 * raw.height.toUInt64).toNat =
    raw.height.toNat * (raw.width * 4).toNat := by
  have hstrideLt := (raw.width * 4).toNat_lt
  have hheightLt := raw.height.toNat_lt
  have hproduct : (raw.width * 4).toNat * raw.height.toNat ≤ (2 ^ 32 - 1) * (2 ^ 32 - 1) :=
    Nat.mul_le_mul (by omega) (by omega)
  rw [UInt64.toNat_mul, UInt32.toNat_toUInt64, UInt32.toNat_toUInt64, Nat.mod_eq_of_lt (by omega), Nat.mul_comm]

/-- **A frame of fewer than `2^30` columns is processed** without a fault. -/
theorem process_ok (h : isAccepted config raw = true) (hpattern : raw.pattern = .rggb)
    (hwidth : raw.width.toNat < 2 ^ 30) (previous : CameraFrame) :
    ∃ call, process develop neon config raw (some previous) = .ok call := by
  obtain ⟨raw16, hprocess⟩ := process_eq h hpattern (by omega) develop neon previous
  have hstride : (raw.width * 4).toNat = raw.width.toNat * 4 := by
    rw [UInt32.toNat_mul]
    exact Nat.mod_eq_of_lt (by show _ * 4 < _; omega)
  obtain ⟨hw, _⟩ := isAccepted_iff.mp h
  have hlen : (resized previous.data ((raw.width * 4).toUInt64 * raw.height.toUInt64).toNat).length =
      raw.height.toNat * (raw.width.toNat * 4) := by
    rw [length_resized, outputSize_eq, hstride]
  obtain ⟨data, hwrite, _⟩ :=
    writePixels_keeps (develop config raw.height.toNat raw.width.toNat raw16) hw hlen
  rw [hprocess, hstride, hwrite]
  exact ⟨_, rfl⟩

/-- **From `2^30` columns on an accepted frame is not processed** without a fault. -/
theorem process_faults (h : isAccepted config raw = true) (hpattern : raw.pattern = .rggb)
    (hwidth : 2 ^ 30 ≤ raw.width.toNat) (previous : CameraFrame) (call : Call CameraFrame) :
    process develop neon config raw (some previous) ≠ .ok call := by
  obtain ⟨hw, hh, _⟩ := isAccepted_iff.mp h
  by_cases hint : raw.width.toNat < 2 ^ 31
  · obtain ⟨raw16, hprocess⟩ := process_eq h hpattern hint develop neon previous
    -- The stride is what `2^32` leaves of the bytes of a row.
    have hstride : (raw.width * 4).toNat = raw.width.toNat * 4 - 2 ^ 32 := by
      rw [UInt32.toNat_mul]
      show raw.width.toNat * 4 % 2 ^ 32 = _
      omega
    have hshort : (raw.width * 4).toNat + 4 ≤ raw.width.toNat * 4 := by omega
    have hlen : (resized previous.data ((raw.width * 4).toUInt64 * raw.height.toUInt64).toNat).length =
        raw.height.toNat * (raw.width * 4).toNat := by
      rw [length_resized, outputSize_eq]
    have hfaults :=
      writePixels_faults (develop config raw.height.toNat raw.width.toNat raw16) hh hw hshort hlen
    rw [hprocess]
    intro hok
    cases hwritten : writePixels (develop config raw.height.toNat raw.width.toNat raw16) raw.height.toNat
        raw.width.toNat (raw.width * 4).toNat
        (resized previous.data ((raw.width * 4).toUInt64 * raw.height.toUInt64).toNat) with
    | error fault =>
      rw [hwritten] at hok
      cases hok
    | ok data => exact hfaults data hwritten
  · have hcols : matDimension raw.width = .error .wraps := if_neg hint
    unfold process
    dsimp only
    rw [h, if_neg (by decide), if_neg (not_not_intro hpattern)]
    intro hok
    obtain ⟨rows, _, hrest⟩ := exists_of_bind hok
    rw [hcols] at hrest
    cases hrest

/-- **The vector path agrees with the plain one**: for every frame, also where an access is outside. -/
theorem process_neon (develop : Develop) (config : SoftwareIspConfig) (raw : RawBayerFrame)
    (output : Option CameraFrame) : process develop true config raw output = process develop false config raw output := by
  have hunpack : unpackRaw10 true = unpackRaw10 false := by
    unfold unpackRaw10
    rw [unpackRaw10RowNeon_eq, ite_self, ite_self]
  unfold process
  rw [hunpack]

/-- What is expected for a descriptor: if it is accepted, its products fit in their types; and whatever the output, all
    accesses are inside. -/
structure Validated (develop : Develop) (neon : Bool) (config : SoftwareIspConfig) (raw : RawBayerFrame) : Prop where
  fits : isAccepted config raw = true → raw.pattern = .rggb →
    raw.width.toNat * 2 < 2 ^ 32 ∧ raw.width.toNat * 4 < 2 ^ 32 ∧
      raw.bytesPerLine.toNat * raw.height.toNat < 2 ^ 64 ∧ raw.width.toNat * 4 * raw.height.toNat < 2 ^ 64
  safe : ∀ output, ∃ call, process develop neon config raw output = .ok call

/-- **The check is sound** for a descriptor just where it does not let `2^30` columns or more through. -/
theorem validated_iff (develop : Develop) (neon : Bool) (config : SoftwareIspConfig) (raw : RawBayerFrame) :
    Validated develop neon config raw ↔
      (isAccepted config raw = true → raw.pattern = .rggb → raw.width.toNat < 2 ^ 30) := by
  constructor
  · intro h hacc hpattern
    have hfits := h.fits hacc hpattern
    omega
  · intro h
    refine ⟨fun hacc hpattern => ?_, fun output => ?_⟩
    · have hwidth := h hacc hpattern
      obtain ⟨_, _, _, hpixels⟩ := bounds_of_isAccepted hacc (by omega)
      obtain ⟨_, _, _, _, hminimum, _⟩ := isAccepted_iff.mp hacc
      have husedLt := raw.bytesUsed.toNat_lt
      refine ⟨by omega, by omega, by omega, by omega⟩
    · cases output with
      | none => exact ⟨_, rfl⟩
      | some previous =>
        by_cases hacc : isAccepted config raw = true
        · by_cases hpattern : raw.pattern = .rggb
          · exact process_ok hacc hpattern (h hacc hpattern) previous
          · unfold process
            dsimp only
            rw [hacc, if_neg (by decide), if_pos hpattern]
            exact ⟨_, rfl⟩
        · unfold process
          dsimp only
          rw [Bool.eq_false_iff.mpr hacc]
          exact ⟨_, rfl⟩

/-- A frame that is let through. -/
def longRow : RawBayerFrame :=
  { width := 0x40000000, height := 1, bytesPerLine := 0x80000000, bytesUsed := 0x80000000,
    data := List.replicate (2 ^ 31) 0 }

/-- **The long row is accepted**, and its pixels are written outside of an output of no bytes. -/
theorem longRow_faults : isAccepted {} longRow = true ∧ longRow.width * 4 = 0 ∧
    ¬ Validated (fun _ _ _ _ _ _ => (0, 0, 0)) false {} longRow := by
  have hacc : isAccepted {} longRow = true := by
    rw [isAccepted_iff]
    refine ⟨by decide, by decide, by decide, ?_, by decide, by decide⟩
    exact Nat.le_of_eq length_replicate.symm
  refine ⟨hacc, by decide, fun h => ?_⟩
  obtain ⟨call, hcall⟩ := h.safe (some {})
  exact process_faults hacc rfl (by decide) {} call hcall

end SoftwareIsp

end Cockpit.Camera
