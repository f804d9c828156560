/-
  Mapped video planes, copied to memory of the process (`driver/camera/transform/cpu_video_frame.cc`). A size
  that wraps and an access outside of a plane or of the copy is a fault.
-/
import Mathlib.Algebra.GroupWithZero.Nat
import Mathlib.Data.List.Forall2
import Cockpit.Camera.SharedFrameBuffer
import Cockpit.Lib.CheckedMemory

namespace Cockpit.Camera

open CheckedMemory List

/-! ## The functions -/

inductive VicOutputFormat where
  | bgrx
  | nv12
  | i420
  /-- A value outside of the enumerators. -/
  | other (value : Int32)
  deriving DecidableEq

structure VicTransformConfig where
  width : UInt32 := 1280
  height : UInt32 := 720
  format : VicOutputFormat := .bgrx

/-- A plane with what its pointer points to, if it is not null. -/
structure MappedVideoPlane where
  data : Option (Nat → UInt8) := none
  size : UInt64 := 0
  stride : UInt32 := 0

structure CpuVideoPlane where
  offset : UInt64 := 0
  stride : UInt32 := 0
  rowBytes : UInt32 := 0
  height : UInt32 := 0

structure CpuVideoFrame where
  format : VicOutputFormat := .bgrx
  width : UInt32 := 0
  height : UInt32 := 0
  sessionId : UInt64 := 0
  captureId : UInt32 := 0
  sensorTimestampNs : UInt64 := 0
  frameDurationNs : UInt64 := 0
  receivedAtNs : Int64 := 0
  sourceClock : CameraTimestampClock := .unknown
  planes : List CpuVideoPlane := []
  data : List UInt8 := []

/-- What a call leaves: its result, the error it has set, and the object behind the output pointer, if that is not
    null. -/
structure Call (α : Type) where
  result : Bool
  error : Option String := none
  output : Option α

/-- Bytes of a row, and rows, for each plane. -/
def rowsOf (config : VicTransformConfig) : Except Fault (Option (List (UInt32 × UInt32))) :=
  let w := config.width
  let h := config.height
  match config.format with
  | .bgrx => do return some [(← mul32 w 4, h)]
  | .nv12 => .ok (some [(w, h), (w, h / 2)])
  | .i420 => .ok (some [(w, h), (w / 2, h / 2), (w / 2, h / 2)])
  | .other _ => .ok none

def byteLimit : UInt64 := 256 * 1024 * 1024

/-- The plane holds its rows. -/
def planeFits (plane : MappedVideoPlane) (row height : UInt32) : Except Fault Bool :=
  if plane.data.isNone ∨ plane.stride < row then .ok false
  else do
    let above ← mul64 (← sub32 height 1).toUInt64 plane.stride.toUInt64
    let last ← add64 above row.toUInt64
    return last ≤ plane.size

/-- One plane behind the other. -/
def layoutPlanes : List (MappedVideoPlane × UInt32 × UInt32) → UInt64 →
    Except Fault (Except String (List CpuVideoPlane × UInt64))
  | [], total => .ok (.ok ([], total))
  | (plane, row, height) :: parts, total => do
    if !(← planeFits plane row height) then return .error "invalid plane pointer, pitch or mapped size"
    let bytes ← mul64 plane.stride.toUInt64 height.toUInt64
    if byteLimit < bytes then return .error "CPU output exceeds byte limit"
    let sum ← add64 total bytes
    if byteLimit < sum then return .error "CPU output exceeds byte limit"
    match ← layoutPlanes parts sum with
    | .error reason => return .error reason
    | .ok (layouts, total') =>
      return .ok ({ offset := total, stride := plane.stride, rowBytes := row, height := height } :: layouts, total')

/-- `memcpy` of one row. -/
def copyRow (plane : MappedVideoPlane) (layout : CpuVideoPlane) (data : List UInt8) (row : Nat) :
    Except Fault (List UInt8) := do
  let below ← mul64 (UInt64.ofNat row) layout.stride.toUInt64
  let index ← add64 layout.offset below
  let offset ← mul64 (UInt64.ofNat row) plane.stride.toUInt64
  match plane.data with
  | some source => copyInto data index.toNat source plane.size.toNat offset.toNat layout.rowBytes.toNat
  | none => .error .outside

/-- Row by row. -/
def copyPlane (data : List UInt8) (part : MappedVideoPlane × CpuVideoPlane) : Except Fault (List UInt8) :=
  (List.range part.2.height.toNat).foldlM (copyRow part.1 part.2) data

/-- The frame, before it is put out. -/
def nextFrame (planes : List MappedVideoPlane) (config : VicTransformConfig) :
    Except Fault (Except String CpuVideoFrame) := do
  let w := config.width
  let h := config.height
  if w = 0 ∨ h = 0 ∨ 8192 < w ∨ 8192 < h then return .error "invalid CPU output dimensions"
  match ← rowsOf config with
  | none => return .error "unsupported CPU output format"
  | some rows =>
    if config.format ≠ .bgrx ∧ (w % 2 ≠ 0 ∨ h % 2 ≠ 0) then return .error "4:2:0 output requires even dimensions"
    if planes.length ≠ rows.length then return .error "unexpected plane count"
    match ← layoutPlanes (planes.zip rows) 0 with
    | .error reason => return .error reason
    | .ok (layouts, total) =>
      let data ← (planes.zip layouts).foldlM copyPlane (List.replicate total.toNat 0)
      return .ok { format := config.format, width := w, height := h, planes := layouts, data := data }

/-- `CopyMappedVideoPlanes`. -/
def copyMappedVideoPlanes (planes : List MappedVideoPlane) (config : VicTransformConfig)
    (output : Option CpuVideoFrame) : Except Fault (Call CpuVideoFrame) :=
  match output with
  | none => .ok { result := false, error := some "invalid CPU output dimensions", output := none }
  | some previous => do
    match ← nextFrame planes config with
    | .error reason => return { result := false, error := some reason, output := some previous }
    | .ok next => return { result := true, output := some next }

def isOwnedBgrx (input : CpuVideoFrame) : Except Fault Bool :=
  if input.format ≠ .bgrx then .ok false
  else
    match input.planes with
    | [plane] => do
      if plane.offset ≠ 0 then return false
      let row ← mul64 input.width.toUInt64 4
      return plane.rowBytes.toUInt64 = row && plane.height = input.height && input.sensorTimestampNs ≤ 0x7FFFFFFFFFFFFFFF
    | _ => .ok false

def cameraFrameOf (input : CpuVideoFrame) (stride : UInt32) : CameraFrame where
  sequence := input.captureId.toNat
  width := input.width.toNat
  height := input.height.toNat
  strideBytes := stride.toNat
  format := .bgrx
  receivedAtNs := input.receivedAtNs.toInt
  timestampMs := if 0 < input.receivedAtNs then (input.receivedAtNs.toInt / 1000000).toNat else 0
  sourceTimestampNs := input.sensorTimestampNs.toNat
  sourceTimestampValid := 0 < input.sensorTimestampNs
  sourceClock := input.sourceClock

/-- `TakeCameraFrame`. -/
def takeCameraFrame (input : CpuVideoFrame) (output : Option CameraFrame) : Except Fault (Call CameraFrame) := do
  let failed : Call CameraFrame :=
    { result := false, error := some "expected owned BGRx plane for CameraFrame", output := output }
  if output.isNone then return failed
  if !(← isOwnedBgrx input) then return failed
  match input.planes with
  | [] => return failed
  | plane :: _ =>
    let next := cameraFrameOf input plane.stride
    if !next.hasValidLayout || !next.hasValidPayloadSize input.data.length then return failed
    return { result := true, output := some { next with data := input.data } }

/-! ## What is expected -/

/-- What the picture has. -/
def visibleRows (format : VicOutputFormat) (w h : Nat) : List (Nat × Nat) :=
  match format with
  | .bgrx => [(w * 4, h)]
  | .nv12 => [(w, h), (w, h / 2)]
  | .i420 => [(w, h), (w / 2, h / 2), (w / 2, h / 2)]
  | .other _ => []

/-- A row, with zeros up to the stride. -/
def paddedRow (source : Nat → UInt8) (stride rowBytes row : Nat) : List UInt8 :=
  slice source (row * stride) rowBytes ++ List.replicate (stride - rowBytes) 0

/-- A plane and its place in the copy: the rows are those of the source, which are all in it. -/
structure RowsCopied (plane : MappedVideoPlane) (layout : CpuVideoPlane) (data : List UInt8) : Prop where
  stride : layout.stride = plane.stride
  narrow : layout.rowBytes ≤ layout.stride
  inside : layout.offset.toNat + layout.height.toNat * layout.stride.toNat ≤ data.length
  rows : ∃ source, plane.data = some source ∧ ∀ row < layout.height.toNat,
    row * plane.stride.toNat + layout.rowBytes.toNat ≤ plane.size.toNat ∧
    (data.drop (layout.offset.toNat + row * layout.stride.toNat)).take layout.stride.toNat =
      paddedRow source plane.stride.toNat layout.rowBytes.toNat row

/-- The copy of the planes. -/
structure Copied (planes : List MappedVideoPlane) (config : VicTransformConfig) (next : CpuVideoFrame) : Prop where
  dimensions : config.width ≠ 0 ∧ config.height ≠ 0
  width : next.width = config.width
  height : next.height = config.height
  format : next.format = config.format
  visible : next.planes.map (fun layout => (layout.rowBytes.toNat, layout.height.toNat)) =
    visibleRows config.format config.width.toNat config.height.toNat
  size : next.data.length = (next.planes.map fun layout => layout.height.toNat * layout.stride.toNat).sum
  rows : List.Forall₂ (fun plane layout => RowsCopied plane layout next.data) planes next.planes

/-! ## The layout -/

variable {config : VicTransformConfig}

theorem rowsOf_eq (hw : config.width.toNat ≤ 8192) (hh : config.height.toNat ≤ 8192) (hpos : 0 < config.height.toNat) :
    rowsOf config = .ok none ∨ ∃ rows, rowsOf config = .ok (some rows) ∧
      rows.map (fun part => (part.1.toNat, part.2.toNat)) =
        visibleRows config.format config.width.toNat config.height.toNat ∧
      ((config.format = .bgrx ∨ config.height % 2 = 0) →
        ∀ part ∈ rows, 0 < part.2.toNat ∧ part.2.toNat ≤ 8192) := by
  have hhalf : (config.height / 2).toNat = config.height.toNat / 2 := UInt32.toNat_div _ _
  have hwidth : (config.width / 2).toNat = config.width.toNat / 2 := UInt32.toNat_div _ _
  have heven : config.height % 2 = 0 → 0 < config.height.toNat / 2 := by
    intro h
    have hmod := congrArg UInt32.toNat h
    rw [UInt32.toNat_mod] at hmod
    have hmod : config.height.toNat % 2 = 0 := hmod
    omega
  unfold rowsOf
  cases hformat : config.format with
  | bgrx =>
    obtain ⟨row, hrow, hvalue⟩ := mul32_eq (a := config.width) (b := 4) (by show _ * 4 < _; omega)
    refine .inr ⟨[(row, config.height)], ?_, ?_, fun _ part hpart => ?_⟩
    · dsimp only
      rw [hrow]
      rfl
    · show [(row.toNat, config.height.toNat)] = [(config.width.toNat * 4, config.height.toNat)]
      rw [hvalue]
      rfl
    · rw [mem_singleton.mp hpart]
      exact ⟨hpos, hh⟩
  | nv12 =>
    refine .inr ⟨[(config.width, config.height), (config.width, config.height / 2)], rfl, ?_, fun h part hpart => ?_⟩
    · show [_, (_, (config.height / 2).toNat)] = [_, _]
      rw [hhalf]
    · have hhalfpos := heven (h.resolve_left nofun)
      rcases mem_pair.mp hpart with rfl | rfl
      · exact ⟨hpos, hh⟩
      · show 0 < (config.height / 2).toNat ∧ (config.height / 2).toNat ≤ 8192
        omega
  | i420 =>
    refine .inr ⟨[(config.width, config.height), (config.width / 2, config.height / 2),
      (config.width / 2, config.height / 2)], rfl, ?_, fun h part hpart => ?_⟩
    · show [_, ((config.width / 2).toNat, (config.height / 2).toNat),
        ((config.width / 2).toNat, (config.height / 2).toNat)] = [_, _, _]
      rw [hhalf, hwidth]
    · have hhalfpos := heven (h.resolve_left nofun)
      rcases mem_cons.mp hpart with rfl | hpart
      · exact ⟨hpos, hh⟩
      · rcases mem_pair.mp hpart with rfl | rfl
        all_goals
          show 0 < (config.height / 2).toNat ∧ (config.height / 2).toNat ≤ 8192
          omega
  | other value => exact .inl rfl

theorem planeFits_eq (plane : MappedVideoPlane) (row : UInt32) {height : UInt32} (hpos : 0 < height.toNat) :
    ∃ fits, planeFits plane row height = .ok fits ∧ (fits = true → ∃ source, plane.data = some source ∧
      row.toNat ≤ plane.stride.toNat ∧ (height.toNat - 1) * plane.stride.toNat + row.toNat ≤ plane.size.toNat) := by
  unfold planeFits
  by_cases hbad : plane.data.isNone ∨ plane.stride < row
  · exact ⟨false, if_pos hbad, nofun⟩
  · rw [if_neg hbad]
    obtain ⟨hdata, hstride⟩ := not_or.mp hbad
    have hstrideLt := plane.stride.toNat_lt
    have hrowLt := row.toNat_lt
    obtain ⟨last, hlast, hlastValue⟩ := sub32_eq (a := height) (b := 1) hpos
    have hlastLt := last.toNat_lt
    have hproduct : last.toNat * plane.stride.toNat ≤ (2 ^ 32 - 1) * (2 ^ 32 - 1) :=
      Nat.mul_le_mul (by omega) (by omega)
    obtain ⟨above, habove, haboveValue⟩ := mul64_eq (a := last.toUInt64) (b := plane.stride.toUInt64)
      (by rw [UInt32.toNat_toUInt64, UInt32.toNat_toUInt64]; omega)
    rw [UInt32.toNat_toUInt64, UInt32.toNat_toUInt64] at haboveValue
    obtain ⟨sum, hsum, hsumValue⟩ := add64_eq (a := above) (b := row.toUInt64)
      (by rw [UInt32.toNat_toUInt64, haboveValue]; omega)
    rw [UInt32.toNat_toUInt64] at hsumValue
    refine ⟨sum ≤ plane.size, ?_, fun hfits => ?_⟩
    · rw [hlast]
      dsimp only [bind, Except.bind]
      rw [habove]
      dsimp only
      rw [hsum]
      rfl
    · have hfits : sum ≤ plane.size := of_decide_eq_true hfits
      rw [UInt64.le_iff_toNat_le, hsumValue, haboveValue, hlastValue] at hfits
      cases hsource : plane.data with
      | none =>
        rw [hsource] at hdata
        exact absurd rfl hdata
      | some source => exact ⟨source, rfl, UInt32.le_iff_toNat_le.mp (UInt32.not_lt.mp hstride), hfits⟩

/-- What the first loop establishes of a plane, its rows and its layout at an offset of the copy. -/
structure PlaneLaid (part : MappedVideoPlane × UInt32 × UInt32) (layout : CpuVideoPlane) : Prop where
  mapped : ∃ source, part.1.data = some source
  stride : layout.stride = part.1.stride
  rowBytes : layout.rowBytes = part.2.1
  height : layout.height = part.2.2
  narrow : layout.rowBytes.toNat ≤ layout.stride.toNat
  inside : (layout.height.toNat - 1) * part.1.stride.toNat + layout.rowBytes.toNat ≤ part.1.size.toNat
  limit : layout.offset.toNat + layout.height.toNat * layout.stride.toNat ≤ byteLimit.toNat

/-- The planes lie one behind the other, from an offset to the total. -/
inductive Laid : List (MappedVideoPlane × UInt32 × UInt32) → List CpuVideoPlane → Nat → Nat → Prop where
  | nil {n : Nat} : Laid [] [] n n
  | cons {part : MappedVideoPlane × UInt32 × UInt32} {parts : List (MappedVideoPlane × UInt32 × UInt32)}
      {layout : CpuVideoPlane} {layouts : List CpuVideoPlane} {total : Nat} (h : PlaneLaid part layout)
      (hbehind : Laid parts layouts (layout.offset.toNat + layout.height.toNat * layout.stride.toNat) total) :
      Laid (part :: parts) (layout :: layouts) layout.offset.toNat total

/-- **The first loop**: no size wraps, and where it does not fail the planes are laid. -/
theorem layoutPlanes_eq (parts : List (MappedVideoPlane × UInt32 × UInt32)) (total : UInt64)
    (hheights : ∀ part ∈ parts, 0 < part.2.2.toNat ∧ part.2.2.toNat ≤ 8192) (htotal : total ≤ byteLimit) :
    (∃ reason, layoutPlanes parts total = .ok (.error reason)) ∨
    ∃ layouts total', layoutPlanes parts total = .ok (.ok (layouts, total')) ∧
      Laid parts layouts total.toNat total'.toNat := by
  induction parts generalizing total with
  | nil => exact .inr ⟨[], total, rfl, .nil⟩
  | cons part parts ih =>
    obtain ⟨plane, row, height⟩ := part
    obtain ⟨hpos, hheight⟩ := hheights _ mem_cons_self
    dsimp only at hpos hheight
    obtain ⟨fits, hfits, hinside⟩ := planeFits_eq plane row hpos
    have hlimit : byteLimit.toNat = 2 ^ 28 := by decide
    rw [UInt64.le_iff_toNat_le, hlimit] at htotal
    unfold layoutPlanes
    rw [hfits]
    dsimp only [bind, Except.bind]
    cases fits with
    | false => exact .inl ⟨_, rfl⟩
    | true =>
      obtain ⟨source, hsource, hnarrow, hlast⟩ := hinside rfl
      have hstrideLt := plane.stride.toNat_lt
      have hproduct : plane.stride.toNat * height.toNat ≤ (2 ^ 32 - 1) * 8192 :=
        Nat.mul_le_mul (by omega) hheight
      obtain ⟨bytes, hbytes, hbytesValue⟩ := mul64_eq (a := plane.stride.toUInt64) (b := height.toUInt64)
        (by rw [UInt32.toNat_toUInt64, UInt32.toNat_toUInt64]; omega)
      rw [UInt32.toNat_toUInt64, UInt32.toNat_toUInt64] at hbytesValue
      rw [hbytes]
      simp only [Bool.not_true, Bool.false_eq_true, if_false]
      by_cases hlarge : byteLimit < bytes
      · rw [if_pos hlarge]
        exact .inl ⟨_, rfl⟩
      rw [if_neg hlarge]
      rw [UInt64.lt_iff_toNat_lt, hlimit] at hlarge
      obtain ⟨sum, hsum, hsumValue⟩ := add64_eq (a := total) (b := bytes) (by omega)
      rw [hsum]
      dsimp only
      by_cases hfull : byteLimit < sum
      · rw [if_pos hfull]
        exact .inl ⟨_, rfl⟩
      rw [if_neg hfull]
      have hsumLe := UInt64.not_lt.mp hfull
      rcases ih sum (fun part hpart => hheights part (mem_cons_of_mem _ hpart)) hsumLe with
        ⟨reason, hreason⟩ | ⟨layouts, total', hlayouts, hlaid⟩
      · rw [hreason]
        exact .inl ⟨_, rfl⟩
      · rw [hlayouts]
        refine .inr ⟨_, total', rfl, ?_⟩
        refine @Laid.cons _ _ ⟨total, plane.stride, row, height⟩ _ _ ?_ ?_
        · refine ⟨⟨source, hsource⟩, rfl, rfl, rfl, hnarrow, hlast, ?_⟩
          rw [UInt64.le_iff_toNat_le, hsumValue, hbytesValue, Nat.mul_comm] at hsumLe
          exact hsumLe
        · rw [hsumValue, hbytesValue, Nat.mul_comm] at hlaid
          exact hlaid

/-! ## The copy -/

variable {plane : MappedVideoPlane} {layout : CpuVideoPlane} {part : MappedVideoPlane × UInt32 × UInt32}
  {source : Nat → UInt8}

theorem length_paddedRow {stride rowBytes : Nat} (h : rowBytes ≤ stride) (row : Nat) :
    (paddedRow source stride rowBytes row).length = stride := by
  unfold paddedRow
  rw [length_append, length_slice, length_replicate]
  omega

/-- What the copy of a plane should be. -/
def image (plane : MappedVideoPlane) (layout : CpuVideoPlane) : List UInt8 :=
  match plane.data with
  | some source =>
    (List.range layout.height.toNat).flatMap (paddedRow source plane.stride.toNat layout.rowBytes.toNat)
  | none => []

theorem PlaneLaid.row_le (h : PlaneLaid part layout) {row : Nat} (hrow : row < layout.height.toNat) :
    row * part.1.stride.toNat + layout.rowBytes.toNat ≤ part.1.size.toNat := by
  have hmul : row * part.1.stride.toNat ≤ (layout.height.toNat - 1) * part.1.stride.toNat :=
    Nat.mul_le_mul_right _ (by omega)
  have hinside := h.inside
  omega

variable {front behind : List UInt8}

section

variable (h : PlaneLaid part layout)
include h

/-- **One row**: zeros of the copy become the row of the source. -/
theorem copyRow_eq (hsource : part.1.data = some source) {row : Nat}
    (hrow : row < layout.height.toNat) (hfront : front.length = layout.offset.toNat + row * layout.stride.toNat) :
    copyRow part.1 layout (front ++ (List.replicate layout.stride.toNat 0 ++ behind)) row =
      .ok (front ++ (paddedRow source part.1.stride.toNat layout.rowBytes.toNat row ++ behind)) := by
  have hlimit := h.limit
  have hbyteLimit : byteLimit.toNat = 2 ^ 28 := by decide
  have hmul : row * layout.stride.toNat ≤ layout.height.toNat * layout.stride.toNat :=
    Nat.mul_le_mul_right _ (Nat.le_of_lt hrow)
  have hrowLt : row < 2 ^ 64 := Nat.lt_trans hrow (Nat.lt_trans layout.height.toNat_lt (by decide))
  have hrowValue : (UInt64.ofNat row).toNat = row := UInt64.toNat_ofNat_of_lt' hrowLt
  obtain ⟨below, hbelow, hbelowValue⟩ := mul64_eq (a := UInt64.ofNat row) (b := layout.stride.toUInt64)
    (by rw [hrowValue, UInt32.toNat_toUInt64]; omega)
  rw [hrowValue, UInt32.toNat_toUInt64] at hbelowValue
  obtain ⟨index, hindex, hindexValue⟩ := add64_eq (a := layout.offset) (b := below) (by omega)
  have hoffset : mul64 (UInt64.ofNat row) part.1.stride.toUInt64 = .ok below := by rw [← h.stride]; exact hbelow
  have hnarrow := h.narrow
  have hread := h.row_le hrow
  -- The zeros are those of the visible bytes and those of the padding.
  have hzeros : List.replicate layout.stride.toNat (0 : UInt8) =
      List.replicate layout.rowBytes.toNat 0 ++ List.replicate (layout.stride.toNat - layout.rowBytes.toNat) 0 := by
    rw [replicate_append_replicate]
    congr 1
    omega
  have hcopy := copyInto_eq front (List.replicate layout.rowBytes.toNat (0 : UInt8))
    (List.replicate (layout.stride.toNat - layout.rowBytes.toNat) 0 ++ behind) source
    (show row * part.1.stride.toNat + _ ≤ part.1.size.toNat by rw [length_replicate]; exact hread)
  rw [length_replicate, hfront, ← hbelowValue, ← hindexValue] at hcopy
  unfold copyRow
  rw [hbelow]
  dsimp only [bind, Except.bind]
  rw [hindex]
  dsimp only
  rw [hoffset, hsource]
  dsimp only
  rw [hzeros, append_assoc, hbelowValue, h.stride]
  rw [h.stride] at hcopy
  rw [hcopy]
  unfold paddedRow
  rw [append_assoc]

/-- **The rows of a plane**, one after the other. -/
theorem copyPlane_eq (hfront : front.length = layout.offset.toNat) :
    copyPlane (front ++ (List.replicate (layout.height.toNat * layout.stride.toNat) 0 ++ behind)) (part.1, layout) =
      .ok (front ++ (image part.1 layout ++ behind)) := by
  obtain ⟨source, hsource⟩ := h.mapped
  have hwide : layout.rowBytes.toNat ≤ part.1.stride.toNat := by
    rw [← h.stride]
    exact h.narrow
  have hrows : ∀ n ≤ layout.height.toNat,
      (List.range n).foldlM (copyRow part.1 layout)
        (front ++ (List.replicate (layout.height.toNat * layout.stride.toNat) 0 ++ behind)) =
      .ok (front ++ (List.range n).flatMap (paddedRow source part.1.stride.toNat layout.rowBytes.toNat) ++
        (List.replicate ((layout.height.toNat - n) * layout.stride.toNat) 0 ++ behind)) := by
    intro n
    induction n with
    | zero =>
      intro _
      rw [range_zero, flatMap_nil, append_nil]
      rfl
    | succ n ih =>
      intro hn
      have hsplit : List.replicate ((layout.height.toNat - n) * layout.stride.toNat) (0 : UInt8) =
          List.replicate layout.stride.toNat 0 ++
            List.replicate ((layout.height.toNat - (n + 1)) * layout.stride.toNat) 0 := by
        have hone : layout.height.toNat - n = layout.height.toNat - (n + 1) + 1 := by omega
        rw [replicate_append_replicate, hone, Nat.succ_mul, Nat.add_comm]
      have hlen : (front ++ (List.range n).flatMap
          (paddedRow source part.1.stride.toNat layout.rowBytes.toNat)).length =
          layout.offset.toNat + n * layout.stride.toNat := by
        rw [length_append, hfront, length_rows (length_paddedRow hwide), h.stride]
      rw [range_succ, foldlM_append, ih (Nat.le_of_succ_le hn), hsplit, append_assoc (List.replicate _ _)]
      show List.foldlM (copyRow part.1 layout) _ [n] = _
      rw [foldlM_cons, copyRow_eq h hsource hn hlen, flatMap_append, flatMap_singleton]
      simp only [append_assoc]
      rfl
  have hall := hrows _ (Nat.le_refl _)
  rw [Nat.sub_self, Nat.zero_mul, replicate_zero, nil_append, append_assoc] at hall
  unfold copyPlane image
  rw [hsource]
  exact hall

theorem length_image : (image part.1 layout).length = layout.height.toNat * layout.stride.toNat := by
  obtain ⟨source, hsource⟩ := h.mapped
  have hnarrow := h.narrow
  rw [h.stride] at hnarrow ⊢
  unfold image
  rw [hsource]
  exact length_rows (length_paddedRow hnarrow) _

theorem rowsCopied_of_image (hfront : front.length = layout.offset.toNat) :
    RowsCopied part.1 layout (front ++ (image part.1 layout ++ behind)) := by
  have hlen := length_image h
  obtain ⟨source, hsource⟩ := h.mapped
  have hnarrow := h.narrow
  refine ⟨h.stride, UInt32.le_iff_toNat_le.mpr hnarrow, ?_, source, hsource, fun row hrow => ⟨h.row_le hrow, ?_⟩⟩
  · rw [length_append, length_append, hfront, hlen]
    omega
  · have hdrop : (front ++ (image part.1 layout ++ behind)).drop
        (layout.offset.toNat + row * layout.stride.toNat) =
        (image part.1 layout ++ behind).drop (row * layout.stride.toNat) := by
      rw [← hfront, ← drop_drop, drop_left]
    rw [hdrop]
    rw [h.stride] at hnarrow ⊢
    unfold image
    rw [hsource]
    exact take_drop_rows (length_paddedRow hnarrow) hrow behind

end

section Planes

variable {parts : List (MappedVideoPlane × UInt32 × UInt32)} {layouts : List CpuVideoPlane} {n m : Nat}

def images (parts : List (MappedVideoPlane × UInt32 × UInt32)) (layouts : List CpuVideoPlane) : List UInt8 :=
  ((parts.map Prod.fst).zip layouts).flatMap fun pair => image pair.1 pair.2

section

variable (h : Laid parts layouts n m)
include h

theorem Laid.le : n ≤ m := by
  induction h with
  | nil => exact Nat.le_refl _
  | cons _ _ ih => omega

/-- **The second loop** fills the copy. -/
theorem copyPlanes_eq {front : List UInt8} (hfront : front.length = n) :
    ((parts.map Prod.fst).zip layouts).foldlM copyPlane (front ++ List.replicate (m - n) 0) =
      .ok (front ++ images parts layouts) := by
  induction h generalizing front with
  | nil =>
    rw [Nat.sub_self]
    rfl
  | @cons part parts layout layouts total h hbehind ih =>
    have hle := hbehind.le
    have hsplit : List.replicate (total - layout.offset.toNat) (0 : UInt8) =
        List.replicate (layout.height.toNat * layout.stride.toNat) 0 ++
          List.replicate (total - (layout.offset.toNat + layout.height.toNat * layout.stride.toNat)) 0 := by
      rw [replicate_append_replicate]
      congr 1
      omega
    have hnext : (front ++ image part.1 layout).length =
        layout.offset.toNat + layout.height.toNat * layout.stride.toNat := by
      rw [length_append, hfront, length_image h]
    have hrest := ih hnext
    rw [append_assoc, append_assoc] at hrest
    rw [map_cons, zip_cons_cons, foldlM_cons, hsplit, copyPlane_eq h hfront]
    exact hrest

theorem Laid.rowsCopied {front : List UInt8} (hfront : front.length = n) :
    List.Forall₂ (fun plane layout => RowsCopied plane layout (front ++ images parts layouts))
      (parts.map Prod.fst) layouts := by
  induction h generalizing front with
  | nil => exact .nil
  | @cons part parts layout layouts total h hbehind ih =>
    have hnext : (front ++ image part.1 layout).length =
        layout.offset.toNat + layout.height.toNat * layout.stride.toNat := by
      rw [length_append, hfront, length_image h]
    have himages : images (part :: parts) (layout :: layouts) = image part.1 layout ++ images parts layouts := rfl
    have hrest := ih hnext
    rw [append_assoc] at hrest
    rw [himages]
    exact .cons (rowsCopied_of_image h hfront) hrest

theorem Laid.length_images :
    (images parts layouts).length = (layouts.map fun layout => layout.height.toNat * layout.stride.toNat).sum := by
  induction h with
  | nil => rfl
  | @cons part parts layout layouts total h hbehind ih =>
    show (image part.1 layout ++ images parts layouts).length = _
    rw [length_append, length_image h, ih, map_cons, sum_cons]

theorem Laid.visible :
    layouts.map (fun layout => (layout.rowBytes.toNat, layout.height.toNat)) =
      parts.map fun part => (part.2.1.toNat, part.2.2.toNat) := by
  induction h with
  | nil => rfl
  | cons h _ ih => rw [map_cons, map_cons, ih, h.rowBytes, h.height]

end

end Planes

/-- **The frame that is made**: no size wraps, no access is outside, and the planes are copied. -/
theorem nextFrame_eq (planes : List MappedVideoPlane) (config : VicTransformConfig) :
    (∃ reason, nextFrame planes config = .ok (.error reason)) ∨
      ∃ next, nextFrame planes config = .ok (.ok next) ∧ Copied planes config next := by
  unfold nextFrame
  dsimp only
  by_cases hdimensions : config.width = 0 ∨ config.height = 0 ∨ 8192 < config.width ∨ 8192 < config.height
  · rw [if_pos hdimensions]
    exact .inl ⟨_, rfl⟩
  rw [if_neg hdimensions]
  obtain ⟨hwidth, hheight, hwide, hhigh⟩ : config.width ≠ 0 ∧ config.height ≠ 0 ∧ ¬ 8192 < config.width ∧
      ¬ 8192 < config.height := by
    simpa only [not_or, ne_eq] using hdimensions
  have hw : config.width.toNat ≤ 8192 := UInt32.le_iff_toNat_le.mp (UInt32.not_lt.mp hwide)
  have hh : config.height.toNat ≤ 8192 := UInt32.le_iff_toNat_le.mp (UInt32.not_lt.mp hhigh)
  have hpos : 0 < config.height.toNat := by
    rw [Nat.pos_iff_ne_zero]
    exact fun hzero => hheight (UInt32.toNat_inj.mp hzero)
  rcases rowsOf_eq hw hh hpos with hnone | ⟨rows, hrows, hvisible, hheights⟩
  · rw [hnone]
    exact .inl ⟨_, rfl⟩
  rw [hrows]
  dsimp only [bind, Except.bind]
  by_cases hodd : config.format ≠ .bgrx ∧ (config.width % 2 ≠ 0 ∨ config.height % 2 ≠ 0)
  · rw [if_pos hodd]
    exact .inl ⟨_, rfl⟩
  rw [if_neg hodd]
  have heven : config.format = .bgrx ∨ config.height % 2 = 0 := by
    by_contra hnot
    obtain ⟨hformat, hmod⟩ := not_or.mp hnot
    exact hodd ⟨hformat, .inr hmod⟩
  by_cases hcount : planes.length ≠ rows.length
  · rw [if_pos hcount]
    exact .inl ⟨_, rfl⟩
  rw [if_neg hcount]
  have hcount : planes.length = rows.length := not_not.mp hcount
  have hparts : (planes.zip rows).map Prod.fst = planes := map_fst_zip (Nat.le_of_eq hcount)
  have hrowParts : (planes.zip rows).map Prod.snd = rows := map_snd_zip (Nat.le_of_eq hcount.symm)
  rcases layoutPlanes_eq (planes.zip rows) 0 (fun part hpart => hheights heven _ (of_mem_zip hpart).2)
      (by decide) with ⟨reason, hreason⟩ | ⟨layouts, total, hlayouts, hlaid⟩
  · rw [hreason]
    exact .inl ⟨_, rfl⟩
  · have hempty : ([] : List UInt8).length = UInt64.toNat 0 := rfl
    have hcopy := copyPlanes_eq hlaid hempty
    have hrowsCopied := hlaid.rowsCopied hempty
    rw [hparts, nil_append] at hcopy hrowsCopied
    rw [hlayouts]
    dsimp only
    rw [show total.toNat = total.toNat - UInt64.toNat 0 from rfl]
    rw [nil_append] at hcopy
    rw [hcopy]
    refine .inr ⟨_, rfl, ⟨hwidth, hheight⟩, rfl, rfl, rfl, ?_, hlaid.length_images, hrowsCopied⟩
    show layouts.map _ = _
    rw [hlaid.visible, ← hvisible]
    conv_rhs => rw [← hrowParts]
    rw [map_map]
    rfl

/-! ## The frame of the camera -/

/-- The output changes only where the call succeeds. -/
def Call.Delivers {α : Type} (call : Call α) (output : Option α) (delivered : α → Prop) : Prop :=
  (call.result = false → call.output = output) ∧
    (call.result = true → ∃ next, call.output = some next ∧ delivered next)

theorem copyMappedVideoPlanes_eq (planes : List MappedVideoPlane) (config : VicTransformConfig)
    (output : Option CpuVideoFrame) :
    ∃ call, copyMappedVideoPlanes planes config output = .ok call ∧ call.Delivers output (Copied planes config) := by
  unfold copyMappedVideoPlanes
  cases output with
  | none => exact ⟨_, rfl, fun _ => rfl, nofun⟩
  | some previous =>
    dsimp only
    rcases nextFrame_eq planes config with ⟨reason, hreason⟩ | ⟨next, hnext, hcopied⟩
    · rw [hreason]
      exact ⟨_, rfl, fun _ => rfl, nofun⟩
    · rw [hnext]
      exact ⟨_, rfl, nofun, fun _ => ⟨next, rfl, hcopied⟩⟩

theorem isOwnedBgrx_eq (input : CpuVideoFrame) : ∃ owned, isOwnedBgrx input = .ok owned ∧
    (owned = true ↔ input.format = .bgrx ∧ ∃ plane, input.planes = [plane] ∧ plane.offset = 0 ∧
      plane.rowBytes.toNat = input.width.toNat * 4 ∧ plane.height = input.height ∧
      input.sensorTimestampNs ≤ 0x7FFFFFFFFFFFFFFF) := by
  unfold isOwnedBgrx
  by_cases hformat : input.format ≠ .bgrx
  · rw [if_pos hformat]
    exact ⟨false, rfl, nofun, fun h => absurd h.1 hformat⟩
  rw [if_neg hformat]
  have hwidthLt := input.width.toNat_lt
  obtain ⟨row, hrow, hvalue⟩ := mul64_eq (a := input.width.toUInt64) (b := 4)
    (by rw [UInt32.toNat_toUInt64]; show _ * 4 < _; omega)
  rw [UInt32.toNat_toUInt64] at hvalue
  have hvalue : row.toNat = input.width.toNat * 4 := hvalue
  match hplanes : input.planes with
  | [] => exact ⟨false, rfl, nofun, fun h => nomatch h.2⟩
  | _ :: _ :: _ => exact ⟨false, rfl, nofun, fun h => nomatch h.2⟩
  | [plane] =>
    dsimp only
    by_cases hoffset : plane.offset ≠ 0
    · rw [if_pos hoffset]
      refine ⟨false, rfl, nofun, ?_⟩
      rintro ⟨_, plane', heq, hzero, _⟩
      obtain rfl := head_eq_of_cons_eq heq
      exact absurd hzero hoffset
    · rw [if_neg hoffset, hrow]
      refine ⟨_, rfl, ?_⟩
      have hrowBytes : plane.rowBytes.toUInt64 = row ↔ plane.rowBytes.toNat = input.width.toNat * 4 := by
        rw [← UInt64.toNat_inj, UInt32.toNat_toUInt64, hvalue]
      rw [Bool.and_eq_true, Bool.and_eq_true, decide_eq_true_eq, decide_eq_true_eq, decide_eq_true_eq, hrowBytes]
      constructor
      · rintro ⟨⟨hbytes, hheight⟩, hstamp⟩
        exact ⟨not_not.mp hformat, plane, rfl, not_not.mp hoffset, hbytes, hheight, hstamp⟩
      · rintro ⟨_, plane', heq, _, hbytes, hheight, hstamp⟩
        obtain rfl := head_eq_of_cons_eq heq
        exact ⟨⟨hbytes, hheight⟩, hstamp⟩

theorem takeCameraFrame_eq (input : CpuVideoFrame) (output : Option CameraFrame) :
    ∃ call, takeCameraFrame input output = .ok call ∧
      call.Delivers output fun frame => frame.isValid = true ∧ frame.data = input.data := by
  obtain ⟨owned, howned, _⟩ := isOwnedBgrx_eq input
  unfold takeCameraFrame
  dsimp only
  by_cases hnull : output.isNone = true
  · rw [if_pos hnull]
    exact ⟨_, rfl, fun _ => rfl, nofun⟩
  rw [if_neg hnull, howned]
  dsimp only [bind, Except.bind]
  cases owned with
  | false => exact ⟨_, rfl, fun _ => rfl, nofun⟩
  | true =>
    rw [if_neg (by decide)]
    cases input.planes with
    | nil => exact ⟨_, rfl, fun _ => rfl, nofun⟩
    | cons plane planes =>
      dsimp only
      by_cases hinvalid : (!(cameraFrameOf input plane.stride).hasValidLayout ||
          !(cameraFrameOf input plane.stride).hasValidPayloadSize input.data.length) = true
      · rw [if_pos hinvalid]
        exact ⟨_, rfl, fun _ => rfl, nofun⟩
      · rw [if_neg hinvalid]
        have hvalid := Bool.eq_false_iff.mpr hinvalid
        rw [Bool.or_eq_false_iff, Bool.not_eq_false', Bool.not_eq_false'] at hvalid
        exact ⟨_, rfl, nofun, fun _ => ⟨_, rfl, hvalid.2, rfl⟩⟩

theorem hasValidPayloadSize_bgrx {input : CpuVideoFrame} {stride : UInt32} (hwidth : input.width ≠ 0)
    (hheight : input.height ≠ 0) (hstride : input.width.toNat * 4 ≤ stride.toNat) {size : Nat}
    (hsize : stride.toNat * input.height.toNat ≤ size) :
    (cameraFrameOf input stride).hasValidLayout = true ∧
      (cameraFrameOf input stride).hasValidPayloadSize size = true := by
  have hw : input.width.toNat ≠ 0 := fun hzero => hwidth (UInt32.toNat_inj.mp hzero)
  have hh : input.height.toNat ≠ 0 := fun hzero => hheight (UInt32.toNat_inj.mp hzero)
  have hwidthLt := input.width.toNat_lt
  have hheightLt := input.height.toNat_lt
  have hstrideLt := stride.toNat_lt
  have hstridePos : 0 < stride.toNat := by omega
  have hrow : CameraFrame.checkedMultiply input.width.toNat 4 = some (input.width.toNat * 4) := by
    refine if_neg fun hoverflow => ?_
    have hle : 4 ≤ CameraFrame.maxSize / input.width.toNat := by
      rw [Nat.le_div_iff_mul_le (Nat.pos_of_ne_zero hw)]
      unfold CameraFrame.maxSize
      omega
    omega
  have hbytes : CameraFrame.checkedMultiply stride.toNat input.height.toNat =
      some (stride.toNat * input.height.toNat) := by
    refine if_neg fun hoverflow => ?_
    have hle : input.height.toNat ≤ CameraFrame.maxSize / stride.toNat := by
      rw [Nat.le_div_iff_mul_le hstridePos]
      have hproduct : input.height.toNat * stride.toNat ≤ (2 ^ 32 - 1) * (2 ^ 32 - 1) :=
        Nat.mul_le_mul (by omega) (by omega)
      unfold CameraFrame.maxSize
      omega
    omega
  have hlayout : (cameraFrameOf input stride).hasValidLayout = true := by
    have hnonzero : ¬((cameraFrameOf input stride).width = 0 ∨ (cameraFrameOf input stride).height = 0 ∨
        (cameraFrameOf input stride).strideBytes = 0 ∨ (cameraFrameOf input stride).format = .unknown) := by
      simp only [not_or]
      exact ⟨hw, hh, Nat.ne_of_gt hstridePos, nofun⟩
    have hpixel : CameraFrame.bytesPerPixel (cameraFrameOf input stride).format ≠ 0 := Nat.succ_ne_zero 3
    unfold CameraFrame.hasValidLayout
    rw [if_neg hnonzero, if_pos hpixel]
    have hminimum : CameraFrame.checkedMultiply (cameraFrameOf input stride).width
        (CameraFrame.bytesPerPixel (cameraFrameOf input stride).format) = some (input.width.toNat * 4) := hrow
    rw [hminimum]
    exact decide_eq_true hstride
  have hrequired : (cameraFrameOf input stride).requiredSize = some (stride.toNat * input.height.toNat) := by
    unfold CameraFrame.requiredSize cameraFrameOf
    dsimp only
    rw [hbytes]
    rfl
  have hpos : 0 < stride.toNat * input.height.toNat := Nat.mul_pos hstridePos (Nat.pos_of_ne_zero hh)
  refine ⟨hlayout, ?_⟩
  unfold CameraFrame.hasValidPayloadSize
  have hjpeg : (cameraFrameOf input stride).format ≠ .mjpeg := nofun
  rw [hlayout, hrequired, if_neg (by simp; omega), if_neg hjpeg]
  exact decide_eq_true hsize

/-- **A copy of BGRx is taken**, with whatever its caller has noted of it. -/
theorem takeCameraFrame_copied {planes : List MappedVideoPlane} {next input : CpuVideoFrame}
    (h : Copied planes config next) (hconfig : config.format = .bgrx) (hformat : input.format = next.format)
    (hwidth : input.width = next.width) (hheight : input.height = next.height) (hplanes : input.planes = next.planes)
    (hdata : input.data = next.data) (hstamp : input.sensorTimestampNs ≤ 0x7FFFFFFFFFFFFFFF) (previous : CameraFrame) :
    ∃ frame, takeCameraFrame input (some previous) = .ok { result := true, output := some frame } ∧
      frame.isValid = true := by
  have hvisible := h.visible
  rw [hconfig] at hvisible
  obtain ⟨layout, hlayouts, hsame⟩ := map_eq_singleton_iff.mp hvisible
  obtain ⟨hrowBytes, hrows⟩ := Prod.mk.inj hsame
  have hrowsCopied := h.rows
  have hsize := h.size
  rw [hlayouts] at hrowsCopied hsize
  have hsize : next.data.length = layout.height.toNat * layout.stride.toNat := hsize
  obtain ⟨plane, _, hcopied, _, _⟩ := forall₂_cons_right_iff.mp hrowsCopied
  have hinside := hcopied.inside
  have hoffset : layout.offset = 0 := by
    rw [← UInt64.toNat_inj]
    show _ = 0
    omega
  have hw : input.width = config.width := hwidth.trans h.width
  have hh : input.height = config.height := hheight.trans h.height
  rw [hlayouts] at hplanes
  obtain ⟨owned, howned, hiff⟩ := isOwnedBgrx_eq input
  have htrue : owned = true := by
    refine hiff.mpr ⟨hformat.trans (h.format.trans hconfig), layout, hplanes, hoffset, ?_, ?_, hstamp⟩
    · rw [hrowBytes, hw]
    · rw [← UInt32.toNat_inj, hrows, hh]
  have hnarrow := UInt32.le_iff_toNat_le.mp hcopied.narrow
  have hpayload : layout.stride.toNat * input.height.toNat ≤ input.data.length := by
    rw [hh, ← hrows, hdata, hsize, Nat.mul_comm]
  have hvalid := hasValidPayloadSize_bgrx (by rw [hw]; exact h.dimensions.1) (by rw [hh]; exact h.dimensions.2)
    (by rw [hw]; omega) hpayload
  refine ⟨{ cameraFrameOf input layout.stride with data := input.data }, ?_, hvalid.2⟩
  unfold takeCameraFrame
  dsimp only [bind, Except.bind]
  rw [howned, htrue, hplanes]
  dsimp only
  rw [hvalid.1, hvalid.2]
  rfl

/-- **Mapped planes are copied exactly**: for every layout both calls end without a size that wraps or an access
    outside of its memory, and change the output only where they succeed; then every row is that of its plane, with
    zeros behind it, and BGRx is a valid frame. -/
theorem planes_copied :
    (∀ planes config output, ∃ call, copyMappedVideoPlanes planes config output = .ok call ∧
      call.Delivers output fun next => Copied planes config next ∧
        (config.format = .bgrx → ∀ input : CpuVideoFrame, input.format = next.format → input.width = next.width →
          input.height = next.height → input.planes = next.planes → input.data = next.data →
          input.sensorTimestampNs ≤ 0x7FFFFFFFFFFFFFFF → ∀ previous, ∃ frame,
            takeCameraFrame input (some previous) = .ok { result := true, output := some frame } ∧
              frame.isValid = true)) ∧
    ∀ input output, ∃ call, takeCameraFrame input output = .ok call ∧
      call.Delivers output fun frame => frame.isValid = true ∧ frame.data = input.data := by
  refine ⟨fun planes config output => ?_, takeCameraFrame_eq⟩
  obtain ⟨call, hcall, hfailed, hdelivered⟩ := copyMappedVideoPlanes_eq planes config output
  refine ⟨call, hcall, hfailed, fun hresult => ?_⟩
  obtain ⟨next, hnext, hcopied⟩ := hdelivered hresult
  refine ⟨next, hnext, hcopied, ?_⟩
  intro hconfig input hformat hwidth hheight hplanes hdata hstamp previous
  exact takeCameraFrame_copied hcopied hconfig hformat hwidth hheight hplanes hdata hstamp previous

end Cockpit.Camera
