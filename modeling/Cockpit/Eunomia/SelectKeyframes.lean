/-
  The choice of the keyframes of a calibration (`eunomia/camera/camera_calibrator_core.cc`, `CoverageState` of
  `camera_calibrator_internal.h`).

  The features of a frame are real numbers, so a `double` is exact here; what `FeatureDistance` computes from
  two frames is a parameter. Image, corners and statistics of a frame are left out.
-/
import Mathlib.Analysis.SpecialFunctions.Log.Basic
import Cockpit.Lib.GreedyChoice

namespace Cockpit.Eunomia

open GreedyChoice

/-! ## Frames -/

structure Options where
  boardProfile : String := ""
  tiltThresholdDeg : ℝ := 12

/-- A frame by its features. -/
structure AcceptedFrame where
  sequence : Nat := 0
  area : ℝ := 0
  centerXNormalized : ℝ := 0
  centerYNormalized : ℝ := 0
  poseValid : Bool := false
  horizontalTiltDeg : ℝ := 0
  verticalTiltDeg : ℝ := 0
  inPlaneRotationDeg : ℝ := 0
  distanceM : ℝ := 0

/-- The board is seen from the front. -/
noncomputable def isFront (frame : AcceptedFrame) (options : Options) : Bool :=
  frame.poseValid && |frame.horizontalTiltDeg| < options.tiltThresholdDeg &&
    |frame.verticalTiltDeg| < options.tiltThresholdDeg

noncomputable def isTiltLeft (frame : AcceptedFrame) (options : Options) : Bool :=
  frame.poseValid && frame.horizontalTiltDeg ≤ -options.tiltThresholdDeg

noncomputable def isTiltRight (frame : AcceptedFrame) (options : Options) : Bool :=
  frame.poseValid && options.tiltThresholdDeg ≤ frame.horizontalTiltDeg

noncomputable def isTiltUp (frame : AcceptedFrame) (options : Options) : Bool :=
  frame.poseValid && frame.verticalTiltDeg ≤ -options.tiltThresholdDeg

noncomputable def isTiltDown (frame : AcceptedFrame) (options : Options) : Bool :=
  frame.poseValid && options.tiltThresholdDeg ≤ frame.verticalTiltDeg

/-- The conversion to `int`. -/
noncomputable def truncate (value : ℝ) : Int := if 0 ≤ value then ⌊value⌋ else ⌈value⌉

def clampCell (cell : Int) : Int := if cell < 0 then 0 else if 2 < cell then 2 else cell

/-- The board is in this ninth of the picture. -/
noncomputable def inCell (x y : Int) (frame : AcceptedFrame) : Bool :=
  clampCell (truncate (frame.centerXNormalized * 3)) = x && clampCell (truncate (frame.centerYNormalized * 3)) = y

/-! ## Scales -/

/-- The texts that `ScaleBucket` returns. -/
inductive Scale where
  | unknown
  | near
  | mid
  | far
  deriving DecidableEq

/-- Near, mid or far, by logarithms, within the range of the areas. -/
noncomputable def scaleBucket (frame : AcceptedFrame) (minArea maxArea : ℝ) : Scale :=
  if maxArea ≤ minArea ∨ minArea ≤ 0 then .unknown
  else
    let span := Real.log (maxArea / minArea)
    if span < Real.log 1.5 then .mid
    else
      let position := Real.log (max frame.area minArea / minArea) / span
      if position < 1 / 3 then .far
      else if 2 / 3 < position then .near
      else .mid

/-- The least area. -/
noncomputable def minArea (frames : List AcceptedFrame) : ℝ :=
  match frames with
  | [] => 0
  | frame :: rest => rest.foldl (fun least frame => min least frame.area) frame.area

noncomputable def maxArea (frames : List AcceptedFrame) : ℝ :=
  match frames with
  | [] => 0
  | frame :: rest => rest.foldl (fun greatest frame => max greatest frame.area) frame.area

/-! ## Coverage -/

/-- `CoverageState`. -/
structure CoverageState where
  spatialCells : Nat := 0
  front : Bool := false
  tiltLeft : Bool := false
  tiltRight : Bool := false
  tiltUp : Bool := false
  tiltDown : Bool := false
  near : Bool := false
  mid : Bool := false
  far : Bool := false
  deriving DecidableEq

namespace CoverageState

def poseComplete (c : CoverageState) : Bool := c.front && c.tiltLeft && c.tiltRight && c.tiltUp && c.tiltDown

def distanceComplete (c : CoverageState) : Bool := c.near && c.mid && c.far

/-- Five cells, all poses, all distances. -/
def complete (c : CoverageState) : Bool := 5 ≤ c.spatialCells && c.poseComplete && c.distanceComplete

end CoverageState

def cells : List (Int × Int) := [0, 1, 2].flatMap fun y => [0, 1, 2].map fun x => (x, y)

variable (options : Options) (candidates : List AcceptedFrame)

/-- `BuildCoverage`. -/
noncomputable def buildCoverage (frames : List AcceptedFrame) : CoverageState :=
  if frames.isEmpty then {}
  else
    let scale := fun frame => scaleBucket frame (minArea frames) (maxArea frames)
    { spatialCells := cells.countP fun cell => frames.any (inCell cell.1 cell.2)
      front := frames.any (isFront · options)
      tiltLeft := frames.any (isTiltLeft · options)
      tiltRight := frames.any (isTiltRight · options)
      tiltUp := frames.any (isTiltUp · options)
      tiltDown := frames.any (isTiltDown · options)
      near := frames.any fun frame => scale frame = .near
      mid := frames.any fun frame => scale frame = .mid
      far := frames.any fun frame => scale frame = .far }

/-! ## The selection -/

/-- The frames that `AddRequired` looks for. -/
noncomputable def requirements : List (AcceptedFrame → Bool) :=
  if options.boardProfile.isEmpty then []
  else
    [(isFront · options), (isTiltLeft · options), (isTiltRight · options), (isTiltUp · options),
      (isTiltDown · options)] ++
    [Scale.near, .mid, .far].map (fun required frame =>
      decide (scaleBucket frame (minArea candidates) (maxArea candidates) = required)) ++
    cells.map fun cell => inCell cell.1 cell.2

/-- The first that meets each, up to the target. -/
noncomputable def addRequired (target : Nat) : List (Fin candidates.length) :=
  takeEach (List.finRange candidates.length) target
    ((requirements options candidates).map fun required i => required (candidates.get i))

/-- The distance to what was chosen. -/
noncomputable def nearest (featureDistance : AcceptedFrame → AcceptedFrame → ℝ) (candidates : List AcceptedFrame)
    (selected : List (Fin candidates.length)) (index : Fin candidates.length) : WithTop ℝ :=
  selected.foldl (fun nearest chosen =>
    min nearest (featureDistance (candidates.get index) (candidates.get chosen) : WithTop ℝ)) ⊤

/-- The frame farthest from what was chosen. -/
noncomputable def bestIndex (featureDistance : AcceptedFrame → AcceptedFrame → ℝ) (candidates : List AcceptedFrame)
    (first : Fin candidates.length) (selected : List (Fin candidates.length)) : Fin candidates.length :=
  (best (nearest featureDistance candidates selected) (fun index => index ∈ selected)
    (List.finRange candidates.length) (((-1 : ℝ) : WithTop ℝ), first)).2

/-- The required frames, then the farthest ones. -/
noncomputable def selectedIndices (featureDistance : AcceptedFrame → AcceptedFrame → ℝ)
    (candidates : List AcceptedFrame) (target : Nat) (first : Fin candidates.length) : List (Fin candidates.length) :=
  let required := addRequired options candidates target
  let selected := if required.isEmpty then [first] else required
  fill (bestIndex featureDistance candidates first) (target - selected.length) selected

/-- `SelectKeyframes`. -/
noncomputable def selectKeyframes (featureDistance : AcceptedFrame → AcceptedFrame → ℝ)
    (candidates : List AcceptedFrame) (target : Nat) : List AcceptedFrame :=
  if h : candidates.length ≤ target then candidates
  else
    (selectedIndices options featureDistance candidates target ⟨0, by omega⟩).map candidates.get

noncomputable def keyframeIndices (featureDistance : AcceptedFrame → AcceptedFrame → ℝ)
    (candidates : List AcceptedFrame) (target : Nat) : List (Fin candidates.length) :=
  if h : candidates.length ≤ target then List.finRange candidates.length
  else
    selectedIndices options featureDistance candidates target ⟨0, by omega⟩

theorem selectKeyframes_eq (featureDistance : AcceptedFrame → AcceptedFrame → ℝ)
    (candidates : List AcceptedFrame) (target : Nat) :
    selectKeyframes options featureDistance candidates target =
      (keyframeIndices options featureDistance candidates target).map candidates.get := by
  unfold selectKeyframes keyframeIndices
  split
  · exact (List.map_get_finRange candidates).symm
  · rfl

end Cockpit.Eunomia
