/-
  The camera service (`driver/camera/runtime/control/camera_service.cc`), with its preview module
  (`runtime/preview/camera_preview_module.cc`) and the module manager (`foundation/runtime`).

  The source is outside: it answers `Start`, and while it captures it may fail, recover and deliver frames at
  any time. Frames come no more once `Stop` has returned or `Start` has failed.
-/
import Cockpit.Camera.SharedFrameBuffer

namespace Cockpit.Camera

inductive CameraCapturePipeline
  | argusIsp | nativeArgus | uvc | softwareIsp | synthetic
deriving DecidableEq

def cameraCapturePipelineName : CameraCapturePipeline → String
  | .argusIsp => "argus_isp"
  | .nativeArgus => "native_argus"
  | .uvc => "uvc"
  | .softwareIsp => "software_isp"
  | .synthetic => "synthetic"

inductive CameraUvcInputFormat
  | mjpeg | yuyv
deriving DecidableEq

inductive CameraPreviewState
  | stopped | running | recovering | faulted
deriving DecidableEq

/-! ## Devices -/

structure VideoDeviceInfo where
  path : String := ""
  driver : String := ""
  card : String := ""
  busInfo : String := ""
  queryOk : Bool := false
  supportsCapture : Bool := false
  supportsStreaming : Bool := false
deriving DecidableEq

structure PixelFormatInfo where
  fourcc : Nat := 0
  frameSizes : List (Nat × Nat) := []
deriving DecidableEq

def v4l2Fourcc (a b c d : Char) : Nat := a.toNat + b.toNat * 2 ^ 8 + c.toNat * 2 ^ 16 + d.toNat * 2 ^ 24

/-- Devices that can serve the pipeline. -/
def normalizeDevices (pipeline : CameraCapturePipeline) (sensorId : Nat) : List VideoDeviceInfo → List VideoDeviceInfo
  | [] => []
  | device :: devices =>
    let usable := device.queryOk && device.supportsCapture && device.supportsStreaming
    let jetsonCsi := usable && device.driver == "tegra-video" &&
      device.busInfo.startsWith "platform:tegra-capture-vi"
    let uvc := usable && device.driver == "uvcvideo" && device.busInfo.startsWith "usb-"
    if (pipeline = .argusIsp ∨ pipeline = .nativeArgus) ∧ jetsonCsi then
      { device with
        path := "nvargus://" ++ toString sensorId
        driver := "nvargus"
        card := device.card ++ if pipeline = .nativeArgus then " (Native Argus)" else " (Argus ISP)" } ::
        normalizeDevices pipeline (sensorId + 1) devices
    else if pipeline = .uvc ∧ uvc ∨ pipeline = .softwareIsp ∧ jetsonCsi then
      device :: normalizeDevices pipeline sensorId devices
    else normalizeDevices pipeline sensorId devices

def normalizePreviewDevices (devices : List VideoDeviceInfo) (pipeline : CameraCapturePipeline) :
    List VideoDeviceInfo :=
  if pipeline = .synthetic then
    [{ path := "synthetic://0"
       driver := "cockpit-synthetic"
       card := "Cockpit Synthetic Camera"
       busInfo := "in-process"
       queryOk := true
       supportsCapture := true
       supportsStreaming := true }]
  else normalizeDevices pipeline 0 devices

/-! ## The state -/

structure CameraStartPreviewRequest where
  device : String := "/dev/video0"
  width : Nat := 640
  height : Nat := 480
  fps : Nat := 30
deriving DecidableEq

/-- `calibration`: the width and the height of the calibrated image. -/
structure CameraServiceOptions where
  previewStaleTimeoutMs : Nat := 2000
  capturePipeline : CameraCapturePipeline := .argusIsp
  uvcInputFormat : CameraUvcInputFormat := .mjpeg
  calibration : Option (Nat × Nat) := none
  calibrationPipeline : String := ""
  calibrationDevice : String := ""
deriving DecidableEq

structure CameraServiceStatus where
  state : CameraPreviewState := .stopped
  device : String := ""
  width : Nat := 0
  height : Nat := 0
  fps : Nat := 0
  framesReceived : Nat := 0
  framesDropped : Nat := 0
  sourceFramesSkipped : Nat := 0
  lastFrameSequence : Nat := 0
  lastFrameTimestampMs : Nat := 0
  lastFrameReceivedAtMs : Nat := 0
  previewStartedAtMs : Nat := 0
  consecutiveFrameDrops : Nat := 0
  maxConsecutiveFrameDrops : Nat := 0
  consecutiveSourceGaps : Nat := 0
  maxConsecutiveSourceGaps : Nat := 0
  lastErrorKind : String := ""
  lastError : String := ""
  restartCount : Nat := 0
  recoverCount : Nat := 0
  lastRecoverAtMs : Nat := 0
deriving DecidableEq

inductive ModuleState
  | created | starting | running | stopping | stopped | failed
deriving DecidableEq

/-- What the source says of itself, and whether it captures. -/
structure PreviewSource where
  capturing : Bool := false
  running : Bool := false
  recovering : Bool := false
deriving DecidableEq

/-- The preview module and its place in the module manager. -/
structure PreviewModule where
  state : ModuleState := .created
  inRunningModules : Bool := false
  managerRunning : Bool := false
deriving DecidableEq

inductive AfterStop
  | startPreview (request : CameraStartPreviewRequest) (previous : CameraPreviewState)
  | stopPreview
  | fault (kind error : String)
deriving DecidableEq

/-- Where the operation under `lifecycle_mutex_` is.  `stopping` and `starting` are inside `Stop` and
    `Start` of the source. -/
inductive LifecycleOp
  | idle
  | setError (kind error : String)
  | enterStart (request : CameraStartPreviewRequest)
  | stopAll (next : AfterStop)
  | stopping (next : AfterStop)
  | checkRequest (request : CameraStartPreviewRequest) (previous : CameraPreviewState)
  | reset (request : CameraStartPreviewRequest) (previous : CameraPreviewState)
  | startAll (previous : CameraPreviewState)
  | starting (previous : CameraPreviewState)
  | finishStart (previous : CameraPreviewState)
  | finishStop
deriving DecidableEq

/-- Times of the steady clock are in milliseconds; `none` is the default `time_point`. -/
structure CameraService where
  options : CameraServiceOptions
  available : Bool
  status : CameraServiceStatus := {}
  previewStartedSteady : Option Int := none
  lastFrameReceivedSteady : Option Int := none
  awaitingRecoveryFrame : Bool := false
  source : PreviewSource := {}
  module : PreviewModule := {}
  op : LifecycleOp := .idle

/-- What a step of an operation learns from outside: the devices and the formats that are listed, whether
    `Start` of the source fails, and the time. -/
structure Answer where
  devices : List VideoDeviceInfo := []
  listError : String := ""
  formats : List PixelFormatInfo := []
  formatError : String := ""
  startError : Option String := none
  now : Int := 0
  wallMs : Nat := 0
deriving DecidableEq

inductive CameraEvent
  | startPreview (request : CameraStartPreviewRequest)
  | stopPreview
  | checkPreviewHealth (now : Int)
  | advance (answer : Answer)
  | frame (frame : CameraFrame) (published : Bool) (receivedAtMs : Nat) (now : Int)
  | source (running recovering : Bool)

namespace CameraService

/-! ## `StartPreview` -/

/-- What the calibration refuses. -/
def rejection (options : CameraServiceOptions) (request : CameraStartPreviewRequest) : Option (String × String) :=
  match options.calibration with
  | none => none
  | some (imageWidth, imageHeight) =>
    if request.width ≠ imageWidth ∨ request.height ≠ imageHeight then
      some ("calibration_resolution_mismatch",
        "camera preview resolution does not match verified calibration")
    else if options.calibrationPipeline ≠ cameraCapturePipelineName options.capturePipeline ∨
        request.device ≠ options.calibrationDevice then
      some ("calibration_binding_mismatch",
        "camera preview device or pipeline does not match verified calibration")
    else none

variable (s : CameraService)

/-- `lifecycle_mutex_` lets one operation run at a time. -/
def startPreview (request : CameraStartPreviewRequest) : CameraService :=
  match s.op with
  | .idle =>
    match rejection s.options request with
    | some (kind, error) => { s with op := .setError kind error }
    | none => { s with op := .enterStart request }
  | _ => s

/-- The first region under `mutex_`. -/
def enterStart (request : CameraStartPreviewRequest) : CameraService :=
  let previous := s.status.state
  let status :=
    if previous = .running then
      { s.status with state := .recovering, restartCount := s.status.restartCount + 1 }
    else if previous = .faulted then { s.status with state := .recovering }
    else s.status
  { s with status := status, op := .stopAll (.startPreview request previous) }

/-- What is wrong with the device asked for. -/
def deviceError (options : CameraServiceOptions) (request : CameraStartPreviewRequest) (answer : Answer) :
    Option String :=
  let devices := normalizePreviewDevices answer.devices options.capturePipeline
  let listError := if options.capturePipeline = .synthetic then "" else answer.listError
  match devices.find? fun info =>
    info.path == request.device && info.queryOk && info.supportsCapture && info.supportsStreaming with
  | some _ =>
    if options.capturePipeline = .argusIsp ∨ options.capturePipeline = .nativeArgus ∨
        options.capturePipeline = .synthetic then none
    else
      let requiredFourcc :=
        if options.capturePipeline = .softwareIsp then v4l2Fourcc 'R' 'G' '1' '0'
        else if options.uvcInputFormat = .mjpeg then v4l2Fourcc 'M' 'J' 'P' 'G'
        else v4l2Fourcc 'Y' 'U' 'Y' 'V'
      let formatSupported := answer.formats.any fun format =>
        format.fourcc == requiredFourcc &&
          (options.capturePipeline != .uvc || format.frameSizes.isEmpty ||
            format.frameSizes.any fun size => size == (request.width, request.height))
      if formatSupported then none
      else if answer.formatError = "" then
        some ("camera device does not support the configured pipeline format and frame size: " ++
          request.device)
      else some answer.formatError
  | none =>
    if listError ≠ "" ∧ devices = [] then some listError
    else some ("camera device is not available for capture: " ++ request.device)

/-- Refused, or accepted. -/
def checkRequest (request : CameraStartPreviewRequest) (previous : CameraPreviewState)
    (answer : Answer) : CameraService :=
  if request.device = "" then
    { s with op := .setError "invalid_argument" "camera device must not be empty" }
  else if request.width = 0 ∨ request.height = 0 ∨ request.fps = 0 then
    { s with op := .setError "invalid_argument" "camera preview width, height, and fps must be positive" }
  else
    match deviceError s.options request answer with
    | some error => { s with op := .setError "device_unavailable" error }
    | none =>
      if !s.available then
        { s with op := .setError "backend_unavailable" "camera preview backend is not available" }
      else { s with op := .reset request previous }

def reset (request : CameraStartPreviewRequest) (previous : CameraPreviewState) : CameraService :=
  { s with
    status := { s.status with
      state := if previous = .running ∨ previous = .faulted then .recovering else .stopped
      device := request.device
      width := request.width
      height := request.height
      fps := request.fps
      framesReceived := 0
      framesDropped := 0
      sourceFramesSkipped := 0
      lastFrameSequence := 0
      lastFrameTimestampMs := 0
      lastFrameReceivedAtMs := 0
      previewStartedAtMs := 0
      consecutiveFrameDrops := 0
      maxConsecutiveFrameDrops := 0
      consecutiveSourceGaps := 0
      maxConsecutiveSourceGaps := 0 }
    previewStartedSteady := none
    lastFrameReceivedSteady := none
    awaitingRecoveryFrame := previous = .faulted
    op := .startAll previous }

/-- The preview runs. -/
def finishStart (previous : CameraPreviewState) (answer : Answer) : CameraService :=
  let started := { s.status with previewStartedAtMs := answer.wallMs }
  { s with
    status :=
      if previous = .faulted then
        if s.status.framesReceived = 0 then { started with state := .recovering } else started
      else { started with state := .running, lastError := "", lastErrorKind := "" }
    previewStartedSteady := some answer.now
    op := .idle }

/-! ## The module manager -/

def afterStop : AfterStop → LifecycleOp
  | .startPreview request previous => .checkRequest request previous
  | .stopPreview => .finishStop
  | .fault kind error => .setError kind error

/-- `ModuleManager::StopAll`. -/
def stopAll (next : AfterStop) : CameraService :=
  let stopped := { s.module with inRunningModules := false, managerRunning := false }
  if s.module.inRunningModules then
    match s.module.state with
    | .created | .stopped => { s with module := { stopped with state := .stopped }, op := afterStop next }
    | .stopping => { s with module := stopped, op := afterStop next }
    | .starting | .running | .failed =>
      { s with module := { s.module with state := .stopping }, op := .stopping next }
  else { s with module := stopped, op := afterStop next }

/-- The source's `Stop` has returned. -/
def sourceStopped (next : AfterStop) : CameraService :=
  { s with
    source := { capturing := false, running := false, recovering := false }
    module := { state := .stopped, inRunningModules := false, managerRunning := false }
    op := afterStop next }

/-- `ModuleManager::StartAll`. -/
def startAll (previous : CameraPreviewState) : CameraService :=
  if s.module.managerRunning then { s with op := .finishStart previous }
  else
    match s.module.state with
    | .running =>
      { s with
        module := { s.module with inRunningModules := true, managerRunning := true }
        op := .finishStart previous }
    | .starting | .stopping =>
      { s with
        module := { s.module with inRunningModules := false, managerRunning := false }
        op := .setError "start_failed" "start camera preview backend failed" }
    | .created | .stopped | .failed =>
      { s with
        module := { state := .starting, inRunningModules := false, managerRunning := false }
        source := { s.source with capturing := true }
        op := .starting previous }

/-- The source has answered `Start`. -/
def sourceStarted (previous : CameraPreviewState) (answer : Answer) : CameraService :=
  match answer.startError with
  | none =>
    { s with
      source := { s.source with running := true }
      module := { state := .running, inRunningModules := true, managerRunning := true }
      op := .finishStart previous }
  | some error =>
    { s with
      source := { capturing := false, running := false, recovering := false }
      module := { state := .failed, inRunningModules := false, managerRunning := false }
      op := .setError "start_failed" (if error = "" then "start camera preview backend failed" else error) }

/-! ## The other operations -/

/-- The preview is faulted. -/
def setError (kind error : String) : CameraService :=
  { s with
    status := { s.status with state := .faulted, lastErrorKind := kind, lastError := error }
    op := .idle }

def stopPreview (s : CameraService) : CameraService :=
  match s.op with
  | .idle => { s with op := .stopAll .stopPreview }
  | _ => s

def finishStop : CameraService :=
  { s with
    status := { s.status with state := .stopped }
    awaitingRecoveryFrame := false
    op := .idle }

def reference : Option Int :=
  if s.status.framesReceived = 0 then s.previewStartedSteady else s.lastFrameReceivedSteady

/-- No frame for too long. -/
def isStale (now : Int) : Bool :=
  match s.reference with
  | none => false
  | some reference => 0 < now - reference && s.options.previewStaleTimeoutMs < now - reference

def checkPreviewHealth (now : Int) : CameraService :=
  match s.op with
  | .idle =>
    if s.status.state ≠ .running ∧ s.status.state ≠ .recovering then s
    else if s.source.recovering then
      { s with status := { s.status with state := .recovering }, awaitingRecoveryFrame := true }
    else if !s.source.running then
      { s with op := .stopAll (.fault "source_disconnected" "camera preview source disconnected") }
    else if s.isStale now then
      if s.status.framesReceived = 0 then
        { s with op := .stopAll (.fault "no_frames" "camera preview produced no frames") }
      else { s with op := .stopAll (.fault "frame_stalled" "camera preview frame stream stalled") }
    else s
  | _ => s

/-! ## `HandleFrame` -/

def dropFrame (status : CameraServiceStatus) : CameraServiceStatus :=
  { status with
    framesDropped := status.framesDropped + 1
    consecutiveFrameDrops := status.consecutiveFrameDrops + 1
    maxConsecutiveFrameDrops := max status.maxConsecutiveFrameDrops (status.consecutiveFrameDrops + 1) }

/-- A frame ends the recovery. -/
def recover (receivedAtMs : Nat) : CameraService :=
  if s.status.state = .recovering then
    let status := { s.status with state := .running, lastError := "", lastErrorKind := "" }
    { s with
      status :=
        if s.awaitingRecoveryFrame then
          { status with recoverCount := status.recoverCount + 1, lastRecoverAtMs := receivedAtMs }
        else status
      awaitingRecoveryFrame := false }
  else s

/-- A good frame, and the gap before it. -/
def countFrame (status : CameraServiceStatus) (frame : CameraFrame) (receivedAtMs : Nat) : CameraServiceStatus :=
  let gaps :=
    if 0 < status.framesReceived ∧ status.lastFrameSequence + 1 < frame.sequence then
      { status with
        sourceFramesSkipped :=
          status.sourceFramesSkipped + (frame.sequence - status.lastFrameSequence - 1)
        consecutiveSourceGaps := status.consecutiveSourceGaps + 1
        maxConsecutiveSourceGaps := max status.maxConsecutiveSourceGaps (status.consecutiveSourceGaps + 1) }
    else { status with consecutiveSourceGaps := 0 }
  { gaps with
    framesReceived := status.framesReceived + 1
    consecutiveFrameDrops := 0
    lastFrameSequence := frame.sequence
    lastFrameTimestampMs := frame.timestampMs
    lastFrameReceivedAtMs := receivedAtMs }

def handleFrame (frame : CameraFrame) (published : Bool) (receivedAtMs : Nat) (now : Int) : CameraService :=
  if !frame.isValid || !published then { s with status := dropFrame s.status }
  else
    { s.recover receivedAtMs with
      status := countFrame (s.recover receivedAtMs).status frame receivedAtMs
      lastFrameReceivedSteady := some now }

/-! ## Steps -/

/-- The next step of the operation under way. -/
def advance (answer : Answer) : CameraService :=
  match s.op with
  | .idle => s
  | .setError kind error => s.setError kind error
  | .enterStart request => s.enterStart request
  | .stopAll next => s.stopAll next
  | .stopping next => s.sourceStopped next
  | .checkRequest request previous => s.checkRequest request previous answer
  | .reset request previous => s.reset request previous
  | .startAll previous => s.startAll previous
  | .starting previous => s.sourceStarted previous answer
  | .finishStart previous => s.finishStart previous answer
  | .finishStop => s.finishStop

def step : CameraEvent → CameraService × Unit
  | .startPreview request => (s.startPreview request, ())
  | .stopPreview => (s.stopPreview, ())
  | .checkPreviewHealth now => (s.checkPreviewHealth now, ())
  | .advance answer => (s.advance answer, ())
  | .frame frame published receivedAtMs now =>
    if s.source.capturing then (s.handleFrame frame published receivedAtMs now, ()) else (s, ())
  | .source running recovering =>
    if s.source.capturing then
      ({ s with source := { s.source with running := running, recovering := recovering } }, ())
    else (s, ())

end CameraService

end Cockpit.Camera
