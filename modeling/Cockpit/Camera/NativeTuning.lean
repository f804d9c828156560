/-
  The tuning of the native camera (`driver/camera/tuning/camera_tuning.cc`, `tuning_profile.cc`, and the tuning
  parts of `driver/camera/capture/native_argus_capture.cc` and `native_argus_preview_source.cc`).

  The requests of all clients run under the lifecycle mutex of the preview source and the control mutex of the
  capture, so each of them is one step; `running` of the preview may be taken back in between by its worker
  threads. Every answer of the SDK is an input. The state that a caller passes for the answer is never null.
-/
import Mathlib.Algebra.Group.Nat.Defs
import Mathlib.Data.Rat.Defs
import Cockpit.Lib.StepRun

namespace Cockpit.Camera

/-! ## Floats -/

/-- A `float` by its value; the two zeros are one. -/
inductive FloatValue where
  | nan
  | infinity (negative : Bool)
  | finite (value : Rat)
  deriving DecidableEq

namespace FloatValue

def isFinite : FloatValue → Bool
  | finite _ => true
  | _ => false

/-- As IEEE 754 compares. -/
def le : FloatValue → FloatValue → Bool
  | finite a, finite b => a ≤ b
  | finite _, infinity negative => !negative
  | infinity negative, finite _ => negative
  | infinity a, infinity b => a || !b
  | _, _ => false

def eq (a b : FloatValue) : Bool := le a b && le b a

def minNormal : FloatValue := finite (1 / 2 ^ 126)

def maxFinite : FloatValue := finite ((2 ^ 24 - 1) * 2 ^ 104)

def negate : FloatValue → FloatValue
  | nan => nan
  | infinity negative => infinity !negative
  | finite value => finite (-value)

end FloatValue

/-! ## Settings and their limits -/

structure TuningRange (α : Type) where
  min : α
  max : α
  deriving DecidableEq

/-- What the device can do. -/
structure CameraTuningCapabilities where
  exposureNs : TuningRange Nat := ⟨0, 0⟩
  sensorGain : TuningRange FloatValue := ⟨.finite 0, .finite 0⟩
  ispGain : TuningRange FloatValue := ⟨.finite 0, .finite 0⟩
  exposureCompensationEv : TuningRange FloatValue := ⟨.finite 0, .finite 0⟩
  frameDurationNs : Nat := 0
  aeModes : List String := ["auto", "manual"]
  awbModes : List String :=
    ["off", "auto", "incandescent", "fluorescent", "warm-fluorescent", "daylight", "cloudy", "twilight", "shade",
      "manual"]
  antibandingModes : List String := ["off", "auto", "50hz", "60hz"]
  deriving DecidableEq

/-- The settings. -/
structure CameraTuning where
  aeMode : String := "auto"
  awbMode : String := "auto"
  antibanding : String := "auto"
  aeLock : Bool := false
  awbLock : Bool := false
  exposureNs : TuningRange Nat := ⟨0, 0⟩
  sensorGain : TuningRange FloatValue := ⟨.finite 0, .finite 0⟩
  ispGain : TuningRange FloatValue := ⟨.finite 0, .finite 0⟩
  exposureCompensationEv : FloatValue := .finite 0
  wbGains : List FloatValue := [.finite 1, .finite 1, .finite 1, .finite 1]
  deriving DecidableEq

structure NativeCameraDescriptor where
  deviceIndex : Nat := 0
  width : Nat := 0
  height : Nat := 0
  fps : Nat := 0
  sensorMode : Int := -1
  sensorModel : String := ""
  deriving DecidableEq

/-- What a session says of its tuning. -/
structure CameraTuningState where
  sessionId : Nat := 0
  revision : Nat := 0
  device : NativeCameraDescriptor := {}
  capabilities : CameraTuningCapabilities := {}
  requested : CameraTuning := {}
  accepted : CameraTuning := {}
  defaults : CameraTuning := {}
  deriving DecidableEq

/-- A range, within the limits. -/
def TuningRange.within (value limits : TuningRange Nat) : Bool :=
  value.min ≤ value.max && limits.min ≤ value.min && value.max ≤ limits.max

def TuningRange.withinFloat (value limits : TuningRange FloatValue) : Bool :=
  value.min.isFinite && value.max.isFinite && value.min.le value.max && limits.min.le value.min &&
    value.max.le limits.max

def FloatValue.isPositiveFinite (gain : FloatValue) : Bool := gain.isFinite && !gain.le (.finite 0)

/-- `ValidateCameraTuning`. -/
def validateCameraTuning (s : CameraTuning) (c : CameraTuningCapabilities) : String :=
  if !c.aeModes.contains s.aeMode || !c.awbModes.contains s.awbMode ||
      !c.antibandingModes.contains s.antibanding then
    "unknown or unsupported AE/AWB/antibanding mode"
  else if !s.exposureNs.within c.exposureNs || s.exposureNs.min = 0 || c.frameDurationNs < s.exposureNs.max then
    "exposure range exceeds sensor mode or fixed frame duration"
  else if !s.sensorGain.withinFloat c.sensorGain || !s.ispGain.withinFloat c.ispGain then
    "analog/ISP gain range exceeds device limits"
  else if !s.exposureCompensationEv.isFinite ||
      (s.exposureCompensationEv.le c.exposureCompensationEv.min &&
        !s.exposureCompensationEv.eq c.exposureCompensationEv.min) ||
      (c.exposureCompensationEv.max.le s.exposureCompensationEv &&
        !s.exposureCompensationEv.eq c.exposureCompensationEv.max) then
    "exposure compensation exceeds device limits"
  else if s.aeMode = "manual" &&
      (s.exposureNs.min ≠ s.exposureNs.max || !s.sensorGain.min.eq s.sensorGain.max ||
        !s.ispGain.min.eq s.ispGain.max || s.aeLock || !s.exposureCompensationEv.eq (.finite 0)) then
    "manual AE requires fixed exposure/gains, unlocked AE and zero compensation"
  else if s.awbMode = "manual" && (s.awbLock || s.wbGains.any fun gain => !gain.isPositiveFinite) then
    "manual WB requires unlocked AWB and finite positive R/Gr/Gb/B gains"
  else ""

/-! ## Profiles -/

structure TuningProfile where
  version : Nat := 1
  name : String := ""
  target : NativeCameraDescriptor := {}
  settings : CameraTuning := {}
  deriving DecidableEq

def kTuningProfileVersion : Nat := 1

/-- What any device might do. -/
def broadCapabilities (fps : Nat) : CameraTuningCapabilities :=
  let frameDurationNs := (1000000000 + fps - 1) / fps
  { frameDurationNs
    exposureNs := ⟨1, frameDurationNs⟩
    sensorGain := ⟨.minNormal, .maxFinite⟩
    ispGain := ⟨.minNormal, .maxFinite⟩
    exposureCompensationEv := ⟨FloatValue.maxFinite.negate, .maxFinite⟩ }

/-- `ValidateTuningProfile`. -/
def validateTuningProfile (p : TuningProfile) : String :=
  if p.version ≠ kTuningProfileVersion || p.name.isEmpty || 128 < p.name.utf8ByteSize ||
      p.target.sensorModel.isEmpty || 128 < p.target.sensorModel.utf8ByteSize || p.target.sensorMode < 0 ||
      p.target.width = 0 || p.target.height = 0 || p.target.fps = 0 then
    "unsupported profile version or invalid name/target"
  else
    let why := validateCameraTuning p.settings (broadCapabilities p.target.fps)
    if !why.isEmpty then why
    else if p.settings.wbGains.any fun gain => !gain.isPositiveFinite then
      "profile WB gains must all be finite and positive"
    else ""

/-- It is for this device and mode. -/
def validateTuningProfileForDevice (p : TuningProfile) (d : NativeCameraDescriptor)
    (capabilities : CameraTuningCapabilities) : String :=
  let why := validateTuningProfile p
  if !why.isEmpty then why
  else if p.target ≠ d then "profile target does not match active native device/sensor mode/format"
  else validateCameraTuning p.settings capabilities

/-! ## The session -/

/-- A request of the SDK: the settings, and the client data. -/
structure TuningRequest where
  settings : CameraTuning := {}
  clientData : Nat := 0
  deriving DecidableEq

/-- What the SDK answers to one submission; a failed one may have reached the daemon. -/
structure Submission where
  status : Int := 0
  reached : Bool := true
  deriving DecidableEq

/-- What the SDK answers to one request for a tuning. -/
structure ArgusWorld where
  created : Bool := true
  interfaces : Bool := true
  settings : Bool := true
  /-- The status of each setter, by its action. -/
  set : String → Int := fun _ => 0
  read : Except String CameraTuning := .ok {}
  submit : Submission := {}
  restore : Submission := {}

def maxUint32 : Nat := 2 ^ 32 - 1

/-- The fields of `Session` that have to do with the tuning; `device` is what the device repeats. -/
structure TuningSession where
  active : Bool := true
  stopping : Bool := false
  closed : Bool := false
  tuning : CameraTuningState := {}
  nextTuningRevision : Nat := 2
  tuningFault : String := ""
  request : TuningRequest := {}
  device : TuningRequest := {}

/-- Go on, or throw. -/
def require (ok : Bool) (action : String) : Except String Unit := if ok then .ok () else .error action

/-- A status of the SDK that is not 0 throws. -/
def check (status : Int) (action : String) : Except String Unit :=
  require (status = 0) (action ++ " status=" ++ toString status)

def checkMode (name : String) (modes : List String) : Except String Unit :=
  require (modes.contains name) ("unknown tuning mode: " ++ name)

def aeModeNames : List String := ["auto", "manual"]

def awbModeNames : List String :=
  ["off", "auto", "incandescent", "fluorescent", "warm-fluorescent", "daylight", "cloudy", "twilight", "shade",
    "manual"]

def antibandingModeNames : List String := ["off", "auto", "50hz", "60hz"]

/-- Every setter is checked, and what the request reads back. -/
def buildTuningRequest (settings : CameraTuning) (revision : Nat) (world : ArgusWorld) :
    Except String TuningRequest := do
  require world.interfaces "IRequest for tuning"
  require world.settings "source/automatic tuning interfaces unavailable"
  let set := fun action => check (world.set action) action
  set "tuning enableOutputStream"
  set "tuning setSensorMode"
  set "tuning setFrameDurationRange"
  set "tuning setExposureTimeRange"
  set "tuning setGainRange"
  set "tuning setIspDigitalGainRange"
  checkMode settings.aeMode aeModeNames
  set "tuning setAeMode"
  set "tuning setAeLock"
  set "tuning setExposureCompensation"
  checkMode settings.antibanding antibandingModeNames
  set "tuning setAeAntibandingMode"
  checkMode settings.awbMode awbModeNames
  set "tuning setAwbMode"
  set "tuning setAwbLock"
  if settings.awbMode = "manual" then set "tuning setWbGains"
  set "tuning setClientData"
  return { settings, clientData := revision }

namespace TuningSession

variable (s : TuningSession)

/-- The device repeats the last submission that reached it. -/
def submit (request : TuningRequest) (submission : Submission) : TuningSession :=
  if submission.status = 0 || submission.reached then { s with device := request } else s

/-- What a request for a tuning leaves: the session, its submissions in order, and the new revision or the error. -/
structure Outcome where
  session : TuningSession
  submitted : List TuningRequest := []
  result : Except String Nat

def refuse (error : String) : Outcome := { session := s, result := .error error }

/-- A candidate that fails is taken back. -/
def submitCandidate (settings accepted : CameraTuning) (candidate : TuningRequest) (world : ArgusWorld) : Outcome :=
  let s := s.submit candidate world.submit
  if world.submit.status ≠ 0 then
    let fault := if world.restore.status ≠ 0 then "failed to restore repeating request" else s.tuningFault
    { session := { s.submit s.request world.restore with tuningFault := fault }
      submitted := [candidate, s.request]
      result := .error ("tuning repeat rejected status=" ++ toString world.submit.status ++
        if fault.isEmpty then "" else "; " ++ fault) }
  else
    { session :=
        { s with
          request := candidate
          tuning := { s.tuning with requested := settings, accepted, revision := candidate.clientData } }
      submitted := [candidate]
      result := .ok candidate.clientData }

/-- `SetTuning` of the session. -/
def setTuning (settings : CameraTuning) (world : ArgusWorld) : Outcome :=
  if !s.active || s.stopping || s.closed || !s.tuningFault.isEmpty then
    s.refuse ("native tuning unavailable: session stopped or control fault: " ++ s.tuningFault)
  else
    let why := validateCameraTuning settings s.tuning.capabilities
    if !why.isEmpty then s.refuse why
    else if maxUint32 < s.nextTuningRevision then s.refuse "tuning revision exhausted"
    else if !world.created then s.refuse "create tuning request"
    else
      let nextRevision := s.nextTuningRevision
      let s := { s with nextTuningRevision := s.nextTuningRevision + 1 }
      match buildTuningRequest settings nextRevision world with
      | .error error => s.refuse error
      | .ok candidate =>
        match world.read with
        | .error error => s.refuse error
        | .ok accepted => s.submitCandidate settings accepted candidate world

/-- The requested range within the limits. -/
def fit (requested limits : TuningRange Nat) : TuningRange Nat :=
  let range : TuningRange Nat := ⟨max requested.min limits.min, min requested.max limits.max⟩
  if range.min ≤ range.max then range else limits

def maxFloat (a b : FloatValue) : FloatValue := if a.le b && !b.le a then b else a

def minFloat (a b : FloatValue) : FloatValue := if b.le a && !a.le b then b else a

def fitFloat (requested limits : TuningRange FloatValue) : TuningRange FloatValue :=
  let range : TuningRange FloatValue := ⟨maxFloat requested.min limits.min, minFloat requested.max limits.max⟩
  if range.min.le range.max then range else limits

/-- A session with the defaults of the SDK. -/
def initialized (id : Nat) (device : NativeCameraDescriptor) (capabilities : CameraTuningCapabilities)
    (sdkDefaults accepted : CameraTuning) (world : ArgusWorld) : Except String TuningSession := do
  let defaults :=
    { sdkDefaults with
      exposureNs := fit sdkDefaults.exposureNs capabilities.exposureNs
      sensorGain := fitFloat sdkDefaults.sensorGain capabilities.sensorGain
      ispGain := fitFloat sdkDefaults.ispGain capabilities.ispGain }
  let why := validateCameraTuning defaults capabilities
  require why.isEmpty ("invalid SDK defaults: " ++ why)
  let request ← buildTuningRequest defaults 1 world
  check world.submit.status "repeat"
  return {
    request, device := request
    tuning := { sessionId := id, revision := 1, device, capabilities, requested := defaults, accepted, defaults } }

end TuningSession

/-! ## The capture and the preview source -/

/-- `NativeArgusCapture::SetTuning` and its siblings, for the session if there is one. -/
inductive TuningChange where
  | set (settings : CameraTuning)
  | reset
  | applyProfile (profile : TuningProfile)

namespace TuningSession

/-- `SetTuning` or `ResetTuning`. -/
def change (s : TuningSession) (world : ArgusWorld) : TuningChange → Outcome
  | .set settings => s.setTuning settings world
  | .reset => s.setTuning s.tuning.defaults world
  | .applyProfile profile =>
    if !s.active || s.stopping then s.refuse "ApplyTuningProfile requires an active native session"
    else
      let why := validateTuningProfileForDevice profile s.tuning.device s.tuning.capabilities
      if !why.isEmpty then s.refuse why else s.setTuning profile.settings world

end TuningSession

def TuningChange.missing : TuningChange → String
  | set _ => "SetTuning requires an active native session"
  | reset => "ResetTuning requires an active native session"
  | applyProfile _ => "ApplyTuningProfile requires an active native session"

/-- `running` of the `Run`, and the session of its capture. -/
structure PreviewRun where
  running : Bool := false
  session : Option TuningSession := none

/-- `submitted` has all submissions of all sessions, with the session; the code has no such field. -/
structure NativeArgusPreviewSource where
  run : Option PreviewRun := none
  nextSessionId : Nat := 1
  submitted : List (Nat × TuningRequest) := []

structure TuningAnswer where
  ok : Bool := true
  error : String := ""
  state : Option CameraTuningState := none

inductive TuningCall where
  /-- `taken` are the session ids that other captures took; `failure` is any other failure behind the profile. -/
  | start (taken : Nat) (device : NativeCameraDescriptor) (capabilities : CameraTuningCapabilities)
    (sdkDefaults accepted : CameraTuning) (world : ArgusWorld) (profile : Option (TuningProfile × ArgusWorld))
    (failure : Option String)
  | stop (leasesOutstanding : Bool)
  /-- A worker thread fails. -/
  | fail
  | getTuning
  | change (session revision : Nat) (change : TuningChange) (world : ArgusWorld)

namespace NativeArgusPreviewSource

def captureGetTuning (session : Option TuningSession) : TuningAnswer :=
  match session with
  | some session =>
    if session.active && !session.stopping then { state := some session.tuning }
    else { ok := false, error := "GetTuning requires an active native session and output state" }
  | none => { ok := false, error := "GetTuning requires an active native session and output state" }

/-- While frames are leased the session stays. -/
def stopCapture (session : Option TuningSession) (leasesOutstanding : Bool) : Option TuningSession :=
  if leasesOutstanding then session.map fun s => { s with stopping := true } else none

variable (s : NativeArgusPreviewSource)

def stop (leasesOutstanding : Bool) : NativeArgusPreviewSource :=
  match s.run with
  | some run => { s with run := some { running := false, session := stopCapture run.session leasesOutstanding } }
  | none => s

/-- Under the control mutex. -/
def changeSession (running : Bool) (session : TuningSession) (change : TuningChange)
    (world : ArgusWorld) : NativeArgusPreviewSource × Except String Nat :=
  let outcome := session.change world change
  ({ s with
      run := some { running, session := some outcome.session }
      submitted := s.submitted ++ outcome.submitted.map fun request => (session.tuning.sessionId, request) },
    outcome.result)

def finishStart (applied : Except String Nat) (failure : Option String) : NativeArgusPreviewSource × TuningAnswer :=
  match applied, failure with
  | .error error, _ | .ok _, some error => (s.stop false, { ok := false, error })
  | .ok _, none => ({ s with run := s.run.map fun run => { run with running := true } }, {})

/-- `Start` of the preview source, with its profile. -/
def start (taken : Nat) (device : NativeCameraDescriptor)
    (capabilities : CameraTuningCapabilities) (sdkDefaults accepted : CameraTuning) (world : ArgusWorld)
    (profile : Option (TuningProfile × ArgusWorld)) (failure : Option String) :
    NativeArgusPreviewSource × TuningAnswer :=
  -- the old run is let go with whatever is left of it
  let id := s.nextSessionId + taken
  let s := { s with run := some {}, nextSessionId := id + 1 }
  match TuningSession.initialized id device capabilities sdkDefaults accepted world with
  | .error error => (s, { ok := false, error })
  | .ok session =>
    let s := { s with run := some { session := some session }, submitted := s.submitted ++ [(id, session.request)] }
    match profile with
    | some (profile, world) =>
      let (s, applied) := s.changeSession false session (.applyProfile profile) world
      s.finishStart applied failure
    | none => s.finishStart (.ok 0) failure

/-- The request is for the current session and revision. -/
def check (session revision : Nat) : Except String (PreviewRun × TuningSession) :=
  match s.run with
  | none => .error "native preview is not running"
  | some run =>
    if !run.running then .error "native preview is not running"
    else
      match run.session, (captureGetTuning run.session).state with
      | some current, some state =>
        if session = 0 || revision = 0 || session ≠ state.sessionId || revision ≠ state.revision then
          .error "stale native session/revision; query tuning again"
        else .ok (run, current)
      | _, _ => .error "GetTuning requires an active native session and output state"

/-- `SetTuning` or `ResetTuning` of the preview source. -/
def changeTuning (session revision : Nat) (change : TuningChange)
    (world : ArgusWorld) : NativeArgusPreviewSource × TuningAnswer :=
  match s.check session revision with
  | .error error => (s, { ok := false, error })
  | .ok (run, current) =>
    let (s, result) := s.changeSession run.running current change world
    match result with
    | .error error => (s, { ok := false, error })
    | .ok _ => (s, captureGetTuning (s.run.bind fun run => run.session))

/-- `GetTuning`. -/
def getTuning : TuningAnswer :=
  match s.run with
  | none => { ok := false, error := "native preview is not running" }
  | some run =>
    if run.running then captureGetTuning run.session else { ok := false, error := "native preview is not running" }

def step : TuningCall → NativeArgusPreviewSource × TuningAnswer
  | .start taken device capabilities sdkDefaults accepted world profile failure =>
    s.start taken device capabilities sdkDefaults accepted world profile failure
  | .stop leasesOutstanding => (s.stop leasesOutstanding, {})
  | .fail => ({ s with run := s.run.map fun run => { run with running := false } }, {})
  | .getTuning => (s, s.getTuning)
  | .change session revision change world => s.changeTuning session revision change world

def after (calls : List TuningCall) : NativeArgusPreviewSource := StepRun.run step {} calls

end NativeArgusPreviewSource

end Cockpit.Camera
