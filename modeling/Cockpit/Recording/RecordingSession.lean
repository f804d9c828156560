/-
  A recording session: records go line by line through three streams into a directory `.recording_<id>`, `Stop`
  makes it `<id>`, and the next start of the process turns what was cut off into `interrupted_<id>`.

  Each call is a procedure over the disk and the memory of the process; an operation on the disk is done, fails,
  or is where the process dies. What the call finds outside is an argument.
-/
import Cockpit.Lib.Durable
import Cockpit.Recording.Records

namespace Cockpit.Recording

open ByteText Durable Durable.Program Function

def kFlushInterval : Nat := 10

/-! ## The disk -/

/-- `<milliseconds>_<pid>_<sequence>` -/
structure SessionId where
  milliseconds : Int
  pid : Nat
  sequence : Nat
  deriving DecidableEq

/-- The directories of sessions: `.recording_<id>`, `<id>` and `interrupted_<id>`.  An id starts with a
    digit or a minus, so that the three kinds of names never coincide. -/
inductive DirectoryName where
  | recording (id : SessionId)
  | session (id : SessionId)
  | interrupted (id : SessionId)
  deriving DecidableEq

/-- The `state` of a manifest. -/
inductive ManifestState where
  | recording
  | complete
  deriving DecidableEq

structure Manifest where
  sessionId : Option SessionId
  state : ManifestState
  trigger : String
  startedAtMs : Int
  stoppedAtMs : Int
  messagesWritten : Nat
  dataFilesIndexed : Nat
  firstMessageTimestampMs : Int64
  lastMessageTimestampMs : Int64
  deriving DecidableEq

/-- `manifest.json`: opening it for writing leaves it empty until it is written. -/
inductive ManifestFile where
  | absent
  | truncated
  | written (manifest : Manifest)
  deriving DecidableEq

/-- A session directory: its record files as the lines written to them, the files under `artifacts/` by
    their names, the manifest and the two markers. -/
structure Directory where
  records : RecordFile → Option (List Bytes) := fun _ => none
  artifacts : Bytes → Option Bytes := fun _ => none
  manifest : ManifestFile := .absent
  complete : Bool := false
  interrupted : Bool := false

/-- The directories under `sessions`. -/
abbrev Disk := DirectoryName → Option Directory

namespace Disk

/-- A directory that exists is changed. -/
def alter (disk : Disk) (name : DirectoryName) (f : Directory → Directory) : Disk :=
  update disk name ((disk name).map f)

/-- A directory gets another name. -/
def rename (disk : Disk) (source destination : DirectoryName) : Disk :=
  update (update disk destination (disk source)) source none

end Disk

/-! ## The process -/

/-- The state of a session. -/
inductive RecordingState where
  | idle
  | recording
  | faulted
  deriving DecidableEq

/-- What a session says of itself. -/
structure RecordingStatus where
  state : RecordingState := .idle
  sessionId : Option SessionId := none
  trigger : String := ""
  messagesWritten : Nat := 0
  startedAtMs : Int := 0
  stoppedAtMs : Int := 0
  firstMessageTimestampMs : Int64 := 0
  lastMessageTimestampMs : Int64 := 0
  dataFilesIndexed : Nat := 0
  lastError : String := ""

/-- An `std::ofstream`: the lines put into it since `Start`, and how many of them are in the file. -/
structure Output where
  isOpen : Bool := false
  failed : Bool := false
  lines : List Bytes := []
  drained : Nat := 0

structure RecordingSessionLimits where
  maxSessionBytes : UInt64
  maxTotalBytes : UInt64
  maxDurationMs : UInt64
  minFreeBytes : UInt64

/-- What the process has of its session. -/
structure RecordingSession where
  limits : RecordingSessionLimits
  status : RecordingStatus := {}
  outputs : RecordFile → Output := fun _ => {}
  activeBytes : UInt64 := 0
  existingBytes : UInt64 := 0
  messagesSinceFlush : RecordFile → Nat := fun _ => 0
  startedAtSteadyMs : Int := 0
  /-- The artifacts of the copies that succeeded since `Start`. -/
  kept : List Bytes := []
  /-- Some subtraction has gone below zero. -/
  wrapped : Bool := false

/-- The disk, and a process with one session. -/
structure World where
  disk : Disk
  pid : Nat
  sequence : Nat
  session : RecordingSession

namespace World

def status (w : World) : RecordingStatus := w.session.status

variable (w : World)

/-- The stream of this record file. -/
def output (f : RecordFile) : Output := w.session.outputs f

def setStatus (status : RecordingStatus) : World :=
  { w with session := { w.session with status := status } }

/-- The session is faulted from now on. -/
def setError (error : String) (w : World) : World :=
  w.setStatus { w.status with state := .faulted, lastError := error }

def setOutput (f : RecordFile) (output : Output) : World :=
  { w with session := { w.session with outputs := update w.session.outputs f output } }

/-- A change to the temporary directory of the session. -/
def inTemporary (f : Directory → Directory) (w : World) : World :=
  match w.status.sessionId with
  | some id => { w with disk := w.disk.alter (.recording id) f }
  | none => w

/-- The temporary directory of the session. -/
def temporary : Option Directory :=
  w.status.sessionId.bind fun id => w.disk (.recording id)

end World

/-! ## Operations -/

/-- The operations of the calls that are done, fail, or are where the process dies.  A write to an artifact
    is known by how many reads and writes are still to come. -/
inductive Operation where
  | createSessions
  | createDirectory
  | openOutput (f : RecordFile)
  | openManifest (state : ManifestState)
  | writeManifest (state : ManifestState)
  | closeManifest (state : ManifestState)
  | syncManifest (state : ManifestState)
  | createArtifacts
  | createArtifact
  | writeArtifact (reads writes : Nat)
  | syncArtifact
  | closeArtifact
  | removeArtifact
  | checksumArtifact
  | writeLine
  | flushLine
  | flushOutput (f : RecordFile)
  | closeOutput (f : RecordFile)
  | syncOutput (f : RecordFile)
  | openMarker
  | writeMarker
  | closeMarker
  | syncMarker
  | syncDirectory
  | rename
  | syncParent
  deriving DecidableEq

/-- A call over disk and memory. -/
abbrev Call := Program Operation String World

/-- Fail, and say so in the status. -/
def fault {α : Type} (error : String) : Call α := do
  modify (World.setError error)
  fail error

/-- A limit that is reached faults the session. -/
def refuseIf (reached : Bool) (error : String) : Call Unit := if reached then fault error else pure ()

/-- A subtraction, which notes whether it wraps. -/
def subtract (a b : UInt64) : Call UInt64 := do
  modify fun w => { w with session := { w.session with wrapped := w.session.wrapped || decide (a < b) } }
  pure (a - b)

/-! ## Start -/

def RecordFile.filename : RecordFile → String
  | .vehicleState => "vehicle_state.jsonl"
  | .events => "events.jsonl"
  | .dataFiles => "data_files.jsonl"

structure StartClocks where
  idMs : Int
  startedAtMs : Int
  steadyMs : Int

/-- Clock, process and counter make the id. -/
def World.makeSessionId (w : World) (wallMs : Int) : SessionId := ⟨wallMs, w.pid, w.sequence⟩

/-- A new session, with nothing recorded yet. -/
def World.begin (trigger : String) (clocks : StartClocks) (w : World) : World :=
  { w with
    sequence := w.sequence + 1
    session :=
      { w.session with
        status :=
          { state := .recording
            sessionId := some (w.makeSessionId clocks.idMs)
            trigger := if trigger.isEmpty then "manual" else trigger
            startedAtMs := clocks.startedAtMs }
        outputs := fun f => { w.session.outputs f with lines := [], drained := 0 }
        startedAtSteadyMs := clocks.steadyMs
        activeBytes := 0
        messagesSinceFlush := fun _ => 0
        kept := [] } }

/-- One that is there already stays. -/
def World.createDirectory (w : World) : World :=
  match w.status.sessionId with
  | some id =>
    { w with disk := update w.disk (.recording id) (some ((w.disk (.recording id)).getD {})) }
  | none => w

/-- The file is appended to; a stream that is open already fails. -/
def World.openOutput (f : RecordFile) (w : World) : World :=
  if (w.output f).isOpen then w.setOutput f { w.output f with failed := true }
  else (w.inTemporary fun d =>
    { d with records := update d.records f (some ((d.records f).getD [])) }).setOutput f
      { isOpen := true }

/-- The streams are closed. -/
def World.closeOutputs (w : World) : World :=
  { w with session := { w.session with outputs := fun f => { w.session.outputs f with isOpen := false } } }

/-- The manifest of the status. -/
def World.manifest (w : World) (state : ManifestState) : Manifest where
  sessionId := w.status.sessionId
  state := state
  trigger := w.status.trigger
  startedAtMs := w.status.startedAtMs
  stoppedAtMs := w.status.stoppedAtMs
  messagesWritten := w.status.messagesWritten
  dataFilesIndexed := w.status.dataFilesIndexed
  firstMessageTimestampMs := w.status.firstMessageTimestampMs
  lastMessageTimestampMs := w.status.lastMessageTimestampMs

/-- The manifest is synced when it returns. -/
def writeManifest (state : ManifestState) : Call Unit := do
  act (.openManifest state) (World.inTemporary fun d => { d with manifest := .truncated })
    "open manifest.json failed"
  act (.writeManifest state)
    (fun w => w.inTemporary fun d => { d with manifest := .written (w.manifest state) })
    "flush manifest.json failed"
  check (.closeManifest state) "close manifest.json failed"
  check (.syncManifest state) "sync recording path failed"

/-- `Start` behind its check. -/
def openSession (trigger : String) (clocks : StartClocks) : Call Unit := do
  check .createSessions "create sessions directory failed"
  modify (World.begin trigger clocks)
  act .createDirectory World.createDirectory "create recording directory failed"
  act (.openOutput .vehicleState) (World.openOutput .vehicleState) "open vehicle_state.jsonl failed"
  act (.openOutput .events) (World.openOutput .events) "open events.jsonl failed"
  act (.openOutput .dataFiles) (World.openOutput .dataFiles) "open data_files.jsonl failed"

/-- Behind its checks, a `Start` that fails leaves the session faulted. -/
def start (trigger : String) (clocks : StartClocks) : Call Unit := do
  let w ← get
  require (w.status.state ≠ .recording) "recording session is already active"
  require (w.status.state ≠ .faulted) ("recording session is faulted: " ++ w.status.lastError)
  onFail World.setError (openSession trigger clocks)
  onFail (fun _ w => w.closeOutputs.setStatus { w.status with state := .faulted })
    (writeManifest .recording)

/-! ## Capacity -/

/-- What `EnsureCapacity` finds: the steady clock, and `f_frsize` and `f_bavail` of the file system. -/
structure Capacity where
  steadyNowMs : Int
  filesystem : Option (UInt64 × UInt64)

/-- A limit of 0 is none. -/
def durationReached (session : RecordingSession) (steadyNowMs : Int) : Bool :=
  0 < session.limits.maxDurationMs && 0 < session.startedAtSteadyMs &&
    session.startedAtSteadyMs < steadyNowMs &&
    session.limits.maxDurationMs.toNat < (steadyNowMs - session.startedAtSteadyMs).toNat

def sessionLimitReached (additionalBytes : Nat) : Call Bool := do
  let w ← get
  let max := w.session.limits.maxSessionBytes
  if max = 0 then pure false
  else if max < w.session.activeBytes then pure true
  else do
    let left ← subtract max w.session.activeBytes
    pure (left.toNat < additionalBytes)

def totalLimitReached (additionalBytes : Nat) : Call Bool := do
  let w ← get
  let max := w.session.limits.maxTotalBytes
  if max = 0 then pure false
  else if max < w.session.existingBytes then pure true
  else do
    let left ← subtract max w.session.existingBytes
    if left < w.session.activeBytes then pure true
    else do
      let left ← subtract max w.session.existingBytes
      let left ← subtract left w.session.activeBytes
      pure (left.toNat < additionalBytes)

/-- A product beyond 64 bits is the largest value. -/
def availableBytes (blockSize availableBlocks : UInt64) : UInt64 :=
  if 0 < blockSize ∧ (-1 : UInt64) / blockSize < availableBlocks then -1 else blockSize * availableBlocks

def reserveReached (additionalBytes : Nat) (available : UInt64) : Call Bool := do
  let w ← get
  if available.toNat < additionalBytes then pure true
  else do
    let left ← subtract available (UInt64.ofNat additionalBytes)
    pure (left < w.session.limits.minFreeBytes)

/-- The limits, in the source's order. -/
def ensureCapacity (additionalBytes : Nat) (capacity : Capacity) : Call Unit := do
  let w ← get
  refuseIf (durationReached w.session capacity.steadyNowMs) "recording session duration limit reached"
  let reached ← sessionLimitReached additionalBytes
  refuseIf reached "recording session byte limit reached"
  let reached ← totalLimitReached additionalBytes
  refuseIf reached "recording total byte limit reached"
  match capacity.filesystem with
  | none => fault "read recording filesystem capacity failed"
  | some (blockSize, availableBlocks) => do
    let reached ← reserveReached additionalBytes (availableBytes blockSize availableBlocks)
    refuseIf reached "recording filesystem free-space reserve reached"

/-! ## Records -/

namespace World

variable (f : RecordFile) (w : World)

/-- A stream may send lines to the file without a flush. -/
def drain (n : Nat) (w : World) : World :=
  let output := w.output f
  let upTo := min (max output.drained n) output.lines.length
  (w.inTemporary fun d => { d with
    records := update d.records f
      ((d.records f).map (· ++ (output.lines.take upTo).drop output.drained)) }).setOutput f
    { output with drained := upTo }

/-- A stream takes a whole line, or none when it fails. -/
def putLine (line : Bytes) (drained : Nat) (w : World) : World :=
  (w.setOutput f { w.output f with lines := (w.output f).lines ++ [line] }).drain f drained

def failOutput : World := w.setOutput f { w.output f with failed := true }

/-- All lines go to the file. -/
def flush : World := w.drain f (w.output f).lines.length

/-- The line is counted. -/
def count (line : Bytes) (timestampMs : Int64) (w : World) : World :=
  { w with
    session :=
      { w.session with
        activeBytes := w.session.activeBytes + UInt64.ofNat (line.length + 1)
        messagesSinceFlush :=
          update w.session.messagesSinceFlush f (w.session.messagesSinceFlush f + 1)
        status :=
          { w.session.status with
            messagesWritten := w.session.status.messagesWritten + 1
            dataFilesIndexed :=
              if f = .dataFiles then w.session.status.dataFilesIndexed + 1
              else w.session.status.dataFilesIndexed
            firstMessageTimestampMs :=
              if w.session.status.firstMessageTimestampMs = 0 then timestampMs
              else w.session.status.firstMessageTimestampMs
            lastMessageTimestampMs := timestampMs } } }

def resetSinceFlush : World :=
  { w with session := { w.session with
    messagesSinceFlush := update w.session.messagesSinceFlush f 0 } }

end World

/-- What an append finds: the capacity for its line, and how much the stream has put into the file. -/
structure LineEnvironment where
  capacity : Capacity
  drained : Nat

/-- A stream that has failed stays failed. -/
def writeLine (f : RecordFile) (line : Bytes) (drained : Nat) : Call Unit :=
  onFail (fun error w => (w.failOutput f).setError error) do
    let w ← get
    require (!(w.output f).failed) ("write " ++ f.filename ++ " failed")
    act .writeLine (World.putLine f line drained) ("write " ++ f.filename ++ " failed")

def flushLines (f : RecordFile) : Call Unit := do
  let w ← get
  if kFlushInterval ≤ w.session.messagesSinceFlush f then do
    let _ ← (attempt (onFail (fun _ => World.failOutput f)
      (act .flushLine (World.flush f) ("flush " ++ f.filename ++ " failed"))) : Call (Except String Unit))
    modify (World.resetSinceFlush f)
  else pure ()

/-- The limits come first, then the line, its count and the flush. -/
def appendLine (f : RecordFile) (line : Bytes) (timestampMs : Int64) (environment : LineEnvironment) : Call Unit := do
  ensureCapacity (line.length + 1) environment.capacity
  writeLine f line environment.drained
  modify (World.count f line timestampMs)
  flushLines f

def requireActive (f : RecordFile) : Call Unit := do
  let w ← get
  require (w.status.state = .recording && (w.output f).isOpen) "recording session is not active"

def append (state : VehicleState) (environment : LineEnvironment) : Call Record := do
  requireActive .vehicleState
  appendLine .vehicleState state.toJson state.timestampMs environment
  pure (.vehicleState state)

def appendEvent (event : RecordingEvent) (environment : LineEnvironment) : Call Record := do
  requireActive .events
  require event.isValid "recording event is invalid"
  appendLine .events event.toJson event.timestampMs environment
  pure (.event event)

/-! ## Data files -/

/-- What a `write` returns. -/
inductive WriteOutcome where
  | interrupted
  | failed (error : String)
  | wrote (size : Nat)

/-- What a `read` of the source returns: it is interrupted, fails, or gives bytes (none at the end of the
    file), and then what the `write`s of these bytes return. -/
inductive ReadOutcome where
  | interrupted
  | failed (error : String)
  | bytes (chunk : Bytes) (writes : List WriteOutcome)

/-- What a copy finds: the size of the source, or why `OpenAllowedDataFile` refuses it, the capacity for
    it, and what its reads and writes return; they fail where the list ends. -/
structure CopyEnvironment where
  opened : Except String UInt64
  capacity : Capacity
  reads : List ReadOutcome

def kCopyBufferBytes : Nat := 64 * 1024

def filename (path : Bytes) : Bytes := (path.reverse.takeWhile (· ≠ 0x2F)).reverse

def artifactName (dataFilesIndexed : Nat) (filename : Bytes) : Bytes :=
  natNumeral (dataFilesIndexed + 1) ++ 0x5F :: filename

def World.setArtifact (name : Bytes) (content : Option Bytes) (w : World) : World :=
  w.inTemporary fun d => { d with artifacts := update d.artifacts name content }

def World.artifact (w : World) (name : Bytes) : Option Bytes := w.temporary.bind fun d => d.artifacts name

def World.extendArtifact (name bytes : Bytes) (w : World) : World :=
  w.setArtifact name (some ((w.artifact name).getD [] ++ bytes))

/-- What one `read` gave, in as many `write`s as it takes. -/
def writeChunk (name : Bytes) (reads : Nat) : Bytes → List WriteOutcome → Call Unit
  | [], _ => pure ()
  | _ :: _, [] => fail "write failed"
  | b :: chunk, .interrupted :: writes => writeChunk name reads (b :: chunk) writes
  | _ :: _, .failed error :: _ => fail error
  | b :: chunk, .wrote size :: writes =>
    if size = 0 then fail "zero-byte artifact write"
    else do
      act (.writeArtifact reads writes.length) (World.extendArtifact name ((b :: chunk).take size))
        "write failed"
      writeChunk name reads ((b :: chunk).drop size) writes

/-- `read` until the file ends. -/
def copyChunks (name : Bytes) : Nat → List ReadOutcome → Call Unit
  | 0, _ => pure ()
  | _ + 1, [] => fail "read failed"
  | remaining + 1, .interrupted :: reads => copyChunks name (remaining + 1) reads
  | _ + 1, .failed error :: _ => fail error
  | remaining + 1, .bytes chunk writes :: reads =>
    let chunk := chunk.take (min (remaining + 1) kCopyBufferBytes)
    if chunk.isEmpty then fail "source file changed during copy"
    else do
      writeChunk name reads.length chunk writes
      copyChunks name (remaining + 1 - chunk.length) reads

def removeArtifact (name : Bytes) : Call Unit := do
  let _ ← (attempt (act .removeArtifact (World.setArtifact name none) "remove failed") :
    Call (Except String Unit))
  pure ()

def kFnvOffsetBasis : UInt64 := 14695981039346656037
def kFnvPrime : UInt64 := 1099511628211

def fnv1a64 (content : Bytes) : UInt64 :=
  content.foldl (fun hash byte => (hash ^^^ byte.toUInt64) * kFnvPrime) kFnvOffsetBasis

def hexDigits : Nat → Nat → Bytes
  | 0, _ => []
  | n + 1, value =>
    hexDigits n (value / 16) ++ [if value % 16 < 10 then digit (value % 16) else UInt8.ofNat (0x57 + value % 16)]

def computeFnv1a64 (name : Bytes) : Call Bytes := do
  check .checksumArtifact "open file for checksum failed"
  let w ← get
  pure (ascii "fnv1a64:" ++ hexDigits 16 (fnv1a64 ((w.artifact name).getD [])).toNat)

/-- No file is overwritten. -/
def createArtifact (name : Bytes) : Call Unit := do
  let w ← get
  require (w.artifact name).isNone "create recording artifact failed"
  act .createArtifact (World.setArtifact name (some [])) "create recording artifact failed"

/-- The copy is synced and closed before it counts. -/
def copyContent (name : Bytes) (size : UInt64) (reads : List ReadOutcome) : Call Unit := do
  copyChunks name size.toNat reads
  check .syncArtifact "sync failed"
  check .closeArtifact "close failed"

def checksumCopy (name : Bytes) (size : UInt64) (file : RecordingDataFile) : Call RecordingDataFile := do
  if file.checksum.isEmpty then do
    let digest ← (attempt (computeFnv1a64 name) : Call (Except String Bytes))
    match digest with
    | .ok checksum => pure { file with checksum := checksum }
    | .error error => do
      removeArtifact name
      let w ← get
      let left ← subtract w.session.activeBytes size
      modify fun w => { w with session := { w.session with activeBytes := left } }
      fail error
  else pure file

/-- A copy that fails is removed. -/
def copyDataFile (file : RecordingDataFile) (environment : CopyEnvironment) : Call RecordingDataFile := do
  let size ← ofExcept environment.opened
  ensureCapacity size.toNat environment.capacity
  let source := filename file.path
  require (!(source = [] || source = ascii "." || source = ascii ".."))
    "recording data file has an invalid filename"
  check .createArtifacts "create recording artifact directory failed"
  let w ← get
  let name := artifactName w.status.dataFilesIndexed source
  createArtifact name
  let copied ← (attempt (copyContent name size environment.reads) : Call (Except String Unit))
  match copied with
  | .error error => do
    removeArtifact name
    fail ("copy recording data file failed: " ++ error)
  | .ok () => do
    modify fun w => { w with session := { w.session with activeBytes := w.session.activeBytes + size } }
    let recorded ← checksumCopy name size
      { file with path := ascii "artifacts/" ++ name, sizeBytes := size }
    modify fun w => { w with session := { w.session with kept := w.session.kept ++ [name] } }
    pure recorded

def appendDataFile (file : RecordingDataFile) (copy : CopyEnvironment) (environment : LineEnvironment) :
    Call Record := do
  requireActive .dataFiles
  require file.isValid "recording data file index is invalid"
  let recorded ← if file.copyIntoSession then copyDataFile file copy else pure file
  appendLine .dataFiles recorded.toJson recorded.timestampMs environment
  pure (.dataFile recorded)

/-! ## Stop -/

def World.closeOutput (f : RecordFile) (w : World) : World :=
  w.setOutput f { w.output f with isOpen := false }

def closeOutput (f : RecordFile) : Call Unit := do
  let w ← get
  if !(w.output f).isOpen then pure ()
  else onFail (fun _ => World.closeOutput f) do
    require (!(w.output f).failed) ("flush " ++ f.filename ++ " failed")
    act (.flushOutput f) (World.flush f) ("flush " ++ f.filename ++ " failed")
    act (.closeOutput f) (World.closeOutput f) ("close " ++ f.filename ++ " failed")

/-- All three are closed, and the first error is told. -/
def closeAll : Call (Except String Unit) := do
  let vehicleState ← (attempt (closeOutput .vehicleState) : Call (Except String Unit))
  let events ← (attempt (closeOutput .events) : Call (Except String Unit))
  let dataFiles ← (attempt (closeOutput .dataFiles) : Call (Except String Unit))
  pure (vehicleState *> events *> dataFiles)

/-- The marker says that the session is complete. -/
def writeCompleteMarker : Call Unit := do
  act .openMarker (World.inTemporary fun d => { d with complete := true }) "open recording marker failed"
  check .writeMarker "write recording marker failed"
  check .closeMarker "close recording marker failed"
  check .syncMarker "sync recording path failed"

/-- No finished session is replaced. -/
def renameToFinal : Call Unit := do
  let w ← get
  match w.status.sessionId with
  | some id => do
    require ((w.disk (.recording id)).isSome && (w.disk (.session id)).isNone) "rename failed"
    act .rename (fun w => { w with disk := w.disk.rename (.recording id) (.session id) }) "rename failed"
  | none => fail "rename failed"

/-- `Stop` of an active session. -/
def finish (stoppedAtMs : Int) : Call Unit := do
  let closed ← closeAll
  ofExcept closed
  check (.syncOutput .vehicleState) "sync recording path failed"
  check (.syncOutput .events) "sync recording path failed"
  check (.syncOutput .dataFiles) "sync recording path failed"
  modify fun w => w.setStatus { w.status with stoppedAtMs := stoppedAtMs }
  writeManifest .complete
  writeCompleteMarker
  check .syncDirectory "sync recording path failed"
  renameToFinal
  check .syncParent "sync recording path failed"
  modify fun w => w.setStatus { w.status with state := .idle }

/-- An idle session has nothing to stop, a faulted one fails. -/
def stop (stoppedAtMs : Int) : Call Unit := do
  let w ← get
  match w.status.state with
  | .idle => pure ()
  | .faulted => do
    let _ ← closeAll
    fail w.status.lastError
  | .recording => onFail World.setError (finish stoppedAtMs)

/-! ## The calls of a session -/

def setExistingBytes (existingBytes : UInt64) : Call Unit :=
  modify fun w =>
    if w.status.state = .recording then w
    else { w with session := { w.session with existingBytes := existingBytes } }

/-- A call, with what it finds outside. -/
inductive SessionCall where
  | setExistingBytes (existingBytes : UInt64)
  | start (trigger : String) (clocks : StartClocks)
  | append (state : VehicleState) (environment : LineEnvironment)
  | appendEvent (event : RecordingEvent) (environment : LineEnvironment)
  | appendDataFile (file : RecordingDataFile) (copy : CopyEnvironment) (environment : LineEnvironment)
  | stop (stoppedAtMs : Int)

namespace SessionCall

def program : SessionCall → Call (Option Record)
  | setExistingBytes existingBytes => do
    Recording.setExistingBytes existingBytes
    pure none
  | start trigger clocks => do
    Recording.start trigger clocks
    pure none
  | append state environment => do
    let record ← Recording.append state environment
    pure (some record)
  | appendEvent event environment => do
    let record ← Recording.appendEvent event environment
    pure (some record)
  | appendDataFile file copy environment => do
    let record ← Recording.appendDataFile file copy environment
    pure (some record)
  | stop stoppedAtMs => do
    Recording.stop stoppedAtMs
    pure none

end SessionCall

/-! ## Recovery -/

/-- The operations of `RecoverInterrupted`, each on the directory of a session. -/
inductive RecoveryOperation where
  | listSessions
  | openMarker (id : SessionId)
  | writeMarker (id : SessionId)
  | closeMarker (id : SessionId)
  | syncMarker (id : SessionId)
  | rename (id : SessionId)
  | syncSessions (id : SessionId)
  deriving DecidableEq

/-- Mark it, then rename it. -/
def recoverOne (id : SessionId) : Program RecoveryOperation String Disk Unit := do
  act (.openMarker id) (fun disk => disk.alter (.recording id) fun d => { d with interrupted := true })
    "open recording marker failed"
  check (.writeMarker id) "write recording marker failed"
  check (.closeMarker id) "close recording marker failed"
  check (.syncMarker id) "sync recording path failed"
  let disk ← get
  require (disk (.interrupted id)).isNone "rename failed"
  act (.rename id) (fun disk => disk.rename (.recording id) (.interrupted id)) "rename failed"
  check (.syncSessions id) "sync recording path failed"

/-- Only the directories of cut-off sessions are touched. -/
def recoverAll : List DirectoryName → Program RecoveryOperation String Disk Nat
  | [] => pure 0
  | .recording id :: names => do
    recoverOne id
    let recovered ← recoverAll names
    pure (recovered + 1)
  | .session _ :: names => recoverAll names
  | .interrupted _ :: names => recoverAll names

def recoverInterrupted (names : List DirectoryName) : Program RecoveryOperation String Disk Nat := do
  check .listSessions "list sessions failed"
  recoverAll names

def Directory.marked (d : Directory) : Directory := { d with interrupted := true }

/-- Finished sessions are not touched, and no other one is lost: it is where it was, at most with the marker, or it has
    the name of an interrupted one, which was free. -/
def Keeps (before after : Disk) : Prop :=
  ∀ id, after (.session id) = before (.session id) ∧
    (after (.interrupted id) = before (.interrupted id) ∧
        (after (.recording id) = before (.recording id) ∨
          after (.recording id) = (before (.recording id)).map Directory.marked) ∨
      before (.interrupted id) = none ∧ after (.interrupted id) = (before (.recording id)).map Directory.marked ∧
        after (.recording id) = none)

/-- None of these is left. -/
def Cleared (names : List DirectoryName) (disk : Disk) : Prop :=
  ∀ id, .recording id ∈ names → disk (.recording id) = none

variable {disk disk' disk'' : Disk} {answers : RecoveryOperation → Answer}

theorem Keeps.refl (disk : Disk) : Keeps disk disk := fun _ => ⟨rfl, .inl ⟨rfl, .inl rfl⟩⟩

theorem Keeps.trans (h : Keeps disk disk') (h' : Keeps disk' disk'') : Keeps disk disk'' := by
  intro id
  obtain ⟨hsess, hcase⟩ := h id
  obtain ⟨hsess', hcase'⟩ := h' id
  refine ⟨hsess'.trans hsess, ?_⟩
  rcases hcase with ⟨hinterrupted, hrecording | hrecording⟩ | ⟨hfree, hmoved, hgone⟩
  · rwa [hinterrupted, hrecording] at hcase'
  · -- a second marker changes nothing
    rw [hinterrupted, hrecording, Option.map_map] at hcase'
    exact hcase'.imp_left (And.imp_right fun h => .inr (or_self_iff.mp h))
  · rw [hgone, hmoved] at hcase'
    rcases hcase' with ⟨hsame, hrecording⟩ | ⟨hnone, hsame, hrecording⟩
    · exact .inr ⟨hfree, hsame, or_self_iff.mp hrecording⟩
    · exact .inr ⟨hfree, hsame.trans hnone.symm, hrecording⟩

theorem Keeps.gone (h : Keeps disk disk') {id : SessionId} (hgone : disk (.recording id) = none) :
    disk' (.recording id) = none := by
  rcases (h id).2 with ⟨-, hrecording⟩ | ⟨-, -, hrecording⟩
  · rw [hgone] at hrecording
    exact or_self_iff.mp hrecording
  · exact hrecording

/-- A directory that cannot be renamed stays where it is. -/
theorem recoverOne_keeps (id : SessionId) :
    Triple answers (· = disk) (recoverOne id) (fun _ s => Keeps disk s ∧ s (.recording id) = none) (Keeps disk) := by
  have hmarked : Keeps disk (disk.alter (.recording id) Directory.marked) := by
    intro other
    by_cases hid : other = id <;> simp [Disk.alter, hid]
  have hstop : ∀ s, s = disk.alter (.recording id) Directory.marked → Keeps disk s := fun s hs => hs ▸ hmarked
  unfold recoverOne
  refine .bind (M := fun _ s => s = disk.alter (.recording id) Directory.marked)
    (.act (fun _ s hs => hs ▸ rfl) fun _ s hs => hs ▸ Keeps.refl s) fun _ => ?_
  iterate 3 refine .bind (.check fun _ => hstop) fun _ => ?_
  refine .bind (M := fun a s => a = s ∧ s = _) (.get fun s hs => ⟨rfl, hs⟩) fun a => ?_
  refine .bind (.require fun _ s hs => hstop s hs.2) fun _ => .of_pure fun hfree => ?_
  refine .bind (.act ?_ fun _ s hs => hstop s hs.2) fun _ => .check fun _ s hs => hs.1
  rintro - _ ⟨rfl, rfl⟩
  refine ⟨fun other => ?_, update_self ..⟩
  by_cases hid : other = id
  · simp_all [Disk.rename, Disk.alter]
  · simp [Disk.rename, Disk.alter, hid]

theorem recoverAll_keeps (names : List DirectoryName) :
    Triple answers (· = disk) (recoverAll names) (fun _ s => Keeps disk s ∧ Cleared names s) (Keeps disk) := by
  induction names generalizing disk with
  | nil => exact .pure fun s hs => ⟨hs ▸ Keeps.refl s, nofun⟩
  | cons name names ih =>
    cases name with
    | recording id =>
      refine .bind (recoverOne_keeps id) fun _ => .of_state ?_
      rintro t ⟨hkept, hgone⟩
      refine .bind (ih.mono (fun _ hs => hs) ?_ fun _ => hkept.trans) fun _ => .pure fun _ hs => hs
      rintro - s ⟨hrest, hcleared⟩
      refine ⟨hkept.trans hrest, fun other hmem => ?_⟩
      rcases List.mem_cons.mp hmem with heq | hmem
      · cases heq
        exact hrest.gone hgone
      · exact hcleared other hmem
    | session id | interrupted id => simpa [recoverAll, Cleared] using ih

/-- Nothing is lost, and none of those listed is left when it succeeds. -/
theorem recoverInterrupted_keeps (names : List DirectoryName) :
    Triple answers (· = disk) (recoverInterrupted names) (fun _ s => Keeps disk s ∧ Cleared names s) (Keeps disk) :=
  .bind (.check fun _ s hs => hs ▸ Keeps.refl s) fun _ => recoverAll_keeps names

/-- **However often the recovery is tried, and wherever it fails or dies, no session is lost**; and where it returns,
    none that was found cut off is left. -/
theorem recovery_loses_nothing (attempts : List (List DirectoryName × (RecoveryOperation → Answer))) (disk : Disk) :
    Keeps disk (attempts.foldl (fun disk attempt => ((recoverInterrupted attempt.1).run attempt.2 disk).2) disk) ∧
    ∀ names answers, ((recoverInterrupted names).run answers disk).1.isReturned = true →
      Cleared names ((recoverInterrupted names).run answers disk).2 := by
  constructor
  · induction attempts generalizing disk with
    | nil => exact Keeps.refl disk
    | cons attempt attempts ih =>
      exact ((recoverInterrupted_keeps attempt.1).anyway rfl fun _ _ hs => hs.1).trans (ih _)
  · intro names answers hret
    rcases hrun : (recoverInterrupted names).run answers disk with ⟨outcome, s⟩
    rw [hrun] at hret
    cases outcome with
    | returned n => exact ((recoverInterrupted_keeps names).returned rfl hrun).2
    | failed error | crashed => cases hret

theorem recovery_loses_nothing_once :
    ((recoverInterrupted [.recording ⟨1, 7, 0⟩]).run (fun _ => .done)
      (update (fun _ => none) (.recording ⟨1, 7, 0⟩) (some {}))).2 (.recording ⟨1, 7, 0⟩) = none :=
  (recovery_loses_nothing [] _).2 _ _ rfl _ List.mem_cons_self

end Cockpit.Recording
