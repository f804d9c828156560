/-
  The socket of the Navigator (`navigator/connection/ipc_connector.cc`): any number of processes, each with a
  connector, on one socket path. The requests that a connector answers once it listens are left out.

  Each system call of `Open` and `Close` is one step, and the step decides how the call ends: it may fail with
  any `errno`, and it fails where it has to. A process may die between any two calls.
-/
import Cockpit.Lib.StepRun

namespace Cockpit.Navigator

/-! ## The data -/

/-- The identity of a file: `st_dev` and `st_ino`. -/
structure FileId where
  device : Nat := 0
  inode : Nat := 0
  deriving DecidableEq

/-- What is at the socket path. -/
inductive PathNode where
  | absent
  | socket (id : FileId)
  | other
  deriving DecidableEq

def ENOENT : Nat := 2
def EWOULDBLOCK : Nat := 11
def EADDRINUSE : Nat := 98
def ECONNREFUSED : Nat := 111

/-- How `Open` has failed, with `errno` where its text has it. -/
inductive OpenError where
  | badAddress
  | openLock (errno : Nat)
  | owned
  | flock (errno : Nat)
  | socket (errno : Nat)
  | notSocket
  | probe (errno : Nat)
  | running
  | probing (errno : Nat)
  | unlinkStale (errno : Nat)
  | inspect (errno : Nat)
  | bind (errno : Nat)
  | inspectCreated (errno : Nat)
  | listen (errno : Nat)
  deriving DecidableEq

/-- The text of the error. -/
def OpenError.text (strerror : Nat → String) (socketPath : String) : OpenError → String
  | badAddress => "Unix socket path is empty or too long: " ++ socketPath
  | openLock errno => "failed to open Navigator lock " ++ socketPath ++ ".lock: " ++ strerror errno
  | owned => "another Navigator already owns " ++ socketPath
  | flock errno => "failed to lock " ++ socketPath ++ ".lock: " ++ strerror errno
  | socket errno => "failed to create Unix socket: " ++ strerror errno
  | notSocket => "refusing to replace non-socket path: " ++ socketPath
  | probe errno => "failed to create Unix socket probe: " ++ strerror errno
  | running => "Unix socket is already owned by a running Navigator"
  | probing errno => "failed to probe existing Unix socket: " ++ strerror errno
  | unlinkStale errno => "failed to remove stale Unix socket " ++ socketPath ++ ": " ++ strerror errno
  | inspect errno => "failed to inspect Unix socket path " ++ socketPath ++ ": " ++ strerror errno
  | bind errno => "failed to bind Unix socket " ++ socketPath ++ ": " ++ strerror errno
  | inspectCreated errno => "failed to inspect created Unix socket " ++ socketPath ++ ": " ++ strerror errno
  | listen errno => "failed to listen on Unix socket " ++ socketPath ++ ": " ++ strerror errno

def kSunPathBytes : Nat := 108

/-- The path fits into `sun_path`. -/
def fillAddress (socketPath : String) : Bool := !socketPath.isEmpty && socketPath.utf8ByteSize < kSunPathBytes

/-- What follows a `Close`. -/
inductive CloseBehind where
  | returns
  | opens
  | fails (error : OpenError)
  deriving DecidableEq

/-- Which system call the process makes next. -/
inductive ConnectorPlace where
  /-- Outside of `Open` and `Close`. -/
  | idle
  | dead
  | closeSocket (behind : CloseBehind)
  | closeInspect (behind : CloseBehind)
  | closeUnlink (behind : CloseBehind)
  | closeLock (behind : CloseBehind)
  | openLock
  | flock
  | socket
  | inspect
  | probeSocket
  | probeConnect
  | probeClose (connected : Except Nat Unit)
  | unlinkStale
  | bind
  | inspectCreated
  | listen

/-- A connector and its descriptors. -/
structure IpcConnector where
  place : ConnectorPlace := .idle
  /-- Whether the descriptors are open. -/
  socketFd : Bool := false
  lockFd : Bool := false
  probeFd : Bool := false
  /-- The socket has been told to listen. -/
  listening : Bool := false
  /-- `socket_device_` and `socket_inode_`. -/
  socketId : FileId := {}
  /-- Whether `socket_path_` is set. -/
  socketPath : Bool := false

/-- What the processes share: the path, and who has the lock. -/
structure SocketFiles where
  node : PathNode
  lock : Option Nat := none
  deriving DecidableEq

inductive ConnectorEvent where
  | openReturned (result : Except OpenError Unit)
  | closeReturned
  /-- A file was removed from the path. -/
  | unlinked (node : PathNode)

/-- How a system call ends: the error, and for `bind` the file that it makes. -/
structure CallOutcome where
  error : Option Nat := none
  created : FileId := {}

abbrev ConnectorStep := SocketFiles × IpcConnector × Option ConnectorEvent

namespace IpcConnector

variable (c : IpcConnector) (files : SocketFiles)

def goTo (place : ConnectorPlace) : ConnectorStep :=
  (files, { c with place }, none)

def fail (error : OpenError) : ConnectorStep :=
  c.goTo files (.closeSocket (.fails error))

/-- The call is over. -/
def finish (event : ConnectorEvent) : ConnectorStep :=
  (files, { c with place := .idle }, some event)

/-- `unlink`. -/
def removed : SocketFiles × Option ConnectorEvent :=
  ({ files with node := .absent }, some (.unlinked files.node))

/-- Closing the descriptor releases the `flock`. -/
def released (i : Nat) : SocketFiles :=
  { files with lock := if files.lock = some i then none else files.lock }

/-! ## Close -/

/-- The descriptor is closed first. -/
def closeSocketStep (behind : CloseBehind) : ConnectorStep :=
  ({ c with socketFd := false, listening := false }).goTo files
    (if c.socketPath then .closeInspect behind else .closeLock behind)

/-- Only the own socket is removed. -/
def closeInspectStep (behind : CloseBehind) (outcome : CallOutcome) : ConnectorStep :=
  if outcome.error = none ∧ files.node = .socket c.socketId then c.goTo files (.closeUnlink behind)
  else ({ c with socketPath := false }).goTo files (.closeLock behind)

def closeUnlinkStep (behind : CloseBehind) (outcome : CallOutcome) : ConnectorStep :=
  let next := ({ c with socketPath := false, place := .closeLock behind } : IpcConnector)
  match outcome.error, files.node with
  | none, .socket _ | none, .other => ((removed files).1, next, (removed files).2)
  | _, _ => (files, next, none)

/-- The lock goes last. -/
def closeLockStep (socketPath : String) (c : IpcConnector) (files : SocketFiles) (i : Nat) (behind : CloseBehind) :
    ConnectorStep :=
  let files := if c.lockFd then released files i else files
  let c := { c with socketId := {}, lockFd := false }
  match behind with
  | .returns => c.finish files .closeReturned
  | .fails error => c.finish files (.openReturned (.error error))
  | .opens =>
    if fillAddress socketPath then c.goTo files .openLock
    else c.finish files (.openReturned (.error .badAddress))

/-! ## Open -/

/-- The lock file is opened. -/
def openLockStep (outcome : CallOutcome) : ConnectorStep :=
  match outcome.error with
  | none => ({ c with lockFd := true }).goTo files .flock
  | some errno => c.finish files (.openReturned (.error (.openLock errno)))

/-- Another process may have the lock. -/
def flockStep (i : Nat) (outcome : CallOutcome) : ConnectorStep :=
  match outcome.error with
  | none =>
    if files.lock = none then c.goTo { files with lock := some i } .socket else c.fail files .owned
  | some errno => c.fail files (if errno = EWOULDBLOCK then .owned else .flock errno)

/-- Where this fails, the lock stays with the connector. -/
def socketStep (outcome : CallOutcome) : ConnectorStep :=
  match outcome.error with
  | none => ({ c with socketFd := true }).goTo files .inspect
  | some errno => c.finish files (.openReturned (.error (.socket errno)))

/-- What is at the path. -/
def inspectStep (outcome : CallOutcome) : ConnectorStep :=
  match outcome.error, files.node with
  | none, .absent => c.goTo files .bind
  | none, .socket _ => c.goTo files .probeSocket
  | none, .other => c.fail files .notSocket
  | some errno, _ => if errno = ENOENT then c.goTo files .bind else c.fail files (.inspect errno)

def probeSocketStep (outcome : CallOutcome) : ConnectorStep :=
  match outcome.error with
  | none => ({ c with probeFd := true }).goTo files .probeConnect
  | some errno => c.fail files (.probe errno)

/-- Does anybody listen there? -/
def probeConnectStep (outcome : CallOutcome) : ConnectorStep :=
  c.goTo files (.probeClose (match outcome.error with | none => .ok () | some errno => .error errno))

def probeCloseStep (connected : Except Nat Unit) : ConnectorStep :=
  let c := { c with probeFd := false }
  match connected with
  | .ok () => c.fail files .running
  | .error errno =>
    if errno = ECONNREFUSED ∨ errno = ENOENT then c.goTo files .unlinkStale else c.fail files (.probing errno)

/-- Nobody does. -/
def unlinkStaleStep (outcome : CallOutcome) : ConnectorStep :=
  match outcome.error, files.node with
  | none, .absent => c.fail files (.unlinkStale ENOENT)
  | none, .socket _ | none, .other => ((removed files).1, { c with place := .bind }, (removed files).2)
  | some errno, _ => c.fail files (.unlinkStale errno)

/-- A path that is taken cannot be bound. -/
def bindStep (outcome : CallOutcome) : ConnectorStep :=
  match outcome.error with
  | none =>
    if files.node = .absent then
      ({ c with socketPath := true }).goTo { files with node := .socket outcome.created } .inspectCreated
    else c.fail files (.bind EADDRINUSE)
  | some errno => c.fail files (.bind errno)

/-- The socket that was bound. -/
def inspectCreatedStep (outcome : CallOutcome) : ConnectorStep :=
  match outcome.error, files.node with
  | none, .socket id => ({ c with socketId := id }).goTo files .listen
  | none, _ => c.fail files (.inspectCreated 0)
  | some errno, _ => c.fail files (.inspectCreated errno)

/-- `Open` is done. -/
def listenStep (outcome : CallOutcome) : ConnectorStep :=
  match outcome.error with
  | none => ({ c with listening := true }).finish files (.openReturned (.ok ()))
  | some errno => c.fail files (.listen errno)

/-- The system call that is next. -/
def run (socketPath : String) (c : IpcConnector) (files : SocketFiles) (i : Nat) (outcome : CallOutcome) :
    ConnectorStep :=
  match c.place with
  | .idle | .dead => (files, c, none)
  | .closeSocket behind => c.closeSocketStep files behind
  | .closeInspect behind => c.closeInspectStep files behind outcome
  | .closeUnlink behind => c.closeUnlinkStep files behind outcome
  | .closeLock behind => closeLockStep socketPath c files i behind
  | .openLock => c.openLockStep files outcome
  | .flock => c.flockStep files i outcome
  | .socket => c.socketStep files outcome
  | .inspect => c.inspectStep files outcome
  | .probeSocket => c.probeSocketStep files outcome
  | .probeConnect => c.probeConnectStep files outcome
  | .probeClose connected => c.probeCloseStep files connected
  | .unlinkStale => c.unlinkStaleStep files outcome
  | .bind => c.bindStep files outcome
  | .inspectCreated => c.inspectCreatedStep files outcome
  | .listen => c.listenStep files outcome

/-- `Open` too starts with `Close`. -/
def begin (behind : CloseBehind) : ConnectorStep :=
  match c.place with
  | .idle => c.goTo files (.closeSocket behind)
  | _ => (files, c, none)

/-- Its descriptors are closed. -/
def die (i : Nat) : ConnectorStep :=
  (released files i, { place := .dead }, none)

end IpcConnector

/-! ## The processes -/

/-- What is at the path before is arbitrary. -/
structure IpcSystem where
  files : SocketFiles
  connectors : Nat → IpcConnector := fun _ => {}

inductive IpcAction where
  | callOpen
  | callClose
  | run (outcome : CallOutcome)
  | die

structure IpcCall where
  process : Nat
  action : IpcAction

namespace IpcSystem

def connectorStep (socketPath : String) (s : IpcSystem) (call : IpcCall) : ConnectorStep :=
  let c := s.connectors call.process
  match call.action with
  | .callOpen => c.begin s.files .opens
  | .callClose => c.begin s.files .returns
  | .run outcome => c.run socketPath s.files call.process outcome
  | .die => IpcConnector.die s.files call.process

def step (socketPath : String) (s : IpcSystem) (call : IpcCall) : IpcSystem × Option ConnectorEvent :=
  let (files, c, event) := s.connectorStep socketPath call
  ({ files, connectors := Function.update s.connectors call.process c }, event)

def start (node : PathNode) : IpcSystem := { files := { node } }

def after (socketPath : String) (node : PathNode) (calls : List IpcCall) : IpcSystem :=
  StepRun.run (step socketPath) (start node) calls

end IpcSystem

end Cockpit.Navigator
