/-
  The supervisor of the llama server (`agent/llm/llama_server_process.cc`).

  Two threads act on it: the one that calls `Start` and `Stop`, which are not concurrent, and that of
  `MonitorLoop`. Each locked section, spawn, `waitpid`, `kill` and probe is one step of one of them; the clocks
  are inputs. The arguments of the server, the HTTP of the probe, the log and the getters are left out.
-/
import Cockpit.Lib.StepRun

namespace Cockpit.Llm

/-! ## The operating system -/

/-- A child that was not reaped. -/
structure LlamaChild where
  pid : Nat
  exited : Bool := false
  deriving DecidableEq

inductive WaitAnswer where
  | looks
  | interrupted
  | fails (errno : Int)
  deriving DecidableEq

inductive WaitResult where
  | running
  | reaped
  | interrupted
  | error (errno : Int)
  deriving DecidableEq

def ECHILD : Int := 10

def EAGAIN : Int := 11

/-- With `WNOHANG` it may fail with any error, but says `ECHILD` only of a child that is not there. -/
def waitpid (children : List LlamaChild) (pid : Nat) : WaitAnswer → WaitResult × List LlamaChild
  | .interrupted => (.interrupted, children)
  | .fails errno => (if errno = ECHILD then .interrupted else .error errno, children)
  | .looks =>
    match children.find? fun child => child.pid = pid with
    | none => (.error ECHILD, children)
    | some child =>
      if child.exited then (.reaped, children.filter fun child => child.pid ≠ pid) else (.running, children)

/-- What the system, the clocks and the server answer at one step. -/
structure SystemAnswer where
  /-- The deadline has passed. -/
  late : Bool := false
  /-- The next health check is due. -/
  due : Bool := true
  /-- The pid of a new child, or the error. -/
  spawn : Except Int Nat := .ok 1
  wait : WaitAnswer := .looks
  /-- `kill(-pid, 0)` finds no process. -/
  groupGone : Bool := true
  probe : Bool := true
  /-- The thread is created. -/
  launches : Bool := true

/-- The child that is spawned. -/
def SystemAnswer.newPid (answer : SystemAnswer) (children : List LlamaChild) : Except Int Nat :=
  match answer.spawn with
  | .error errno => .error errno
  | .ok pid => if pid = 0 || children.any fun child => child.pid = pid then .error EAGAIN else .ok pid

/-! ## The state -/

structure LlamaServerProcessConfig where
  executable : String := ""
  modelPath : String := ""
  restartLimit : Int := 5
  healthFailureThreshold : Int := 3
  /-- The texts of the system. -/
  strerror : Int → String := fun _ => ""

/-- Where `TerminateAndReap` is. -/
inductive ReapPlace where
  | terminate
  /-- The head of the loop, with its `waitpid`. -/
  | loop (leaderReaped : Bool)
  | group (leaderReaped : Bool)
  | kill (leaderReaped : Bool)
  | wait
  deriving DecidableEq

/-- What comes behind the reaping of a child that is not ready. -/
inductive StartupFailure where
  | cancelledEarly
  | cancelled
  | exited
  | waitFailed (errno : Int)
  | timedOut
  deriving DecidableEq

/-- Where `SpawnAndWaitUntilReady` is. -/
inductive StartupPlace where
  | spawn
  | register (child : Nat)
  /-- The head of the loop, with the look at `stopping_`. -/
  | loop (child : Nat)
  | wait (child : Nat)
  | probe (child : Nat)
  | mark (child : Nat)
  | sleep (child : Nat)
  | reap (child : Nat) (failure : StartupFailure) (place : ReapPlace)
  | forget (child : Nat) (failure : StartupFailure)
  deriving DecidableEq

inductive StartupNext where
  | goesOn (place : StartupPlace)
  | succeeds
  | fails (error : String)

/-- Where the thread of `Start` and `Stop` is. -/
inductive CallerPlace where
  | idle
  | startSection
  | startup (place : StartupPlace)
  | startFailed (error : String)
  | launch
  | join
  | take
  | reap (pid : Nat) (place : ReapPlace)
  deriving DecidableEq

/-- Why `MonitorLoop` gives a child up. -/
inductive Loss where
  | unhealthy
  | exited
  deriving DecidableEq

/-- Where `MonitorLoop` is. -/
inductive MonitorPlace where
  | restart
  | restartWait
  | startup (place : StartupPlace)
  | restartFailed (error : String)
  | watch
  | poll (child : Nat)
  | probe (child : Nat)
  | reap (child : Nat) (loss : Loss) (place : ReapPlace)
  | lost (child : Nat) (loss : Loss)
  | waitFailed (errno : Int)
  deriving DecidableEq

/-- The locals of `MonitorLoop`. -/
structure MonitorLocals where
  restartAttempts : Int := 0
  healthFailures : Int := 0
  deriving DecidableEq

/-- `monitor_`; it can be joined when it has ended. -/
inductive MonitorThread where
  | none
  | running (place : MonitorPlace) (locals : MonitorLocals)
  | ended
  deriving DecidableEq

/-- `probed` is the child that the last probe for readiness that succeeded was for; the code has no such field. -/
structure LlamaServerProcess where
  pid : Nat := 0
  ready : Bool := false
  stopping : Bool := false
  restartCount : Nat := 0
  lastError : String := ""
  children : List LlamaChild := []
  caller : CallerPlace := .idle
  monitor : MonitorThread := .none
  probed : Option Nat := none

inductive LlamaEvent where
  | startRefused (error : String)
  /-- `Start` has found nothing running. -/
  | startBegins
  | startFailed (error : String)
  | startThrew
  | started
  | stopped
  | spawned (byMonitor : Bool) (child : Nat)
  /-- A health probe of `MonitorLoop` has succeeded. -/
  | healthy
  | limitExceeded
  deriving DecidableEq

inductive LlamaStep where
  /-- Whether the executable can be accessed, and the model is a file. -/
  | start (accessible regular : Bool)
  | stop
  | caller (answer : SystemAnswer)
  | monitor (answer : SystemAnswer)
  | childExits (pid : Nat)
  | reapedElsewhere (pid : Nat)

/-! ## `TerminateAndReap` -/

/-- `TerminateAndReap`. -/
def reapStep (children : List LlamaChild) (pid : Nat) (answer : SystemAnswer) :
    ReapPlace → List LlamaChild × Option ReapPlace
  | .terminate => (children, some (.loop false))
  | .loop leaderReaped =>
    if answer.late then (children, some (.kill leaderReaped))
    else if leaderReaped then (children, some (.group true))
    else
      match waitpid children pid answer.wait with
      | (.reaped, children) => (children, some (.group true))
      | (.running, children) | (.interrupted, children) => (children, some (.group false))
      | (.error errno, children) =>
        (children, some (if errno = ECHILD then .group true else .kill false))
  | .group leaderReaped => (children, if leaderReaped && answer.groupGone then none else some (.loop leaderReaped))
  | .kill leaderReaped => (children, if leaderReaped then none else some .wait)
  | .wait =>
    match answer.wait with
    | .interrupted => (children, some .wait)
    | _ =>
      match waitpid children pid .looks with
      | (.running, children) => (children, some .wait)
      | (_, children) => (children, none)

namespace LlamaServerProcess

/-! ## `SpawnAndWaitUntilReady` -/

variable (config : LlamaServerProcessConfig) (s : LlamaServerProcess)

/-- What `Start` says. -/
def startupError : StartupFailure → String
  | .cancelledEarly | .cancelled => "llama-server startup cancelled"
  | .exited => "llama-server exited before readiness"
  | .waitFailed errno => "failed while waiting for llama-server readiness: " ++ config.strerror errno
  | .timedOut => "llama-server readiness timed out"

def goesOn (s : LlamaServerProcess) (place : StartupPlace) : LlamaServerProcess × StartupNext := (s, .goesOn place)

/-- `posix_spawn`. -/
def spawnStep (answer : SystemAnswer) : LlamaServerProcess × StartupNext :=
  match answer.newPid s.children with
  | .error errno => (s, .fails ("failed to spawn llama-server: " ++ config.strerror errno))
  | .ok child => { s with children := { pid := child } :: s.children }.goesOn (.register child)

/-- The section that makes it the current child. -/
def registerStep (child : Nat) : LlamaServerProcess × StartupNext :=
  if s.stopping then s.goesOn (.reap child .cancelledEarly .terminate)
  else { s with pid := child, ready := false }.goesOn (.loop child)

def loopStep (child : Nat) (answer : SystemAnswer) : LlamaServerProcess × StartupNext :=
  if answer.late then s.goesOn (.reap child .timedOut .terminate)
  else if s.stopping then s.goesOn (.reap child .cancelled .terminate)
  else s.goesOn (.wait child)

/-- Has it exited already? -/
def waitStep (child : Nat) (answer : SystemAnswer) : LlamaServerProcess × StartupNext :=
  match waitpid s.children child answer.wait with
  | (.reaped, children) => { s with children }.goesOn (.reap child .exited .terminate)
  | (.error errno, children) =>
    if errno = ECHILD then { s with children }.goesOn (.forget child (.waitFailed errno))
    else { s with children }.goesOn (.reap child (.waitFailed errno) .terminate)
  | (.running, children) | (.interrupted, children) => { s with children }.goesOn (.probe child)

/-- Does it answer? -/
def probeStep (child : Nat) (answer : SystemAnswer) : LlamaServerProcess × StartupNext :=
  if answer.probe then { s with probed := some child }.goesOn (.mark child) else s.goesOn (.sleep child)

/-- It is ready, if it is still the current one. -/
def markStep (child : Nat) : LlamaServerProcess × StartupNext :=
  if s.pid = child && !s.stopping then ({ s with ready := true, lastError := "" }, .succeeds)
  else s.goesOn (.sleep child)

/-- It is the current one no more. -/
def forgetStep (child : Nat) (failure : StartupFailure) : LlamaServerProcess × StartupNext :=
  (if s.pid = child then { s with pid := 0, ready := if failure = .timedOut then false else s.ready } else s,
    .fails (startupError config failure))

def startupReapStep (child : Nat)
    (failure : StartupFailure) (place : ReapPlace) (answer : SystemAnswer) : LlamaServerProcess × StartupNext :=
  match reapStep s.children child answer place with
  | (children, some place) => { s with children }.goesOn (.reap child failure place)
  | (children, none) =>
    -- before the registration there is nothing to forget
    if failure = .cancelledEarly then ({ s with children }, .fails (startupError config failure))
    else { s with children }.goesOn (.forget child failure)

/-- `SpawnAndWaitUntilReady`. -/
def startupStep (answer : SystemAnswer) : StartupPlace → LlamaServerProcess × StartupNext
  | .spawn => s.spawnStep config answer
  | .register child => s.registerStep child
  | .loop child => s.loopStep child answer
  | .wait child => s.waitStep child answer
  | .probe child => s.probeStep child answer
  | .mark child => s.markStep child
  | .sleep child => s.goesOn (.loop child)
  | .reap child failure place => s.startupReapStep config child failure place answer
  | .forget child failure => s.forgetStep config child failure

def startupEvent (byMonitor : Bool) : StartupPlace → StartupNext → Option LlamaEvent
  | .spawn, .goesOn (.register child) => some (.spawned byMonitor child)
  | _, _ => none

/-! ## `Start` and `Stop` -/

def callerGoes (caller : CallerPlace) : LlamaServerProcess × Option LlamaEvent :=
  ({ s with caller }, none)

def callerReturns (event : LlamaEvent) : LlamaServerProcess × Option LlamaEvent :=
  ({ s with caller := .idle }, some event)

/-- `Start`, up to its section. -/
def beginStart (accessible regular : Bool) : LlamaServerProcess × Option LlamaEvent :=
  if !accessible then
    s.callerReturns (.startRefused ("llama-server executable is not accessible: " ++ config.executable))
  else if !regular then
    s.callerReturns (.startRefused ("llama-server model is not a regular file: " ++ config.modelPath))
  else s.callerGoes .startSection

/-- One child at a time. -/
def startSectionStep : LlamaServerProcess × Option LlamaEvent :=
  if 0 < s.pid || s.monitor ≠ .none then s.callerReturns (.startRefused "llama-server process is already started")
  else
    ({ s with
        stopping := false, ready := false, restartCount := 0, lastError := "", caller := .startup .spawn },
      some .startBegins)

def callerStartupStep (place : StartupPlace) (answer : SystemAnswer) : LlamaServerProcess × Option LlamaEvent :=
  let next := s.startupStep config answer place
  ({ next.1 with
      caller := match next.2 with
        | .goesOn place => .startup place
        | .succeeds => .launch
        | .fails error => .startFailed error },
    startupEvent false place next.2)

/-- The thread of `MonitorLoop`. -/
def launchStep (answer : SystemAnswer) : LlamaServerProcess × Option LlamaEvent :=
  if answer.launches then { s with monitor := .running .watch {} }.callerReturns .started
  else s.callerReturns .startThrew

/-- `Stop`. -/
def beginStop : LlamaServerProcess × Option LlamaEvent :=
  { s with stopping := true }.callerGoes .join

/-- `MonitorLoop` has ended. -/
def joinStep : LlamaServerProcess × Option LlamaEvent :=
  match s.monitor with
  | .running _ _ => (s, none)
  | .ended | .none => { s with monitor := .none }.callerGoes .take

/-- The child that is left. -/
def takeStep : LlamaServerProcess × Option LlamaEvent :=
  let s' := { s with pid := 0, ready := false }
  if 0 < s.pid then s'.callerGoes (.reap s.pid .terminate) else s'.callerReturns .stopped

def callerReapStep (pid : Nat) (place : ReapPlace) (answer : SystemAnswer) : LlamaServerProcess × Option LlamaEvent :=
  match reapStep s.children pid answer place with
  | (children, some place) => { s with children }.callerGoes (.reap pid place)
  | (children, none) => { s with children }.callerReturns .stopped

/-- `Start` or `Stop`. -/
def callerStep (answer : SystemAnswer) : LlamaServerProcess × Option LlamaEvent :=
  match s.caller with
  | .idle => (s, none)
  | .startSection => s.startSectionStep
  | .startup place => s.callerStartupStep config place answer
  | .startFailed error => { s with lastError := error }.callerReturns (.startFailed error)
  | .launch => s.launchStep answer
  | .join => s.joinStep
  | .take => s.takeStep
  | .reap pid place => s.callerReapStep pid place answer

/-! ## `MonitorLoop` -/

def monitorGoes (locals : MonitorLocals) (place : MonitorPlace) : LlamaServerProcess × Option LlamaEvent :=
  ({ s with monitor := .running place locals }, none)

def monitorEnds : LlamaServerProcess × Option LlamaEvent :=
  ({ s with monitor := .ended }, none)

/-- The limit. -/
def restartStep (locals : MonitorLocals) : LlamaServerProcess × Option LlamaEvent :=
  if config.restartLimit < locals.restartAttempts then
    ({ s with monitor := .ended, lastError := "llama-server restart limit exceeded" }, some .limitExceeded)
  else s.monitorGoes locals .restartWait

def restartWaitStep (locals : MonitorLocals) : LlamaServerProcess × Option LlamaEvent :=
  if s.stopping then s.monitorEnds else s.monitorGoes locals (.startup .spawn)

def monitorStartupStep (locals : MonitorLocals)
    (place : StartupPlace) (answer : SystemAnswer) : LlamaServerProcess × Option LlamaEvent :=
  let next := s.startupStep config answer place
  ({ next.1 with
      monitor := match next.2 with
        | .goesOn place => .running (.startup place) locals
        | .succeeds => .running .watch { locals with healthFailures := 0 }
        | .fails error => .running (.restartFailed error) locals },
    startupEvent true place next.2)

def restartFailedStep (locals : MonitorLocals) (error : String) : LlamaServerProcess × Option LlamaEvent :=
  if s.stopping then s.monitorEnds
  else
    { s with lastError := error }.monitorGoes { locals with restartAttempts := locals.restartAttempts + 1 } .restart

/-- The section of `MonitorLoop`. -/
def watchStep (locals : MonitorLocals) : LlamaServerProcess × Option LlamaEvent :=
  if s.stopping then s.monitorEnds
  else if s.pid = 0 then s.monitorGoes locals .watch
  else s.monitorGoes locals (.poll s.pid)

/-- `waitpid` of `MonitorLoop`. -/
def pollStep (locals : MonitorLocals) (child : Nat) (answer : SystemAnswer) : LlamaServerProcess × Option LlamaEvent :=
  match waitpid s.children child answer.wait with
  | (.running, children) =>
    { s with children }.monitorGoes locals (if answer.due then .probe child else .watch)
  | (.interrupted, children) => { s with children }.monitorGoes locals .watch
  | (.error errno, children) =>
    { s with children }.monitorGoes locals
      (if errno = ECHILD then .reap child .exited .terminate else .waitFailed errno)
  | (.reaped, children) => { s with children }.monitorGoes locals (.reap child .exited .terminate)

/-- The health check. -/
def monitorProbeStep (locals : MonitorLocals)
    (child : Nat) (answer : SystemAnswer) : LlamaServerProcess × Option LlamaEvent :=
  if answer.probe then ({ s with monitor := .running .watch {} }, some .healthy)
  else
    let locals := { locals with healthFailures := locals.healthFailures + 1 }
    s.monitorGoes locals
      (if locals.healthFailures < config.healthFailureThreshold then .watch else .reap child .unhealthy .terminate)

def monitorReapStep (locals : MonitorLocals) (child : Nat) (loss : Loss)
    (place : ReapPlace) (answer : SystemAnswer) : LlamaServerProcess × Option LlamaEvent :=
  match reapStep s.children child answer place with
  | (children, some place) => { s with children }.monitorGoes locals (.reap child loss place)
  | (children, none) => { s with children }.monitorGoes locals (.lost child loss)

def Loss.error : Loss → String
  | .unhealthy => "llama-server health check failed"
  | .exited => "llama-server exited unexpectedly"

/-- The child is given up. -/
def lostStep (locals : MonitorLocals) (child : Nat) (loss : Loss) : LlamaServerProcess × Option LlamaEvent :=
  let s := if s.pid = child then
      { s with pid := 0, ready := false, restartCount := s.restartCount + 1, lastError := Loss.error loss }
    else s
  s.monitorGoes { locals with restartAttempts := locals.restartAttempts + 1 } .restart

def monitorPlaceStep (locals : MonitorLocals)
    (answer : SystemAnswer) : MonitorPlace → LlamaServerProcess × Option LlamaEvent
  | .restart => s.restartStep config locals
  | .restartWait => s.restartWaitStep locals
  | .startup place => s.monitorStartupStep config locals place answer
  | .restartFailed error => s.restartFailedStep locals error
  | .watch => s.watchStep locals
  | .poll child => s.pollStep locals child answer
  | .probe child => s.monitorProbeStep config locals child answer
  | .reap child loss place => s.monitorReapStep locals child loss place answer
  | .lost child loss => s.lostStep locals child loss
  | .waitFailed errno =>
    { s with lastError := "failed to monitor llama-server: " ++ config.strerror errno }.monitorGoes locals .watch

/-- `MonitorLoop`. -/
def monitorStep (answer : SystemAnswer) : LlamaServerProcess × Option LlamaEvent :=
  match s.monitor with
  | .running place locals => s.monitorPlaceStep config locals answer place
  | .none | .ended => (s, none)

/-! ## The steps -/

/-- A child exits by itself, and somebody else in the process may reap it. -/
def step : LlamaStep → LlamaServerProcess × Option LlamaEvent
  | .start accessible regular =>
    if s.caller = .idle then s.beginStart config accessible regular else (s, none)
  | .stop => if s.caller = .idle then s.beginStop else (s, none)
  | .caller answer => s.callerStep config answer
  | .monitor answer => s.monitorStep config answer
  | .childExits pid =>
    ({ s with
        children := s.children.map fun child => if child.pid = pid then { child with exited := true } else child },
      none)
  | .reapedElsewhere pid =>
    ({ s with children := s.children.filter fun child => !(child.pid = pid && child.exited) }, none)

def after (steps : List LlamaStep) : LlamaServerProcess :=
  StepRun.run (step config) {} steps

end LlamaServerProcess

end Cockpit.Llm
