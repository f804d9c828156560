/-
  `ProcessManager`: one child process for each module, run modes, restarts within a budget. The fields that only
  `Status` and the crash reports read are left out.
-/
import Cockpit.Lib.ForEach
import Cockpit.Lib.StepRun
import Cockpit.Navigator.RunConfig

namespace Cockpit.Navigator

inductive ProcessState where
  | stopped
  | restarting
  | running
  | failed
  deriving DecidableEq

/-- A restart that `HandleExit` scheduled: the explicit calls on the module before it, and the time. -/
structure Scheduled where
  period : Nat
  atNs : Int

/-- The record of one module; the last fields are no part of the code. -/
structure ProcessRecord where
  state : ProcessState := .stopped
  pid : Nat := 0
  desired : Bool := false
  restartTimes : List Int := []
  restartPending : Bool := false
  restartAt : Int := 0
  /-- The calls of `StartModule` and `StopModule` for this module, those of `StartModule` alone, those of
  `Start`, and all restarts that were scheduled: no part of the code. -/
  explicitCalls : Nat := 0
  startCalls : Nat := 0
  starts : Nat := 0
  scheduled : List Scheduled := []

/-- `Validate` refuses equal ids, so the records are kept under their ids. `children` are those still to be
    waited for. -/
structure ProcessManager where
  config : RunConfig
  processes : ModuleId → ProcessRecord := fun _ => {}
  mode : String := ""
  criticalFailure : Bool := false
  /-- The children that no `waitpid` has collected yet, and the steady clock. -/
  children : List Nat := []
  clockNs : Int := 0

/-! ## What the system calls answer -/

/-- `pipe2`; `posix_spawn` with its error, or with a pid that a child still to be waited for cannot
have; if the child wrote `1` in time; and, if it did not, if `waitpid` collected it. -/
structure StartAnswers where
  pipe : Bool := true
  spawn : Except String Nat := .ok 1
  ready : Bool := true
  collected : Bool := true

/-- `waitpid(target, WNOHANG)`; `gone` is `ECHILD` when `kill` does not find the process either. -/
inductive PollAnswer where
  | alive
  | interrupted
  | reaped
  | gone
  | failed (error : String)

/-- The blocking `waitpid`, after all `EINTR`. -/
inductive WaitAnswer where
  | reaped
  | gone
  | failed (error : String)

/-- The stop failure injector; `kill(SIGTERM)`, where `none` is success or `ESRCH`; the polls up to the
deadline; `kill(SIGKILL)`; the blocking `waitpid`. -/
structure StopAnswers where
  injected : Bool := false
  sigterm : Option String := none
  polls : List PollAnswer := [.reaped]
  sigkill : Option String := none
  last : WaitAnswer := .reaped

/-- The answers in one `SwitchMode`, for each module, in its two loops and in the two of its rollback. -/
structure SwitchAnswers where
  stop : ModuleId → StopAnswers := fun _ => {}
  start : ModuleId → StartAnswers := fun _ => {}
  rollbackStop : ModuleId → StopAnswers := fun _ => {}
  rollbackStart : ModuleId → StartAnswers := fun _ => {}

/-- A child that `waitpid(-1)` collects, and the time since the clock was last read. -/
structure Exit where
  pid : Nat
  elapsedNs : Nat

/-- No new child gets the pid of one that is still to be waited for. -/
def freshPid (children : List Nat) (wish : Nat) : Nat :=
  if wish == 0 || children.contains wish then children.max?.getD 0 + 1 else wish

theorem freshPid_ne_zero (children : List Nat) (wish : Nat) : freshPid children wish ≠ 0 := by
  unfold freshPid
  split
  case isTrue => exact Nat.succ_ne_zero _
  case isFalse h =>
    intro hzero
    exact h (by rw [hzero]; rfl)

theorem freshPid_not_mem (children : List Nat) (wish : Nat) : freshPid children wish ∉ children := by
  unfold freshPid
  split
  case isTrue =>
    intro hmem
    have hle := List.le_max?_getD_of_mem (k := 0) hmem
    omega
  case isFalse h =>
    intro hmem
    exact h (by rw [List.contains_iff_mem.2 hmem, Bool.or_true])

/-- How the loop over `waitpid(WNOHANG)` ends. -/
inductive WaitEnd where
  | exited
  | deadline
  | failed (error : String)

/-- Poll until the child is gone, or the time is up. -/
def waitForExit : List PollAnswer → WaitEnd
  | [] => .deadline
  | .alive :: polls | .interrupted :: polls => waitForExit polls
  | .reaped :: _ | .gone :: _ => .exited
  | .failed error :: _ => .failed error

namespace ProcessManager

def create (config : RunConfig) : ProcessManager := { config := config }

variable (s : ProcessManager)

def set (m : ModuleId) (f : ProcessRecord → ProcessRecord) : ProcessManager :=
  { s with processes := Function.update s.processes m (f (s.processes m)) }

/-! ## `Start`, `StartModule`, `StopModule` -/

/-- Fork, and wait until the child is ready. -/
def start (a : StartAnswers) (s : ProcessManager) (m : ModuleId) : ProcessManager × Except String Unit :=
  let s := s.set m fun p => { p with starts := p.starts + 1 }
  if a.pipe then
    match a.spawn with
    | .error error =>
      (s.set m fun p => { p with state := .failed },
        .error ("failed to spawn module " ++ moduleName m ++ ": " ++ error))
    | .ok wish =>
      let pid := freshPid s.children wish
      if a.ready then
        ({ s.set m fun p => { p with pid := pid, state := .running } with
            children := pid :: s.children },
          .ok ())
      else
        ({ s.set m fun p => { p with pid := 0, state := .failed } with
            children := if a.collected then s.children else pid :: s.children },
          .error ("module " ++ moduleName m ++ " failed before ready"))
  else
    (s.set m fun p => { p with state := .failed },
      .error ("failed to create readiness pipe for " ++ moduleName m))

/-- `StartModule`. -/
def startModule (a : StartAnswers) (s : ProcessManager) (m : ModuleId) : ProcessManager × Except String Unit :=
  match s.config.findModule m with
  | none => (s, .error ("module is not configured: " ++ moduleName m))
  | some _ =>
    let s := s.set m fun p =>
      { p with explicitCalls := p.explicitCalls + 1, startCalls := p.startCalls + 1 }
    if (s.processes m).state = .running then
      (s.set m fun p => { p with desired := true }, .ok ())
    else
      start a (s.set m fun p =>
        { p with desired := true, restartPending := false, restartTimes := [] }) m

/-- Ask the child to end, then kill it. -/
def terminate (a : StopAnswers) (name : String) : Except String Unit :=
  match a.sigterm with
  | some error => .error ("failed to terminate module " ++ name ++ ": " ++ error)
  | none =>
    match waitForExit a.polls with
    | .exited => .ok ()
    | .failed error => .error ("failed while waiting for module " ++ name ++ ": " ++ error)
    | .deadline =>
      match a.sigkill with
      | some error => .error ("failed to kill module " ++ name ++ ": " ++ error)
      | none =>
        match a.last with
        | .failed error => .error ("module " ++ name ++ " termination state is unknown: " ++ error)
        | .reaped | .gone => .ok ()

/-- `StopModule`. -/
def stopModule (a : StopAnswers) (s : ProcessManager) (m : ModuleId) : ProcessManager × Except String Unit :=
  match s.config.findModule m with
  | none => (s, .error ("module is not configured: " ++ moduleName m))
  | some _ =>
    let s := s.set m fun p => { p with explicitCalls := p.explicitCalls + 1 }
    if a.injected then (s, .error ("injected stop failure for module " ++ moduleName m))
    else
      let s := s.set m fun p =>
        { p with desired := false, restartPending := false, restartTimes := [] }
      let pid := (s.processes m).pid
      if pid = 0 then (s.set m fun p => { p with state := .stopped }, .ok ())
      else
        match terminate a (moduleName m) with
        | .error error => (s, .error error)
        | .ok () =>
          ({ s.set m fun p => { p with pid := 0, state := .stopped } with
              children := s.children.erase pid },
            .ok ())

/-! ## `SwitchMode` -/

def desiredModules : List ModuleId :=
  s.config.ids.filter fun m => (s.processes m).desired

def isOk (result : ProcessManager × Except String Unit) : ProcessManager × Bool :=
  (result.1, match result.2 with | .ok () => true | .error _ => false)

def stopUnlessIn (answers : ModuleId → StopAnswers) (kept : List ModuleId) (s : ProcessManager)
    (m : ModuleId) : ProcessManager × Except String Unit :=
  if (s.processes m).desired && !kept.contains m then stopModule (answers m) s m else (s, .ok ())

def startIfMissing (answers : ModuleId → StartAnswers) (s : ProcessManager) (m : ModuleId) :
    ProcessManager × Except String Unit :=
  if !(s.processes m).desired || (s.processes m).state ≠ .running then startModule (answers m) s m
  else (s, .ok ())

/-- Stop what the previous mode did not have, and start what it had. -/
def restorePreviousMode (a : SwitchAnswers) (previous : List ModuleId) (s : ProcessManager) : ProcessManager × Bool :=
  let (s, stopped) := ForEach.tryAll (fun s m => isOk (stopUnlessIn a.rollbackStop previous s m))
    s.config.ids.reverse s
  let (s, started) := ForEach.tryAll (fun s m => isOk (startModule (a.rollbackStart m) s m)) previous s
  (s, stopped && started)

def stopOthers (a : SwitchAnswers) (modules : List ModuleId) (s : ProcessManager) :
    ProcessManager × Except String Unit :=
  ForEach.untilError (stopUnlessIn a.stop modules) s.config.ids.reverse s

def startMissing (a : SwitchAnswers) (modules : List ModuleId) (s : ProcessManager) :
    ProcessManager × Except String Unit :=
  ForEach.untilError (startIfMissing a.start) modules s

def rollback (a : SwitchAnswers) (previous : List ModuleId) (error : String) (s : ProcessManager) :
    ProcessManager × Except String Unit :=
  let (s, rollbackOk) := restorePreviousMode a previous s
  (s, .error (error ++ if rollbackOk then "" else "; rollback failed"))

/-- `SwitchMode`, with its rollback. -/
def switchMode (a : SwitchAnswers) (mode : RunMode) (s : ProcessManager) : ProcessManager × Except String Unit :=
  match s.config.findMode mode with
  | none => (s, .error ("unknown mode: " ++ runModeName mode))
  | some modules =>
    let previous := s.desiredModules
    match stopOthers a modules s with
    | (s, .error error) => rollback a previous error s
    | (s, .ok ()) =>
      match startMissing a modules s with
      | (s, .error error) => rollback a previous error s
      | (s, .ok ()) => ({ s with mode := runModeName mode, criticalFailure := false }, .ok ())

def switchModeNamed (a : SwitchAnswers) (mode : String) (s : ProcessManager) : ProcessManager × Except String Unit :=
  match parseRunMode mode with
  | none => (s, .error ("unknown mode: " ++ mode))
  | some parsed => switchMode a parsed s

/-! ## The other operations -/

def startModuleNamed (a : StartAnswers) (name : String) (s : ProcessManager) : ProcessManager × Except String Unit :=
  match parseModuleId name with
  | none => (s, .error ("unknown module: " ++ name))
  | some m => startModule a s m

def stopModuleNamed (a : StopAnswers) (name : String) (s : ProcessManager) : ProcessManager × Except String Unit :=
  match parseModuleId name with
  | none => (s, .error ("unknown module: " ++ name))
  | some m => stopModule a s m

def restartModule (stop : StopAnswers) (start : StartAnswers) (name : String) (s : ProcessManager) :
    ProcessManager × Except String Unit :=
  match stopModuleNamed stop name s with
  | (s, .error error) => (s, .error error)
  | (s, .ok ()) => startModuleNamed start name s

def stopAll (stop : ModuleId → StopAnswers) (s : ProcessManager) : ProcessManager :=
  let (s, _) := ForEach.tryAll (fun s m =>
    if (s.processes m).pid ≠ 0 || (s.processes m).desired || (s.processes m).restartPending then
      isOk (stopModule (stop m) s m)
    else (s, true)) s.config.ids.reverse s
  { s with mode := "", criticalFailure := false }

/-- Stop everything, and enter the mode again. -/
def reload (stop : ModuleId → StopAnswers) (a : SwitchAnswers) (s : ProcessManager) :
    ProcessManager × Except String Unit :=
  if s.mode = "" then (s, .error "runtime mode is not active")
  else switchModeNamed a s.mode (stopAll stop s)

/-! ## `ReapExited` -/

def markFailed (module : ModuleConfig) : ProcessManager :=
  { s.set module.id fun p => { p with state := .failed, restartPending := false } with
    criticalFailure := s.criticalFailure || module.critical }

def windowNs (config : RunConfig) : Int := config.restartWindowSeconds * 1000000000

def restartDelayNs (module : ModuleConfig) : Int := module.restartDelayMs * 1000000

/-- Restarts within the window. -/
def recentRestarts (config : RunConfig) (now : Int) (restartTimes : List Int) : List Int :=
  restartTimes.dropWhile fun t => windowNs config < now - t

/-- A desired module is restarted within its budget. -/
def handleExit (module : ModuleConfig) (now : Int) : ProcessManager :=
  let s := s.set module.id fun p => { p with pid := 0 }
  if (s.processes module.id).desired then
    let s := s.set module.id fun p =>
      { p with restartTimes := recentRestarts s.config now p.restartTimes }
    if module.restartLimit ≤ (s.processes module.id).restartTimes.length then markFailed s module
    else
      s.set module.id fun p =>
        { p with
          restartTimes := p.restartTimes ++ [now]
          state := .restarting
          restartPending := true
          restartAt := now + restartDelayNs module
          scheduled := p.scheduled ++ [{ period := p.explicitCalls, atNs := now }] }
  else s.set module.id fun p => { p with state := .stopped }

/-- One child that `waitpid` reports. -/
def collect (exit : Exit) : ProcessManager :=
  let s := { s with children := s.children.erase exit.pid, clockNs := s.clockNs + exit.elapsedNs }
  match s.config.modules.find? fun module => (s.processes module.id).pid = exit.pid with
  | none => s
  | some module => handleExit s module s.clockNs

def collectAll : List Exit → ProcessManager → ProcessManager
  | [], s => s
  | exit :: exits, s => if exit.pid = 0 then s else collectAll exits (s.collect exit)

/-- Its delay is over. -/
def restartIfDue (answers : ModuleId → StartAnswers) (now : Int) (s : ProcessManager)
    (module : ModuleConfig) : ProcessManager :=
  if (s.processes module.id).restartPending ∧ (s.processes module.id).restartAt ≤ now then
    match start (answers module.id) (s.set module.id fun p => { p with restartPending := false })
      module.id with
    | (s, .error _) => markFailed s module
    | (s, .ok ()) => s
  else s

def restartPending (answers : ModuleId → StartAnswers) (elapsedNs : Nat) (s : ProcessManager) : ProcessManager :=
  let s := { s with clockNs := s.clockNs + elapsedNs }
  s.config.modules.foldl (restartIfDue answers s.clockNs) s

/-- `ReapExited`. -/
def reapExited (exits : List Exit) (elapsedNs : Nat) (answers : ModuleId → StartAnswers)
    (s : ProcessManager) : ProcessManager :=
  restartPending answers elapsedNs (collectAll exits s)

/-! ## Runs -/

/-- A call of a public operation, with what the system calls answer in it. -/
inductive Operation where
  | switchMode (a : SwitchAnswers) (mode : RunMode)
  | switchModeNamed (a : SwitchAnswers) (mode : String)
  | startModule (a : StartAnswers) (name : String)
  | stopModule (a : StopAnswers) (name : String)
  | restartModule (stop : StopAnswers) (start : StartAnswers) (name : String)
  | reload (stop : ModuleId → StopAnswers) (a : SwitchAnswers)
  | reapExited (exits : List Exit) (elapsedNs : Nat) (answers : ModuleId → StartAnswers)
  | stopAll (stop : ModuleId → StopAnswers)

def step : Operation → ProcessManager × Except String Unit
  | .switchMode a mode => s.switchMode a mode
  | .switchModeNamed a mode => s.switchModeNamed a mode
  | .startModule a name => s.startModuleNamed a name
  | .stopModule a name => s.stopModuleNamed a name
  | .restartModule stop start name => s.restartModule stop start name
  | .reload stop a => s.reload stop a
  | .reapExited exits elapsedNs answers => (s.reapExited exits elapsedNs answers, .ok ())
  | .stopAll stop => (s.stopAll stop, .ok ())

/-- From the creation on. -/
def after (config : RunConfig) (operations : List Operation) : ProcessManager :=
  StepRun.run step (create config) operations

end ProcessManager

end Cockpit.Navigator
