/-
  The modules of the cockpit, its run modes, and the run configuration of Navigator.

  Library and socket paths and the timeouts are left out: no modelled function reads them.
-/
import Mathlib.Data.List.Nodup

namespace Cockpit.Navigator

/-! ## Names -/

inductive ModuleId where
  | unknown
  | transfer
  | vehicleDriver
  | audioDriver
  | cameraDriver
  | agent
  | hmi
  | carupload
  | recording
  | media
  | sentinel
  | bridge
  | upgrader
  | debugger
  | calibration
  | watchdog
  deriving DecidableEq

def kModuleNames : List (ModuleId × String) :=
  [(.transfer, "transfer"), (.vehicleDriver, "vehicle_driver"), (.audioDriver, "audio_driver"),
    (.cameraDriver, "camera_driver"), (.agent, "agent"), (.hmi, "hmi"), (.carupload, "carupload"),
    (.recording, "recording"), (.media, "media"), (.sentinel, "sentinel"), (.bridge, "bridge"),
    (.upgrader, "upgrader"), (.debugger, "debugger"), (.calibration, "calibration"),
    (.watchdog, "watchdog")]

/-- `ModuleName`. -/
def moduleName (module : ModuleId) : String :=
  ((kModuleNames.find? (·.1 = module)).map (·.2)).getD "unknown"

def parseModuleId (name : String) : Option ModuleId :=
  (kModuleNames.find? (·.2 = name)).map (·.1)

/-- The run modes. -/
inductive RunMode where
  | unknown
  | normal
  | development
  | ui
  | cloud
  | upgrade
  deriving DecidableEq

def kRunModeNames : List (RunMode × String) :=
  [(.normal, "normal"), (.development, "development"), (.ui, "ui"), (.cloud, "cloud"),
    (.upgrade, "upgrade")]

def runModeName (mode : RunMode) : String :=
  ((kRunModeNames.find? (·.1 = mode)).map (·.2)).getD "unknown"

def parseRunMode (name : String) : Option RunMode :=
  (kRunModeNames.find? (·.2 = name)).map (·.1)

/-! ## `RunConfig` -/

/-- How one module is run. -/
structure ModuleConfig where
  id : ModuleId
  critical : Bool := false
  restartLimit : Int := 3
  restartDelayMs : Int := 200

/-- The run configuration. -/
structure RunConfig where
  restartWindowSeconds : Int := 30
  modules : List ModuleConfig
  modes : RunMode → Option (List ModuleId)

namespace RunConfig

/-- `FindModule`. -/
def findModule (config : RunConfig) (id : ModuleId) : Option ModuleConfig :=
  config.modules.find? (·.id = id)

def findMode (config : RunConfig) (mode : RunMode) : Option (List ModuleId) := config.modes mode

def ids (config : RunConfig) : List ModuleId := config.modules.map (·.id)

/-- What `Validate` checks of the restart policies and the modes.  Navigator runs nothing else. -/
structure Validate (config : RunConfig) : Prop where
  window : 0 < config.restartWindowSeconds
  distinct : config.ids.Nodup
  restartLimit : ∀ module ∈ config.modules, 0 ≤ module.restartLimit
  restartDelay : ∀ module ∈ config.modules, 0 ≤ module.restartDelayMs
  configured : ∀ mode modules, config.findMode mode = some modules → ∀ m ∈ modules, m ∈ config.ids
  modeDistinct : ∀ mode modules, config.findMode mode = some modules → modules.Nodup

variable {config : RunConfig}

theorem Validate.module_eq (h : config.Validate) {module other : ModuleConfig}
    (hmodule : module ∈ config.modules) (hother : other ∈ config.modules)
    (hid : module.id = other.id) : module = other :=
  List.inj_on_of_nodup_map h.distinct hmodule hother hid

theorem mem_ids_of_findModule {m : ModuleId} {module : ModuleConfig}
    (h : config.findModule m = some module) : m ∈ config.ids := by
  have hid : module.id = m := by simpa using List.find?_some h
  rw [← hid]
  exact List.mem_map_of_mem (List.mem_of_find?_eq_some h)

/-- The default configuration. -/
def default : RunConfig where
  modules :=
    [{ id := .transfer, critical := true }, { id := .vehicleDriver, critical := true },
      { id := .audioDriver, critical := true }, { id := .cameraDriver, critical := true },
      { id := .agent, critical := true }, { id := .hmi }, { id := .carupload },
      { id := .recording }, { id := .media }, { id := .sentinel }, { id := .bridge },
      { id := .upgrader, critical := true }, { id := .debugger }, { id := .calibration },
      { id := .watchdog }]
  modes
    | .normal => some [.transfer, .vehicleDriver, .audioDriver, .cameraDriver, .agent, .recording,
        .sentinel]
    | .development => some [.transfer, .vehicleDriver, .audioDriver, .cameraDriver, .agent,
        .recording, .sentinel, .bridge]
    | .ui => some [.transfer, .vehicleDriver, .audioDriver, .cameraDriver, .agent, .media,
        .recording, .sentinel, .hmi]
    | .cloud => some [.transfer, .vehicleDriver, .carupload]
    | .upgrade => some [.upgrader]
    | .unknown => none

theorem default_validate : default.Validate where
  window := by decide
  distinct := by decide
  restartLimit := by decide
  restartDelay := by decide
  configured mode modules h := by
    cases mode <;> cases h <;> decide
  modeDistinct mode modules h := by
    cases mode <;> cases h <;> decide

end RunConfig

end Cockpit.Navigator
