/-
  What each part of the operations of `ProcessManager` can do, and the rule for invariants: what
  `StartModule`, `StopModule`, the exit of a child and a restart that is due keep, every run keeps.
-/
import Cockpit.Navigator.ProcessManager
import Mathlib.Data.Bool.Basic

namespace Cockpit.Navigator.ProcessManager

variable {s s' s'' : ProcessManager} {m n : ModuleId} {p q : ProcessRecord}
  {f g : ProcessRecord → ProcessRecord}

@[simp] theorem set_self : (s.set m f).processes m = f (s.processes m) := Function.update_self ..

@[simp] theorem set_set : (s.set m f).set m g = s.set m fun p => g (f p) := by simp [set]

@[simp] theorem set_config : (s.set m f).config = s.config := rfl
@[simp] theorem set_children : (s.set m f).children = s.children := rfl

/-- From `s` to `s'` only the record of `m` changes, to `p`; of children and `criticalFailure` nothing
is said. -/
structure Changed (s : ProcessManager) (m : ModuleId) (p : ProcessRecord) (s' : ProcessManager) :
    Prop where
  processes : s'.processes = Function.update s.processes m p
  config : s'.config = s.config
  mode : s'.mode = s.mode
  clockNs : s'.clockNs = s.clockNs

namespace Changed

theorem self (h : Changed s m p s') : s'.processes m = p := by
  rw [h.processes, Function.update_self]

theorem other (h : Changed s m p s') (hn : n ≠ m) : s'.processes n = s.processes n := by
  rw [h.processes, Function.update_of_ne hn]

theorem set (s : ProcessManager) (m : ModuleId) (f : ProcessRecord → ProcessRecord) :
    Changed s m (f (s.processes m)) (s.set m f) :=
  ⟨rfl, rfl, rfl, rfl⟩

theorem trans (h : Changed s m p s') (h' : Changed s' m q s'') : Changed s m q s'' where
  processes := by rw [h'.processes, h.processes, Function.update_idem]
  config := h'.config.trans h.config
  mode := h'.mode.trans h.mode
  clockNs := h'.clockNs.trans h.clockNs

end Changed

/-! ## What the operations do to a record -/

/-- A start has a new child, or fails and leaves the record failed. -/
theorem start_cases (a : StartAnswers) (h : (s.processes m).pid = 0) :
    (∃ pid, pid ≠ 0 ∧ pid ∉ s.children ∧ (start a s m).2 = .ok () ∧
      Changed s m
        { s.processes m with
          starts := (s.processes m).starts + 1, pid := pid, state := .running } (start a s m).1 ∧
      (start a s m).1.children = pid :: s.children) ∨
    (∃ error, (start a s m).2 = .error error ∧
      Changed s m
        { s.processes m with starts := (s.processes m).starts + 1, state := .failed }
        (start a s m).1 ∧
      s.children ⊆ (start a s m).1.children) := by
  unfold start
  simp only [set_set, set_children]
  split
  case isTrue =>
    split
    case h_1 => exact .inr ⟨_, rfl, ⟨rfl, rfl, rfl, rfl⟩, List.Subset.refl _⟩
    case h_2 wish _ =>
      split
      case isTrue =>
        exact .inl ⟨freshPid s.children wish, freshPid_ne_zero _ _, freshPid_not_mem _ _, rfl,
          ⟨rfl, rfl, rfl, rfl⟩, rfl⟩
      case isFalse =>
        have hsub : s.children ⊆
            if a.collected then s.children else freshPid s.children wish :: s.children := by
          split
          · exact List.Subset.refl _
          · exact List.subset_cons_self ..
        refine .inr ⟨_, rfl, ?_, hsub⟩
        rw [← h]
        exact ⟨rfl, rfl, rfl, rfl⟩
  case isFalse => exact .inr ⟨_, rfl, ⟨rfl, rfl, rfl, rfl⟩, List.Subset.refl _⟩

theorem start_criticalFailure (a : StartAnswers) : (start a s m).1.criticalFailure = s.criticalFailure := by
  unfold start
  split
  · split
    · rfl
    · split <;> rfl
  · rfl

/-- `StartModule`, with what it counts. -/
theorem startModule_cases (a : StartAnswers) (hpid : (s.processes m).state ≠ .running → (s.processes m).pid = 0) :
    (s.config.findModule m = none ∧ (startModule a s m).2 ≠ .ok () ∧ (startModule a s m).1 = s) ∨
    ((s.processes m).state = .running ∧ (startModule a s m).2 = .ok () ∧
      Changed s m
        { s.processes m with
          explicitCalls := (s.processes m).explicitCalls + 1
          startCalls := (s.processes m).startCalls + 1, desired := true }
        (startModule a s m).1 ∧
      (startModule a s m).1.children = s.children) ∨
    (m ∈ s.config.ids ∧ (s.processes m).state ≠ .running ∧ ∃ pid, pid ≠ 0 ∧ pid ∉ s.children ∧
      (startModule a s m).2 = .ok () ∧
      Changed s m
        { s.processes m with
          explicitCalls := (s.processes m).explicitCalls + 1
          startCalls := (s.processes m).startCalls + 1, desired := true
          restartPending := false, restartTimes := [], starts := (s.processes m).starts + 1
          pid := pid, state := .running }
        (startModule a s m).1 ∧
      (startModule a s m).1.children = pid :: s.children) ∨
    ((s.processes m).state ≠ .running ∧ (startModule a s m).2 ≠ .ok () ∧
      Changed s m
        { s.processes m with
          explicitCalls := (s.processes m).explicitCalls + 1
          startCalls := (s.processes m).startCalls + 1, desired := true
          restartPending := false, restartTimes := [], starts := (s.processes m).starts + 1
          state := .failed }
        (startModule a s m).1 ∧
      s.children ⊆ (startModule a s m).1.children) := by
  unfold startModule
  split
  case h_1 hfind => exact .inl ⟨hfind, nofun, rfl⟩
  case h_2 hfind =>
    have hm := RunConfig.mem_ids_of_findModule hfind
    simp only [set_self, set_set]
    split
    case isTrue hrunning => exact .inr (.inl ⟨hrunning, rfl, ⟨rfl, rfl, rfl, rfl⟩, rfl⟩)
    case isFalse hstate =>
      have hset := Changed.set s m fun p =>
        { p with
          explicitCalls := p.explicitCalls + 1, startCalls := p.startCalls + 1, desired := true
          restartPending := false, restartTimes := [] }
      rcases start_cases (m := m) a (by rw [hset.self]; exact hpid hstate) with
        ⟨pid, hne, hfresh, hok, hchanged, hchildren⟩ | ⟨error, hok, hchanged, hchildren⟩
      · rw [hset.self] at hchanged
        exact .inr (.inr (.inl ⟨hm, hstate, pid, hne, hfresh, hok, hset.trans hchanged, hchildren⟩))
      · rw [hset.self] at hchanged
        refine .inr (.inr (.inr ⟨hstate, ?_, hset.trans hchanged, hchildren⟩))
        rw [hok]
        nofun
/-- `StopModule`: the module is stopped, or it fails. -/
theorem stopModule_cases (a : StopAnswers) :
    (s.config.findModule m = none ∧ (stopModule a s m).2 ≠ .ok () ∧ (stopModule a s m).1 = s) ∨
    ((stopModule a s m).2 ≠ .ok () ∧
      Changed s m { s.processes m with explicitCalls := (s.processes m).explicitCalls + 1 }
        (stopModule a s m).1 ∧
      (stopModule a s m).1.children = s.children) ∨
    ((s.processes m).pid ≠ 0 ∧ (stopModule a s m).2 ≠ .ok () ∧
      Changed s m
        { s.processes m with
          explicitCalls := (s.processes m).explicitCalls + 1, desired := false
          restartPending := false, restartTimes := [] }
        (stopModule a s m).1 ∧
      (stopModule a s m).1.children = s.children) ∨
    ((stopModule a s m).2 = .ok () ∧
      Changed s m
        { s.processes m with
          explicitCalls := (s.processes m).explicitCalls + 1, desired := false
          restartPending := false, restartTimes := [], pid := 0, state := .stopped }
        (stopModule a s m).1 ∧
      ∀ c ∈ s.children, c ≠ (s.processes m).pid → c ∈ (stopModule a s m).1.children) := by
  unfold stopModule
  split
  case h_1 hfind => exact .inl ⟨hfind, nofun, rfl⟩
  case h_2 =>
    simp only [set_self, set_set, set_children]
    split
    case isTrue => exact .inr (.inl ⟨nofun, ⟨rfl, rfl, rfl, rfl⟩, rfl⟩)
    case isFalse =>
      split
      case isTrue hpid =>
        refine .inr (.inr (.inr ⟨rfl, ?_, fun c hc _ => hc⟩))
        rw [← hpid]
        exact ⟨rfl, rfl, rfl, rfl⟩
      case isFalse hpid =>
        split
        case h_1 => exact .inr (.inr (.inl ⟨hpid, nofun, ⟨rfl, rfl, rfl, rfl⟩, rfl⟩))
        case h_2 =>
          exact .inr (.inr (.inr ⟨rfl, ⟨rfl, rfl, rfl, rfl⟩,
            fun c hc hne => (List.mem_erase_of_ne hne).2 hc⟩))

theorem markFailed_changed (s : ProcessManager) (module : ModuleConfig) : Changed s module.id
      { s.processes module.id with state := .failed, restartPending := false }
      (markFailed s module) :=
  ⟨rfl, rfl, rfl, rfl⟩

/-- A module that was wanted is restarted or has failed. -/
theorem handleExit_cases (s : ProcessManager) (module : ModuleConfig) (now : Int) :
    ((s.processes module.id).desired = false ∧
      Changed s module.id { s.processes module.id with pid := 0, state := .stopped }
        (handleExit s module now)) ∨
    ((s.processes module.id).desired = true ∧
      module.restartLimit ≤
        (recentRestarts s.config now (s.processes module.id).restartTimes).length ∧
      Changed s module.id
        { s.processes module.id with
          pid := 0
          restartTimes := recentRestarts s.config now (s.processes module.id).restartTimes
          state := .failed, restartPending := false }
        (handleExit s module now) ∧
      (module.critical = true → (handleExit s module now).criticalFailure = true)) ∨
    ((s.processes module.id).desired = true ∧
      (recentRestarts s.config now (s.processes module.id).restartTimes).length <
        module.restartLimit ∧
      Changed s module.id
        { s.processes module.id with
          pid := 0
          restartTimes :=
            recentRestarts s.config now (s.processes module.id).restartTimes ++ [now]
          state := .restarting, restartPending := true, restartAt := now + restartDelayNs module
          scheduled := (s.processes module.id).scheduled ++
            [{ period := (s.processes module.id).explicitCalls, atNs := now }] }
        (handleExit s module now)) := by
  unfold handleExit
  simp only [set_self, set_set, set_config]
  split
  case isFalse hdesired =>
    exact .inl ⟨Bool.eq_false_of_not_eq_true hdesired, ⟨rfl, rfl, rfl, rfl⟩⟩
  case isTrue hdesired =>
    split
    case isTrue hlimit =>
      have hset := Changed.set s module.id fun p =>
        { p with pid := 0, restartTimes := recentRestarts s.config now p.restartTimes }
      have hfailed := markFailed_changed (s.set module.id fun p =>
        { p with pid := 0, restartTimes := recentRestarts s.config now p.restartTimes }) module
      rw [hset.self] at hfailed
      refine .inr (.inl ⟨hdesired, hlimit, hset.trans hfailed, fun hcritical => ?_⟩)
      show (s.criticalFailure || module.critical) = true
      rw [hcritical, Bool.or_true]
    case isFalse hlimit =>
      exact .inr (.inr ⟨hdesired, Int.not_le.1 hlimit, ⟨rfl, rfl, rfl, rfl⟩⟩)

theorem handleExit_children (s : ProcessManager) (module : ModuleConfig) (now : Int) :
    (handleExit s module now).children = s.children := by
  unfold handleExit
  simp only []
  split
  · split <;> rfl
  · rfl

theorem handleExit_criticalFailure {module : ModuleConfig} {now : Int}
    (h : s.criticalFailure = true) : (handleExit s module now).criticalFailure = true := by
  unfold handleExit
  simp only []
  split
  · split
    · show (s.criticalFailure || module.critical) = true
      rw [h, Bool.true_or]
    · exact h
  · exact h

/-- The child of a module, or of none. -/
theorem collect_cases (s : ProcessManager) (exit : Exit) :
    ((∀ module ∈ s.config.modules, (s.processes module.id).pid ≠ exit.pid) ∧
      s.collect exit =
        { s with
          children := s.children.erase exit.pid, clockNs := s.clockNs + exit.elapsedNs }) ∨
    (∃ module ∈ s.config.modules, (s.processes module.id).pid = exit.pid ∧
      s.collect exit = handleExit
        { s with children := s.children.erase exit.pid, clockNs := s.clockNs + exit.elapsedNs }
        module (s.clockNs + exit.elapsedNs)) := by
  unfold collect
  simp only []
  split
  case h_1 hfind =>
    refine .inl ⟨fun module hmodule => ?_, rfl⟩
    simpa using List.find?_eq_none.1 hfind module hmodule
  case h_2 module hfind =>
    exact .inr ⟨module, List.mem_of_find?_eq_some hfind, by simpa using List.find?_some hfind, rfl⟩

/-- A restart that is due is a start. -/
theorem restartIfDue_cases (answers : ModuleId → StartAnswers) (now : Int) (module : ModuleConfig)
    (hpid : (s.processes module.id).restartPending = true → (s.processes module.id).pid = 0) :
    restartIfDue answers now s module = s ∨
    ((s.processes module.id).restartPending = true ∧ ∃ pid, pid ≠ 0 ∧ pid ∉ s.children ∧
      Changed s module.id
        { s.processes module.id with
          restartPending := false, starts := (s.processes module.id).starts + 1, pid := pid
          state := .running }
        (restartIfDue answers now s module) ∧
      (restartIfDue answers now s module).children = pid :: s.children) ∨
    ((s.processes module.id).restartPending = true ∧
      Changed s module.id
        { s.processes module.id with
          restartPending := false, starts := (s.processes module.id).starts + 1
          state := .failed }
        (restartIfDue answers now s module) ∧
      s.children ⊆ (restartIfDue answers now s module).children) := by
  unfold restartIfDue
  split
  case isFalse => exact .inl rfl
  case isTrue hdue =>
    have hset := Changed.set s module.id fun p => { p with restartPending := false }
    rcases start_cases (m := module.id) (answers module.id) (by rw [hset.self]; exact hpid hdue.1)
      with ⟨pid, hne, hfresh, hok, hchanged, hchildren⟩ | ⟨error, hok, hchanged, hchildren⟩
    · rw [hset.self] at hchanged
      refine .inr (.inl ⟨hdue.1, pid, hne, hfresh, ?_⟩)
      split
      case h_1 heq => rw [heq] at hok; cases hok
      case h_2 heq =>
        rw [heq] at hchanged hchildren
        exact ⟨hset.trans hchanged, hchildren⟩
    · rw [hset.self] at hchanged
      refine .inr (.inr ⟨hdue.1, ?_⟩)
      split
      case h_1 s' error' heq =>
        rw [heq] at hchanged hchildren
        have hself : s'.processes module.id = _ := hchanged.self
        have hfailed := markFailed_changed s' module
        rw [hself] at hfailed
        exact ⟨hset.trans (hchanged.trans hfailed), hchildren⟩
      case h_2 heq => rw [heq] at hok; cases hok

theorem restartIfDue_criticalFailure {answers : ModuleId → StartAnswers} {now : Int}
    {module : ModuleConfig} (h : s.criticalFailure = true) :
    (restartIfDue answers now s module).criticalFailure = true := by
  unfold restartIfDue
  split
  · have hstart := start_criticalFailure (m := module.id)
      (s := s.set module.id fun p => { p with restartPending := false }) (answers module.id)
    split
    case h_1 heq =>
      rw [heq] at hstart
      show (_ || module.critical) = true
      rw [hstart]
      exact (congrArg (· || module.critical) h).trans (Bool.true_or _)
    case h_2 heq =>
      rw [heq] at hstart
      exact hstart.trans h
  · exact h

/-! ## What stays the same -/

theorem start_config (a : StartAnswers) : (start a s m).1.config = s.config := by
  unfold start
  split
  · split
    · rfl
    · split <;> rfl
  · rfl

theorem start_clockNs (a : StartAnswers) : (start a s m).1.clockNs = s.clockNs := by
  unfold start
  split
  · split
    · rfl
    · split <;> rfl
  · rfl

theorem restartIfDue_config (answers : ModuleId → StartAnswers) (now : Int) (module : ModuleConfig) :
    (restartIfDue answers now s module).config = s.config := by
  unfold restartIfDue
  split
  · have hconfig := start_config (m := module.id)
      (s := s.set module.id fun p => { p with restartPending := false }) (answers module.id)
    split
    case h_1 heq => rw [heq] at hconfig; exact hconfig
    case h_2 heq => rw [heq] at hconfig; exact hconfig
  · rfl

theorem restartIfDue_clockNs (answers : ModuleId → StartAnswers) (now : Int) (module : ModuleConfig) :
    (restartIfDue answers now s module).clockNs = s.clockNs := by
  unfold restartIfDue
  split
  · have hclock := start_clockNs (m := module.id)
      (s := s.set module.id fun p => { p with restartPending := false }) (answers module.id)
    split
    case h_1 heq => rw [heq] at hclock; exact hclock
    case h_2 heq => rw [heq] at hclock; exact hclock
  · rfl

/-! ## Invariants -/

/-- What the parts of `ReapExited` keep. -/
structure KeptByReaping (I : ProcessManager → Prop) : Prop where
  collect : ∀ s (exit : Exit), exit.pid ≠ 0 → I s → I (s.collect exit)
  restartIfDue : ∀ answers s, ∀ module ∈ s.config.modules, I s →
    I (restartIfDue answers s.clockNs s module)
  clock : ∀ s (elapsedNs : Nat), I s → I { s with clockNs := s.clockNs + elapsedNs }

/-- What the parts of every operation keep. -/
structure Kept (I : ProcessManager → Prop) : Prop extends KeptByReaping I where
  startModule : ∀ a s m, I s → I (startModule a s m).1
  stopModule : ∀ a s m, I s → I (stopModule a s m).1
  mode : ∀ s mode criticalFailure, I s →
    I { s with mode := mode, criticalFailure := criticalFailure }

namespace KeptByReaping

variable {I : ProcessManager → Prop} (hI : KeptByReaping I)
include hI

theorem collectAll (exits : List Exit) (h : I s) : I (collectAll exits s) := by
  induction exits generalizing s with
  | nil => exact h
  | cons exit exits ih =>
    unfold ProcessManager.collectAll
    split
    · exact h
    case isFalse hpid => exact ih (hI.collect s exit hpid h)

theorem restartPending (answers : ModuleId → StartAnswers) (elapsedNs : Nat) (h : I s) :
    I (s.restartPending answers elapsedNs) := by
  -- the loop reads the clock once, so all its steps are at the clock of the state before it
  have hloop : ∀ (modules : List ModuleConfig) (s : ProcessManager), modules ⊆ s.config.modules →
      I s → I (modules.foldl (ProcessManager.restartIfDue answers s.clockNs) s) := by
    intro modules
    induction modules with
    | nil => exact fun s _ hs => hs
    | cons module modules ih =>
      intro s hsub hs
      have hmodule : module ∈ s.config.modules := hsub List.mem_cons_self
      have hrest := ih (ProcessManager.restartIfDue answers s.clockNs s module)
        (by rw [restartIfDue_config]; exact fun x hx => hsub (List.mem_cons_of_mem _ hx))
        (hI.restartIfDue answers s module hmodule hs)
      rwa [restartIfDue_clockNs] at hrest
  exact hloop _ _ (List.Subset.refl _) (hI.clock s elapsedNs h)

theorem reapExited (exits : List Exit) (elapsedNs : Nat) (answers : ModuleId → StartAnswers)
    (h : I s) : I (s.reapExited exits elapsedNs answers) :=
  hI.restartPending answers elapsedNs (hI.collectAll exits h)

end KeptByReaping

namespace Kept

variable {I : ProcessManager → Prop} (hI : Kept I)
include hI

theorem stopUnlessIn (answers : ModuleId → StopAnswers) (kept : List ModuleId) (m : ModuleId)
    (h : I s) : I (stopUnlessIn answers kept s m).1 := by
  unfold ProcessManager.stopUnlessIn
  split
  · exact hI.stopModule _ s m h
  · exact h

variable (a : SwitchAnswers)

theorem stopOthers (modules : List ModuleId) (h : I s) : I (stopOthers a modules s).1 :=
  ForEach.untilError_invariant (fun _ m _ hs => hI.stopUnlessIn a.stop modules m hs) h

theorem startMissing (modules : List ModuleId) (h : I s) : I (startMissing a modules s).1 := by
  refine ForEach.untilError_invariant (fun s m _ hs => ?_) h
  unfold startIfMissing
  split
  · exact hI.startModule _ s m hs
  · exact hs

theorem restorePreviousMode (previous : List ModuleId) (h : I s) : I (restorePreviousMode a previous s).1 := by
  refine ForEach.tryAll_invariant (fun s m _ hs => hI.startModule _ s m hs) ?_
  refine ForEach.tryAll_invariant (fun s m _ hs => ?_) h
  exact hI.stopUnlessIn a.rollbackStop previous m hs

theorem switchMode (mode : RunMode) (h : I s) : I (switchMode a mode s).1 := by
  unfold ProcessManager.switchMode
  split
  case h_1 => exact h
  case h_2 modules _ =>
    have hstop := hI.stopOthers a modules h
    simp only []
    split
    case h_1 s' error heq =>
      rw [heq] at hstop
      exact hI.restorePreviousMode a _ hstop
    case h_2 s' heq =>
      rw [heq] at hstop
      have hstart := hI.startMissing a modules hstop
      split
      case h_1 s'' error heq' =>
        rw [heq'] at hstart
        exact hI.restorePreviousMode a _ hstart
      case h_2 s'' heq' =>
        rw [heq'] at hstart
        exact hI.mode _ _ _ hstart

theorem switchModeNamed (mode : String) (h : I s) : I (switchModeNamed a mode s).1 := by
  unfold ProcessManager.switchModeNamed
  split
  · exact h
  · exact hI.switchMode a _ h

theorem stopAll (stop : ModuleId → StopAnswers) (h : I s) : I (s.stopAll stop) := by
  refine hI.mode _ _ _ (ForEach.tryAll_invariant (fun s m _ hs => ?_) h)
  split
  · exact hI.stopModule _ s m hs
  · exact hs

theorem startModuleNamed (a : StartAnswers) (name : String) (h : I s) : I (startModuleNamed a name s).1 := by
  unfold ProcessManager.startModuleNamed
  split
  · exact h
  · exact hI.startModule a s _ h

theorem stopModuleNamed (a : StopAnswers) (name : String) (h : I s) : I (stopModuleNamed a name s).1 := by
  unfold ProcessManager.stopModuleNamed
  split
  · exact h
  · exact hI.stopModule a s _ h

theorem restartModule (stop : StopAnswers) (start : StartAnswers) (name : String) (h : I s) :
    I (restartModule stop start name s).1 := by
  have hstop := hI.stopModuleNamed stop name h
  unfold ProcessManager.restartModule
  split
  case h_1 heq => rwa [heq] at hstop
  case h_2 heq =>
    rw [heq] at hstop
    exact hI.startModuleNamed start name hstop

theorem reload (stop : ModuleId → StopAnswers) (a : SwitchAnswers) (h : I s) : I (s.reload stop a).1 := by
  unfold ProcessManager.reload
  split
  · exact h
  · exact hI.switchModeNamed a _ (hI.stopAll stop h)

/-- What the four parts keep, every operation keeps. -/
theorem step (s : ProcessManager) (operation : Operation) (h : I s) : I (s.step operation).1 := by
  cases operation with
  | switchMode a mode => exact hI.switchMode a mode h
  | switchModeNamed a mode => exact hI.switchModeNamed a mode h
  | startModule a name => exact hI.startModuleNamed a name h
  | stopModule a name => exact hI.stopModuleNamed a name h
  | restartModule stop start name => exact hI.restartModule stop start name h
  | reload stop a => exact hI.reload stop a h
  | reapExited exits elapsedNs answers => exact hI.reapExited exits elapsedNs answers h
  | stopAll stop => exact hI.stopAll stop h

/-- So it holds in every reachable state. -/
theorem after {config : RunConfig} (h : I (create config)) (operations : List Operation) :
    I (after config operations) :=
  StepRun.run_invariant hI.step h operations

end Kept

end Cockpit.Navigator.ProcessManager

