/-
  The supervisor of the llama server has one child at most; each loss of it is counted once, before the next
  poll or spawn; and between two probes that succeed `MonitorLoop` spawns `restart_limit` times at most.
-/
import Cockpit.Llm.LlamaServerProcess

namespace Cockpit.Llm

open StepRun List

/-! ## The law -/

namespace LlamaServerProcess

/-- No child is left, and none is known. -/
structure Nothing (s : LlamaServerProcess) : Prop where
  children : s.children = []
  pid : s.pid = 0
  ready : s.ready = false

variable (config : LlamaServerProcessConfig) (s : LlamaServerProcess)

/-- What the steps of a run show. -/
def events (steps : List LlamaStep) : List LlamaEvent :=
  (trace (step config) s steps).filterMap Prod.snd

/-- A spawn of `MonitorLoop`. -/
def isMonitorSpawn : LlamaEvent → Bool
  | .spawned byMonitor _ => byMonitor
  | _ => false

def isSpawn : LlamaEvent → Bool
  | .spawned _ _ => true
  | _ => false

/-- The child that `MonitorLoop` finds lost at a step: `waitpid` has reaped it or knows no such child, or behind this many
    failures another probe has failed and the threshold is reached. -/
def findsLost (failures : Nat) : LlamaStep → Option (Nat × Loss)
  | .monitor answer =>
    match s.monitor with
    | .running (.poll child) _ =>
      match (waitpid s.children child answer.wait).1 with
      | .reaped => some (child, .exited)
      | .error errno => if errno = ECHILD then some (child, .exited) else none
      | .running | .interrupted => none
    | .running (.probe child) _ =>
      if !answer.probe && decide (config.healthFailureThreshold ≤ failures + 1) then some (child, .unhealthy) else none
    | _ => none
  | _ => none

/-- How many probes of `MonitorLoop` have failed in a row since the child has come up. -/
def failuresAfter (failures : Nat) : LlamaStep → Nat
  | .monitor answer =>
    match s.monitor with
    | .running (.startup _) _ => 0
    | .running (.probe _) _ => if answer.probe then 0 else failures + 1
    | _ => failures
  | .caller _ =>
    match s.caller with
    | .launch => 0
    | _ => failures
  | _ => failures

/-- The probes that have failed in a row, and the losses since the last `Start`. -/
structure Seen where
  failures : Nat := 0
  losses : Nat := 0

/-- What the step adds to what was seen. -/
def Seen.after (seen : Seen) (s : LlamaServerProcess) (call : LlamaStep) : Seen where
  failures := s.failuresAfter seen.failures call
  losses :=
    match (step config s call).2 with
    | some .startBegins => 0
    | _ => seen.losses + (findsLost config s seen.failures call).toList.length

/-- What is seen along the steps, from the start. -/
def seen (steps : List LlamaStep) : Seen :=
  (steps.foldl (fun now call => ((step config now.1 call).1, now.2.after config now.1 call))
    (({} : LlamaServerProcess), ({} : Seen))).2

/-- `MonitorLoop` is between finding the child lost and counting it. -/
def GivesUp (child : Nat) (loss : Loss) : Prop :=
  ∃ locals, s.monitor = .running (.lost child loss) locals ∨ ∃ place, s.monitor = .running (.reap child loss place) locals

/-- The child that is being given up is not counted yet. -/
def uncounted : MonitorThread → Nat
  | .running (.reap _ _ _) _ | .running (.lost _ _) _ => 1
  | _ => 0

/-- `MonitorLoop` polls a child, or one of the threads spawns one. -/
def pollsOrSpawns : LlamaStep → Prop
  | .monitor _ => ∃ locals, s.monitor = .running (.startup .spawn) locals ∨ ∃ child, s.monitor = .running (.poll child) locals
  | .caller _ => s.caller = .startup .spawn
  | _ => False

/-- What holds of the supervisor along the steps. -/
structure OneChild (config : LlamaServerProcessConfig) (steps : List LlamaStep) : Prop where
  one : (after config steps).children.length ≤ 1
  stopped : ∀ before call rest, steps = before ++ call :: rest →
    (step config (after config before) call).2 = some .stopped → Nothing (step config (after config before) call).1
  failed : ∀ before call rest error, steps = before ++ call :: rest →
    (step config (after config before) call).2 = some (.startFailed error) →
    Nothing (step config (after config before) call).1
  ready : (after config steps).ready = true →
    (after config steps).pid ≠ 0 ∧ (after config steps).probed = some (after config steps).pid
  /-- Between two probes of one `MonitorLoop` that succeed. -/
  restarts : ∀ before window rest, steps = before ++ window ++ rest →
    .healthy ∉ events config (after config before) window → .started ∉ events config (after config before) window →
    ((events config (after config before) window).countP isMonitorSpawn : Int) ≤ max config.restartLimit 0
  exceeded : ∀ before call window rest, steps = before ++ call :: window ++ rest →
    (step config (after config before) call).2 = some .limitExceeded →
    .startBegins ∉ events config (after config (before ++ [call])) window →
    (events config (after config (before ++ [call])) window).countP isSpawn = 0
  /-- The restarts since `Start`, and the one of a child that is being given up, are the losses that were found. -/
  counted : (after config steps).restartCount + uncounted (after config steps).monitor = (seen config steps).losses
  /-- A child that is found lost was the ready one of `pid_`. -/
  found : ∀ before call rest child loss, steps = before ++ call :: rest →
    findsLost config (after config before) (seen config before).failures call = some (child, loss) →
    (after config before).ready = true ∧ (after config before).pid = child ∧
      GivesUp (after config (before ++ [call])) child loss
  /-- It is counted, once, before the next poll or spawn, and then it is gone. -/
  lost : ∀ before call middle next rest child loss, steps = before ++ call :: (middle ++ next :: rest) →
    findsLost config (after config before) (seen config before).failures call = some (child, loss) →
    pollsOrSpawns (after config (before ++ call :: middle)) next →
    ∃ first counting second, middle = first ++ counting :: second ∧
      (after config (before ++ call :: first)).restartCount = (after config before).restartCount ∧
      (after config (before ++ call :: (first ++ [counting]))).restartCount = (after config before).restartCount + 1 ∧
      (after config (before ++ call :: (first ++ [counting]))).lastError = Loss.error loss ∧
      Nothing (after config (before ++ call :: (first ++ [counting])))

end LlamaServerProcess

/-! ## The children -/

/-- This child, or none. -/
def Only (children : List LlamaChild) (pid : Nat) : Prop :=
  children = [] ∨ ∃ exited, children = [{ pid, exited }]

variable {children children' : List LlamaChild} {pid : Nat}

theorem Only.length_le (h : Only children pid) : children.length ≤ 1 := by
  rcases h with rfl | ⟨exited, rfl⟩
  · exact Nat.zero_le 1
  · exact Nat.le_refl 1

theorem waitpid_only (h : Only children pid) (answer : WaitAnswer) :
    Only (waitpid children pid answer).2 pid ∧
      ((waitpid children pid answer).1 = .reaped ∨ (waitpid children pid answer).1 = .error ECHILD →
        (waitpid children pid answer).2 = []) := by
  cases answer with
  | interrupted => exact ⟨h, nofun⟩
  | fails errno =>
    refine ⟨h, ?_⟩
    simp only [waitpid]
    split
    · nofun
    · rename_i herrno
      rintro (hresult | hresult)
      · cases hresult
      · cases hresult
        exact absurd rfl herrno
  | looks =>
    rcases h with rfl | ⟨exited, rfl⟩
    · exact ⟨.inl rfl, fun _ => rfl⟩
    · cases exited with
      | true | false => simp [waitpid, Only]

theorem waitpid_looks (children : List LlamaChild) (pid : Nat) :
    (waitpid children pid .looks).1 = .running ∨ (waitpid children pid .looks).1 = .reaped ∨
      (waitpid children pid .looks).1 = .error ECHILD := by
  simp only [waitpid]
  split
  · exact .inr (.inr rfl)
  · split
    · exact .inr (.inl rfl)
    · exact .inl rfl

namespace ReapPlace

@[simp] def leaderReaped : ReapPlace → Bool
  | loop leaderReaped | group leaderReaped | kill leaderReaped => leaderReaped
  | terminate | wait => false

end ReapPlace

/-- Once the leader is reaped there is none. -/
def Reaps (children : List LlamaChild) (pid : Nat) : Option ReapPlace → Prop
  | some place => Only children pid ∧ (place.leaderReaped = true → children = [])
  | none => children = []

theorem reapStep_reaps (h : Only children pid) {place : ReapPlace} (hreaped : place.leaderReaped = true → children = [])
    (answer : SystemAnswer) :
    Reaps (reapStep children pid answer place).1 pid (reapStep children pid answer place).2 := by
  cases place with
  | terminate => exact ⟨h, nofun⟩
  | loop leaderReaped =>
    simp only [reapStep]
    split
    · exact ⟨h, hreaped⟩
    split
    · rename_i hleader
      exact ⟨h, fun _ => hreaped hleader⟩
    · obtain ⟨honly, hgone⟩ := waitpid_only h answer.wait
      split
      · rename_i hwait
        rw [hwait] at honly hgone
        exact ⟨honly, fun _ => hgone (.inl rfl)⟩
      · rename_i hwait
        rw [hwait] at honly
        exact ⟨honly, nofun⟩
      · rename_i hwait
        rw [hwait] at honly
        exact ⟨honly, nofun⟩
      · rename_i errno children' hwait
        rw [hwait] at honly hgone
        refine ⟨honly, ?_⟩
        split
        · rename_i herrno
          exact fun _ => hgone (.inr (by rw [herrno]))
        · nofun
  | group leaderReaped =>
    simp only [reapStep]
    split
    · rename_i hboth
      rw [Bool.and_eq_true] at hboth
      exact hreaped hboth.1
    · exact ⟨h, hreaped⟩
  | kill leaderReaped =>
    simp only [reapStep]
    split
    · rename_i hleader
      exact hreaped hleader
    · exact ⟨h, nofun⟩
  | wait =>
    obtain ⟨honly, hgone⟩ := waitpid_only h .looks
    simp only [reapStep]
    split
    · exact ⟨h, nofun⟩
    · split
      · rename_i hwait
        rw [hwait] at honly
        exact ⟨honly, nofun⟩
      · rename_i result children' hrunning hwait
        have hresult := waitpid_looks children pid
        rw [hwait] at hgone hresult
        rcases hresult with hresult | hresult
        · exact absurd hresult hrunning
        · exact hgone hresult

/-! ## Who has the child -/

namespace LlamaServerProcess

variable {config : LlamaServerProcessConfig} {s s' : LlamaServerProcess}

/-- The child is the one of `pid_`, and ready. -/
structure Runs (s : LlamaServerProcess) : Prop where
  children : Only s.children s.pid
  pid : s.pid ≠ 0
  ready : s.ready = true
  probed : s.probed = some s.pid

/-- The child is that of a startup, with this in `pid_`. -/
structure Starts (s : LlamaServerProcess) (child pid : Nat) : Prop where
  children : Only s.children child
  child : child ≠ 0
  pid : s.pid = pid
  ready : s.ready = false

/-- Who starts a child has it. -/
def StartupOwns (s : LlamaServerProcess) : StartupPlace → Prop
  | .spawn => Nothing s
  | .register child => Starts s child 0
  | .loop child | .wait child | .probe child | .sleep child => Starts s child child
  | .mark child => Starts s child child ∧ s.probed = some child
  | .reap child failure place =>
    Starts s child (if failure = .cancelledEarly then 0 else child) ∧ (place.leaderReaped = true → s.children = [])
  | .forget child _ => Starts s child child ∧ s.children = []

/-- Each exit of the startup leaves nothing, or a child that is ready. -/
def NextOwns (s : LlamaServerProcess) : StartupNext → Prop
  | .goesOn place => StartupOwns s place
  | .succeeds => Runs s
  | .fails _ => Nothing s

/-- Who reaps a child has it. -/
def MonitorPlaceOwns (s : LlamaServerProcess) : MonitorPlace → Prop
  | .restart | .restartWait | .restartFailed _ => Nothing s
  | .startup place => StartupOwns s place
  | .watch | .waitFailed _ => Runs s
  | .poll child | .probe child => Runs s ∧ s.pid = child
  | .reap child _ place => Runs s ∧ s.pid = child ∧ (place.leaderReaped = true → s.children = [])
  | .lost child _ => Runs s ∧ s.pid = child ∧ s.children = []

/-- Else it is that of `pid_`. -/
def MonitorOwns (s : LlamaServerProcess) : MonitorThread → Prop
  | .running place _ => MonitorPlaceOwns s place
  | .none | .ended => Nothing s ∨ Runs s

/-- While the caller has a child, there is no `MonitorLoop`. -/
def CallerOwns (s : LlamaServerProcess) : CallerPlace → Prop
  | .idle | .startSection | .join => MonitorOwns s s.monitor
  | .startup place => s.monitor = .none ∧ StartupOwns s place
  | .startFailed _ => s.monitor = .none ∧ Nothing s
  | .launch => s.monitor = .none ∧ Runs s
  | .take => s.monitor = .none ∧ (Nothing s ∨ Runs s)
  | .reap child place =>
    s.monitor = .none ∧ Starts s child 0 ∧ (place.leaderReaped = true → s.children = [])

/-- Whoever has the child says so by where it is. -/
def Owns (s : LlamaServerProcess) : Prop := CallerOwns s s.caller

/-- Children exit, and are reaped. -/
structure Shrinks (children children' : List LlamaChild) : Prop where
  only : ∀ pid, Only children pid → Only children' pid
  nil : children = [] → children' = []

theorem Shrinks.refl (children : List LlamaChild) : Shrinks children children := ⟨fun _ => id, id⟩

theorem exits_shrinks (children : List LlamaChild) (pid : Nat) :
    Shrinks children (children.map fun child => if child.pid = pid then { child with exited := true } else child) := by
  constructor
  case only =>
    rintro other (rfl | ⟨exited, rfl⟩)
    · exact .inl rfl
    · by_cases hpid : other = pid
      · exact .inr ⟨true, by simp [hpid]⟩
      · exact .inr ⟨exited, by simp [hpid]⟩
  case nil =>
    rintro rfl
    rfl

theorem reapedElsewhere_shrinks (children : List LlamaChild) (pid : Nat) :
    Shrinks children (children.filter fun child => !(child.pid = pid && child.exited)) := by
  constructor
  case only =>
    rintro other (rfl | ⟨exited, rfl⟩)
    · exact .inl rfl
    · cases hgone : !(decide (other = pid) && exited) with
      | true => exact .inr ⟨exited, by simp only [filter_cons, hgone, if_true, filter_nil]⟩
      | false => exact .inl (by simp only [filter_cons, hgone, Bool.false_eq_true, if_false, filter_nil])
  case nil =>
    rintro rfl
    rfl

/-- A step that has nothing to do with the child. -/
structure KeepsChild (s s' : LlamaServerProcess) : Prop where
  children : Shrinks s.children s'.children
  pid : s'.pid = s.pid
  ready : s'.ready = s.ready
  probed : s'.probed = s.probed

theorem Nothing.congr (h : Nothing s) (hkeeps : KeepsChild s s') : Nothing s' :=
  ⟨hkeeps.children.nil h.children, hkeeps.pid.trans h.pid, hkeeps.ready.trans h.ready⟩

theorem Runs.congr (h : Runs s) (hkeeps : KeepsChild s s') : Runs s' := by
  constructor
  case children => rw [hkeeps.pid]; exact hkeeps.children.only _ h.children
  case pid => rw [hkeeps.pid]; exact h.pid
  case ready => rw [hkeeps.ready]; exact h.ready
  case probed => rw [hkeeps.probed, hkeeps.pid]; exact h.probed

theorem Starts.congr {child pid : Nat} (h : Starts s child pid)
    (hkeeps : KeepsChild s s') : Starts s' child pid :=
  ⟨hkeeps.children.only _ h.children, h.child, hkeeps.pid.trans h.pid, hkeeps.ready.trans h.ready⟩

theorem StartupOwns.congr {place : StartupPlace} (h : StartupOwns s place)
    (hkeeps : KeepsChild s s') : StartupOwns s' place := by
  cases place with
  | spawn => exact Nothing.congr h hkeeps
  | register child | loop child | wait child | probe child | sleep child => exact Starts.congr h hkeeps
  | mark child => exact ⟨h.1.congr hkeeps, hkeeps.probed.trans h.2⟩
  | reap child failure place => exact ⟨h.1.congr hkeeps, fun hreaped => hkeeps.children.nil (h.2 hreaped)⟩
  | forget child failure => exact ⟨h.1.congr hkeeps, hkeeps.children.nil h.2⟩

theorem MonitorOwns.congr {monitor : MonitorThread} (h : MonitorOwns s monitor)
    (hkeeps : KeepsChild s s') : MonitorOwns s' monitor := by
  cases monitor with
  | none | ended => exact h.imp (fun h => Nothing.congr h hkeeps) (fun h => Runs.congr h hkeeps)
  | running place locals =>
    cases place with
    | restart | restartWait | restartFailed => exact Nothing.congr h hkeeps
    | startup place => exact StartupOwns.congr h hkeeps
    | watch | waitFailed => exact Runs.congr h hkeeps
    | poll child | probe child => exact ⟨h.1.congr hkeeps, hkeeps.pid.trans h.2⟩
    | reap child loss place =>
      exact ⟨h.1.congr hkeeps, hkeeps.pid.trans h.2.1, fun hreaped => hkeeps.children.nil (h.2.2 hreaped)⟩
    | lost child loss => exact ⟨h.1.congr hkeeps, hkeeps.pid.trans h.2.1, hkeeps.children.nil h.2.2⟩

/-! ## The startup -/

/-- What a step of the startup leaves alone; and it spawns no second child. -/
structure SameThreads (s : LlamaServerProcess) (next : LlamaServerProcess × StartupNext) : Prop where
  caller : next.1.caller = s.caller
  monitor : next.1.monitor = s.monitor
  restartCount : next.1.restartCount = s.restartCount
  spawned : next.2 ≠ .goesOn .spawn

theorem newPid_ok {answer : SystemAnswer} {children : List LlamaChild} {child : Nat}
    (h : answer.newPid children = .ok child) : child ≠ 0 := by
  unfold SystemAnswer.newPid at h
  split at h
  · cases h
  · split at h
    · cases h
    · rename_i hfree
      cases h
      simp only [Bool.or_eq_true, decide_eq_true_eq, not_or] at hfree
      exact hfree.1

theorem spawnStep_owns (h : Nothing s) (answer : SystemAnswer) :
    NextOwns (s.spawnStep config answer).1 (s.spawnStep config answer).2 := by
  unfold spawnStep
  split
  · exact h
  · rename_i child hchild
    refine ⟨.inr ⟨false, ?_⟩, newPid_ok hchild, h.pid, h.ready⟩
    show { pid := child } :: s.children = _
    rw [h.children]

theorem registerStep_owns {child : Nat} (h : Starts s child 0) :
    NextOwns (s.registerStep child).1 (s.registerStep child).2 := by
  unfold registerStep
  split
  · exact ⟨h, nofun⟩
  · exact ⟨h.children, h.child, rfl, rfl⟩

theorem loopStep_owns {child : Nat} (h : Starts s child child) (answer : SystemAnswer) :
    NextOwns (s.loopStep child answer).1 (s.loopStep child answer).2 := by
  unfold loopStep
  split
  · exact ⟨h, nofun⟩
  split
  · exact ⟨h, nofun⟩
  · exact h

theorem waitStep_owns {child : Nat} (h : Starts s child child) (answer : SystemAnswer) :
    NextOwns (s.waitStep child answer).1 (s.waitStep child answer).2 := by
  obtain ⟨honly, hgone⟩ := waitpid_only h.children answer.wait
  unfold waitStep
  split
  · rename_i hwait
    rw [hwait] at honly hgone
    exact ⟨⟨honly, h.child, h.pid, h.ready⟩, nofun⟩
  · rename_i errno children hwait
    rw [hwait] at honly hgone
    split
    · rename_i herrno
      exact ⟨⟨honly, h.child, h.pid, h.ready⟩, hgone (.inr (by rw [herrno]))⟩
    · exact ⟨⟨honly, h.child, h.pid, h.ready⟩, nofun⟩
  · rename_i hwait
    rw [hwait] at honly
    exact ⟨honly, h.child, h.pid, h.ready⟩
  · rename_i hwait
    rw [hwait] at honly
    exact ⟨honly, h.child, h.pid, h.ready⟩

theorem probeStep_owns {child : Nat} (h : Starts s child child) (answer : SystemAnswer) :
    NextOwns (s.probeStep child answer).1 (s.probeStep child answer).2 := by
  unfold probeStep
  split
  · exact ⟨⟨h.children, h.child, h.pid, h.ready⟩, rfl⟩
  · exact h

/-- The child is ready, and it is that of `pid_`. -/
theorem markStep_owns {child : Nat} (h : Starts s child child) (hprobed : s.probed = some child) :
    NextOwns (s.markStep child).1 (s.markStep child).2 := by
  unfold markStep
  split
  · refine ⟨?_, ?_, rfl, ?_⟩
    · show Only s.children s.pid
      rw [h.pid]
      exact h.children
    · show s.pid ≠ 0
      rw [h.pid]
      exact h.child
    · show s.probed = some s.pid
      rw [h.pid]
      exact hprobed
  · exact h

/-- A startup that fails leaves nothing. -/
theorem forgetStep_owns {child : Nat} (h : Starts s child child) (hgone : s.children = [])
    (failure : StartupFailure) :
    NextOwns (s.forgetStep config child failure).1 (s.forgetStep config child failure).2 := by
  unfold forgetStep
  rw [if_pos h.pid]
  refine ⟨hgone, rfl, ?_⟩
  show (if failure = .timedOut then false else s.ready) = false
  rw [h.ready, ite_self]

theorem startupReapStep_owns {child : Nat} {failure : StartupFailure} {place : ReapPlace}
    (h : Starts s child (if failure = .cancelledEarly then 0 else child))
    (hreaped : place.leaderReaped = true → s.children = []) (answer : SystemAnswer) :
    NextOwns (s.startupReapStep config child failure place answer).1
      (s.startupReapStep config child failure place answer).2 := by
  have hreaps := reapStep_reaps h.children hreaped answer
  unfold startupReapStep
  split
  · rename_i hstep
    rw [hstep] at hreaps
    exact ⟨⟨hreaps.1, h.child, h.pid, h.ready⟩, hreaps.2⟩
  · rename_i children hstep
    rw [hstep] at hreaps
    have hgone : children = [] := hreaps
    have hpid := h.pid
    split <;> rename_i hfailure
    · rw [if_pos hfailure] at hpid
      exact ⟨hgone, hpid, h.ready⟩
    · rw [if_neg hfailure] at hpid
      exact ⟨⟨.inl hgone, h.child, hpid, h.ready⟩, hgone⟩

/-- **The startup leaves a child that is ready, or nothing.** -/
theorem startupStep_owns {place : StartupPlace} (h : StartupOwns s place) (answer : SystemAnswer) :
    NextOwns (s.startupStep config answer place).1 (s.startupStep config answer place).2 := by
  cases place with
  | spawn => exact spawnStep_owns h answer
  | register child => exact registerStep_owns h
  | loop child => exact loopStep_owns h answer
  | wait child => exact waitStep_owns h answer
  | probe child => exact probeStep_owns h answer
  | mark child => exact markStep_owns h.1 h.2
  | sleep child => exact h
  | reap child failure place => exact startupReapStep_owns h.1 h.2 answer
  | forget child failure => exact forgetStep_owns h.1 h.2 failure

theorem startupStep_same (config : LlamaServerProcessConfig) (s : LlamaServerProcess) (answer : SystemAnswer)
    (place : StartupPlace) : SameThreads s (s.startupStep config answer place) := by
  cases place with
  | spawn => simp only [startupStep, spawnStep]; split <;> exact ⟨rfl, rfl, rfl, nofun⟩
  | register child => simp only [startupStep, registerStep]; split <;> exact ⟨rfl, rfl, rfl, nofun⟩
  | loop child =>
    simp only [startupStep, loopStep]
    split
    · exact ⟨rfl, rfl, rfl, nofun⟩
    · split <;> exact ⟨rfl, rfl, rfl, nofun⟩
  | wait child =>
    simp only [startupStep, waitStep]
    split
    · exact ⟨rfl, rfl, rfl, nofun⟩
    · split <;> exact ⟨rfl, rfl, rfl, nofun⟩
    · exact ⟨rfl, rfl, rfl, nofun⟩
    · exact ⟨rfl, rfl, rfl, nofun⟩
  | probe child => simp only [startupStep, probeStep]; split <;> exact ⟨rfl, rfl, rfl, nofun⟩
  | mark child => simp only [startupStep, markStep]; split <;> exact ⟨rfl, rfl, rfl, nofun⟩
  | sleep child => exact ⟨rfl, rfl, rfl, nofun⟩
  | reap child failure place =>
    simp only [startupStep, startupReapStep]
    split
    · exact ⟨rfl, rfl, rfl, nofun⟩
    · split <;> exact ⟨rfl, rfl, rfl, nofun⟩
  | forget child failure => simp only [startupStep, forgetStep]; split <;> exact ⟨rfl, rfl, rfl, nofun⟩

/-! ## `Start` and `Stop` -/

/-- The event says that there is no child. -/
def endsChild : LlamaEvent → Bool
  | .stopped | .startFailed _ => true
  | _ => false

/-- The child is left with who has it, and where the event says so there is none. -/
structure Leaves (next : LlamaServerProcess × Option LlamaEvent) : Prop where
  owns : Owns next.1
  nothing : ∀ event ∈ next.2, endsChild event = true → Nothing next.1

theorem startSectionStep_leaves (h : MonitorOwns s s.monitor) : Leaves s.startSectionStep := by
  unfold startSectionStep
  split
  · exact ⟨MonitorOwns.congr h ⟨.refl _, rfl, rfl, rfl⟩, by rintro _ ⟨⟩ ⟨⟩⟩
  · rename_i hfree
    simp only [Bool.or_eq_true, decide_eq_true_eq, not_or, Decidable.not_not] at hfree
    refine ⟨⟨hfree.2, ?_⟩, by rintro _ ⟨⟩ ⟨⟩⟩
    rw [hfree.2] at h
    rcases h with h | h
    · exact ⟨h.children, h.pid, rfl⟩
    · exact absurd (Nat.pos_of_ne_zero h.pid) hfree.1

theorem startupEvent_some {byMonitor : Bool} {place : StartupPlace} {next : StartupNext} {event : LlamaEvent}
    (h : startupEvent byMonitor place next = some event) :
    place = .spawn ∧ ∃ child, next = .goesOn (.register child) ∧ event = .spawned byMonitor child := by
  unfold startupEvent at h
  split at h
  · cases h
    exact ⟨rfl, _, rfl, rfl⟩
  · cases h

theorem callerStartupStep_leaves {place : StartupPlace} (hmon : s.monitor = .none) (h : StartupOwns s place)
    (answer : SystemAnswer) : Leaves (s.callerStartupStep config place answer) := by
  have hevent : ∀ next, ∀ event ∈ startupEvent false place next, endsChild event ≠ true := by
    intro next event hevent
    obtain ⟨-, child, -, rfl⟩ := startupEvent_some hevent
    nofun
  have hnext := @startupStep_owns config s place h answer
  have hmon' := (startupStep_same config s answer place).monitor.trans hmon
  unfold callerStartupStep
  revert hnext hmon'
  generalize s.startupStep config answer place = next
  obtain ⟨s', next⟩ := next
  intro hnext hmon'
  refine ⟨?_, fun event hmem hends => absurd hends (hevent _ event hmem)⟩
  cases next with
  | goesOn place => exact ⟨hmon', StartupOwns.congr hnext ⟨.refl _, rfl, rfl, rfl⟩⟩
  | succeeds => exact ⟨hmon', Runs.congr hnext ⟨.refl _, rfl, rfl, rfl⟩⟩
  | fails error => exact ⟨hmon', Nothing.congr hnext ⟨.refl _, rfl, rfl, rfl⟩⟩

theorem launchStep_leaves (hmon : s.monitor = .none) (h : Runs s) (answer : SystemAnswer) :
    Leaves (s.launchStep answer) := by
  unfold launchStep
  split
  · exact ⟨Runs.congr h ⟨.refl _, rfl, rfl, rfl⟩, by rintro _ ⟨⟩ ⟨⟩⟩
  · -- the server runs without a monitor
    refine ⟨?_, by rintro _ ⟨⟩ ⟨⟩⟩
    show MonitorOwns _ s.monitor
    rw [hmon]
    exact .inr (Runs.congr h ⟨.refl _, rfl, rfl, rfl⟩)

theorem joinStep_leaves (hcaller : s.caller = .join) (h : MonitorOwns s s.monitor) : Leaves s.joinStep := by
  unfold joinStep
  cases hmon : s.monitor with
  | running place locals =>
    refine ⟨?_, nofun⟩
    show CallerOwns s s.caller
    rw [hcaller]
    exact h
  | none | ended =>
    rw [hmon] at h
    refine ⟨⟨rfl, h.imp (fun h => Nothing.congr h ?_) (fun h => Runs.congr h ?_)⟩, nofun⟩
    all_goals exact ⟨.refl _, rfl, rfl, rfl⟩

theorem takeStep_leaves (hmon : s.monitor = .none) (h : Nothing s ∨ Runs s) : Leaves s.takeStep := by
  unfold takeStep
  dsimp only
  rcases h with h | h
  · rw [if_neg (by rw [h.pid]; exact Nat.lt_irrefl 0)]
    refine ⟨?_, fun _ _ _ => ⟨h.children, rfl, rfl⟩⟩
    show MonitorOwns _ s.monitor
    rw [hmon]
    exact .inl ⟨h.children, rfl, rfl⟩
  · rw [if_pos (Nat.pos_of_ne_zero h.pid)]
    exact ⟨⟨hmon, ⟨h.children, h.pid, rfl, rfl⟩, nofun⟩, nofun⟩

theorem callerReapStep_leaves {child : Nat} {place : ReapPlace} (hmon : s.monitor = .none) (h : Starts s child 0)
    (hreaped : place.leaderReaped = true → s.children = []) (answer : SystemAnswer) :
    Leaves (s.callerReapStep child place answer) := by
  have hreaps := reapStep_reaps h.children hreaped answer
  unfold callerReapStep
  split <;> rename_i hstep <;> rw [hstep] at hreaps
  · exact ⟨⟨hmon, ⟨hreaps.1, h.child, h.pid, h.ready⟩, hreaps.2⟩, nofun⟩
  · refine ⟨?_, fun _ _ _ => ⟨hreaps, h.pid, h.ready⟩⟩
    show MonitorOwns _ s.monitor
    rw [hmon]
    exact .inl ⟨hreaps, h.pid, h.ready⟩

/-- **Behind `Stop`, and behind a `Start` that has failed, nothing is left.** -/
theorem callerStep_leaves (h : Owns s) (answer : SystemAnswer) : Leaves (s.callerStep config answer) := by
  unfold callerStep
  unfold Owns at h
  cases hcaller : s.caller with
  | idle => exact ⟨h, nofun⟩
  | startSection =>
    rw [hcaller] at h
    exact startSectionStep_leaves h
  | startup place =>
    rw [hcaller] at h
    exact callerStartupStep_leaves h.1 h.2 answer
  | startFailed error =>
    rw [hcaller] at h
    refine ⟨?_, fun _ _ _ => Nothing.congr h.2 ⟨.refl _, rfl, rfl, rfl⟩⟩
    show MonitorOwns _ s.monitor
    rw [h.1]
    exact .inl (Nothing.congr h.2 ⟨.refl _, rfl, rfl, rfl⟩)
  | launch =>
    rw [hcaller] at h
    exact launchStep_leaves h.1 h.2 answer
  | join =>
    rw [hcaller] at h
    exact joinStep_leaves hcaller h
  | take =>
    rw [hcaller] at h
    exact takeStep_leaves h.1 h.2
  | reap child place =>
    rw [hcaller] at h
    exact callerReapStep_leaves h.1 h.2.1 h.2.2 answer

/-! ## `MonitorLoop` -/

theorem Owns.monitor (h : Owns s) (hmon : s.monitor ≠ .none) :
    (s.caller = .idle ∨ s.caller = .startSection ∨ s.caller = .join) ∧ MonitorOwns s s.monitor := by
  unfold Owns at h
  cases hcaller : s.caller <;> rw [hcaller] at h <;> first | exact ⟨by simp, h⟩ | exact absurd h.1 hmon

theorem owns_of_monitor (hcaller : s.caller = .idle ∨ s.caller = .startSection ∨ s.caller = .join)
    (h : MonitorOwns s s.monitor) : Owns s := by
  unfold Owns
  rcases hcaller with hcaller | hcaller | hcaller <;> rw [hcaller] <;> exact h

/-- A step of `MonitorLoop` leaves the other thread where it is, and says of itself no more than this. -/
theorem monitorPlaceStep_tells (config : LlamaServerProcessConfig) (s : LlamaServerProcess) (locals : MonitorLocals)
    (answer : SystemAnswer) (place : MonitorPlace) :
    (s.monitorPlaceStep config locals answer place).1.caller = s.caller ∧
      ∀ event ∈ (s.monitorPlaceStep config locals answer place).2,
        (place = .startup .spawn ∧ ∃ child, event = .spawned true child) ∨
          (∃ child, place = .probe child ∧ event = .healthy) ∨ (place = .restart ∧ event = .limitExceeded) := by
  cases place with
  | restart =>
    simp only [monitorPlaceStep, restartStep]
    split
    · exact ⟨rfl, fun event hevent => .inr (.inr ⟨trivial, (Option.some.inj hevent).symm⟩)⟩
    · exact ⟨rfl, nofun⟩
  | restartWait => simp only [monitorPlaceStep, restartWaitStep]; split <;> exact ⟨rfl, nofun⟩
  | startup place =>
    refine ⟨(startupStep_same config s answer place).caller, fun event hevent => ?_⟩
    obtain ⟨rfl, child, -, rfl⟩ := startupEvent_some hevent
    exact .inl ⟨rfl, child, rfl⟩
  | restartFailed error => simp only [monitorPlaceStep, restartFailedStep]; split <;> exact ⟨rfl, nofun⟩
  | watch =>
    simp only [monitorPlaceStep, watchStep]
    split
    · exact ⟨rfl, nofun⟩
    · split <;> exact ⟨rfl, nofun⟩
  | poll child => simp only [monitorPlaceStep, pollStep]; split <;> exact ⟨rfl, nofun⟩
  | probe child =>
    simp only [monitorPlaceStep, monitorProbeStep]
    split
    · exact ⟨rfl, fun event hevent => .inr (.inl ⟨child, rfl, (Option.some.inj hevent).symm⟩)⟩
    · exact ⟨rfl, nofun⟩
  | reap child loss place => simp only [monitorPlaceStep, monitorReapStep]; split <;> exact ⟨rfl, nofun⟩
  | lost child loss => simp only [monitorPlaceStep, lostStep]; split <;> exact ⟨rfl, nofun⟩
  | waitFailed errno => exact ⟨rfl, nofun⟩

theorem monitorStartupStep_owns {locals : MonitorLocals} {place : StartupPlace} (h : StartupOwns s place)
    (answer : SystemAnswer) : MonitorOwns (s.monitorStartupStep config locals place answer).1
      (s.monitorStartupStep config locals place answer).1.monitor := by
  have hnext := @startupStep_owns config s place h answer
  unfold monitorStartupStep
  revert hnext
  generalize s.startupStep config answer place = next
  obtain ⟨s', next⟩ := next
  intro hnext
  cases next with
  | goesOn place => exact StartupOwns.congr hnext ⟨.refl _, rfl, rfl, rfl⟩
  | succeeds => exact Runs.congr hnext ⟨.refl _, rfl, rfl, rfl⟩
  | fails error => exact Nothing.congr hnext ⟨.refl _, rfl, rfl, rfl⟩

theorem pollStep_owns {locals : MonitorLocals} {child : Nat} (h : Runs s) (hchild : s.pid = child)
    (answer : SystemAnswer) :
    MonitorOwns (s.pollStep locals child answer).1 (s.pollStep locals child answer).1.monitor := by
  have honly := h.children
  rw [hchild] at honly
  obtain ⟨honly, -⟩ := waitpid_only honly answer.wait
  have hruns : ∀ {s' : LlamaServerProcess}, s'.children = (waitpid s.children child answer.wait).2 →
      s'.pid = s.pid → s'.ready = s.ready → s'.probed = s.probed → Runs s' := by
    intro s' hchildren hpid hready hprobed
    constructor
    case children => rw [hchildren, hpid, hchild]; exact honly
    case pid => rw [hpid]; exact h.pid
    case ready => rw [hready]; exact h.ready
    case probed => rw [hprobed, hpid]; exact h.probed
  unfold pollStep
  split <;> rename_i hwait <;> rw [hwait] at hruns
  · split
    · exact ⟨hruns rfl rfl rfl rfl, hchild⟩
    · exact hruns rfl rfl rfl rfl
  · exact hruns rfl rfl rfl rfl
  · split
    · exact ⟨hruns rfl rfl rfl rfl, hchild, nofun⟩
    · exact hruns rfl rfl rfl rfl
  · exact ⟨hruns rfl rfl rfl rfl, hchild, nofun⟩

theorem monitorProbeStep_owns {locals : MonitorLocals} {child : Nat} (h : Runs s) (hchild : s.pid = child)
    (answer : SystemAnswer) : MonitorOwns (s.monitorProbeStep config locals child answer).1
      (s.monitorProbeStep config locals child answer).1.monitor := by
  unfold monitorProbeStep
  split
  · exact Runs.congr h ⟨.refl _, rfl, rfl, rfl⟩
  · dsimp only
    split
    · exact Runs.congr h ⟨.refl _, rfl, rfl, rfl⟩
    · exact ⟨Runs.congr h ⟨.refl _, rfl, rfl, rfl⟩, hchild, nofun⟩

theorem monitorReapStep_owns {locals : MonitorLocals} {child : Nat} {loss : Loss} {place : ReapPlace} (h : Runs s)
    (hchild : s.pid = child) (hreaped : place.leaderReaped = true → s.children = []) (answer : SystemAnswer) :
    MonitorOwns (s.monitorReapStep locals child loss place answer).1
      (s.monitorReapStep locals child loss place answer).1.monitor := by
  have honly := h.children
  rw [hchild] at honly
  have hreaps := reapStep_reaps honly hreaped answer
  unfold monitorReapStep
  split <;> rename_i hstep <;> rw [hstep] at hreaps
  · refine ⟨⟨?_, h.pid, h.ready, h.probed⟩, hchild, hreaps.2⟩
    show Only _ s.pid
    rw [hchild]
    exact hreaps.1
  · exact ⟨⟨.inl hreaps, h.pid, h.ready, h.probed⟩, hchild, hreaps⟩

/-- **The child that is given up is the one of `pid_`**, and it is reaped. -/
theorem lostStep_eq {locals : MonitorLocals} {child : Nat} (hchild : s.pid = child) (loss : Loss) :
    (s.lostStep locals child loss).1 =
      { s with
        pid := 0, ready := false, restartCount := s.restartCount + 1, lastError := Loss.error loss
        monitor := .running .restart { locals with restartAttempts := locals.restartAttempts + 1 } } := by
  unfold lostStep
  rw [if_pos hchild]
  rfl

/-- Each step of `MonitorLoop` keeps the owner. -/
theorem monitorPlaceStep_owns {place : MonitorPlace} {locals : MonitorLocals}
    (hmon : s.monitor = .running place locals) (h : MonitorPlaceOwns s place) (answer : SystemAnswer) :
    MonitorOwns (s.monitorPlaceStep config locals answer place).1
      (s.monitorPlaceStep config locals answer place).1.monitor := by
  cases place with
  | restart =>
    simp only [monitorPlaceStep, restartStep]
    split
    · exact .inl (Nothing.congr h ⟨.refl _, rfl, rfl, rfl⟩)
    · exact Nothing.congr h ⟨.refl _, rfl, rfl, rfl⟩
  | restartWait =>
    simp only [monitorPlaceStep, restartWaitStep]
    split
    · exact .inl (Nothing.congr h ⟨.refl _, rfl, rfl, rfl⟩)
    · exact Nothing.congr h ⟨.refl _, rfl, rfl, rfl⟩
  | startup place => exact monitorStartupStep_owns h answer
  | restartFailed error =>
    simp only [monitorPlaceStep, restartFailedStep]
    split
    · exact .inl (Nothing.congr h ⟨.refl _, rfl, rfl, rfl⟩)
    · exact Nothing.congr h ⟨.refl _, rfl, rfl, rfl⟩
  | watch =>
    simp only [monitorPlaceStep, watchStep]
    split
    · exact .inr (Runs.congr h ⟨.refl _, rfl, rfl, rfl⟩)
    split
    · exact Runs.congr h ⟨.refl _, rfl, rfl, rfl⟩
    · exact ⟨Runs.congr h ⟨.refl _, rfl, rfl, rfl⟩, rfl⟩
  | poll child => exact pollStep_owns h.1 h.2 answer
  | probe child => exact monitorProbeStep_owns h.1 h.2 answer
  | reap child loss place => exact monitorReapStep_owns h.1 h.2.1 h.2.2 answer
  | lost child loss =>
    show MonitorOwns (s.lostStep locals child loss).1 (s.lostStep locals child loss).1.monitor
    rw [lostStep_eq h.2.1]
    exact ⟨h.2.2, rfl, rfl⟩
  | waitFailed errno => exact Runs.congr h ⟨.refl _, rfl, rfl, rfl⟩

theorem monitorStep_owns (h : Owns s) (answer : SystemAnswer) : Owns (s.monitorStep config answer).1 := by
  unfold monitorStep
  split
  · rename_i place locals hmon
    obtain ⟨hcaller, howns⟩ := h.monitor (by rw [hmon]; nofun)
    rw [hmon] at howns
    refine owns_of_monitor ?_ (monitorPlaceStep_owns hmon howns answer)
    rw [(monitorPlaceStep_tells config s locals answer place).1]
    exact hcaller
  · exact h
  · exact h

/-- Neither of the two threads takes the step. -/
def isOther : LlamaStep → Bool
  | .caller _ | .monitor _ => false
  | _ => true

/-- What a call of `Start` or of `Stop`, an exit and a foreign `waitpid` do. -/
structure OtherStep (s : LlamaServerProcess) (next : LlamaServerProcess × Option LlamaEvent) : Prop where
  monitor : next.1.monitor = s.monitor := by rfl
  restarts : next.1.restartCount = s.restartCount := by rfl
  keeps : KeepsChild s next.1 := by exact ⟨.refl _, rfl, rfl, rfl⟩
  caller : next.1.caller = s.caller ∨ s.caller = .idle ∧
    (next.1.caller = .idle ∨ next.1.caller = .startSection ∨ next.1.caller = .join) := by exact .inl rfl
  refused : ∀ event ∈ next.2, ∃ error, event = .startRefused error := by nofun

theorem step_other (config : LlamaServerProcessConfig) (s : LlamaServerProcess) {call : LlamaStep}
    (h : isOther call = true) : OtherStep s (s.step config call) := by
  cases call with
  | start accessible regular =>
    simp only [step, beginStart]
    split
    · rename_i hidle
      split
      · exact { caller := .inr ⟨hidle, .inl rfl⟩, refused := by rintro _ ⟨⟩; exact ⟨_, rfl⟩ }
      split
      · exact { caller := .inr ⟨hidle, .inl rfl⟩, refused := by rintro _ ⟨⟩; exact ⟨_, rfl⟩ }
      · exact { caller := .inr ⟨hidle, .inr (.inl rfl)⟩ }
    · exact {}
  | stop =>
    simp only [step]
    split
    · rename_i hidle
      exact { caller := .inr ⟨hidle, .inr (.inr rfl)⟩ }
    · exact {}
  | childExits pid => exact { keeps := ⟨exits_shrinks s.children pid, rfl, rfl, rfl⟩ }
  | reapedElsewhere pid => exact { keeps := ⟨reapedElsewhere_shrinks s.children pid, rfl, rfl, rfl⟩ }
  | caller answer | monitor answer => cases h

theorem CallerOwns.keeps {caller : CallerPlace} (h : CallerOwns s caller) (hkeeps : KeepsChild s s')
    (hmon : s'.monitor = s.monitor) : CallerOwns s' caller := by
  cases caller with
  | idle | startSection | join =>
    show MonitorOwns s' s'.monitor
    rw [hmon]
    exact MonitorOwns.congr h hkeeps
  | startup place => exact ⟨hmon.trans h.1, StartupOwns.congr h.2 hkeeps⟩
  | startFailed error | launch => exact ⟨hmon.trans h.1, h.2.congr hkeeps⟩
  | take => exact ⟨hmon.trans h.1, h.2.imp (fun h => Nothing.congr h hkeeps) (fun h => Runs.congr h hkeeps)⟩
  | reap child place => exact ⟨hmon.trans h.1, h.2.1.congr hkeeps, fun hreaped => hkeeps.children.nil (h.2.2 hreaped)⟩

theorem OtherStep.owns {next : LlamaServerProcess × Option LlamaEvent} (hother : OtherStep s next) (h : Owns s) :
    Owns next.1 := by
  unfold Owns at h ⊢
  rcases hother.caller with hcaller | ⟨hidle, hcaller⟩
  · rw [hcaller]
    exact h.keeps hother.keeps hother.monitor
  · rw [hidle] at h
    have h : CallerOwns next.1 .idle := h.keeps hother.keeps hother.monitor
    rcases hcaller with hcaller | hcaller | hcaller <;> rw [hcaller] <;> exact h

/-- **Every step leaves the child with who has it.** -/
theorem step_owns (config : LlamaServerProcessConfig) (s : LlamaServerProcess) (call : LlamaStep) (h : Owns s) :
    Owns (s.step config call).1 := by
  have hother := @step_other config s call
  cases call with
  | caller answer => exact (callerStep_leaves h answer).owns
  | monitor answer => exact monitorStep_owns h answer
  | _ => exact (hother rfl).owns h

/-- The child has one owner in every reachable state. -/
theorem after_owns (config : LlamaServerProcessConfig) (steps : List LlamaStep) : Owns (after config steps) :=
  run_invariant (step_owns config) (show Owns {} from Or.inl ⟨rfl, rfl, rfl⟩) steps

/-! ## What the owner says -/

/-- No child is ready, and there is one at most. -/
def Unready (s : LlamaServerProcess) : Prop := s.ready = false ∧ ∃ child, Only s.children child

theorem Nothing.unready (h : Nothing s) : Unready s := ⟨h.ready, 0, .inl h.children⟩

theorem Starts.unready {child pid : Nat} (h : Starts s child pid) : Unready s := ⟨h.ready, child, h.children⟩

theorem StartupOwns.unready {place : StartupPlace} (h : StartupOwns s place) : Unready s := by
  cases place with
  | spawn => exact Nothing.unready h
  | register child | loop child | wait child | probe child | sleep child => exact Starts.unready h
  | mark child | reap child failure place | forget child failure => exact h.1.unready

theorem MonitorOwns.runs_or_unready {monitor : MonitorThread} (h : MonitorOwns s monitor) : Runs s ∨ Unready s := by
  cases monitor with
  | none | ended => exact h.symm.imp_right Nothing.unready
  | running place locals =>
    cases place with
    | restart | restartWait | restartFailed => exact .inr (Nothing.unready h)
    | startup place => exact .inr (StartupOwns.unready h)
    | watch | waitFailed => exact .inl h
    | poll child | probe child | reap child loss place | lost child loss => exact .inl h.1

/-- **`ready_` is that of the child whose probe succeeded.** -/
theorem Owns.runs_or_unready (h : Owns s) : Runs s ∨ Unready s := by
  unfold Owns at h
  cases hcaller : s.caller <;> rw [hcaller] at h
  case idle | startSection | join => exact MonitorOwns.runs_or_unready h
  case startup place => exact .inr (StartupOwns.unready h.2)
  case startFailed error => exact .inr h.2.unready
  case launch => exact .inl h.2
  case take => exact h.2.symm.imp_right Nothing.unready
  case reap child place => exact .inr h.2.1.unready

/-! ## The events -/

theorem monitorStep_event {answer : SystemAnswer} {event : LlamaEvent}
    (h : (s.monitorStep config answer).2 = some event) :
    (∃ child, event = .spawned true child) ∨ event = .healthy ∨ event = .limitExceeded := by
  unfold monitorStep at h
  split at h
  · rcases (monitorPlaceStep_tells ..).2 _ h with ⟨-, hevent⟩ | ⟨-, -, hevent⟩ | ⟨-, hevent⟩
    · exact .inl hevent
    · exact .inr (.inl hevent)
    · exact .inr (.inr hevent)
  · cases h
  · cases h

theorem step_caller_of_event {call : LlamaStep} {event : LlamaEvent} (h : (s.step config call).2 = some event)
    (hmon : (∀ child, event ≠ .spawned true child) ∧ event ≠ .healthy ∧ event ≠ .limitExceeded)
    (hrefused : ∀ error, event ≠ .startRefused error) : ∃ answer, call = .caller answer := by
  have hother := @step_other config s call
  cases call with
  | caller answer => exact ⟨answer, rfl⟩
  | monitor answer =>
    rcases monitorStep_event h with ⟨child, hevent⟩ | hevent | hevent
    · exact absurd hevent (hmon.1 child)
    · exact absurd hevent hmon.2.1
    · exact absurd hevent hmon.2.2
  | _ =>
    obtain ⟨error, hevent⟩ := (hother rfl).refused event h
    exact absurd hevent (hrefused error)

/-! ## The losses -/

theorem after_append (config : LlamaServerProcessConfig) (before rest : List LlamaStep) :
    after config (before ++ rest) = run (step config) (after config before) rest :=
  run_append ({} : LlamaServerProcess) before rest

theorem seen_snoc (config : LlamaServerProcessConfig) (before : List LlamaStep) (call : LlamaStep) :
    seen config (before ++ [call]) = (seen config before).after config (after config before) call := by
  have hstate : ∀ steps (s : LlamaServerProcess) (seen : Seen),
      (steps.foldl (fun now call => ((step config now.1 call).1, now.2.after config now.1 call)) (s, seen)).1 =
        run (step config) s steps := by
    intro steps
    induction steps with
    | nil => exact fun _ _ => rfl
    | cons call steps ih => exact fun s seen => ih _ _
  unfold seen
  rw [foldl_append]
  show Seen.after config _ _ call = _
  rw [hstate]
  rfl

/-- The local of `MonitorLoop` is the number of the probes that have failed in a row. -/
def CountsFailures (failures : Nat) : MonitorThread → Prop
  | .running .watch locals | .running (.poll _) locals | .running (.probe _) locals | .running (.waitFailed _) locals =>
    locals.healthFailures = failures
  | _ => True

theorem monitorStartupStep_monitor (config : LlamaServerProcessConfig) (s : LlamaServerProcess) (locals : MonitorLocals)
    (place : StartupPlace) (answer : SystemAnswer) :
    uncounted (s.monitorStartupStep config locals place answer).1.monitor = 0 ∧
      CountsFailures 0 (s.monitorStartupStep config locals place answer).1.monitor := by
  unfold monitorStartupStep
  generalize s.startupStep config answer place = next
  obtain ⟨s', next⟩ := next
  cases next with
  | goesOn place => exact ⟨rfl, trivial⟩
  | succeeds => exact ⟨rfl, rfl⟩
  | fails error => exact ⟨rfl, trivial⟩

/-- **A step of `MonitorLoop` counts what it has given up**, and goes to give up what it finds lost. -/
theorem monitorPlaceStep_counts {place : MonitorPlace} {locals : MonitorLocals} {failures : Nat}
    (hmon : s.monitor = .running place locals) (h : MonitorPlaceOwns s place)
    (hfailures : CountsFailures failures (.running place locals)) (answer : SystemAnswer) :
    (s.monitorPlaceStep config locals answer place).1.restartCount +
        uncounted (s.monitorPlaceStep config locals answer place).1.monitor =
      s.restartCount + uncounted (.running place locals) +
        (findsLost config s failures (.monitor answer)).toList.length ∧
    CountsFailures (s.failuresAfter failures (.monitor answer)) (s.monitorPlaceStep config locals answer place).1.monitor := by
  simp only [findsLost, failuresAfter, hmon]
  cases place with
  | restart => simp only [monitorPlaceStep, restartStep]; split <;> exact ⟨rfl, trivial⟩
  | restartWait => simp only [monitorPlaceStep, restartWaitStep]; split <;> exact ⟨rfl, trivial⟩
  | startup place =>
    obtain ⟨hcounted, hnone⟩ := monitorStartupStep_monitor config s locals place answer
    refine ⟨?_, hnone⟩
    show _ + uncounted (s.monitorStartupStep config locals place answer).1.monitor = _
    rw [hcounted]
    exact (startupStep_same config s answer place).restartCount
  | restartFailed error => simp only [monitorPlaceStep, restartFailedStep]; split <;> exact ⟨rfl, trivial⟩
  | watch =>
    simp only [monitorPlaceStep, watchStep]
    split
    · exact ⟨rfl, trivial⟩
    · split <;> exact ⟨rfl, hfailures⟩
  | poll child =>
    simp only [monitorPlaceStep, pollStep]
    rcases waitpid s.children child answer.wait with ⟨result, children⟩
    cases result with
    | running => cases answer.due <;> exact ⟨rfl, hfailures⟩
    | interrupted => exact ⟨rfl, hfailures⟩
    | reaped => exact ⟨rfl, trivial⟩
    | error errno =>
      by_cases hgone : errno = ECHILD
      · simp only [if_pos hgone]
        exact ⟨rfl, trivial⟩
      · simp only [if_neg hgone]
        exact ⟨rfl, hfailures⟩
  | probe child =>
    change locals.healthFailures = failures at hfailures
    simp only [monitorPlaceStep, monitorProbeStep]
    cases answer.probe with
    | true => exact ⟨rfl, rfl⟩
    | false =>
      by_cases hfew : locals.healthFailures + 1 < config.healthFailureThreshold
      · have hnot : ¬ config.healthFailureThreshold ≤ (failures : Int) + 1 := by omega
        simp only [Bool.false_eq_true, if_false, if_pos hfew, Bool.not_false, Bool.true_and, decide_eq_true_eq,
          if_neg hnot]
        refine ⟨rfl, ?_⟩
        show locals.healthFailures + 1 = ((failures + 1 : Nat) : Int)
        omega
      · have hmany : config.healthFailureThreshold ≤ (failures : Int) + 1 := by omega
        simp only [Bool.false_eq_true, if_false, if_neg hfew, Bool.not_false, Bool.true_and, decide_eq_true_eq,
          if_pos hmany]
        exact ⟨rfl, trivial⟩
  | reap child loss place => simp only [monitorPlaceStep, monitorReapStep]; split <;> exact ⟨rfl, trivial⟩
  | lost child loss =>
    show (s.lostStep locals child loss).1.restartCount + uncounted (s.lostStep locals child loss).1.monitor = _ ∧
      CountsFailures _ (s.lostStep locals child loss).1.monitor
    rw [lostStep_eq h.2.1]
    exact ⟨rfl, trivial⟩
  | waitFailed errno => exact ⟨rfl, hfailures⟩

def isMonitorEvent : LlamaEvent → Bool
  | .spawned byMonitor _ => byMonitor
  | .healthy | .limitExceeded => true
  | _ => false

/-- What the other thread does to `monitor_thread_` and to the restarts. -/
inductive CallerMoves (s : LlamaServerProcess) (next : LlamaServerProcess × Option LlamaEvent) : Prop where
  | stays (monitor : next.1.monitor = s.monitor) (restarts : next.1.restartCount = s.restartCount)
      (event : ∀ event ∈ next.2, isMonitorEvent event = false ∧ event ≠ .startBegins)
  | begins (event : next.2 = some .startBegins) (none : s.monitor = .none) (monitor : next.1.monitor = .none)
      (restarts : next.1.restartCount = 0)
  | launches (event : next.2 = some .started) (caller : s.caller = .launch) (monitor : next.1.monitor = .running .watch {})
      (restarts : next.1.restartCount = s.restartCount)
  | joins (event : next.2 = none) (ended : s.monitor = .none ∨ s.monitor = .ended) (monitor : next.1.monitor = .none)
      (restarts : next.1.restartCount = s.restartCount)

theorem callerStep_moves (answer : SystemAnswer) : CallerMoves s (s.callerStep config answer) := by
  unfold callerStep
  cases hcaller : s.caller with
  | idle => exact .stays rfl rfl nofun
  | startSection =>
    simp only [startSectionStep]
    split
    · exact .stays rfl rfl (by rintro _ ⟨⟩; exact ⟨rfl, nofun⟩)
    · rename_i hfree
      simp only [Bool.or_eq_true, decide_eq_true_eq, not_or, ne_eq, Classical.not_not] at hfree
      exact .begins rfl hfree.2 hfree.2 rfl
  | startup place =>
    have hsame := startupStep_same config s answer place
    refine .stays hsame.monitor hsame.restartCount ?_
    intro event hevent
    obtain ⟨-, child, -, rfl⟩ := startupEvent_some hevent
    exact ⟨rfl, nofun⟩
  | startFailed error => exact .stays rfl rfl (by rintro _ ⟨⟩; exact ⟨rfl, nofun⟩)
  | launch =>
    simp only [launchStep]
    split
    · exact .launches rfl hcaller rfl rfl
    · exact .stays rfl rfl (by rintro _ ⟨⟩; exact ⟨rfl, nofun⟩)
  | join =>
    simp only [joinStep]
    cases hmon : s.monitor with
    | running place locals => exact .stays rfl rfl nofun
    | none => exact .joins rfl (.inl hmon) rfl rfl
    | ended => exact .joins rfl (.inr hmon) rfl rfl
  | take =>
    simp only [takeStep]
    split
    · exact .stays rfl rfl nofun
    · exact .stays rfl rfl (by rintro _ ⟨⟩; exact ⟨rfl, nofun⟩)
  | reap child place =>
    simp only [callerReapStep]
    split
    · exact .stays rfl rfl nofun
    · exact .stays rfl rfl (by rintro _ ⟨⟩; exact ⟨rfl, nofun⟩)

/-- While `MonitorLoop` runs, the other thread waits for it, or is refused. -/
theorem callerStep_running (h : Owns s) {place : MonitorPlace} {locals : MonitorLocals}
    (hmon : s.monitor = .running place locals) (answer : SystemAnswer) :
    (s.callerStep config answer).1.monitor = s.monitor ∧
      (s.callerStep config answer).1.restartCount = s.restartCount ∧ s.caller ≠ .startup .spawn := by
  obtain ⟨hcaller, -⟩ := h.monitor (by rw [hmon]; nofun)
  rcases @callerStep_moves config s answer with ⟨hsame, hcount, -⟩ | ⟨-, hnone⟩ | ⟨-, hlaunch⟩ | ⟨-, hended⟩
  · exact ⟨hsame, hcount, by rcases hcaller with hcaller | hcaller | hcaller <;> rw [hcaller] <;> nofun⟩
  · cases hmon.symm.trans hnone
  · rw [hlaunch] at hcaller
    simp at hcaller
  · rw [hmon] at hended
    simp at hended

/-- The other thread begins the counts, or leaves them alone. -/
theorem callerStep_counts (h : Owns s) (answer : SystemAnswer) {failures : Nat}
    (hfailures : CountsFailures failures s.monitor) :
    CountsFailures (s.failuresAfter failures (.caller answer)) (s.callerStep config answer).1.monitor ∧
    ((s.callerStep config answer).2 = some .startBegins ∧
        (s.callerStep config answer).1.restartCount + uncounted (s.callerStep config answer).1.monitor = 0 ∨
      (s.callerStep config answer).2 ≠ some .startBegins ∧
        (s.callerStep config answer).1.restartCount + uncounted (s.callerStep config answer).1.monitor =
          s.restartCount + uncounted s.monitor) := by
  rcases @callerStep_moves config s answer with ⟨hsame, hcount, hevent⟩ | ⟨hevent, -, hnone, hzero⟩ |
    ⟨hevent, hcaller, hmon, hcount⟩ | ⟨hevent, hended, hnone, hcount⟩
  · refine ⟨?_, .inr ⟨fun hbegins => (hevent _ hbegins).2 rfl, by rw [hsame, hcount]⟩⟩
    rw [hsame]
    cases hcaller : s.caller with
    | launch =>
      unfold Owns at h
      rw [hcaller] at h
      rw [h.1]
      trivial
    | _ =>
      simp only [failuresAfter, hcaller]
      exact hfailures
  · rw [hnone, hzero]
    exact ⟨trivial, .inl ⟨hevent, rfl⟩⟩
  · have hlaunch : CallerOwns s .launch := by
      rw [← hcaller]
      exact h
    rw [hmon, hcount, hevent, hlaunch.1]
    simp only [failuresAfter, hcaller]
    exact ⟨rfl, .inr ⟨nofun, rfl⟩⟩
  · rw [hnone, hcount, hevent]
    exact ⟨trivial, .inr ⟨nofun, by rcases hended with hended | hended <;> simp only [hended, uncounted]⟩⟩

/-- The counts of the code are what was seen. -/
structure Counted (s : LlamaServerProcess) (seen : Seen) : Prop where
  restarts : s.restartCount + uncounted s.monitor = seen.losses
  failures : CountsFailures seen.failures s.monitor

theorem losses_begin {seen : Seen} {call : LlamaStep} (h : (s.step config call).2 = some .startBegins) :
    (seen.after config s call).losses = 0 := by
  unfold Seen.after
  rw [h]

theorem losses_add {seen : Seen} {call : LlamaStep} (h : (s.step config call).2 ≠ some .startBegins) :
    (seen.after config s call).losses = seen.losses + (findsLost config s seen.failures call).toList.length := by
  unfold Seen.after
  split
  · contradiction
  · rfl

theorem step_counted (h : Owns s) {seen : Seen} (hcounted : Counted s seen) (call : LlamaStep) :
    Counted (s.step config call).1 (seen.after config s call) := by
  obtain ⟨hrestarts, hfailures⟩ := hcounted
  have hother := @step_other config s call
  cases call with
  | caller answer =>
    obtain ⟨hfailures', hcount⟩ := @callerStep_counts config s h answer seen.failures hfailures
    change (s.step config (.caller answer)).2 = _ ∧ _ ∨ (s.step config (.caller answer)).2 ≠ _ ∧ _ at hcount
    obtain ⟨hevent, hcount⟩ | ⟨hevent, hcount⟩ := hcount
    · exact ⟨hcount.trans (losses_begin hevent).symm, hfailures'⟩
    · refine ⟨?_, hfailures'⟩
      rw [losses_add hevent, ← hrestarts]
      exact hcount
  | monitor answer =>
    cases hmon : s.monitor with
    | none | ended =>
      have hstep : s.step config (.monitor answer) = (s, none) := by simp only [step, monitorStep, hmon]
      refine ⟨?_, ?_⟩
      · rw [losses_add (by rw [hstep]; nofun), hstep, hrestarts]
        simp only [findsLost, hmon]
        rfl
      · rw [hstep]
        have hsame : s.failuresAfter seen.failures (.monitor answer) = seen.failures := by
          simp only [failuresAfter, hmon]
        show CountsFailures (s.failuresAfter seen.failures (.monitor answer)) s.monitor
        rw [hsame]
        exact hfailures
    | running place locals =>
      have howns := (h.monitor (by rw [hmon]; nofun)).2
      rw [hmon] at howns hfailures hrestarts
      have hcounts := @monitorPlaceStep_counts config s place locals seen.failures hmon howns hfailures answer
      have hstep : s.step config (.monitor answer) = s.monitorPlaceStep config locals answer place := by
        simp only [step, monitorStep, hmon]
      have hevent : (s.step config (.monitor answer)).2 ≠ some .startBegins := by
        intro hevent
        rw [hstep] at hevent
        rcases (monitorPlaceStep_tells ..).2 _ hevent with ⟨-, child, hspawned⟩ | ⟨child, -, hhealthy⟩ | ⟨-, hlimit⟩
        · cases hspawned
        · cases hhealthy
        · cases hlimit
      refine ⟨?_, ?_⟩
      · rw [losses_add hevent, hstep, hcounts.1, hrestarts]
      · rw [hstep]
        exact hcounts.2
  | _ =>
    obtain ⟨hmon, hcount, -, -, hrefused⟩ := hother rfl
    refine ⟨?_, ?_⟩
    · have hevent : (s.step config _).2 ≠ some .startBegins := fun hbegins => nomatch hrefused _ hbegins
      rw [losses_add hevent, hmon, hcount]
      exact hrestarts
    · rw [hmon]
      exact hfailures

theorem after_counted (config : LlamaServerProcessConfig) (steps : List LlamaStep) :
    Counted (after config steps) (seen config steps) := by
  induction steps using List.reverseRecOn with
  | nil => exact ⟨rfl, trivial⟩
  | append_singleton before call ih =>
    rw [seen_snoc, after_append]
    exact step_counted (after_owns config before) ih call

/-- **The child that is found lost** was ready, and is given up. -/
theorem findsLost_found (h : Owns s) {failures : Nat} {call : LlamaStep} {child : Nat} {loss : Loss}
    (hfailures : CountsFailures failures s.monitor) (hfound : findsLost config s failures call = some (child, loss)) :
    s.ready = true ∧ s.pid = child ∧ (s.step config call).1.restartCount = s.restartCount ∧
      GivesUp (s.step config call).1 child loss := by
  cases call with
  | monitor answer =>
    cases hmon : s.monitor with
    | none | ended =>
      simp only [findsLost, hmon] at hfound
      cases hfound
    | running place locals =>
      have howns := (h.monitor (by rw [hmon]; nofun)).2
      rw [hmon] at howns hfailures
      simp only [findsLost, hmon] at hfound
      simp only [step, monitorStep, hmon]
      cases place with
      | poll polled =>
        obtain ⟨hruns, rfl⟩ := howns
        simp only [monitorPlaceStep, pollStep]
        rcases hwait : waitpid s.children s.pid answer.wait with ⟨result, children⟩
        simp only [hwait] at hfound
        cases result with
        | running | interrupted => cases hfound
        | reaped =>
          cases hfound
          exact ⟨hruns.ready, rfl, rfl, locals, .inr ⟨_, rfl⟩⟩
        | error errno =>
          simp only at hfound
          split at hfound
          · rename_i hgone
            cases hfound
            exact ⟨hruns.ready, rfl, rfl, locals, .inr ⟨.terminate, by simp only [if_pos hgone]; rfl⟩⟩
          · cases hfound
      | probe probed =>
        obtain ⟨hruns, rfl⟩ := howns
        change locals.healthFailures = failures at hfailures
        simp only [monitorPlaceStep, monitorProbeStep]
        simp only at hfound
        split at hfound
        · rename_i hmany
          cases hfound
          simp only [Bool.and_eq_true, Bool.not_eq_true', decide_eq_true_eq] at hmany
          have hnot : ¬ locals.healthFailures + 1 < config.healthFailureThreshold := by omega
          rw [if_neg (by rw [hmany.1]; exact Bool.false_ne_true)]
          exact ⟨hruns.ready, rfl, rfl, _, .inr ⟨.terminate, by simp only [if_neg hnot]; rfl⟩⟩
        · cases hfound
      | _ => cases hfound
  | _ => cases hfound

/-- **A child that is given up** is so until the step that counts it, at which it is gone. -/
theorem step_settles (h : Owns s) {child : Nat} {loss : Loss} (hgives : GivesUp s child loss) (call : LlamaStep) :
    GivesUp (s.step config call).1 child loss ∧ (s.step config call).1.restartCount = s.restartCount ∨
    (s.step config call).1.restartCount = s.restartCount + 1 ∧
      (s.step config call).1.lastError = Loss.error loss ∧ Nothing (s.step config call).1 := by
  obtain ⟨place, locals, hmon, hplace⟩ :
      ∃ place locals, s.monitor = .running place locals ∧
        (place = .lost child loss ∨ ∃ reap, place = .reap child loss reap) := by
    obtain ⟨locals, hmon | ⟨reap, hmon⟩⟩ := hgives
    · exact ⟨_, locals, hmon, .inl rfl⟩
    · exact ⟨_, locals, hmon, .inr ⟨reap, rfl⟩⟩
  have hsame : ∀ {s' : LlamaServerProcess}, s'.monitor = s.monitor → GivesUp s' child loss := by
    intro s' hmon'
    unfold GivesUp
    rw [hmon']
    exact hgives
  have hother := @step_other config s call
  cases call with
  | caller answer =>
    obtain ⟨hmon', hcount, -⟩ := @callerStep_running config s h place locals hmon answer
    exact .inl ⟨hsame hmon', hcount⟩
  | monitor answer =>
    have howns := (h.monitor (by rw [hmon]; nofun)).2
    rw [hmon] at howns
    simp only [step, monitorStep, hmon]
    rcases hplace with rfl | ⟨reap, rfl⟩
    · right
      simp only [monitorPlaceStep]
      rw [lostStep_eq howns.2.1]
      exact ⟨rfl, rfl, howns.2.2, rfl, rfl⟩
    · left
      simp only [monitorPlaceStep, monitorReapStep]
      split
      · exact ⟨⟨locals, .inr ⟨_, rfl⟩⟩, rfl⟩
      · exact ⟨⟨locals, .inl rfl⟩, rfl⟩
  | _ => exact .inl ⟨hsame (hother rfl).monitor, (hother rfl).restarts⟩

theorem GivesUp.not_pollsOrSpawns (h : Owns s) {child : Nat} {loss : Loss} (hgives : GivesUp s child loss)
    (call : LlamaStep) : ¬ pollsOrSpawns s call := by
  intro hacts
  obtain ⟨locals, hmon | ⟨reap, hmon⟩⟩ := hgives
  all_goals cases call with
  | monitor answer =>
    obtain ⟨locals', hspawn | ⟨polled, hpoll⟩⟩ := hacts
    · cases hmon.symm.trans hspawn
    · cases hmon.symm.trans hpoll
  | caller answer => exact (@callerStep_running {} s h _ locals hmon answer).2.2 hacts
  | _ => exact hacts

/-- **Along a run** a child that is given up is counted at one step, at which it is gone, or it is given up to the end. -/
theorem run_settles {child : Nat} {loss : Loss} (h : Owns s) (hgives : GivesUp s child loss) (middle : List LlamaStep) :
    GivesUp (run (step config) s middle) child loss ∨
    ∃ first counting second, middle = first ++ counting :: second ∧
      (run (step config) s first).restartCount = s.restartCount ∧
      (run (step config) s (first ++ [counting])).restartCount = s.restartCount + 1 ∧
      (run (step config) s (first ++ [counting])).lastError = Loss.error loss ∧
      Nothing (run (step config) s (first ++ [counting])) := by
  induction middle generalizing s with
  | nil => exact .inl hgives
  | cons call middle ih =>
    rcases @step_settles config s h child loss hgives call with ⟨hstill, hcount⟩ | ⟨hcount, herror, hnothing⟩
    · rcases ih (step_owns config s call h) hstill with hend | ⟨first, counting, second, rfl, hsettled⟩
      · exact .inl hend
      · rw [hcount] at hsettled
        exact .inr ⟨call :: first, counting, second, rfl, hsettled⟩
    · exact .inr ⟨[], call, middle, rfl, rfl, hcount, herror, hnothing⟩

/-! ## The spawns of `MonitorLoop` -/

/-- A spawn has used up one of `restart_attempts`. -/
@[simp] def used (locals : MonitorLocals) : MonitorPlace → Int
  | .restart | .restartWait | .startup .spawn => locals.restartAttempts - 1
  | _ => locals.restartAttempts

/-- The attempts are within the limit. -/
@[simp] def Within (limit : Int) (locals : MonitorLocals) : MonitorPlace → Prop
  | .restart => 1 ≤ locals.restartAttempts ∧ locals.restartAttempts ≤ max limit 0 + 1
  | .restartWait | .startup _ | .restartFailed _ => 1 ≤ locals.restartAttempts ∧ locals.restartAttempts ≤ limit
  | _ => 0 ≤ locals.restartAttempts ∧ locals.restartAttempts ≤ max limit 0

def MonitorWithin (limit : Int) : MonitorThread → Prop
  | .running place locals => Within limit locals place
  | .none | .ended => True

/-- The spawns that are left until a probe succeeds. -/
def allowance (limit : Int) : MonitorThread → Int
  | .running place locals => max limit 0 - used locals place
  | .none | .ended => 0

def spawns (event : Option LlamaEvent) : Int := (event.toList.countP isMonitorSpawn : Nat)

theorem allowance_bounds {limit : Int} {monitor : MonitorThread} (h : MonitorWithin limit monitor) :
    0 ≤ allowance limit monitor ∧ allowance limit monitor ≤ max limit 0 := by
  cases monitor with
  | none | ended =>
    simp only [allowance]
    omega
  | running place locals =>
    simp only [MonitorWithin, allowance] at h ⊢
    cases place with
    | startup place => cases place <;> simp only [used, Within] at h ⊢ <;> omega
    | _ => simp only [used, Within] at h ⊢; omega

/-- No spawn without an attempt. -/
def Allows (limit : Int) (place : MonitorPlace) (locals : MonitorLocals)
    (next : LlamaServerProcess × Option LlamaEvent) : Prop :=
  MonitorWithin limit next.1.monitor ∧
    (next.2 ≠ some .healthy → spawns next.2 + allowance limit next.1.monitor ≤ max limit 0 - used locals place)

theorem allows_ends {locals : MonitorLocals} {place : MonitorPlace}
    (h : Within config.restartLimit locals place) {event : Option LlamaEvent} (hspawns : spawns event = 0)
    (hmon : s.monitor = .ended) : Allows config.restartLimit place locals (s, event) := by
  have hbounds := @allowance_bounds config.restartLimit (.running place locals) h
  refine ⟨?_, fun _ => ?_⟩
  · rw [hmon]
    trivial
  · rw [hspawns, hmon]
    simp only [allowance] at hbounds ⊢
    omega

theorem used_startup (locals : MonitorLocals) {place : StartupPlace} (hplace : place ≠ .spawn) :
    used locals (.startup place) = locals.restartAttempts := by
  cases place <;> first | rfl | exact absurd rfl hplace

theorem monitorStartupStep_allows {locals : MonitorLocals} {place : StartupPlace}
    (h : Within config.restartLimit locals (.startup place)) (answer : SystemAnswer) :
    Allows config.restartLimit (.startup place) locals (s.monitorStartupStep config locals place answer) := by
  -- a spawn takes the attempt that was not used up before
  have hspawn : ∀ next, spawns (startupEvent true place next) + used locals (.startup place) ≤
      locals.restartAttempts := by
    intro next
    cases hevent : startupEvent true place next with
    | none =>
      have husedspawn : used locals (.startup .spawn) = locals.restartAttempts - 1 := rfl
      by_cases hplace : place = .spawn
      · subst hplace
        simp only [spawns, Option.toList_none, countP_nil]
        omega
      · rw [used_startup locals hplace]
        simp [spawns]
    | some event =>
      obtain ⟨rfl, child, -, rfl⟩ := startupEvent_some hevent
      have hone : spawns (some (.spawned true child)) = 1 := rfl
      have hused : used locals (.startup .spawn) = locals.restartAttempts - 1 := rfl
      omega
  have hnext := (startupStep_same config s answer place).spawned
  unfold monitorStartupStep
  revert hnext
  generalize s.startupStep config answer place = next
  obtain ⟨s', next⟩ := next
  intro hnext
  have hspawn := hspawn next
  cases next with
  | goesOn place' =>
    refine ⟨h, fun _ => ?_⟩
    have hused := @used_startup locals place' (fun hplace => hnext (by rw [hplace]))
    simp only [allowance] at hused ⊢
    omega
  | succeeds =>
    simp only [Within] at h
    refine ⟨?_, fun _ => ?_⟩
    · simp only [MonitorWithin, Within]
      omega
    · simp only [allowance]
      have hused : used { locals with healthFailures := 0 } .watch = locals.restartAttempts := rfl
      omega
  | fails error =>
    refine ⟨h, fun _ => ?_⟩
    simp only [allowance]
    have hused : used locals (.restartFailed error) = locals.restartAttempts := rfl
    omega

theorem allows_goes {locals locals' : MonitorLocals} {place place' : MonitorPlace}
    (hmon : s'.monitor = .running place' locals') (hwithin : Within config.restartLimit locals' place')
    (hused : used locals place ≤ used locals' place') : Allows config.restartLimit place locals (s', none) := by
  refine ⟨?_, fun _ => ?_⟩ <;> rw [hmon]
  · exact hwithin
  · simp only [allowance, spawns, Option.toList_none, countP_nil]
    omega

theorem monitorPlaceStep_allows {locals : MonitorLocals} {place : MonitorPlace}
    (h : Within config.restartLimit locals place) (answer : SystemAnswer) :
    Allows config.restartLimit place locals (s.monitorPlaceStep config locals answer place) := by
  cases place with
  | restart =>
    simp only [monitorPlaceStep, restartStep]
    split
    · exact allows_ends h rfl rfl
    · rename_i hlimit
      simp only [Within] at h
      refine allows_goes rfl ?_ (Int.le_refl _)
      simp only [Within]
      omega
  | restartWait =>
    simp only [monitorPlaceStep, restartWaitStep]
    split
    · exact allows_ends h rfl rfl
    · exact allows_goes rfl h (Int.le_refl _)
  | startup place => exact monitorStartupStep_allows h answer
  | restartFailed error =>
    simp only [monitorPlaceStep, restartFailedStep]
    split
    · exact allows_ends h rfl rfl
    · simp only [Within] at h
      refine allows_goes rfl ?_ ?_
      · simp only [Within]
        omega
      · simp only [used]
        omega
  | watch =>
    simp only [monitorPlaceStep, watchStep]
    split
    · exact allows_ends h rfl rfl
    split <;> exact allows_goes rfl h (Int.le_refl _)
  | poll child =>
    simp only [monitorPlaceStep, pollStep]
    split
    · split <;> exact allows_goes rfl h (Int.le_refl _)
    · exact allows_goes rfl h (Int.le_refl _)
    · split <;> exact allows_goes rfl h (Int.le_refl _)
    · exact allows_goes rfl h (Int.le_refl _)
  | probe child =>
    simp only [monitorPlaceStep, monitorProbeStep]
    split
    · refine ⟨?_, fun hhealthy => absurd rfl hhealthy⟩
      simp only [MonitorWithin, Within]
      omega
    · split <;> exact allows_goes rfl h (Int.le_refl _)
  | reap child loss place =>
    simp only [monitorPlaceStep, monitorReapStep]
    split <;> exact allows_goes rfl h (Int.le_refl _)
  | lost child loss =>
    simp only [Within] at h
    refine allows_goes rfl ?_ ?_
    · simp only [Within]
      omega
    · simp only [used]
      omega
  | waitFailed errno => exact allows_goes rfl h (Int.le_refl _)

theorem isMonitorSpawn_eq_false {event : LlamaEvent} (h : isMonitorEvent event = false) :
    isMonitorSpawn event = false := by
  cases event <;> first | rfl | exact h

theorem spawns_eq_zero {event : Option LlamaEvent} (h : ∀ e ∈ event, isMonitorSpawn e = false) : spawns event = 0 := by
  cases event with
  | none => rfl
  | some e => simp [spawns, h e rfl]

/-- **Each spawn of `MonitorLoop` is one of those it had left.** -/
theorem step_allowance (config : LlamaServerProcessConfig) (s : LlamaServerProcess) (call : LlamaStep)
    (h : MonitorWithin config.restartLimit s.monitor) :
    MonitorWithin config.restartLimit (s.step config call).1.monitor ∧
      ((s.step config call).2 ≠ some .healthy → (s.step config call).2 ≠ some .started →
        spawns (s.step config call).2 + allowance config.restartLimit (s.step config call).1.monitor ≤
          allowance config.restartLimit s.monitor) := by
  have hsame : ∀ {next : LlamaServerProcess × Option LlamaEvent}, next.1.monitor = s.monitor →
      (∀ event ∈ next.2, isMonitorSpawn event = false) → MonitorWithin config.restartLimit next.1.monitor ∧
      (next.2 ≠ some .healthy → next.2 ≠ some .started →
        spawns next.2 + allowance config.restartLimit next.1.monitor ≤ allowance config.restartLimit s.monitor) := by
    intro next hmon hevent
    rw [hmon, spawns_eq_zero hevent, Int.zero_add]
    exact ⟨h, fun _ _ => Int.le_refl _⟩
  have hother := @step_other config s call
  cases call with
  | caller answer =>
    rcases @callerStep_moves config s answer with ⟨hmon, -, hevent⟩ | ⟨hevent, hnone, hmon, -⟩ |
      ⟨hevent, -, hmon, -⟩ | ⟨hevent, -, hmon, -⟩
    · exact hsame hmon (fun event hmem => isMonitorSpawn_eq_false (hevent event hmem).1)
    · exact hsame (hmon.trans hnone.symm) (fun event hmem => by cases hevent.symm.trans hmem; rfl)
    · refine ⟨?_, fun _ hstarted => absurd hevent hstarted⟩
      show MonitorWithin _ (s.callerStep config answer).1.monitor
      rw [hmon]
      simp only [MonitorWithin, Within]
      omega
    · have hbounds := allowance_bounds h
      show MonitorWithin _ (s.callerStep config answer).1.monitor ∧ (_ → _ →
        spawns (s.callerStep config answer).2 + allowance _ (s.callerStep config answer).1.monitor ≤ _)
      rw [hmon, hevent]
      refine ⟨trivial, fun _ _ => ?_⟩
      exact hbounds.1
  | monitor answer =>
    simp only [step, monitorStep]
    split
    · rename_i place locals hmon
      rw [hmon] at h ⊢
      have hallows : Allows config.restartLimit place locals (s.monitorPlaceStep config locals answer place) :=
        monitorPlaceStep_allows h answer
      exact ⟨hallows.1, fun hhealthy _ => hallows.2 hhealthy⟩
    · exact hsame rfl (by rintro _ ⟨⟩)
    · exact hsame rfl (by rintro _ ⟨⟩)
  | _ =>
    refine hsame (hother rfl).monitor fun event hevent => ?_
    obtain ⟨error, rfl⟩ := (hother rfl).refused event hevent
    rfl

theorem after_within (config : LlamaServerProcessConfig) (steps : List LlamaStep) :
    MonitorWithin config.restartLimit (after config steps).monitor := by
  have hstart : MonitorWithin config.restartLimit ({} : LlamaServerProcess).monitor := trivial
  exact @run_invariant _ _ _ (step config) (fun s => MonitorWithin config.restartLimit s.monitor)
    (fun s call h => (step_allowance config s call h).1) {} hstart steps

theorem events_cons (config : LlamaServerProcessConfig) (s : LlamaServerProcess) (call : LlamaStep)
    (steps : List LlamaStep) :
    events config s (call :: steps) = (s.step config call).2.toList ++ events config (s.step config call).1 steps := by
  unfold events
  rw [trace, filterMap_cons]
  cases (s.step config call).2 <;> rfl

theorem events_spawns {config : LlamaServerProcessConfig} {s : LlamaServerProcess}
    (h : MonitorWithin config.restartLimit s.monitor) {window : List LlamaStep}
    (hhealthy : .healthy ∉ events config s window) (hstarted : .started ∉ events config s window) :
    ((events config s window).countP isMonitorSpawn : Int) ≤ allowance config.restartLimit s.monitor := by
  induction window generalizing s with
  | nil => exact (allowance_bounds h).1
  | cons call window ih =>
    rw [events_cons] at hhealthy hstarted ⊢
    rw [List.mem_append, not_or] at hhealthy hstarted
    obtain ⟨hnext, hle⟩ := step_allowance config s call h
    have hrest := ih hnext hhealthy.2 hstarted.2
    have hhere := hle (fun hevent => hhealthy.1 (by rw [hevent]; exact List.mem_singleton.mpr rfl))
      (fun hevent => hstarted.1 (by rw [hevent]; exact List.mem_singleton.mpr rfl))
    rw [countP_append, Int.natCast_add]
    unfold spawns at hhere
    omega

/-! ## Behind the limit -/

/-- Behind the limit nobody spawns. -/
def Quiet (s : LlamaServerProcess) : Prop :=
  (s.monitor = .none ∨ s.monitor = .ended) ∧
    (s.caller = .idle ∨ s.caller = .startSection ∨ s.caller = .join ∨ s.caller = .take ∨
      ∃ child place, s.caller = .reap child place)

theorem step_quiet (h : Quiet s) {call : LlamaStep} (hbegins : (s.step config call).2 ≠ some .startBegins) :
    Quiet (s.step config call).1 ∧ ∀ event ∈ (s.step config call).2, isSpawn event = false := by
  obtain ⟨hmon, hcaller⟩ := h
  have hother := @step_other config s call
  cases call with
  | caller answer =>
    simp only [step, callerStep] at hbegins ⊢
    rcases hcaller with hat | hat | hat | hat | ⟨child, place, hat⟩ <;> simp only [hat] at hbegins ⊢
    · exact ⟨⟨hmon, .inl hat⟩, nofun⟩
    · unfold startSectionStep at hbegins ⊢
      split
      · exact ⟨⟨hmon, .inl rfl⟩, by rintro _ ⟨⟩; rfl⟩
      · rename_i hfree
        rw [if_neg hfree] at hbegins
        exact absurd rfl hbegins
    · unfold joinStep
      rcases hmon with hmon | hmon <;> rw [hmon] <;>
        exact ⟨⟨.inl rfl, .inr (.inr (.inr (.inl rfl)))⟩, nofun⟩
    · unfold takeStep
      dsimp only
      split
      · exact ⟨⟨hmon, .inr (.inr (.inr (.inr ⟨_, _, rfl⟩)))⟩, nofun⟩
      · exact ⟨⟨hmon, .inl rfl⟩, by rintro _ ⟨⟩; rfl⟩
    · unfold callerReapStep
      split
      · exact ⟨⟨hmon, .inr (.inr (.inr (.inr ⟨_, _, rfl⟩)))⟩, nofun⟩
      · exact ⟨⟨hmon, .inl rfl⟩, by rintro _ ⟨⟩; rfl⟩
  | monitor answer =>
    simp only [step, monitorStep]
    rcases hmon with hnone | hnone <;> rw [hnone]
    · exact ⟨⟨.inl hnone, hcaller⟩, nofun⟩
    · exact ⟨⟨.inr hnone, hcaller⟩, nofun⟩
  | _ =>
    obtain ⟨hsame, -, -, hgoes, hrefused⟩ := hother rfl
    refine ⟨⟨by rw [hsame]; exact hmon, ?_⟩, fun event hevent => ?_⟩
    · rcases hgoes with hgoes | ⟨-, hgoes | hgoes | hgoes⟩
      · rw [hgoes]
        exact hcaller
      · exact .inl hgoes
      · exact .inr (.inl hgoes)
      · exact .inr (.inr (.inl hgoes))
    · obtain ⟨error, rfl⟩ := hrefused event hevent
      rfl

theorem events_quiet {config : LlamaServerProcessConfig} {s : LlamaServerProcess} (h : Quiet s)
    {window : List LlamaStep} (hbegins : .startBegins ∉ events config s window) :
    (events config s window).countP isSpawn = 0 := by
  induction window generalizing s with
  | nil => rfl
  | cons call window ih =>
    rw [events_cons] at hbegins ⊢
    rw [List.mem_append, not_or] at hbegins
    obtain ⟨hnext, hevent⟩ := @step_quiet config s h call
      (fun hevent => hbegins.1 (by rw [hevent]; exact List.mem_singleton.mpr rfl))
    rw [countP_append, ih hnext hbegins.2, Nat.add_zero, countP_eq_zero]
    intro event hmem
    rw [hevent event (Option.mem_toList.mp hmem)]
    exact Bool.false_ne_true

/-- **Behind the limit there is no monitor.** -/
theorem limitExceeded_quiet (h : Owns s) {call : LlamaStep} (hevent : (s.step config call).2 = some .limitExceeded) :
    Quiet (s.step config call).1 := by
  have hother := @step_other config s call
  cases call with
  | caller answer =>
    have hevent : (s.callerStep config answer).2 = some .limitExceeded := hevent
    rcases @callerStep_moves config s answer with ⟨-, -, hnot⟩ | ⟨hnot, -⟩ | ⟨hnot, -⟩ | ⟨hnot, -⟩
    · cases (hnot .limitExceeded hevent).1
    all_goals cases hevent.symm.trans hnot
  | monitor answer =>
    simp only [step, monitorStep] at hevent ⊢
    cases hmon : s.monitor with
    | none | ended =>
      rw [hmon] at hevent
      cases hevent
    | running place locals =>
      rw [hmon] at hevent
      dsimp only at hevent ⊢
      obtain ⟨hcaller, -⟩ := h.monitor (by rw [hmon]; nofun)
      rcases (monitorPlaceStep_tells ..).2 _ hevent with ⟨-, child, hspawned⟩ | ⟨child, -, hhealthy⟩ | ⟨rfl, -⟩
      · cases hspawned
      · cases hhealthy
      · simp only [monitorPlaceStep, restartStep] at hevent ⊢
        split at hevent
        · rename_i hlimit
          rw [if_pos hlimit]
          refine ⟨.inr rfl, ?_⟩
          rcases hcaller with hcaller | hcaller | hcaller
          · exact .inl hcaller
          · exact .inr (.inl hcaller)
          · exact .inr (.inr (.inl hcaller))
        · cases hevent
  | _ => exact nomatch (hother rfl).refused _ hevent

/-! ## The law holds -/

/-- **The supervisor has one child at most**, whatever the callers, the children and the system do. -/
theorem one_child (config : LlamaServerProcessConfig) (steps : List LlamaStep) : OneChild config steps := by
  constructor
  case one =>
    rcases (after_owns config steps).runs_or_unready with hruns | ⟨-, child, honly⟩
    · exact hruns.children.length_le
    · exact honly.length_le
  case stopped =>
    intro before call rest _ hevent
    obtain ⟨answer, rfl⟩ := step_caller_of_event hevent ⟨nofun, nofun, nofun⟩ nofun
    exact (callerStep_leaves (after_owns config before) answer).nothing _ hevent rfl
  case failed =>
    intro before call rest error _ hevent
    obtain ⟨answer, rfl⟩ := step_caller_of_event hevent ⟨nofun, nofun, nofun⟩ nofun
    exact (callerStep_leaves (after_owns config before) answer).nothing _ hevent rfl
  case ready =>
    intro hready
    rcases (after_owns config steps).runs_or_unready with hruns | hunready
    · exact ⟨hruns.pid, hruns.probed⟩
    · cases hunready.1.symm.trans hready
  case restarts =>
    intro before window rest _ hhealthy hstarted
    have hwithin := after_within config before
    exact Int.le_trans (events_spawns hwithin hhealthy hstarted) (allowance_bounds hwithin).2
  case exceeded =>
    intro before call window rest _ hevent hbegins
    have hquiet := limitExceeded_quiet (after_owns config before) hevent
    change Quiet (run (step config) (after config before) [call]) at hquiet
    rw [← after_append] at hquiet
    exact events_quiet hquiet hbegins
  case counted => exact (after_counted config steps).restarts
  case found =>
    intro before call rest child loss _ hfound
    obtain ⟨hready, hpid, -, hgives⟩ :=
      findsLost_found (after_owns config before) (after_counted config before).failures hfound
    rw [after_append]
    exact ⟨hready, hpid, hgives⟩
  case lost =>
    intro before call middle next rest child loss _ hfound hacts
    have howns := after_owns config before
    obtain ⟨-, -, hcount, hgives⟩ := findsLost_found howns (after_counted config before).failures hfound
    have hruns : ∀ steps, after config (before ++ call :: steps) =
        run (step config) (step config (after config before) call).1 steps := fun steps => after_append config before _
    simp only [hruns] at hacts ⊢
    rw [← hcount]
    rcases @run_settles config _ child loss (step_owns config _ call howns) hgives middle with hend | hsettled
    · refine absurd hacts (GivesUp.not_pollsOrSpawns ?_ hend next)
      rw [← hruns]
      exact after_owns config _
    · exact hsettled

end LlamaServerProcess

end Cockpit.Llm
