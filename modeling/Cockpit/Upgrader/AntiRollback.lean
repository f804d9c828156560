/-
  Anti-rollback over whole histories.

  The floor is written in one place only, and only to raise it; every other operation leaves it alone — but for
  one. `LoadTransaction` takes a dot-dot for a version, and recovery of an unconfirmed record then removes
  `releases/..`, which is the install root with the floor in it.  `InstallUpgrade` never writes such a record,
  so it can only have been there from the start.
-/
import Cockpit.Upgrader.Procedures

namespace Cockpit.Upgrader

open Durable StepRun

/-! ## The law -/

/-- The floor may appear and rise, but not fall or become unreadable. -/
def FloorLe (before after : InstallRoot) : Prop :=
  ∀ floor, before.floorVersion = some floor → ∃ floor', after.floorVersion = some floor' ∧ floor ≤ floor'

/-- A candidate that may be installed: newer than the floor and than the active release. -/
def LaunchAllowed (root : InstallRoot) : FsOp → Prop
  | .launchInstaller version => ∃ candidate, versionOf version = some candidate ∧
      (∀ floor, root.floorVersion = some floor → floor < candidate) ∧
      ∀ target, root.current = .link target →
        ∃ active, versionOf target.filename = some active ∧ active < candidate
  | _ => True

/-- The version has a number, and the floor is not below it. -/
def FloorReached (version : Name) (root : InstallRoot) : Prop :=
  ∃ v, versionOf version = some v ∧ root.FloorAtLeast v

/-- What one call guarantees, however it ends. -/
structure FloorLaw (h : Host) (call : UpgradeCall) : Prop where
  monotone : FloorLe h.root (step h call).1.root
  confirmed : ∀ version answers, call = .confirm version answers → (step h call).2.isTrue = true →
    FloorReached version (step h call).1.root
  recovered : ∀ answers t, call = .recover answers → loadTransaction h.root.transaction = .ok t →
    t.state = .confirmed → (step h call).2.isTrue = true → FloorReached t.version (step h call).1.root
  launched : h.Allowed LaunchAllowed → (step h call).1.Allowed LaunchAllowed

/-- The call does not recover an unconfirmed record whose version is dot-dot. -/
def StaysBelowReleases (h : Host) : UpgradeCall → Prop
  | .recover _ => ∀ t, loadTransaction h.root.transaction = .ok t → t.state ≠ .confirmed →
      t.version ≠ dotDot
  | _ => True

/-! ## The invariant of a call -/

theorem FloorLe.refl (root : InstallRoot) : FloorLe root root :=
  fun floor hfloor => ⟨floor, hfloor, Version.le_refl floor⟩

theorem FloorLe.trans {a b c : InstallRoot} (hab : FloorLe a b) (hbc : FloorLe b c) : FloorLe a c := by
  intro floor hfloor
  obtain ⟨floor', hfloor', hle⟩ := hab floor hfloor
  obtain ⟨floor'', hfloor'', hle'⟩ := hbc floor' hfloor'
  exact ⟨floor'', hfloor'', Version.le_trans hle hle'⟩

theorem FloorLe.of_eq {a b : InstallRoot} (h : b.floor = a.floor) : FloorLe a b := by
  have hver : b.floorVersion = a.floorVersion := by simp [InstallRoot.floorVersion, h]
  intro floor hfloor
  exact ⟨floor, by rw [hver, hfloor], Version.le_refl floor⟩

/-- Since `start`, the floor has not fallen, and nothing was launched that must not be. -/
structure FloorKept (start : InstallRoot) (log : List (InstallRoot × FsOp)) (h : Host) : Prop where
  floor : FloorLe start h.root
  launches : (∀ entry ∈ log, LaunchAllowed entry.1 entry.2) → h.Allowed LaunchAllowed

namespace FloorKept

variable {start : InstallRoot} {log : List (InstallRoot × FsOp)} {h : Host}

theorem rfl' (h : Host) : FloorKept h.root h.log h := ⟨FloorLe.refl _, fun hlog => hlog⟩

theorem perform {op : FsOp} (hh : FloorKept start log h) (hfloor : FloorLe h.root (op.apply h.root))
    (hlaunch : LaunchAllowed h.root op) : FloorKept start log (h.perform op) :=
  ⟨hh.floor.trans hfloor, fun hlog => (hh.launches hlog).perform hlaunch⟩

theorem removeRelease {name : Name} (hh : FloorKept start log h) (hname : name ≠ dotDot) :
    FloorKept start log (h.perform (.removeRelease name)) := by
  refine hh.perform (FloorLe.of_eq ?_) trivial
  show (h.root.removeRelease name).floor = h.root.floor
  unfold InstallRoot.removeRelease
  rw [if_neg hname]
  split <;> rfl

theorem rollbackKeeps (previousRelease : Path) : RollbackKeeps (FloorKept start log) previousRelease where
  unlinkNew _ hh := hh.perform (FloorLe.of_eq rfl) trivial
  unlinkCurrent _ _ hh := hh.perform (FloorLe.of_eq rfl) trivial
  linkNew _ _ hh := hh.perform (FloorLe.of_eq rfl) trivial
  renameCurrent _ _ hh _ := hh.perform (FloorLe.of_eq rfl) trivial
  removeFailed name hsafe _ _ hh _ := by
    obtain ⟨name', hpath, -, hname⟩ := isSafeReleaseTarget_iff.1 hsafe
    obtain rfl := releasePath_inj.1 hpath
    exact hh.removeRelease hname.2

theorem installerKeeps (version : Name) : InstallerKeeps (FloorKept start log) version where
  makeRelease _ hh := hh.perform (FloorLe.of_eq rfl) trivial
  linkNew _ hh := hh.perform (FloorLe.of_eq rfl) trivial
  renameCurrent _ hh _ _ := hh.perform (FloorLe.of_eq rfl) trivial

theorem persist {answers : FloorStep → Answer} (version : Name) :
    Triple answers (FloorKept start log) (persistVersionFloor version)
      (fun _ h => FloorKept start log h ∧ FloorReached version h.root) (FloorKept start log) := by
  rcases hver : versionOf version with _ | v
  · exact persistVersionFloor_triple_none hver fun _ hh => hh
  · refine persistVersionFloor_triple hver (fun _ _ hh => hh) (fun _ hh _ => hh)
      (fun _ _ hh _ => hh) ?_ (fun _ _ hh => hh) (fun _ _ hh => hh.1) ?_
    · intro _ _ h hh hbelow
      have hwritten : (h.perform (.writeFloor version)).root.floorVersion = some v := hver
      refine ⟨hh.perform ?_ trivial, v, hver, v, hwritten, Version.le_refl v⟩
      intro floor hfloor
      exact ⟨v, hwritten, Version.le_of_lt (hbelow floor hfloor)⟩
    · intro _ h hh hfloor
      exact ⟨hh, v, hver, v, hfloor, Version.le_refl v⟩

theorem write {answers : WriteStep → Answer} (t : UpgradeTransaction) :
    Triple answers (FloorKept start log) (saveTransaction t) (fun _ => FloorKept start log) (FloorKept start log) :=
  writeYaml_triple (fun _ _ hh => hh) (fun _ _ hh => hh.perform (FloorLe.of_eq rfl) trivial)
    (fun _ _ hh => hh) fun _ _ hh => hh

theorem recover {answers : RecoverStep → Answer} {g : Host} (hg : FloorKept start log g)
    (hbelow : ∀ t, loadTransaction g.root.transaction = .ok t → t.state ≠ .confirmed →
      t.version ≠ dotDot) : Triple answers (· = g) recoverInterruptedUpgrade
      (fun _ h => FloorKept start log h ∧ ∀ t, loadTransaction g.root.transaction = .ok t →
        t.state = .confirmed → FloorReached t.version h.root) (FloorKept start log) := by
  have hstart : ∀ h, h = g → FloorKept start log h := by
    rintro _ rfl
    exact hg
  refine recoverInterruptedUpgrade_triple
    (S := fun t h => loadTransaction g.root.transaction = .ok t ∧ FloorKept start log h ∧
      (t.state = .confirmed → FloorReached t.version h.root))
    (fun h hh _ => hstart h hh) ?_ ?_ (fun _ _ _ hh => hh.2.1) ?_ fun _ hh => hh.1
  · rintro _ rfl hnone
    refine ⟨hg, fun t hload => ?_⟩
    rw [hnone] at hload
    exact absurd hload (by simp [loadTransaction])
  · intro _ _ t hwell
    refine .of_state fun h hh => ?_
    obtain ⟨rfl, hrecord⟩ := hh
    have hload : loadTransaction h.root.transaction = .ok t := loadTransaction_eq_ok.2 ⟨hrecord, hwell⟩
    refine .ite (fun hconf => ?_) fun hunconfirmed => ?_
    · refine completeConfirmed_triple (fun h hh _ => hstart h hh) fun _ =>
        (persist t.version).mono ?_ ?_ fun _ hh => hh
      · exact fun g hh => hstart g hh.1
      · exact fun _ _ hh => ⟨hload, hh.1, fun _ => hh.2⟩
    · refine (undoTransaction_triple (rollbackKeeps t.previousRelease)
        (D := FloorKept start log) ?_ fun _ hh => hh).mono hstart ?_ fun _ hh => hh
      · exact fun _ hh _ => hh.removeRelease (hbelow t hload hunconfirmed)
      · exact fun _ _ hh => ⟨hload, hh, fun hconf => absurd hconf hunconfirmed⟩
  · rintro - t h ⟨hload, hh, hreached⟩
    refine ⟨hh.perform (FloorLe.of_eq rfl) trivial, fun t' hload' hconf => ?_⟩
    rw [hload] at hload'
    obtain rfl := Except.ok.inj hload'
    exact hreached hconf

theorem confirm (version : Name) (answers : ConfirmStep → Answer) :
    Triple answers (FloorKept start log) (confirmUpgrade version)
      (fun _ h => FloorKept start log h ∧ FloorReached version h.root) (FloorKept start log) := by
  refine confirmUpgrade_triple (fun _ hh _ => hh) ?_
  rintro - - t - - rfl
  refine (settleTransaction_triple (write _) (persist t.version) ?_ ?_ ?_).mono ?_
    (fun _ _ hh => hh.2) fun _ hh => hh
  · exact fun _ _ hh => hh.1
  · exact fun _ _ hh => ⟨hh.1.perform (FloorLe.of_eq rfl) trivial, hh.2⟩
  · exact fun _ _ hh => hh.1
  · exact fun _ hh => hh.1

theorem rollback (previousRelease : Path) (answers : RollbackStep → Answer) :
    Triple answers (FloorKept start log) (rollbackUpgrade previousRelease)
      (fun _ => FloorKept start log) (FloorKept start log) :=
  (rollbackUpgrade_triple (rollbackKeeps previousRelease)).mono (fun _ hh => hh)
    (fun _ _ hh => hh.1) fun _ hh => hh

theorem launchAllowed {root : InstallRoot} {request : UpgradeRequest} {previousRelease : Path}
    (hacc : Accepted root request previousRelease) : LaunchAllowed root (.launchInstaller request.version) := by
  obtain ⟨candidate, hver, hnewer⟩ := checkAntiRollback_eq_ok hacc.newer
  refine ⟨candidate, hver, hnewer.floor, fun target htarget => ?_⟩
  rw [(previousReleaseOf_eq_ok hacc.previous).1, Entry.ofRelease] at htarget
  split at htarget
  · exact absurd htarget (by simp)
  · rename_i hnonempty
    obtain rfl := Entry.link.inj htarget
    exact hnewer.active (by simpa using hnonempty)

/-- The record of an upgrade of `version` is on file. -/
def OnRecord (version : Name) (h : Host) : Prop :=
  ∃ t : UpgradeTransaction, h.root.transaction = some t.file ∧ t.version = version

theorem install (request : UpgradeRequest) (answers : InstallStep → Answer) :
    Triple answers (FloorKept start log) (installUpgrade request) (fun _ => FloorKept start log)
      (FloorKept start log) := by
  refine installUpgrade_triple (fun _ hh => hh) ?_
  intro root previousRelease hacc
  have hlaunch := launchAllowed hacc
  obtain ⟨candidate, hver, -⟩ := checkAntiRollback_eq_ok hacc.newer
  have hname : request.version ≠ dotDot := versionOf_ne_none hver (by decide)
  refine (installTransaction_triple
    (P := fun h => FloorKept start log h ∧ OnRecord request.version h ∧
      LaunchAllowed h.root (.launchInstaller request.version))
    (I := fun h => FloorKept start log h ∧ OnRecord request.version h)
    (D := fun h => FloorKept start log h ∧ OnRecord request.version h)
    (writeYaml_triple ?_ ?_ (fun _ _ hh => hh) ?_) ?_ ?_ ?_ (writeYaml_triple ?_ ?_ (fun _ _ hh => hh) ?_) ?_ ?_).mono (fun _ hh => hh)
    (fun _ _ hh => hh.2.1) fun _ hh => hh
  · exact fun _ _ hh => hh.2
  · rintro - h ⟨rfl, hh⟩
    exact ⟨hh.perform (FloorLe.of_eq rfl) trivial, ⟨_, rfl, rfl⟩, hlaunch⟩
  · exact fun _ _ hh => hh.1
  · exact fun _ hh => ⟨hh.1, hh.2.1⟩
  · exact fun _ hh => ⟨hh.1.perform (FloorLe.of_eq rfl) hh.2.2, hh.2.1⟩
  · exact {
      makeRelease := fun h hh => ⟨(installerKeeps _).makeRelease h hh.1, hh.2⟩
      linkNew := fun h hh => ⟨(installerKeeps _).linkNew h hh.1, hh.2⟩
      renameCurrent := fun h hh hmem hnew => ⟨(installerKeeps _).renameCurrent h hh.1 hmem hnew, hh.2⟩ }
  · exact fun _ _ hh => hh.1
  · rintro - h ⟨⟨hh, -⟩, -⟩
    exact ⟨hh.perform (FloorLe.of_eq rfl) trivial, _, rfl, rfl⟩
  · exact fun _ _ hh => hh
  · refine .of_state fun g hg => (recover hg.1 ?_).mono (fun _ hh => hh) (fun _ _ hh => hh.1)
      fun _ hh => hh
    intro t hload _
    obtain ⟨t', hrecord, hver'⟩ := hg.2
    have hfile : t'.file = t.file := Option.some.inj (hrecord.symm.trans (loadTransaction_eq_ok.1 hload).1)
    obtain rfl := UpgradeTransaction.file_inj.1 hfile
    rw [hver']
    exact hname
  · exact fun _ hh => hh.1

end FloorKept

/-! ## Calls and histories -/

/-- **One call**: the law holds unless the call recovers an unconfirmed dot-dot. -/
theorem floorLaw {h : Host} {call : UpgradeCall} (hbelow : StaysBelowReleases h call) : FloorLaw h call := by
  have hstart := FloorKept.rfl' h
  have law (hkept : FloorKept h.root h.log (step h call).1)
      (hconf : ∀ version answers, call = .confirm version answers →
        (step h call).2.isTrue = true → FloorReached version (step h call).1.root)
      (hrecovered : ∀ answers t, call = .recover answers → loadTransaction h.root.transaction = .ok t →
        t.state = .confirmed → (step h call).2.isTrue = true →
        FloorReached t.version (step h call).1.root) : FloorLaw h call :=
    ⟨hkept.floor, hconf, hrecovered, hkept.launches⟩
  cases call with
  | install request answers =>
    exact law ((FloorKept.install request answers).anyway hstart fun _ _ hh => hh) nofun nofun
  | confirm version answers =>
    have htriple := (FloorKept.confirm version answers :
      Triple answers (FloorKept h.root h.log) _ _ _)
    refine law (htriple.anyway hstart fun _ _ hh => hh.1) ?_ nofun
    rintro _ _ ⟨⟩ htrue
    obtain ⟨value, hret⟩ := conclude_isTrue htrue
    exact (htriple.returned hstart hret).2
  | rollback previousRelease answers =>
    exact law ((FloorKept.rollback previousRelease answers).anyway hstart fun _ _ hh => hh) nofun nofun
  | recover answers =>
    have htriple := (FloorKept.recover hstart hbelow : Triple answers _ _ _ _)
    refine law (htriple.anyway rfl fun _ _ hh => hh.1) nofun ?_
    rintro _ t ⟨⟩ hload hstate htrue
    obtain ⟨value, hret⟩ := conclude_isTrue htrue
    exact (htriple.returned rfl hret).2 t hload hstate

/-- **Anti-rollback over whole histories.**  In every run of upgrader calls, cut off anywhere, in which
    no unconfirmed dot-dot is recovered, every call keeps the law, and every installer ever started
    was one for a release newer than the floor and the active release of that moment. -/
theorem floor_never_falls (start : InstallRoot) (calls : List UpgradeCall)
    (hbelow : Along step StaysBelowReleases (Host.ofRoot start) calls) :
    Along step FloorLaw (Host.ofRoot start) calls ∧
      (run step (Host.ofRoot start) calls).Allowed LaunchAllowed := by
  refine ⟨hbelow.mono fun h call hcall => floorLaw hcall, ?_⟩
  refine Along.invariant (fun h call hlaunches hcall => (floorLaw hcall).launched hlaunches) ?_ hbelow
  exact fun entry hmem => absurd hmem List.not_mem_nil

theorem floor_never_falls_upgrade :
    let root : InstallRoot := { current := .absent, currentNew := .absent, releases := [],
                                transaction := none, floor := some [['1', '.', '2', '.', '9']] }
    let request : UpgradeRequest := { version := ['1', '.', '2', '.', '1', '0'], verification := .ok () }
    let old : UpgradeRequest := { version := ['1', '.', '2', '.', '9'], verification := .ok () }
    let calls : List UpgradeCall := [.install request fun _ => .done,
      .confirm request.version fun _ => .done, .install old fun _ => .done]
    Along step FloorLaw (Host.ofRoot root) calls ∧
      (run step (Host.ofRoot root) calls).Allowed LaunchAllowed :=
  floor_never_falls _ _ (along_of_forall (by
    intro call hmem h
    simp only [List.mem_cons, List.not_mem_nil, or_false] at hmem
    rcases hmem with rfl | rfl | rfl <;> trivial) _)

/-- A root with floor 2.0.0 and the record of an unconfirmed upgrade to dot-dot. -/
def dotDotRoot : InstallRoot where
  current := .absent
  currentNew := .absent
  releases := []
  transaction := some (.record "prepared" dotDot noRelease)
  floor := some [['2', '.', '0', '.', '0']]

/-- Recovery removes the root, and fails at the directory of the record, which is gone as well; then
    release 1.0.0 is installed and confirmed. -/
def dotDotCalls : List UpgradeCall :=
  [.recover fun label => if label = .syncDirectory then .failed else .done,
    .install { version := ['1', '.', '0', '.', '0'], verification := .ok () } fun _ => .done,
    .confirm ['1', '.', '0', '.', '0'] fun _ => .done]

/-- **The floor can fall**: from 2.0.0 to 1.0.0, and the first call breaks the law. -/
theorem floor_falls :
    dotDotRoot.FloorReadable ∧
      dotDotRoot.floorVersion = some { major := 2, minor := 0, patch := 0 } ∧
      (run step (Host.ofRoot dotDotRoot) dotDotCalls).root.floorVersion
        = some { major := 1, minor := 0, patch := 0 } ∧
      ¬ Along step FloorLaw (Host.ofRoot dotDotRoot) dotDotCalls := by
  refine ⟨.inr (by decide), by decide, by decide +kernel, fun hlaw => ?_⟩
  obtain ⟨floor, hfloor, -⟩ := hlaw.1.monotone { major := 2, minor := 0, patch := 0 } (by decide)
  have hgone : (step (Host.ofRoot dotDotRoot)
      (.recover fun label => if label = .syncDirectory then .failed else .done)).1.root.floorVersion
        = none := by decide +kernel
  rw [hgone] at hfloor
  exact absurd hfloor (by simp)

end Cockpit.Upgrader
