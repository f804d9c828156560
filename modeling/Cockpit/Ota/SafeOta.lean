/-
  `ExecuteSafeOta`, from the cleared root on.

  safe-ota installs the candidate — itself (`standalone`), or through the upgrader module of the running system
  — waits until the new release is healthy, and confirms it; where anything fails on the way it calls recovery
  and reports. The upgrader module is a process of its own: what becomes of its operations is a parameter, and
  when it is cut off it just leaves no result.

  The one way for the verdict to go wrong in a root where the candidate is not active yet is a confirmation that
  fails behind its record: the record decides for the candidate, the return code says that it was rolled back.
-/
import Cockpit.Upgrader.Confirmation

namespace Cockpit.Ota

open Durable Durable.Program Cockpit.Upgrader

/-! ## The program -/

/-- What safe-ota reports. -/
inductive ExitCode where
  | success
  | invalidArguments
  | operationFailed
  | unhealthy
  deriving DecidableEq

/-- Its options, and what it found out about the package. -/
structure SafeOtaOptions where
  standalone : Bool
  /-- The package lies inside the incoming directory. -/
  packageIncoming : Bool
  /-- What `ReadUpgradePackageVersion` says. -/
  packageVersion : Except String Name
  confirmedVersion : Name
  /-- What `InstallUpgrade` finds out about the package. -/
  verification : Except String Unit

/-- The places at which it can fail or be cut off. -/
inductive OtaStep where
  | install (step : InstallStep)
  | saveRequest
  | switchUpgrade
  | waitForResult
  | switchNormal
  | reexecNormal
  | restoreNormal
  | waitForRuntime
  | waitForHealth
  | reloadNormal
  | waitForPrevious
  | confirm (step : ConfirmStep)
  | recovery (step : RecoverStep)
  deriving DecidableEq

/-- The exit code with what it is about: the previous release of the activation that safe-ota knows of, and what
    recovery returned after that. -/
structure Verdict where
  exit : ExitCode
  /-- `result.previous_release`, once an activation is known. -/
  activated : Option Path
  /-- What `RecoverInterruptedUpgrade` returned after that. -/
  recovered : Option Bool
  deriving DecidableEq

/-- It has no failure of its own: every path ends in an exit code. -/
abbrev OtaProgram (α : Type) := Program OtaStep Empty Host α

/-- A runtime command: an operation without an effect on the install root. -/
def command (label : OtaStep) (error : String) : OtaProgram (Except String Unit) :=
  attempt (check label error)

/-- Recovery, whose failure is reported and not passed on. -/
def recoverRoot : OtaProgram (Except String Bool) := attempt (relabel .recovery recoverInterruptedUpgrade)

/-- Nothing was activated that safe-ota knows of. -/
def refused (exit : ExitCode) : Verdict := { exit, activated := none, recovered := none }

/-- A failure behind the activation. -/
def failedAfter (exit : ExitCode) (result : UpgradeResult) (recovered : Bool) : Verdict :=
  { exit, activated := some result.previousRelease, recovered := some recovered }

/-- Install in this process. -/
def installStandalone (request : UpgradeRequest) : OtaProgram (Except Verdict UpgradeResult) := do
  let installed ← attempt (relabel .install (installUpgrade request))
  match installed with
  | .ok result => pure (.ok result)
  | .error _ => do
    let _ ← recoverRoot
    pure (.error (refused .operationFailed))

/-- The upgrader module has no result to show. -/
def abandonUpgrade : OtaProgram (Except Verdict UpgradeResult) := do
  let _ ← command .switchNormal "switch normal failed"
  let _ ← recoverRoot
  pure (.error (refused .operationFailed))

/-- Have the running system start the candidate. -/
def reexecCandidate (result : UpgradeResult) : OtaProgram (Except Verdict UpgradeResult) := do
  let sent ← command .reexecNormal "reexec normal failed"
  match sent with
  | .ok () => pure (.ok result)
  | .error _ => do
    let recovery ← recoverRoot
    match recovery with
    | .error _ => pure (.error (failedAfter .operationFailed result false))
    | .ok _ => do
      let _ ← command .restoreNormal "rollback activated but normal mode restore failed"
      pure (.error (failedAfter .operationFailed result true))

/-- Install through the upgrader module. -/
def installOnline (upgrader : InstallStep → Answer) (request : UpgradeRequest) :
    OtaProgram (Except Verdict UpgradeResult) := do
  let saved ← command .saveRequest "serialize upgrade request failed"
  match saved with
  | .error _ => pure (.error (refused .operationFailed))
  | .ok () => do
    let sent ← command .switchUpgrade "switch upgrade failed"
    -- The command may have been carried out although its answer is missing.
    let installed ← detached upgrader (installUpgrade request)
    match sent with
    | .error _ => pure (.error (refused .operationFailed))
    | .ok () => do
      let published ← command .waitForResult "upgrader did not publish a result before timeout"
      match published, installed with
      | .ok (), some (.ok result) => reexecCandidate result
      | _, _ => abandonUpgrade

def install (upgrader : InstallStep → Answer) (standalone : Bool) (request : UpgradeRequest) :
    OtaProgram (Except Verdict UpgradeResult) :=
  if standalone then installStandalone request else installOnline upgrader request

/-- A standalone installation waits for nobody. -/
def waitForCandidate (standalone : Bool) : Program OtaStep String Host Unit :=
  if standalone then pure () else check .waitForRuntime "replacement Navigator did not become ready"

/-- Wait until the new release is healthy. -/
def probeCandidate (standalone : Bool) : Program OtaStep String Host Unit := do
  waitForCandidate standalone
  check .waitForHealth "new release did not become healthy before timeout"

/-- Have the running system return to the previous release. -/
def reloadPrevious (standalone : Bool) : OtaProgram (Except String Unit) :=
  if standalone then pure (.ok ())
  else do
    let reloaded ← command .reloadNormal "rollback activated but runtime reexec failed"
    match reloaded with
    | .error error => pure (.error error)
    | .ok () => command .waitForPrevious "rollback Navigator did not become ready"

/-- The candidate is not healthy. -/
def rollBackCandidate (standalone : Bool) (result : UpgradeResult) : OtaProgram Verdict := do
  let recovery ← recoverRoot
  match recovery with
  | .error _ => pure (failedAfter .operationFailed result false)
  | .ok _ => do
    let reloaded ← reloadPrevious standalone
    match reloaded with
    | .error _ => pure (failedAfter .operationFailed result true)
    | .ok () => pure (failedAfter .unhealthy result true)

/-- The confirmation has failed. -/
def failConfirmation (standalone : Bool) (result : UpgradeResult) : OtaProgram Verdict := do
  let recovery ← recoverRoot
  let _ ← reloadPrevious standalone
  pure (failedAfter .operationFailed result recovery.isOk)

/-- The candidate is healthy. -/
def confirmCandidate (standalone : Bool) (packageVersion : Name) (result : UpgradeResult) : OtaProgram Verdict := do
  let confirmed ← attempt (relabel .confirm (confirmUpgrade packageVersion))
  match confirmed with
  | .ok () => pure { exit := .success, activated := some result.previousRelease, recovered := none }
  | .error _ => failConfirmation standalone result

/-- From the activation on. -/
def superviseCandidate (standalone : Bool) (packageVersion : Name) (result : UpgradeResult) : OtaProgram Verdict := do
  let healthy ← attempt (probeCandidate standalone)
  match healthy with
  | .error _ => rollBackCandidate standalone result
  | .ok () => confirmCandidate standalone packageVersion result

/-- Install a version, and see it through. -/
def upgradeTo (upgrader : InstallStep → Answer) (options : SafeOtaOptions) (packageVersion : Name) :
    OtaProgram Verdict := do
  let installed ← install upgrader options.standalone
    { version := packageVersion, verification := options.verification }
  match installed with
  | .error verdict => pure verdict
  | .ok result => superviseCandidate options.standalone packageVersion result

/-- `ExecuteSafeOta`. -/
def executeSafeOta (upgrader : InstallStep → Answer) (options : SafeOtaOptions) : OtaProgram Verdict :=
  if options.standalone = false ∧ options.packageIncoming = false then
    pure (refused .invalidArguments)
  else match options.packageVersion with
    | .error _ => pure (refused .operationFailed)
    | .ok packageVersion =>
      if options.confirmedVersion ≠ packageVersion then pure (refused .invalidArguments)
      else upgradeTo upgrader options packageVersion

/-! ## The verdict -/

/-- The verdict agrees with the root it is returned in. -/
structure VerdictAgrees (candidate : Name) (verdict : Verdict) (root : InstallRoot) : Prop where
  success : verdict.exit = .success ↔
    root.current = .link (releasePath candidate) ∧ root.transaction = none
  failure : ∀ previousRelease, verdict.activated = some previousRelease → verdict.exit ≠ .success →
    verdict.recovered = some true →
    root.current = Entry.ofRelease previousRelease ∧ root.current ≠ .link (releasePath candidate)

/-- The installation returned, and safe-ota has learned of it. -/
def Activates (upgrader : InstallStep → Answer) (standalone : Bool) (request : UpgradeRequest)
    (start : Host) (answers : OtaStep → Answer) : Prop :=
  if standalone then (installUpgrade request).Returns (answers ∘ .install) start
  else answers .saveRequest = .done ∧ answers .switchUpgrade = .done ∧
    (installUpgrade request).Returns upgrader start ∧ answers .waitForResult = .done ∧
    answers .reexecNormal = .done

/-- The candidate came up and stayed well. -/
def Healthy (standalone : Bool) (answers : OtaStep → Answer) : Prop :=
  (standalone = true ∨ answers .waitForRuntime = .done) ∧ answers .waitForHealth = .done

def CandidateHealthy (upgrader : InstallStep → Answer) (standalone : Bool) (request : UpgradeRequest)
    (start : Host) (answers : OtaStep → Answer) : Prop :=
  Activates upgrader standalone request start answers ∧ Healthy standalone answers

/-- The confirmation fails behind its record, which is removed all the same. -/
def FailsBehindRecord (answers : OtaStep → Answer) : Prop :=
  ConfirmPublishes (answers ∘ .confirm) ∧
    ¬ (ConfirmRemoves (answers ∘ .confirm) ∧ answers (.confirm .syncDirectory) = .done) ∧
    (ConfirmRemoves (answers ∘ .confirm) ∨
      RecoverRemoves (ConfirmRaises (answers ∘ .confirm)) (answers ∘ .recovery))

/-- The options name a package, and it is the one that is confirmed. -/
def SafeOtaOptions.Valid (options : SafeOtaOptions) : Prop :=
  (options.standalone = true ∨ options.packageIncoming = true) ∧
    options.packageVersion = .ok options.confirmedVersion

def SafeOtaOptions.request (options : SafeOtaOptions) : UpgradeRequest :=
  { version := options.confirmedVersion, verification := options.verification }

/-- The candidate is not active yet, and its confirmation does not fail behind its record. -/
def VerdictHolds (upgrader : InstallStep → Answer) (options : SafeOtaOptions) (start : Host)
    (answers : OtaStep → Answer) : Prop :=
  start.root.current ≠ .link (releasePath options.confirmedVersion) ∧
    ¬ (options.Valid ∧
      CandidateHealthy upgrader options.standalone options.request start answers ∧
      FailsBehindRecord answers)

/-! ## Failures before the confirmation -/

/-- An unconfirmed record is left, or the root is as it was. -/
def Undone (start : InstallRoot) (version : Name) (h : Host) : Prop :=
  (∃ (u : Upgrade start version) (t : UpgradeTransaction), Pending u t h.root) ∨
    (h.root.current = start.current ∧ h.root.transaction = none)

variable {start : InstallRoot} {version : Name} {g : Host}

theorem current_ne_candidate (u : Upgrade start version) : start.current ≠ .link (releasePath version) := by
  intro hcur
  rw [u.current, Entry.ofRelease] at hcur
  split at hcur
  · exact absurd hcur (by simp)
  · exact u.differs (Entry.link.inj hcur)

theorem agrees_of_undone {verdict : Verdict} {h : Host} (hexit : verdict.exit ≠ .success)
    (hnothing : verdict.activated = none ∨ verdict.recovered ≠ some true) (hundone : Undone start version h) :
    VerdictAgrees version verdict h.root ↔ start.current ≠ .link (releasePath version) := by
  constructor
  · intro hagrees hcur
    rcases hundone with ⟨u, -⟩ | ⟨hsame, hnone⟩
    · exact current_ne_candidate u hcur
    · exact hexit (hagrees.success.2 ⟨hsame.trans hcur, hnone⟩)
  · intro hcur
    refine ⟨⟨fun hsuccess => absurd hsuccess hexit, fun hactive => ?_⟩, ?_⟩
    · rcases hundone with ⟨u, t, hpending⟩ | ⟨hsame, -⟩
      · exact absurd hpending.record (by rw [hactive.2]; simp)
      · exact absurd (hsame.symm.trans hactive.1) hcur
    · intro previousRelease hactivated _ hrecovered
      rcases hnothing with hnone | hnot
      · exact absurd hactivated (by rw [hnone]; simp)
      · exact absurd hrecovered hnot

theorem agrees_of_rolledBack {result : UpgradeResult} {exit : ExitCode} {recovered : Bool} {h : Host}
    (u : Upgrade start version) (hexit : exit ≠ .success) (hprev : result.previousRelease = u.previousRelease)
    (hrolled : h.root.current = start.current ∧ h.root.transaction = none) :
    VerdictAgrees version (failedAfter exit result recovered) h.root := by
  have hcur : h.root.current ≠ .link (releasePath version) := by
    rw [hrolled.1]
    exact current_ne_candidate u
  refine ⟨⟨fun hsuccess => absurd hsuccess hexit, fun hactive => absurd hactive.1 hcur⟩, ?_⟩
  rintro previousRelease hactivated - -
  obtain rfl := Option.some.inj hactivated
  exact ⟨by rw [hrolled.1, u.current, hprev], hcur⟩

theorem recover_undone {answers : RecoverStep → Answer} :
    Triple answers (Undone start version) recoverInterruptedUpgrade
      (fun _ h => h.root.current = start.current ∧ h.root.transaction = none) (Undone start version) := by
  refine .of_state fun h hh => ?_
  rcases hh with ⟨u, t, hpending⟩ | hidle
  · refine (recover_pending u).mono (by rintro _ rfl; exact ⟨t, hpending⟩)
      (fun _ _ hrolled => ⟨hrolled.current, hrolled.transaction⟩) ?_
    rintro k (⟨t', hp⟩ | hrolled)
    · exact .inl ⟨u, t', hp⟩
    · exact .inr ⟨hrolled.current, hrolled.transaction⟩
  · exact (recover_none hidle.2).mono (fun _ hh => hh) (by rintro _ _ rfl; exact hidle)
      (by rintro _ rfl; exact .inr hidle)

section Programs

variable {answers : OtaStep → Answer}

def Sent (answers : OtaStep → Answer) (label : OtaStep) : Except String Unit → Prop
  | .ok _ => answers label = .done
  | .error _ => answers label ≠ .done

/-- A command is sent, or it fails. -/
theorem command_triple {label : OtaStep} {error : String} {P : Host → Prop} :
    Triple answers P (command label error) (fun sent h => Sent answers label sent ∧ P h) (fun _ => True) := by
  have hcheck : Triple answers P (check label error)
      (fun done h => Sent answers label (.ok done) ∧ P h) (fun h => answers label ≠ .done ∧ P h) :=
    .act (fun hdone _ hh => ⟨hdone, hh⟩) fun hnot _ hh => ⟨hnot, hh⟩
  exact (Triple.attempt hcheck fun _ _ hh => hh).mono (fun _ hh => hh) (fun _ _ hh => hh)
    fun _ _ => trivial

/-- Recovery that returns true has undone the upgrade. -/
theorem recoverRoot_triple : Triple answers (Undone start version) recoverRoot
      (fun recovery h => Undone start version h ∧ (recovery.isOk = true →
        h.root.current = start.current ∧ h.root.transaction = none)) (fun _ => True) :=
  (Triple.attempt (Triple.relabel (recover_undone.mono (fun _ hh => hh)
    (fun _ _ hh => ⟨.inr hh, fun _ => hh⟩) fun _ hh => hh)) fun _ _ hh => ⟨hh, nofun⟩).mono
    (fun _ hh => hh) (fun _ _ hh => hh) fun _ _ => trivial

def InstallOutcome (g : Host) (request : UpgradeRequest) (own : InstallStep → Answer)
    (installed : Except String UpgradeResult) (h : Host) : Prop :=
  match installed with
  | .ok result => (installUpgrade request).Returns own g ∧
      ∃ u : Upgrade g.root request.version, result.previousRelease = u.previousRelease ∧ Activated u h
  | .error _ => ¬ (installUpgrade request).Returns own g ∧ Undone g.root request.version h

variable {request : UpgradeRequest}

theorem install_outcome {own : InstallStep → Answer} (hcleared : g.root.transaction = none) :
    Triple own (· = g) (installUpgrade request) (fun result h => InstallOutcome g request own (.ok result) h)
      (fun h => ¬ (installUpgrade request).Returns own g ∧ Undone g.root request.version h) := by
  refine (Triple.returns.and (install_pending g)).mono (fun _ hh => hh) ?_ ?_
  · rintro result h ⟨hreturns, u, t, hprev, hpending, hactivated, hcur⟩
    exact ⟨hreturns, u, hprev, ⟨t, hpending, hactivated⟩, hcur⟩
  · rintro h ⟨hreturns, rfl | ⟨u, ⟨t, hpending⟩ | hrolled⟩⟩
    · exact ⟨hreturns, .inr ⟨rfl, hcleared⟩⟩
    · exact ⟨hreturns, .inl ⟨u, t, hpending⟩⟩
    · exact ⟨hreturns, .inr ⟨hrolled.current, hrolled.transaction⟩⟩

def Acquired (g : Host) (version : Name) (activates : Prop) (acquired : Except Verdict UpgradeResult)
    (h : Host) : Prop :=
  match acquired with
  | .ok result => activates ∧ ∃ u : Upgrade g.root version,
      result.previousRelease = u.previousRelease ∧ Activated u h
  | .error verdict => ¬ activates ∧
      (VerdictAgrees version verdict h.root ↔ g.root.current ≠ .link (releasePath version))

variable {h : Host} {activates : Prop}

theorem refused_acquired (hnot : ¬ activates) (hundone : Undone g.root version h) :
    Acquired g version activates (.error (refused .operationFailed)) h :=
  ⟨hnot, agrees_of_undone nofun (.inl rfl) hundone⟩

variable {u : Upgrade start version}

theorem undone_of_activated (hh : Activated u h) : Undone start version h :=
  .inl ⟨u, hh.pending.imp fun _ ht => ht.1⟩

theorem installStandalone_triple (hcleared : g.root.transaction = none) :
    Triple answers (· = g) (installStandalone request)
      (Acquired g request.version ((installUpgrade request).Returns (answers ∘ .install) g)) (fun _ => True) := by
  have hinstalled : Triple answers (· = g)
      (attempt (relabel OtaStep.install (installUpgrade request)) : OtaProgram _)
      (InstallOutcome g request (answers ∘ .install)) (fun _ => True) :=
    (Triple.attempt (Triple.relabel (install_outcome hcleared)) fun _ _ hh => hh).mono
      (fun _ hh => hh) (fun _ _ hh => hh) fun _ _ => trivial
  refine .bind hinstalled fun installed => ?_
  cases installed with
  | ok result => exact .pure fun _ hh => hh
  | error error =>
    refine .of_pure fun hnot => ?_
    refine .bind recoverRoot_triple fun _ => .pure fun h hh => ?_
    exact refused_acquired hnot hh.1

theorem abandonUpgrade_triple (hnot : ¬ activates) :
    Triple answers (Undone g.root version) abandonUpgrade (Acquired g version activates) (fun _ => True) := by
  refine .bind command_triple fun _ => .of_pure fun _ => ?_
  refine .bind recoverRoot_triple fun _ => .pure fun h hh => ?_
  exact refused_acquired hnot hh.1

variable {result : UpgradeResult}

theorem reexecCandidate_triple (hactivates : activates ↔ answers .reexecNormal = .done) (u : Upgrade g.root version)
    (hprev : result.previousRelease = u.previousRelease) :
    Triple answers (Activated u) (reexecCandidate result) (Acquired g version activates) (fun _ => True) := by
  refine .bind command_triple fun sent => .of_pure fun hsent => ?_
  cases sent with
  | ok => exact .pure fun h hh => ⟨hactivates.2 hsent, u, hprev, hh⟩
  | error error =>
    have hnot : ¬ activates := fun h => hsent (hactivates.1 h)
    refine .bind (recoverRoot_triple.mono (fun _ hh => undone_of_activated hh) (fun _ _ hh => hh)
      fun _ hh => hh) fun recovery => ?_
    cases recovery with
    | error _ =>
      exact .pure fun h hh => ⟨hnot, agrees_of_undone nofun (.inr nofun) hh.1⟩
    | ok _ =>
      refine .bind command_triple fun _ => .of_pure fun _ => .pure fun h hh => ⟨hnot, ?_⟩
      exact ⟨fun _ => current_ne_candidate u,
        fun _ => agrees_of_rolledBack u nofun hprev (hh.2 rfl)⟩

variable {upgrader : InstallStep → Answer}

theorem installOnline_triple (hcleared : g.root.transaction = none) :
    Triple answers (· = g) (installOnline upgrader request)
      (Acquired g request.version (Activates upgrader false request g answers)) (fun _ => True) := by
  have hstart : ∀ h, h = g → Undone g.root request.version h := by
    rintro _ rfl
    exact .inr ⟨rfl, hcleared⟩
  refine .bind command_triple fun saved => .of_pure fun hsaved => ?_
  cases saved with
  | error error =>
    exact .pure fun h hh => refused_acquired (fun hall => hsaved hall.1) (hstart h hh)
  | ok =>
    refine .bind command_triple fun sent => .of_pure fun hsent => ?_
    have hinstalled : Triple answers (· = g) (detached upgrader (installUpgrade request) : OtaProgram _)
        (fun installed h => match installed with
          | some outcome => InstallOutcome g request upgrader outcome h
          | none => ¬ (installUpgrade request).Returns upgrader g ∧ Undone g.root request.version h)
        (fun _ => True) :=
      .detached (install_outcome hcleared) (fun _ _ hh => hh) fun _ hh => hh
    refine .bind hinstalled fun installed => ?_
    cases sent with
    | error error =>
      refine .pure fun h hh => refused_acquired (fun hall => hsent hall.2.1) ?_
      rcases installed with _ | _ | result
      · exact hh.2
      · exact hh.2
      · obtain ⟨-, u, -, hactivated⟩ := hh
        exact undone_of_activated hactivated
    | ok =>
      refine .bind command_triple fun published => .of_pure fun hpub => ?_
      rcases installed with _ | _ | result
      · refine .of_pure fun hnot => ?_
        cases published <;> exact abandonUpgrade_triple fun hall => hnot hall.2.2.1
      · refine .of_pure fun hnot => ?_
        cases published <;> exact abandonUpgrade_triple fun hall => hnot hall.2.2.1
      · refine .of_pure fun hreturns => ?_
        cases published with
        | error error =>
          refine (abandonUpgrade_triple fun hall => hpub hall.2.2.2.1).mono ?_
            (fun _ _ hh => hh) fun _ hh => hh
          rintro h ⟨u, -, hactivated⟩
          exact undone_of_activated hactivated
        | ok =>
          refine .of_state fun h hh => ?_
          obtain ⟨u, hprev, hactivated⟩ := hh
          refine (reexecCandidate_triple ⟨fun hall => hall.2.2.2.2, fun hdone => ?_⟩ u hprev).mono
            (by rintro _ rfl; exact hactivated) (fun _ _ hh => hh) fun _ hh => hh
          exact ⟨hsaved, hsent, hreturns, hpub, hdone⟩

variable {standalone : Bool}

/-- Either way to install. -/
theorem install_triple (hcleared : g.root.transaction = none) :
    Triple answers (· = g) (install upgrader standalone request)
      (Acquired g request.version (Activates upgrader standalone request g answers)) (fun _ => True) := by
  cases standalone with
  | true => exact installStandalone_triple hcleared
  | false => exact installOnline_triple hcleared

/-! ## From the activation on -/

theorem reloadPrevious_triple {P : Host → Prop} :
    Triple answers P (reloadPrevious standalone) (fun _ => P) (fun _ => True) := by
  refine .ite (fun _ => .pure fun _ hh => hh) fun _ => ?_
  refine .bind command_triple fun reloaded => .of_pure fun _ => ?_
  cases reloaded with
  | error error => exact .pure fun _ hh => hh
  | ok => exact command_triple.mono (fun _ hh => hh) (fun _ _ hh => hh.2) fun _ hh => hh

/-- The candidate is taken back. -/
theorem rollBackCandidate_triple (u : Upgrade start version) (hprev : result.previousRelease = u.previousRelease) :
    Triple answers (Activated u) (rollBackCandidate standalone result)
      (fun verdict h => VerdictAgrees version verdict h.root) (fun _ => True) := by
  refine .bind (recoverRoot_triple.mono (fun _ hh => undone_of_activated hh) (fun _ _ hh => hh)
    fun _ hh => hh) fun recovery => ?_
  cases recovery with
  | error _ =>
    refine .pure fun h hh => ?_
    have hagrees : VerdictAgrees version (failedAfter .operationFailed result false) h.root ↔
        start.current ≠ .link (releasePath version) := agrees_of_undone nofun (.inr nofun) hh.1
    exact hagrees.2 (current_ne_candidate u)
  | ok _ =>
    refine .bind reloadPrevious_triple fun reloaded => ?_
    cases reloaded with
    | error _ | ok _ => exact .pure fun h hh => agrees_of_rolledBack u nofun hprev (hh.2 rfl)

theorem failedAfter_agrees_of_record (hrecord : h.root.transaction ≠ none) :
    VerdictAgrees version (failedAfter .operationFailed result false) h.root :=
  ⟨⟨nofun, fun hactive => absurd hactive.2 hrecord⟩, nofun⟩

theorem not_failedAfter_agrees {recovered : Bool} (hinstalled : Installed version h) :
    ¬ VerdictAgrees version (failedAfter .operationFailed result recovered) h.root :=
  fun hagrees => absurd (hagrees.success.2 ⟨hinstalled.current, hinstalled.transaction⟩) nofun

theorem confirm_unpublished {P : Prop} (u : Upgrade start version)
    (hprev : result.previousRelease = u.previousRelease) (hP : P) : Triple answers (Activated u)
      (failConfirmation standalone result)
      (fun verdict h => VerdictAgrees version verdict h.root ↔ P) (fun _ => True) := by
  refine .bind (recoverRoot_triple.mono (fun _ hh => undone_of_activated hh) (fun _ _ hh => hh)
    fun _ hh => hh) fun recovery => .bind reloadPrevious_triple fun _ => .pure fun h hh => ?_
  refine iff_of_true ?_ hP
  cases recovery with
  | error _ =>
    have hagrees : VerdictAgrees version (failedAfter .operationFailed result false) h.root ↔
        start.current ≠ .link (releasePath version) := agrees_of_undone nofun (.inr nofun) hh.1
    exact hagrees.2 (current_ne_candidate u)
  | ok _ => exact agrees_of_rolledBack u nofun hprev (hh.2 rfl)

theorem confirm_unfinished {raised : Prop} : Triple answers (Unfinished u raised) (failConfirmation standalone result)
      (fun verdict h => VerdictAgrees version verdict h.root ↔
        ¬ RecoverRemoves raised (answers ∘ .recovery)) (fun _ => True) := by
  have hrecovery : Triple answers (Unfinished u raised) recoverRoot
      (fun recovery h => (RecoverRemoves raised (answers ∘ .recovery) ∧ Installed version h) ∨
        (¬ RecoverRemoves raised (answers ∘ .recovery) ∧ h.root.transaction ≠ none) ∧
          recovery.isOk = false) (fun _ => True) := by
    refine .of_state fun g hg => ?_
    have hexact := recover_exact (answers ∘ OtaStep.recovery) hg
    exact (Triple.attempt (Triple.relabel (hexact.mono (fun _ hh => hh) (fun _ _ hh => .inl hh)
      fun _ hh => hh)) fun _ _ hh => hh.imp_right fun hk => ⟨hk, rfl⟩).mono (fun _ hh => hh)
      (fun _ _ hh => hh) fun _ _ => trivial
  refine .bind hrecovery fun recovery => .bind reloadPrevious_triple fun _ =>
    .pure fun h hh => ?_
  rcases hh with ⟨hremoves, hinstalled⟩ | ⟨⟨hkept, hrecord⟩, hfailed⟩
  · exact iff_of_false (not_failedAfter_agrees hinstalled) (fun hnot => hnot hremoves)
  · rw [hfailed]
    exact iff_of_true (failedAfter_agrees_of_record hrecord) hkept

theorem confirm_removed {P : Prop} (hP : ¬ P) : Triple answers (Installed version)
      (failConfirmation standalone result)
      (fun verdict h => VerdictAgrees version verdict h.root ↔ P) (fun _ => True) := by
  have hrecovery : Triple answers (Installed version) recoverRoot (fun _ => Installed version)
      (fun _ => True) := by
    refine .of_state fun g hg => ?_
    exact (Triple.attempt (Triple.relabel ((recover_none hg.transaction).mono (fun _ hh => hh)
      (by rintro _ _ rfl; exact hg) (by rintro _ rfl; exact hg))) fun _ _ hh => hh).mono
      (fun _ hh => hh) (fun _ _ hh => hh) fun _ _ => trivial
  refine .bind hrecovery fun recovery => .bind reloadPrevious_triple fun _ =>
    .pure fun h hh => ?_
  exact iff_of_false (not_failedAfter_agrees hh) hP

/-- The candidate is confirmed, unless it fails behind its record. -/
theorem confirmCandidate_triple (u : Upgrade start version) (hprev : result.previousRelease = u.previousRelease) :
    Triple answers (Activated u) (confirmCandidate standalone version result)
      (fun verdict h => VerdictAgrees version verdict h.root ↔ ¬ FailsBehindRecord answers) (fun _ => True) := by
  refine .of_state fun g hg => ?_
  have hexact := confirm_exact (answers ∘ OtaStep.confirm) hg
  have hconf : Triple answers (· = g)
      (attempt (relabel OtaStep.confirm (confirmUpgrade version)) : OtaProgram _)
      (fun confirmed h => match confirmed with
        | .ok _ => (ConfirmRemoves (answers ∘ OtaStep.confirm) ∧
            answers (.confirm .syncDirectory) = .done) ∧ Installed version h
        | .error _ => (¬ ConfirmPublishes (answers ∘ OtaStep.confirm) ∧ h = g) ∨
            (ConfirmPublishes (answers ∘ OtaStep.confirm) ∧ ¬ ConfirmRemoves (answers ∘ OtaStep.confirm) ∧
              Unfinished u (ConfirmRaises (answers ∘ OtaStep.confirm)) h) ∨
            ((ConfirmRemoves (answers ∘ OtaStep.confirm) ∧
              answers (.confirm .syncDirectory) ≠ .done) ∧ Installed version h)) (fun _ => True) :=
    (Triple.attempt (Triple.relabel hexact) fun _ _ hh => hh).mono (fun _ hh => hh)
      (fun _ _ hh => hh) fun _ _ => trivial
  refine .bind hconf fun confirmed => ?_
  cases confirmed with
  | ok =>
    refine .pure fun h hh => iff_of_true ?_ fun hfails => hfails.2.1 hh.1
    exact ⟨⟨fun _ => ⟨hh.2.current, hh.2.transaction⟩, fun _ => rfl⟩,
      fun _ _ hexit => absurd rfl hexit⟩
  | error error =>
    refine .of_state fun h hh => ?_
    rcases hh with ⟨hnot, rfl⟩ | ⟨hpublishes, hkept, hunfinished⟩ | ⟨⟨hremoves, hunsynced⟩, hinstalled⟩
    · have hright : ¬ FailsBehindRecord answers := fun hfails => hnot hfails.1
      exact (confirm_unpublished u hprev hright).mono (by rintro _ rfl; exact hg)
        (fun _ _ hh => hh) fun _ hh => hh
    · refine (confirm_unfinished (u := u)).mono (by rintro _ rfl; exact hunfinished) ?_ fun _ hh => hh
      rintro verdict k hagrees
      refine hagrees.trans (not_congr ⟨fun hrecovers => ?_, fun hfails => ?_⟩)
      · exact ⟨hpublishes, fun hall => hkept hall.1, .inr hrecovers⟩
      · exact hfails.2.2.resolve_left hkept
    · have hwrong : ¬ ¬ FailsBehindRecord answers := fun hright =>
        hright ⟨hremoves.1.1, fun hall => hunsynced hall.2, .inl hremoves⟩
      exact (confirm_removed hwrong).mono (by rintro _ rfl; exact hinstalled) (fun _ _ hh => hh)
        fun _ hh => hh

/-- From the activation on the verdict is right but for that. -/
theorem superviseCandidate_triple (u : Upgrade start version)
    (hprev : result.previousRelease = u.previousRelease) :
    Triple answers (Activated u) (superviseCandidate standalone version result)
      (fun verdict h => VerdictAgrees version verdict h.root ↔
        ¬ (Healthy standalone answers ∧ FailsBehindRecord answers)) (fun _ => True) := by
  have hprobe : Triple answers (Activated u) (probeCandidate standalone)
      (fun _ h => Healthy standalone answers ∧ Activated u h)
      (fun h => ¬ Healthy standalone answers ∧ Activated u h) := by
    refine .bind (M := fun _ h => (standalone = true ∨ answers .waitForRuntime = .done) ∧
      Activated u h) ?_ fun _ => .of_pure fun hready => ?_
    · refine .ite (fun hstandalone => .pure fun _ hh => ⟨.inl hstandalone, hh⟩)
        fun honline => .act (fun hdone _ hh => ⟨.inr hdone, hh⟩) fun hnot _ hh => ⟨?_, hh⟩
      exact fun hhealthy => hhealthy.1.elim honline hnot
    · exact .act (fun hdone _ hh => ⟨⟨hready, hdone⟩, hh⟩)
        fun hnot _ hh => ⟨fun hhealthy => hnot hhealthy.2, hh⟩
  have hprobed : Triple answers (Activated u) (attempt (probeCandidate standalone) : OtaProgram _)
      (fun healthy h => match healthy with
        | .ok _ => Healthy standalone answers ∧ Activated u h
        | .error _ => ¬ Healthy standalone answers ∧ Activated u h) (fun _ => True) :=
    (Triple.attempt hprobe fun _ _ hh => hh).mono (fun _ hh => hh) (fun _ _ hh => hh)
      fun _ _ => trivial
  refine .bind hprobed fun healthy => ?_
  cases healthy with
  | error error =>
    refine .of_pure fun hnot => (rollBackCandidate_triple u hprev).mono (fun _ hh => hh) ?_
      fun _ hh => hh
    exact fun verdict h hagrees => iff_of_true hagrees fun hall => hnot hall.1
  | ok =>
    refine .of_pure fun hhealthy => (confirmCandidate_triple u hprev).mono (fun _ hh => hh) ?_
      fun _ hh => hh
    exact fun verdict h hagrees => hagrees.trans (not_congr ⟨fun hfails => ⟨hhealthy, hfails⟩,
      fun hall => hall.2⟩)

variable {options : SafeOtaOptions}

theorem upgradeTo_triple (hcleared : g.root.transaction = none) :
    Triple answers (· = g) (upgradeTo upgrader options options.confirmedVersion)
      (fun verdict h => VerdictAgrees options.confirmedVersion verdict h.root ↔
        (g.root.current ≠ .link (releasePath options.confirmedVersion) ∧
          ¬ (CandidateHealthy upgrader options.standalone options.request g answers ∧
            FailsBehindRecord answers))) (fun _ => True) := by
  refine .bind (install_triple hcleared) fun installed => ?_
  cases installed with
  | error verdict =>
    refine .pure fun h hh => hh.2.trans ⟨fun hcur => ⟨hcur, fun hall => ?_⟩, fun hall => hall.1⟩
    exact hh.1 hall.1.1
  | ok result =>
    refine .of_pure fun hactivates => .of_state fun k hk => ?_
    obtain ⟨u, hprev, hactivated⟩ := hk
    refine (superviseCandidate_triple u hprev).mono (by rintro _ rfl; exact hactivated) ?_
      fun _ hh => hh
    intro verdict h hagrees
    refine hagrees.trans ⟨fun hnot => ⟨current_ne_candidate u, fun hall => ?_⟩, fun hall hnot => ?_⟩
    · exact hnot ⟨hall.1.2, hall.2⟩
    · exact hall.2 ⟨⟨hactivates, hnot.1⟩, hnot.2⟩

/-- From a cleared root. -/
theorem executeSafeOta_triple (hcleared : g.root.transaction = none) :
    Triple answers (· = g) (executeSafeOta upgrader options)
      (fun verdict h => VerdictAgrees options.confirmedVersion verdict h.root ↔
        VerdictHolds upgrader options g answers) (fun _ => True) := by
  have hrefused {exit : ExitCode} (hexit : exit ≠ .success) (hinvalid : ¬ options.Valid) :
      Triple answers (· = g) (pure (refused exit) : OtaProgram Verdict)
        (fun verdict h => VerdictAgrees options.confirmedVersion verdict h.root ↔
          VerdictHolds upgrader options g answers) (fun _ => True) := by
    refine .pure fun h hh => ?_
    subst hh
    have hagrees : VerdictAgrees options.confirmedVersion (refused exit) h.root ↔
        h.root.current ≠ .link (releasePath options.confirmedVersion) :=
      agrees_of_undone hexit (.inl rfl) (.inr ⟨rfl, hcleared⟩)
    exact hagrees.trans ⟨fun hcur => ⟨hcur, fun hall => hinvalid hall.1⟩, fun hall => hall.1⟩
  refine .ite (fun harguments => hrefused nofun fun hvalid => ?_) fun harguments => ?_
  · rcases hvalid.1 with hstandalone | hincoming
    · exact absurd (harguments.1.symm.trans hstandalone) nofun
    · exact absurd (harguments.2.symm.trans hincoming) nofun
  · cases hver : options.packageVersion with
    | error error => exact hrefused nofun fun hvalid => absurd (hver.symm.trans hvalid.2) nofun
    | ok packageVersion =>
      refine .ite (fun hdiffers => hrefused nofun fun hvalid => ?_) fun hsame => ?_
      · exact hdiffers (Except.ok.inj (hvalid.2.symm.trans hver))
      · obtain rfl : options.confirmedVersion = packageVersion := Decidable.not_not.1 hsame
        have hvalid : options.Valid := by
          refine ⟨?_, hver⟩
          cases hs : options.standalone
          · cases hi : options.packageIncoming
            · exact absurd ⟨hs, hi⟩ harguments
            · exact .inr rfl
          · exact .inl rfl
        refine (upgradeTo_triple hcleared).mono (fun _ hh => hh) ?_ fun _ hh => hh
        intro verdict h hagrees
        refine hagrees.trans (and_congr_right fun _ => not_congr ?_)
        exact ⟨fun hall => ⟨hvalid, hall⟩, fun hall => hall.2⟩

end Programs

/-! ## The law -/

/-- **safe-ota's verdict.**  From a cleared root, and unless safe-ota itself is killed, it returns a
    verdict, and the verdict agrees with the root exactly when the candidate was not active before
    and no healthy candidate is confirmed in a call that fails behind its record. -/
theorem verdict_agrees_iff (upgrader : InstallStep → Answer) (options : SafeOtaOptions) (start : Host)
    (hcleared : start.root.transaction = none) (answers : OtaStep → Answer)
    (hlive : ∀ label, answers label ≠ .crashed) :
    ∃ verdict host, (executeSafeOta upgrader options).run answers start = (.returned verdict, host) ∧
      (VerdictAgrees options.confirmedVersion verdict host.root ↔
        VerdictHolds upgrader options start answers) := by
  obtain ⟨verdict, host, hrun⟩ := (executeSafeOta upgrader options).returns hlive start
  exact ⟨verdict, host, hrun, (executeSafeOta_triple hcleared).returned rfl hrun⟩

def clearedHost : Host := Host.ofRoot
  { current := .link (releasePath ['1', '.', '0', '.', '0']), currentNew := .absent,
    releases := [['1', '.', '0', '.', '0']], transaction := none,
    floor := some [['1', '.', '0', '.', '0']] }

def upgradeOptions : SafeOtaOptions where
  standalone := true
  packageIncoming := false
  packageVersion := .ok ['1', '.', '1', '.', '0']
  confirmedVersion := ['1', '.', '1', '.', '0']
  verification := .ok ()

theorem verdict_agrees_iff_unhealthy :
    ∃ verdict host,
      (executeSafeOta (fun _ => .done) upgradeOptions).run
          (fun label => if label = .waitForHealth then .failed else .done) clearedHost
        = (.returned verdict, host) ∧
      (VerdictAgrees ['1', '.', '1', '.', '0'] verdict host.root ↔
        VerdictHolds (fun _ => .done) upgradeOptions clearedHost
          (fun label => if label = .waitForHealth then .failed else .done)) :=
  verdict_agrees_iff _ upgradeOptions clearedHost rfl _ fun label => by
    show (if label = OtaStep.waitForHealth then Answer.failed else Answer.done) ≠ Answer.crashed
    split <;> decide

def floorFails (label : OtaStep) : Answer :=
  if label = .confirm (.floor (.write .writeTemporary)) then .failed else .done

/-- **A wrong verdict**: safe-ota reports a failure and a successful recovery after the activation
    over 1.0.0, and the candidate 1.1.0 is active without a record. -/
theorem verdict_disagrees :
    ∃ verdict host,
      (executeSafeOta (fun _ => .done) upgradeOptions).run floorFails clearedHost
        = (.returned verdict, host) ∧
      verdict = { exit := .operationFailed, activated := some (releasePath ['1', '.', '0', '.', '0']),
                  recovered := some true } ∧
      host.root.current = .link (releasePath ['1', '.', '1', '.', '0']) ∧
      host.root.transaction = none ∧
      ¬ VerdictAgrees ['1', '.', '1', '.', '0'] verdict host.root := by
  refine ⟨_, _, rfl, by decide +kernel, by decide +kernel, by decide +kernel, fun hagrees => ?_⟩
  exact absurd (hagrees.success.2 ⟨by decide +kernel, by decide +kernel⟩) (by decide +kernel)

end Cockpit.Ota
