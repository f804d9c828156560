/-
  The upgrade transaction: what is on disk, and the procedures that change it.

  The procedures are programs over the operations of the install root, with one label for each place at which
  they can fail or be cut off.  An exception is a failure: every one of them is caught in the procedure itself.

  What `InstallUpgrade` finds out about the package (its signature, checksums and `manifest/VERSION`) is part of
  the request.  Error texts are without the part that the system appends.
-/
import Cockpit.Lib.Durable
import Cockpit.Upgrader.Version

namespace Cockpit.Upgrader

open Durable Durable.Program

/-! ## The install root -/

/-- What is found where a link is expected. -/
inductive Entry where
  | absent
  | link (target : Path)
  | other
  deriving DecidableEq

/-- The empty path; as a previous release it says that there was none. -/
def noRelease : Path := { absolute := false, parts := [] }

/-- What `current` is to be when `release` is the active release. -/
def Entry.ofRelease (release : Path) : Entry := if release.isEmpty then .absent else .link release

/-- How far the upgrade of a record is. -/
inductive TransactionState where
  | prepared
  | activated
  | confirmed
  deriving DecidableEq

/-- As it is written down. -/
def TransactionState.text : TransactionState → String
  | .prepared => "prepared"
  | .activated => "activated"
  | .confirmed => "confirmed"

/-- The record of an upgrade: the candidate, and the release that was active before it. -/
structure UpgradeTransaction where
  state : TransactionState
  version : Name
  previousRelease : Path
  deriving DecidableEq

/-- The transaction path, when something is there. -/
inductive TransactionFile where
  | notRegular
  | malformed
  | record (state : String) (version : Name) (previousRelease : Path)
  deriving DecidableEq

/-- The record as a file. -/
def UpgradeTransaction.file (transaction : UpgradeTransaction) : TransactionFile :=
  .record transaction.state.text transaction.version transaction.previousRelease

/-- The `current` link with its temporary `current.new`, the release directories, the record and the floor. -/
structure InstallRoot where
  current : Entry
  currentNew : Entry
  releases : List Name
  transaction : Option TransactionFile
  /-- The lines of `data/ota-version-floor`. -/
  floor : Option (List Name)
  deriving DecidableEq

def InstallRoot.isDirectory (root : InstallRoot) (path : Path) : Bool :=
  decide (path ∈ root.releases.map releasePath)

@[simp] theorem InstallRoot.isDirectory_releasePath (root : InstallRoot) (version : Name) :
    root.isDirectory (releasePath version) = true ↔ version ∈ root.releases := by
  simp [InstallRoot.isDirectory]

/-- An operation on the install root; it happens as a whole or not at all. -/
inductive FsOp where
  | writeTransaction (transaction : UpgradeTransaction)
  | removeTransaction
  | writeFloor (version : Name)
  | launchInstaller (version : Name)
  | makeRelease (version : Name)
  | linkNew (target : Path)
  | unlinkNew
  | renameCurrent
  | unlinkCurrent
  | removeRelease (name : Name)
  deriving DecidableEq

/-- `remove_all(root / "releases" / name)`: a dot names the whole directory, dot-dot the root. -/
def InstallRoot.removeRelease (root : InstallRoot) (name : Name) : InstallRoot :=
  if name = dot then { root with releases := [] }
  else if name = dotDot then
    { current := .absent, currentNew := .absent, releases := [], transaction := none, floor := none }
  else { root with releases := root.releases.filter (· ≠ name) }

/-- What an operation does when it is done. -/
def FsOp.apply : FsOp → InstallRoot → InstallRoot
  | .writeTransaction transaction, root => { root with transaction := some transaction.file }
  | .removeTransaction, root => { root with transaction := none }
  | .writeFloor version, root => { root with floor := some [version] }
  | .launchInstaller _, root => root
  | .makeRelease version, root => { root with releases := root.releases.insert version }
  | .linkNew target, root => { root with currentNew := .link target }
  | .unlinkNew, root => { root with currentNew := .absent }
  | .renameCurrent, root => { root with current := root.currentNew, currentNew := .absent }
  | .unlinkCurrent, root => { root with current := .absent }
  | .removeRelease name, root => root.removeRelease name

/-- The install root, with the log of what was done to it. -/
abbrev Host := Journaled InstallRoot FsOp

/-- The host of an install root on which nothing has been done yet. -/
def Host.ofRoot (root : InstallRoot) : Host := { root := root, log := [] }

def Host.perform (h : Host) (op : FsOp) : Host := Journaled.perform FsOp.apply op h

abbrev UpgradeProgram (ℓ α : Type) := Program ℓ String Host α

/-- An operation with the place at which it can fail. -/
def perform {ℓ : Type} (label : ℓ) (op : FsOp) (error : String) : UpgradeProgram ℓ Unit :=
  act label (·.perform op) error

def getRoot {ℓ : Type} : UpgradeProgram ℓ InstallRoot := do
  let h ← get
  pure h.root

/-- `remove_all` on a path that ends in a dot cannot remove the directory itself. -/
def removeAll {ℓ : Type} (label : ℓ) (name : Name) (error : String) : UpgradeProgram ℓ Unit := do
  perform label (.removeRelease name) error
  require (decide (name ≠ dot)) error

/-! ## Records -/

/-- The places at which the writing of a file can stop. -/
inductive WriteStep where
  | createDirectories
  | openTemporary
  | writeTemporary
  | syncTemporary
  | publish
  | syncDirectory
  deriving DecidableEq

/-- The record is written aside; renaming it is what makes it visible. -/
def writeYaml (record : FsOp) : UpgradeProgram WriteStep Unit := do
  check .createDirectories "create upgrade state directory failed"
  check .openTemporary "open temporary upgrade state failed"
  check .writeTemporary "write temporary upgrade state failed"
  check .syncTemporary "sync temporary upgrade state failed"
  perform .publish record "publish upgrade state failed"
  check .syncDirectory "sync upgrade state directory failed"

/-- `SaveTransaction`. -/
def saveTransaction (transaction : UpgradeTransaction) : UpgradeProgram WriteStep Unit :=
  writeYaml (.writeTransaction transaction)

/-- `LoadTransaction`, which checks the characters of the version and not the path they make. -/
def loadTransaction : Option TransactionFile → Except String UpgradeTransaction
  | none => .error "load upgrade transaction failed"
  | some .notRegular => .error "load upgrade transaction failed"
  | some .malformed => .error "upgrade state requires scalar"
  | some (.record state version previousRelease) =>
    if isValidVersion version = false then .error "upgrade transaction version is invalid"
    else if previousRelease.isEmpty = false ∧ isSafeReleaseTarget previousRelease = false then
      .error "upgrade transaction previous release is unsafe"
    else if previousRelease = releasePath version then
      .error "upgrade transaction candidate matches previous release"
    else if state = "prepared" then .ok { state := .prepared, version, previousRelease }
    else if state = "activated" then .ok { state := .activated, version, previousRelease }
    else if state = "confirmed" then .ok { state := .confirmed, version, previousRelease }
    else .error "upgrade transaction state is invalid"

/-! ## The version floor -/

/-- The version floor: one line with a semantic version. -/
def readVersionFile : List Name → Except String Name
  | [value] =>
    match parseSemanticVersion value with
    | none => .error "OTA version floor is not a semantic version"
    | some _ => .ok value
  | _ => .error "invalid OTA version floor"

inductive FloorStep where
  | inspectFloor
  | write (step : WriteStep)
  deriving DecidableEq

def writeFloor (version : Name) : UpgradeProgram FloorStep Unit :=
  relabel .write (writeYaml (.writeFloor version))

/-- Write the floor if it is lower, and refuse to lower it. -/
def raiseFloor (version : Name) (parsed existing : SemanticVersion) : UpgradeProgram FloorStep Unit :=
  if compareSemanticVersions parsed existing < 0 then fail "refusing to lower OTA version floor"
  else if compareSemanticVersions parsed existing = 0 then pure ()
  else writeFloor version

/-- `PersistVersionFloor`, the one place where the floor is written. -/
def persistVersionFloor (version : Name) : UpgradeProgram FloorStep Unit :=
  match parseSemanticVersion version with
  | none => fail "confirmed OTA version is not a semantic version"
  | some parsed => do
    check .inspectFloor "persist OTA version floor failed"
    let root ← getRoot
    match root.floor with
    | none => writeFloor version
    | some lines => do
      let existingVersion ← ofExcept (readVersionFile lines)
      match parseSemanticVersion existingVersion with
      | none => fail ""
      | some existing => raiseFloor version parsed existing

/-- The candidate is newer than every version that counts. -/
def checkBaselines (candidate : SemanticVersion) : List Name → Except String Unit
  | [] => .ok ()
  | baselineVersion :: baselineVersions =>
    match parseSemanticVersion baselineVersion with
    | none => .error "active/floor OTA version is not a semantic version"
    | some baseline =>
      if compareSemanticVersions candidate baseline ≤ 0 then .error "anti-rollback rejected version"
      else checkBaselines candidate baselineVersions

/-- `CheckAntiRollback`: against the floor and the version that is active. -/
def checkAntiRollback (root : InstallRoot) (currentRelease : Path) (candidateVersion : Name) : Except String Unit :=
  match parseSemanticVersion candidateVersion with
  | none => .error "OTA version must use semantic version format MAJOR.MINOR.PATCH"
  | some candidate =>
    let active := if currentRelease.isEmpty then [] else [currentRelease.filename]
    match root.floor with
    | none => checkBaselines candidate active
    | some lines =>
      match readVersionFile lines with
      | .error error => .error error
      | .ok floorVersion => checkBaselines candidate (floorVersion :: active)

/-! ## Rolling back -/

inductive RollbackStep where
  | inspectCurrent
  | unlinkNew
  | unlinkCurrent
  | linkNew
  | renameCurrent
  | removeFailed
  | syncRoot
  | syncReleases
  deriving DecidableEq

/-- The release that `current` points to; empty when it is not a link. -/
def activatedRelease (current : Entry) : Except String Path :=
  match current with
  | .link target =>
    if isSafeReleaseTarget target then .ok target
    else .error "active release symlink target is unsafe"
  | _ => .ok noRelease

/-- Put `previousRelease` in the place of the active release. -/
def switchCurrent (previousRelease : Path) : UpgradeProgram RollbackStep Unit :=
  if previousRelease.isEmpty then
    perform .unlinkCurrent .unlinkCurrent "remove current release failed"
  else do
    require (isSafeReleaseTarget previousRelease) "previous release symlink target is unsafe"
    let root ← getRoot
    require (root.isDirectory previousRelease) "previous release directory does not exist"
    -- `create_symlink` does not replace what is there.
    require (decide (root.currentNew = .absent)) "rollback upgrade failed"
    perform .linkNew (.linkNew previousRelease) "rollback upgrade failed"
    perform .renameCurrent .renameCurrent "rollback upgrade failed"

/-- A rollback removes what was active, unless that is where it goes. -/
def removeFailedRelease (activated previousRelease : Path) : UpgradeProgram RollbackStep Unit :=
  if activated.isEmpty = false ∧ activated ≠ previousRelease then
    removeAll .removeFailed activated.filename "remove failed release failed"
  else pure ()

/-- `RollbackUpgrade`. -/
def rollbackUpgrade (previousRelease : Path) : UpgradeProgram RollbackStep Unit := do
  check .inspectCurrent "rollback upgrade failed"
  let root ← getRoot
  let activated ← ofExcept (activatedRelease root.current)
  -- That the temporary link cannot be removed is not looked at.
  let _ ← attempt (perform .unlinkNew .unlinkNew "")
  switchCurrent previousRelease
  removeFailedRelease activated previousRelease
  check .syncRoot "sync install root failed"
  check .syncReleases "sync release directory failed"

/-! ## Recovering -/

inductive RecoverStep where
  | inspectTransaction
  | readTransaction
  | inspectCurrent
  | floor (step : FloorStep)
  | rollback (step : RollbackStep)
  | removeCandidate
  | syncReleases
  | removeTransaction
  | syncDirectory
  deriving DecidableEq

/-- A confirmed transaction is carried through. -/
def completeConfirmed (version : Name) : UpgradeProgram RecoverStep Unit := do
  check .inspectCurrent "recover interrupted upgrade failed"
  let root ← getRoot
  require (decide (root.current = .link (releasePath version)) && root.isDirectory (releasePath version))
    "confirmed upgrade transaction does not match current release"
  relabel .floor (persistVersionFloor version)

/-- Any other transaction is rolled back, and its candidate removed. -/
def undoTransaction (transaction : UpgradeTransaction) : UpgradeProgram RecoverStep Unit := do
  relabel .rollback (rollbackUpgrade transaction.previousRelease)
  removeAll .removeCandidate transaction.version "remove interrupted release failed"
  check .syncReleases "sync release directory failed"

/-- A confirmed record is completed, any other is undone. -/
def resolveTransaction (transaction : UpgradeTransaction) : UpgradeProgram RecoverStep Unit :=
  if transaction.state = .confirmed then completeConfirmed transaction.version
  else undoTransaction transaction

/-- The recovery of a record that is there. -/
def recoverTransaction (file : TransactionFile) : UpgradeProgram RecoverStep Bool := do
  require (decide (file ≠ .notRegular)) "upgrade transaction path is not a regular file"
  check .readTransaction "load upgrade transaction failed"
  let transaction ← ofExcept (loadTransaction (some file))
  resolveTransaction transaction
  perform .removeTransaction .removeTransaction "remove upgrade transaction failed"
  check .syncDirectory "sync upgrade state directory failed"
  pure true

/-- The value is the out-parameter `recovered`. -/
def recoverInterruptedUpgrade : UpgradeProgram RecoverStep Bool := do
  check .inspectTransaction "recover interrupted upgrade failed"
  let root ← getRoot
  match root.transaction with
  | none => pure false
  | some file => recoverTransaction file

/-! ## Confirming -/

inductive ConfirmStep where
  | readTransaction
  | inspectCurrent
  | write (step : WriteStep)
  | floor (step : FloorStep)
  | removeTransaction
  | syncDirectory
  deriving DecidableEq

/-- What `ConfirmUpgrade` does with a transaction that it has accepted. -/
def settleTransaction (transaction : UpgradeTransaction) : UpgradeProgram ConfirmStep Unit := do
  relabel .write (saveTransaction { transaction with state := .confirmed })
  relabel .floor (persistVersionFloor transaction.version)
  perform .removeTransaction .removeTransaction "remove confirmed transaction failed"
  check .syncDirectory "sync upgrade state directory failed"

/-- `ConfirmUpgrade`. -/
def confirmUpgrade (version : Name) : UpgradeProgram ConfirmStep Unit := do
  check .readTransaction "load upgrade transaction failed"
  let root ← getRoot
  let transaction ← ofExcept (loadTransaction root.transaction)
  require (decide (transaction.state = .activated ∧ transaction.version = version))
    "active upgrade transaction does not match confirmed version"
  check .inspectCurrent "confirm upgrade failed"
  require (decide (root.current = .link (releasePath transaction.version)))
    "confirmed release is not active"
  settleTransaction transaction

/-! ## Installing -/

/-- The version of a package, and what its verification said. -/
structure UpgradeRequest where
  version : Name
  /-- What the checks on the package and its manifest say. -/
  verification : Except String Unit

/-- What was installed, and what was active before. -/
structure UpgradeResult where
  version : Name
  previousRelease : Path
  deriving DecidableEq

/-- The places at which `deploy/install.sh` can stop; an exit code other than zero is its failure. -/
inductive InstallerStep where
  | launch
  | verifyPackage
  | makeRelease
  | fillRelease
  | syncContents
  | linkNew
  | renameCurrent
  | syncLinks
  deriving DecidableEq

/-- `deploy/install.sh`, which stops at the first command that fails. -/
def runInstaller (version : Name) : UpgradeProgram InstallerStep Unit := do
  perform .launch (.launchInstaller version) "-1"
  check .verifyPackage "1"
  perform .makeRelease (.makeRelease version) "1"
  check .fillRelease "1"
  check .syncContents "1"
  perform .linkNew (.linkNew (releasePath version)) "1"
  perform .renameCurrent .renameCurrent "1"
  check .syncLinks "1"

inductive InstallStep where
  | inspectCurrent
  | inspectFloor
  | inspectReleases
  | prepare (step : WriteStep)
  | installer (step : InstallerStep)
  | inspectActivated
  | activate (step : WriteStep)
  | recovery (step : RecoverStep)
  deriving DecidableEq

/-- The active release before the upgrade; empty when there is none. -/
def previousReleaseOf (root : InstallRoot) : Except String Path :=
  match root.current with
  | .absent => .ok noRelease
  | .other => .error "install current path is not a symlink"
  | .link target =>
    if isSafeReleaseTarget target = true ∧ root.isDirectory target = true then .ok target
    else .error "install current symlink target is invalid"

/-- Recover what was begun, and pass the failure on. -/
def failAfterRecovery {α : Type} (error : String) : UpgradeProgram InstallStep α := do
  let recovery ← attempt (relabel .recovery recoverInterruptedUpgrade)
  match recovery with
  | .ok _ => fail error
  | .error recoveryError => fail (error ++ "; " ++ recoveryError)

/-- `InstallUpgrade` behind an installer that has reported success. -/
def activateCandidate (transaction : UpgradeTransaction) : UpgradeProgram InstallStep UpgradeResult := do
  check .inspectActivated "install upgrade failed"
  let root ← getRoot
  if root.current ≠ .link (releasePath transaction.version) then
    failAfterRecovery "package installer did not activate expected release"
  else do
    let saved ← attempt (relabel .activate (saveTransaction { transaction with state := .activated }))
    match saved with
    | .error error => failAfterRecovery error
    | .ok () =>
      pure { version := transaction.version, previousRelease := transaction.previousRelease }

/-- `InstallUpgrade` from the first record on. -/
def installTransaction (transaction : UpgradeTransaction) : UpgradeProgram InstallStep UpgradeResult := do
  relabel .prepare (saveTransaction transaction)
  let installed ← attempt (relabel .installer (runInstaller transaction.version))
  match installed with
  | .error _ => failAfterRecovery "package installer failed with exit code"
  | .ok () => activateCandidate transaction

/-- `InstallUpgrade`. -/
def installUpgrade (request : UpgradeRequest) : UpgradeProgram InstallStep UpgradeResult := do
  ofExcept request.verification
  check .inspectCurrent "install upgrade failed"
  let root ← getRoot
  let previousRelease ← ofExcept (previousReleaseOf root)
  check .inspectFloor "install upgrade failed"
  ofExcept (checkAntiRollback root previousRelease request.version)
  check .inspectReleases "install upgrade failed"
  require (decide (request.version ∉ root.releases)) "release already exists"
  installTransaction { state := .prepared, version := request.version, previousRelease }

/-! ## Locations -/

def kCurrent : Name := ['c', 'u', 'r', 'r', 'e', 'n', 't']
def kCurrentNew : Name := kCurrent ++ ['.', 'n', 'e', 'w']
def kRun : Name := ['r', 'u', 'n']
def kTransactionFile : Name :=
  ['u', 'p', 'g', 'r', 'a', 'd', 'e', '-', 't', 'r', 'a', 'n', 's', 'a', 'c', 't', 'i', 'o', 'n',
    '.', 'y', 'a', 'm', 'l']
def kData : Name := ['d', 'a', 't', 'a']
def kFloorFile : Name :=
  ['o', 't', 'a', '-', 'v', 'e', 'r', 's', 'i', 'o', 'n', '-', 'f', 'l', 'o', 'o', 'r']

/-- What stands at one location. -/
inductive Content where
  | entry (entry : Entry)
  | transaction (file : Option TransactionFile)
  | floor (lines : Option (List Name))
  | release (found : Bool)
  | nothing
  deriving DecidableEq

/-- What is at a location below the install root. -/
def InstallRoot.contents (root : InstallRoot) (location : List Name) : Content :=
  if location = [kCurrent] then .entry root.current
  else if location = [kCurrentNew] then .entry root.currentNew
  else if location = [kRun, kTransactionFile] then .transaction root.transaction
  else if location = [kData, kFloorFile] then .floor root.floor
  else match location with
    | [directory, name] => .release (decide (directory = kReleases ∧ name ∈ root.releases))
    | _ => .nothing

/-! ## Calls -/

/-- A call of the upgrader, with what becomes of its operations. -/
inductive UpgradeCall where
  | install (request : UpgradeRequest) (answers : InstallStep → Answer)
  | confirm (version : Name) (answers : ConfirmStep → Answer)
  | rollback (previousRelease : Path) (answers : RollbackStep → Answer)
  | recover (answers : RecoverStep → Answer)

/-- What a call returned: true, false with its error, or nothing because it was cut off. -/
abbrev CallResult := Outcome String Unit

def CallResult.of {α : Type} : Outcome String α → CallResult
  | .returned _ => .returned ()
  | .failed error => .failed error
  | .crashed => .crashed

/-- The call returned true. -/
def CallResult.isTrue : CallResult → Bool
  | .returned _ => true
  | _ => false

def conclude {α : Type} (result : Outcome String α × Host) : Host × CallResult :=
  (result.2, CallResult.of result.1)

/-- A call, with the answers to its operations. -/
def step (h : Host) : UpgradeCall → Host × CallResult
  | .install request answers => conclude ((installUpgrade request).run answers h)
  | .confirm version answers => conclude ((confirmUpgrade version).run answers h)
  | .rollback previousRelease answers => conclude ((rollbackUpgrade previousRelease).run answers h)
  | .recover answers => conclude (recoverInterruptedUpgrade.run answers h)

end Cockpit.Upgrader
