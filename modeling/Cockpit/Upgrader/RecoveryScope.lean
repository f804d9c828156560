/-
  What recovery and rollback may touch.

  Recovery deletes recursively, below paths that it builds from texts: the version of the transaction
  record, and the target of `current`.  Two validators stand before them, the character list of
  `isValidVersion` and the path check of `isSafeReleaseTarget`, and only the second refuses the dot
  segments.

  1. **Locations** — where a path below the install root leads, dot segments resolved: `[]` is the
     install root itself, `[kReleases]` the directory of the releases, and a location that begins with
     dot-dot is outside.  An operation touches the locations at and below its targets
     (`FsOp.touches`), and `FsOp.frame` says that this is all that it changes.

  2. **Scopes** — `RollbackScope` is what a rollback to a previous release has to itself, and
     `RecoveryScope` what the recovery of a transaction has.  Neither reaches the releases as a whole,
     the root, anything outside it, or the previous release (`RecoveryScope.spared`).

  3. **The laws** — whatever fails or is cut off, a rollback stays within its scope for every previous
     release, and so does recovery for every accepted transaction, unless it is to be undone and its
     version is a dot segment.
     The two inputs at the end show what lies beyond: a confirmed transaction replaces the version
     floor, and the version dot-dot wipes the install root.
-/
import Cockpit.Upgrader.Procedures

namespace Cockpit.Upgrader

open Durable Durable.Program List

/-! ## Locations -/

/-- Where a path below the install root leads: the parts of its normal form. -/
def Path.location (path : Path) : List Name :=
  path.lexicallyNormal.parts.filter fun part => decide (part ≠ [] ∧ part ≠ dot)

def currentPath : Path := { absolute := false, parts := [kCurrent] }
def temporaryPath : Path := { absolute := false, parts := [kCurrentNew] }
def transactionPath : Path := { absolute := false, parts := [kRun, kTransactionFile] }
def floorPath : Path := { absolute := false, parts := [kData, kFloorFile] }

@[simp] theorem location_currentPath : currentPath.location = [kCurrent] := by decide

@[simp] theorem location_temporaryPath : temporaryPath.location = [kCurrentNew] := by decide

@[simp] theorem location_transactionPath : transactionPath.location = [kRun, kTransactionFile] := by
  decide

@[simp] theorem location_floorPath : floorPath.location = [kData, kFloorFile] := by decide

theorem location_releasePath {name : Name} (hempty : name ≠ []) (hdot : name ≠ dot)
    (hdotDot : name ≠ dotDot) : (releasePath name).location = [kReleases, name] := by
  have hreleases : ¬ (kReleases = [] ∨ kReleases = dot) := by decide
  have hreleases' : ¬ kReleases = dotDot := by decide
  have hname : ¬ (name = [] ∨ name = dot) := fun h => h.elim hempty hdot
  have hfold : (releasePath name).parts.foldl
      (Path.normalStep (releasePath name).absolute) ([], false) = ([name, kReleases], false) := by
    simp only [releasePath, foldl_cons, foldl_nil, Path.normalStep, if_neg hreleases,
      if_neg hreleases', if_neg hname, if_neg hdotDot]
  simp only [Path.location, Path.lexicallyNormal, releasePath_isEmpty, hfold]
  simpa [hempty, hdot] using not_or.1 hreleases

theorem location_dotDot : (releasePath dotDot).location = [] := by decide

theorem location_releasePath_above (name : Name) : (releasePath name).location <+: [kReleases, name] := by
  by_cases hempty : name = []
  · subst hempty; decide
  · by_cases hdot : name = dot
    · subst hdot; decide
    · by_cases hdotDot : name = dotDot
      · subst hdotDot; decide
      · have hlocation := location_releasePath hempty hdot hdotDot
        exact hlocation ▸ prefix_refl _

theorem location_dot_above (name : Name) : (releasePath dot).location <+: [kReleases, name] := by
  have hlocation : (releasePath dot).location = [kReleases] := by decide
  rw [hlocation]
  exact ⟨[name], rfl⟩

/-- The paths that an operation removes, replaces or makes, as the source writes them. -/
def FsOp.targets : FsOp → List Path
  | .writeTransaction _ => [transactionPath]
  | .removeTransaction => [transactionPath]
  | .writeFloor _ => [floorPath]
  | .launchInstaller _ => []
  | .makeRelease version => [releasePath version]
  | .linkNew _ => [temporaryPath]
  | .unlinkNew => [temporaryPath]
  | .renameCurrent => [currentPath, temporaryPath]
  | .unlinkCurrent => [currentPath]
  | .removeRelease name => [releasePath name]

/-- With a directory goes everything below it. -/
def FsOp.touches (op : FsOp) (location : List Name) : Prop :=
  ∃ target ∈ op.targets, target.location <+: location

theorem contents_congr {a b : InstallRoot} {location : List Name}
    (hcur : location = [kCurrent] → a.current = b.current)
    (hnew : location = [kCurrentNew] → a.currentNew = b.currentNew)
    (htransaction : location = [kRun, kTransactionFile] → a.transaction = b.transaction)
    (hfloor : location = [kData, kFloorFile] → a.floor = b.floor)
    (hreleases : ∀ name, location = [kReleases, name] → (name ∈ a.releases ↔ name ∈ b.releases)) :
    a.contents location = b.contents location := by
  unfold InstallRoot.contents
  split
  · rename_i hlocation
    rw [hcur hlocation]
  · split
    · rename_i hlocation
      rw [hnew hlocation]
    · split
      · rename_i hlocation
        rw [htransaction hlocation]
      · split
        · rename_i hlocation
          rw [hfloor hlocation]
        · split
          · rename_i directory name _ _ _ _
            by_cases hdir : directory = kReleases
            · subst hdir
              simp [hreleases name rfl]
            · simp [hdir]
          · rfl

/-- **The frame of an operation**: it changes nothing at a location that it does not touch. -/
theorem FsOp.frame (op : FsOp) (root : InstallRoot) (location : List Name)
    (h : ¬ op.touches location) : (op.apply root).contents location = root.contents location := by
  have huntouched (target : Path) (hmem : target ∈ op.targets) : ¬ target.location <+: location :=
    fun hprefix => h ⟨target, hmem, hprefix⟩
  have hne (target : Path) (hmem : target ∈ op.targets) : location ≠ target.location := by
    intro heq
    exact huntouched target hmem (heq ▸ prefix_refl _)
  cases op with
  | writeTransaction transaction | removeTransaction =>
    have htransaction := hne transactionPath mem_cons_self
    rw [location_transactionPath] at htransaction
    exact contents_congr (fun _ => rfl) (fun _ => rfl) (absurd · htransaction) (fun _ => rfl)
      fun _ _ => Iff.rfl
  | writeFloor version =>
    have hfloor := hne floorPath mem_cons_self
    rw [location_floorPath] at hfloor
    exact contents_congr (fun _ => rfl) (fun _ => rfl) (fun _ => rfl) (absurd · hfloor)
      fun _ _ => Iff.rfl
  | launchInstaller version => rfl
  | makeRelease version =>
    refine contents_congr (fun _ => rfl) (fun _ => rfl) (fun _ => rfl) (fun _ => rfl) ?_
    rintro name rfl
    have hname : name ≠ version := by
      rintro rfl
      exact huntouched _ mem_cons_self (location_releasePath_above name)
    simp [FsOp.apply, hname]
  | linkNew target | unlinkNew =>
    have hnew := hne temporaryPath mem_cons_self
    rw [location_temporaryPath] at hnew
    exact contents_congr (fun _ => rfl) (absurd · hnew) (fun _ => rfl) (fun _ => rfl)
      fun _ _ => Iff.rfl
  | renameCurrent =>
    have hcur := hne currentPath mem_cons_self
    have hnew := hne temporaryPath (mem_cons_of_mem _ mem_cons_self)
    rw [location_currentPath] at hcur
    rw [location_temporaryPath] at hnew
    exact contents_congr (absurd · hcur) (absurd · hnew) (fun _ => rfl) (fun _ => rfl)
      fun _ _ => Iff.rfl
  | unlinkCurrent =>
    have hcur := hne currentPath mem_cons_self
    rw [location_currentPath] at hcur
    exact contents_congr (absurd · hcur) (fun _ => rfl) (fun _ => rfl) (fun _ => rfl)
      fun _ _ => Iff.rfl
  | removeRelease version =>
    by_cases hdotDot : version = dotDot
    · -- Everything is below the root.
      subst hdotDot
      refine absurd ?_ (huntouched _ mem_cons_self)
      rw [location_dotDot]
      exact nil_prefix
    · by_cases hdot : version = dot
      · subst hdot
        refine contents_congr (fun _ => rfl) (fun _ => rfl) (fun _ => rfl) (fun _ => rfl) ?_
        rintro name rfl
        exact absurd (location_dot_above name) (huntouched _ mem_cons_self)
      · rw [FsOp.apply, InstallRoot.removeRelease_of_safe ⟨hdot, hdotDot⟩]
        refine contents_congr (fun _ => rfl) (fun _ => rfl) (fun _ => rfl) (fun _ => rfl) ?_
        rintro name rfl
        have hname : name ≠ version := by
          rintro rfl
          exact huntouched _ mem_cons_self (location_releasePath_above name)
        simp [hname]

variable {scope : List Name → Prop}

theorem FsOp.touches_within {op : FsOp} (htargets : ∀ target ∈ op.targets, ∀ rest, scope (target.location ++ rest)) :
    ∀ location, op.touches location → scope location := by
  rintro location ⟨target, hmem, rest, rfl⟩
  exact htargets target hmem rest

/-! ## Scopes -/

/-- What a rollback to `previousRelease` may remove or replace: the two links, and the other direct
    children of `releases` with all that is in them. -/
inductive RollbackScope (previousRelease : Path) : List Name → Prop where
  | current (rest : List Name) : RollbackScope previousRelease (kCurrent :: rest)
  | currentNew (rest : List Name) : RollbackScope previousRelease (kCurrentNew :: rest)
  | release (name : Name) (rest : List Name) (hvalid : isValidVersion name = true)
      (hname : name ≠ dot ∧ name ≠ dotDot) (hother : releasePath name ≠ previousRelease) :
      RollbackScope previousRelease (kReleases :: name :: rest)

/-- What the recovery of a transaction may remove or replace. -/
inductive RecoveryScope (transaction : UpgradeTransaction) : List Name → Prop where
  | record (rest : List Name) : RecoveryScope transaction (kRun :: kTransactionFile :: rest)
  | undo (location : List Name) (hstate : transaction.state ≠ .confirmed)
      (hrollback : RollbackScope transaction.previousRelease location) :
      RecoveryScope transaction location
  | floor (rest : List Name) (hstate : transaction.state = .confirmed) :
      RecoveryScope transaction (kData :: kFloorFile :: rest)

/-- A scope in which neither the install root, nor the releases as a whole, nor anything outside the
    root, nor the previous release can be touched. -/
structure Spares (scope : List Name → Prop) (previousRelease : Path) : Prop where
  root : ¬ scope []
  releases : ¬ scope [kReleases]
  outside : ∀ rest, ¬ scope (dotDot :: rest)
  previous : ∀ name, releasePath name = previousRelease → ∀ rest, ¬ scope (kReleases :: name :: rest)

theorem RollbackScope.spares (previousRelease : Path) : Spares (RollbackScope previousRelease) previousRelease := by
  constructor
  · intro h
    cases h
  · intro h
    generalize hlocation : [kReleases] = location at h
    cases h with
    | current rest | currentNew rest => exact absurd (List.cons.inj hlocation).1 (by decide)
    | release name rest hvalid hname hother => exact absurd (List.cons.inj hlocation).2 (by simp)
  · intro rest h
    generalize hlocation : dotDot :: rest = location at h
    cases h with
    | current rest | currentNew rest | release name rest hvalid hname hother =>
      exact absurd (List.cons.inj hlocation).1 (by decide)
  · intro name hprev rest h
    generalize hlocation : kReleases :: name :: rest = location at h
    cases h with
    | current rest | currentNew rest => exact absurd (List.cons.inj hlocation).1 (by decide)
    | release other rest hvalid hname hother =>
      obtain ⟨rfl, -⟩ := List.cons.inj (List.cons.inj hlocation).2
      exact hother hprev

theorem RecoveryScope.spares (t : UpgradeTransaction) : Spares (RecoveryScope t) t.previousRelease := by
  have hrollback := RollbackScope.spares t.previousRelease
  -- The record and the floor are nowhere near a release, the root or what is outside it.
  have hundo {location : List Name} (h : RecoveryScope t location)
      (hrecord : ∀ rest, location ≠ kRun :: kTransactionFile :: rest)
      (hfloor : ∀ rest, location ≠ kData :: kFloorFile :: rest) :
      RollbackScope t.previousRelease location := by
    cases h with
    | record rest => exact absurd rfl (hrecord rest)
    | undo _ hstate hin => exact hin
    | floor rest hstate => exact absurd rfl (hfloor rest)
  have hhead {first : Name} {rest tail : List Name} {other : Name} (hne : first ≠ other) :
      first :: rest ≠ other :: tail := fun heq => hne (List.cons.inj heq).1
  constructor
  · exact fun h => hrollback.root (hundo h (fun _ => nofun) fun _ => nofun)
  · exact fun h => hrollback.releases
      (hundo h (fun _ => hhead (by decide)) fun _ => hhead (by decide))
  · exact fun rest h => hrollback.outside rest
      (hundo h (fun _ => hhead (by decide)) fun _ => hhead (by decide))
  · exact fun name hprev rest h => hrollback.previous name hprev rest
      (hundo h (fun _ => hhead (by decide)) fun _ => hhead (by decide))

/-- The host of `root` on which only the scope has been touched. -/
abbrev StaysWithin (scope : List Name → Prop) (root : InstallRoot) (h : Host) : Prop :=
  h.Within FsOp.touches InstallRoot.contents scope root

theorem StaysWithin.perform {root : InstallRoot} {h : Host} {op : FsOp} (hwithin : StaysWithin scope root h)
    (htargets : ∀ target ∈ op.targets, ∀ rest, scope (target.location ++ rest)) :
    StaysWithin scope root (h.perform op) :=
  Journaled.Within.perform hwithin (op.frame) (FsOp.touches_within htargets)

/-! ## The laws -/

section Laws

variable {scope : List Name → Prop} {root : InstallRoot}

variable {previousRelease : Path}

theorem StaysWithin.removeRelease {h : Host} {name : Name} (hwithin : StaysWithin scope root h)
    (hscope : ∀ location, RollbackScope previousRelease location → scope location)
    (hvalid : isValidVersion name = true) (hname : name ≠ dot ∧ name ≠ dotDot)
    (hother : releasePath name ≠ previousRelease) : StaysWithin scope root (h.perform (.removeRelease name)) := by
  have hempty : name ≠ [] := by
    rintro rfl
    exact absurd hvalid (by decide)
  refine hwithin.perform fun target hmem rest => hscope _ ?_
  obtain rfl := mem_singleton.1 hmem
  rw [location_releasePath hempty hname.1 hname.2]
  exact .release name rest hvalid hname hother

theorem rollbackKeeps_within (hscope : ∀ location, RollbackScope previousRelease location → scope location) :
    RollbackKeeps (StaysWithin scope root) previousRelease where
  unlinkNew h hh := hh.perform fun target hmem rest => hscope _ <| by
    obtain rfl := mem_singleton.1 hmem
    exact .currentNew rest
  unlinkCurrent _ h hh := hh.perform fun target hmem rest => hscope _ <| by
    obtain rfl := mem_singleton.1 hmem
    exact .current rest
  linkNew _ h hh := hh.perform fun target hmem rest => hscope _ <| by
    obtain rfl := mem_singleton.1 hmem
    exact .currentNew rest
  renameCurrent _ h hh _ := hh.perform fun target hmem rest => hscope _ <| by
    rcases mem_cons.1 hmem with rfl | hmem
    · exact .current rest
    · obtain rfl := mem_singleton.1 hmem
      exact .currentNew rest
  removeFailed name hsafe hother h hh _ := by
    obtain ⟨version, hpath, hvalid, hname⟩ := isSafeReleaseTarget_iff.1 hsafe
    obtain rfl := releasePath_inj.1 hpath
    exact hh.removeRelease hscope hvalid hname hother

theorem rollbackUpgrade_within (previousRelease : Path) (answers : RollbackStep → Answer) (root : InstallRoot) :
    StaysWithin (RollbackScope previousRelease) root
      ((rollbackUpgrade previousRelease).run answers (Host.ofRoot root)).2 :=
  (rollbackUpgrade_triple (rollbackKeeps_within fun _ h => h)).anyway Journaled.Within.start
    fun _ _ hh => hh.1

variable {t : UpgradeTransaction}

theorem undoTransaction_within (hwell : t.WellFormed) (hstate : t.state ≠ .confirmed)
    (hname : t.version ≠ dot ∧ t.version ≠ dotDot) (answers : RecoverStep → Answer) :
    Triple answers (StaysWithin (RecoveryScope t) root) (undoTransaction t)
      (fun _ => StaysWithin (RecoveryScope t) root) (StaysWithin (RecoveryScope t) root) := by
  have hscope : ∀ location, RollbackScope t.previousRelease location → RecoveryScope t location :=
    fun location hin => .undo location hstate hin
  refine undoTransaction_triple (rollbackKeeps_within hscope) ?_ fun _ hh => hh
  intro h hh _
  exact hh.removeRelease hscope hwell.version hname hwell.differs.symm

theorem completeConfirmed_within (hstate : t.state = .confirmed) (answers : RecoverStep → Answer) :
    Triple answers (StaysWithin (RecoveryScope t) root) (completeConfirmed t.version)
      (fun _ => StaysWithin (RecoveryScope t) root) (StaysWithin (RecoveryScope t) root) := by
  have hfloor (h : Host) (hh : StaysWithin (RecoveryScope t) root h) :
      StaysWithin (RecoveryScope t) root (h.perform (.writeFloor t.version)) := by
    refine hh.perform fun target hmem rest => ?_
    obtain rfl := mem_singleton.1 hmem
    exact .floor rest hstate
  refine completeConfirmed_triple (fun _ hh _ => hh) fun _ => ?_
  rcases hver : versionOf t.version with _ | v
  · exact persistVersionFloor_triple_none hver fun _ hh => hh.1
  · exact persistVersionFloor_triple (W := StaysWithin (RecoveryScope t) root) hver
      (fun _ _ hh => hh.1) (fun _ hh _ => hh.1) (fun _ _ hh _ => hh.1)
      (fun _ _ h hh _ => hfloor h hh.1) (fun _ _ hh => hh) (fun _ _ hh => hh) fun _ _ hh _ => hh.1

theorem recoverInterruptedUpgrade_within (answers : RecoverStep → Answer) (root : InstallRoot)
    (hload : loadTransaction root.transaction = .ok t)
    (hname : t.state ≠ .confirmed → t.version ≠ dot ∧ t.version ≠ dotDot) : StaysWithin (RecoveryScope t) root
      (recoverInterruptedUpgrade.run answers (Host.ofRoot root)).2 := by
  obtain ⟨hrecord, hwell⟩ := loadTransaction_eq_ok.1 hload
  have hstart : ∀ h, h = Host.ofRoot root → StaysWithin (RecoveryScope t) root h := by
    rintro _ rfl
    exact Journaled.Within.start
  have htriple : Triple answers (· = Host.ofRoot root) recoverInterruptedUpgrade
      (fun _ => StaysWithin (RecoveryScope t) root) (StaysWithin (RecoveryScope t) root) := by
    refine recoverInterruptedUpgrade_triple (S := fun _ => StaysWithin (RecoveryScope t) root)
      (fun h hh _ => hstart h hh) (fun h hh _ => hstart h hh) ?_ (fun _ _ _ hh => hh) ?_
      fun _ hh => hh
    · rintro - - found hfound
      refine .of_state fun h hh => ?_
      obtain ⟨rfl, hfile⟩ := hh
      -- The transaction that recovery finds is the one that was accepted.
      obtain rfl := UpgradeTransaction.file_inj.1 (Option.some.inj (hrecord.symm.trans hfile))
      have hresolve : Triple answers (StaysWithin (RecoveryScope t) root) (resolveTransaction t)
          (fun _ => StaysWithin (RecoveryScope t) root) (StaysWithin (RecoveryScope t) root) :=
        .ite (fun hstate => completeConfirmed_within hstate answers)
          fun hstate => undoTransaction_within hwell hstate (hname hstate) answers
      exact hresolve.mono hstart (fun _ _ hh => hh) fun _ hh => hh
    · intro _ _ h hh
      refine hh.perform fun target hmem rest => ?_
      obtain rfl := mem_singleton.1 hmem
      exact .record rest
  exact htriple.anyway rfl fun _ _ hh => hh

end Laws

/-! ### The law for both procedures -/

def one : Name := ['1', '.', '0', '.', '0']
def two : Name := ['2', '.', '0', '.', '0']

/-- The root on which `transaction` was interrupted, with the release `active` active. -/
def interruptedRoot (transaction : UpgradeTransaction) (active : Name) (releases : List Name) : InstallRoot :=
  { current := .link (releasePath active), currentNew := .absent, releases := releases,
    transaction := some transaction.file, floor := some [one] }

/-- An upgrade from `1.0.0` to `version`. -/
def upgradeTo (state : TransactionState) (version : Name) : UpgradeTransaction :=
  { state := state, version := version, previousRelease := releasePath one }

/-- The upgrade to `2.0.0` was cut off after its activation. -/
def undoneRoot : InstallRoot := interruptedRoot (upgradeTo .activated two) two [one, two]

/-- The upgrade to `2.0.0` was cut off between its confirmation and the version floor. -/
def confirmedRoot : InstallRoot := interruptedRoot (upgradeTo .confirmed two) two [one, two]

/-- A record for the version dot-dot. -/
def dotDotVersionRoot : InstallRoot := interruptedRoot (upgradeTo .prepared dotDot) one [one]

/-- **Recovery touches only what the transaction owns**, whatever its operations answer: a rollback
    to any previous release, and the recovery of any accepted transaction, unless it is to be undone
    and its version is a dot segment.  What they own spares the root, the releases as a whole, everything outside, and the
    previous release. -/
theorem recovery_scope :
    (∀ (previousRelease : Path) (answers : RollbackStep → Answer) (root : InstallRoot),
      StaysWithin (RollbackScope previousRelease) root
        ((rollbackUpgrade previousRelease).run answers (Host.ofRoot root)).2) ∧
    (∀ (t : UpgradeTransaction) (answers : RecoverStep → Answer) (root : InstallRoot),
      loadTransaction root.transaction = .ok t →
      (t.state ≠ .confirmed → t.version ≠ dot ∧ t.version ≠ dotDot) →
      StaysWithin (RecoveryScope t) root
        (recoverInterruptedUpgrade.run answers (Host.ofRoot root)).2) ∧
    (∀ previousRelease, Spares (RollbackScope previousRelease) previousRelease) ∧
    (∀ t : UpgradeTransaction, Spares (RecoveryScope t) t.previousRelease) :=
  ⟨rollbackUpgrade_within,
    fun _ answers root hload hname => recoverInterruptedUpgrade_within answers root hload hname,
    RollbackScope.spares, RecoveryScope.spares⟩

theorem activated_upgrade_undone :
    StaysWithin (RecoveryScope (upgradeTo .activated two)) undoneRoot
      (recoverInterruptedUpgrade.run (fun _ => .done) (Host.ofRoot undoneRoot)).2 ∧
    StaysWithin (RollbackScope (releasePath one)) undoneRoot
      ((rollbackUpgrade (releasePath one)).run (fun _ => .done) (Host.ofRoot undoneRoot)).2 :=
  ⟨recovery_scope.2.1 (upgradeTo .activated two) (fun _ => .done) undoneRoot rfl (by decide),
    recovery_scope.1 (releasePath one) (fun _ => .done) undoneRoot⟩

/-! ### What lies beyond -/

/-- The links, the record, and the direct children of `releases` but the previous release. -/
def LinksRecordAndReleases (previousRelease : Path) (location : List Name) : Prop :=
  RollbackScope previousRelease location ∨ [kRun, kTransactionFile] <+: location

theorem floor_replaced_and_root_wiped :
    (loadTransaction confirmedRoot.transaction = .ok (upgradeTo .confirmed two) ∧
      ¬ StaysWithin (LinksRecordAndReleases (releasePath one)) confirmedRoot
        (recoverInterruptedUpgrade.run (fun _ => .done) (Host.ofRoot confirmedRoot)).2) ∧
    (loadTransaction dotDotVersionRoot.transaction = .ok (upgradeTo .prepared dotDot) ∧
      (recoverInterruptedUpgrade.run (fun _ => .done) (Host.ofRoot dotDotVersionRoot)).2.root =
        { current := .absent, currentNew := .absent, releases := [], transaction := none,
          floor := none }) := by
  refine ⟨⟨rfl, fun hwithin => ?_⟩, rfl, by decide⟩
  have hplace : ¬ LinksRecordAndReleases (releasePath one) [kData, kFloorFile] := by
    rintro (h | h)
    · generalize hlocation : [kData, kFloorFile] = location at h
      cases h with
      | current rest | currentNew rest | release name rest hvalid hname hother =>
        exact absurd (List.cons.inj hlocation).1 (by decide)
    · exact absurd h (by decide)
  exact absurd (hwithin.others _ hplace) (by decide)

end Cockpit.Upgrader
