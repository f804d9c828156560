/-
  Crash consistency of one upgrade.

  An upgrade starts in a root without a transaction.  `InstallUpgrade` and `ConfirmUpgrade` may be cut off at any
  operation, and so may `RecoverInterruptedUpgrade`, as often as it is tried.  All that is ever reached on the way
  is one of four phases.
-/
import Cockpit.Upgrader.Procedures

namespace Cockpit.Upgrader

open Durable StepRun

/-! ## The two outcomes -/

/-- The upgrade of `version` has left no trace in the root `start`. -/
structure RolledBack (start : InstallRoot) (version : Name) (root : InstallRoot) : Prop where
  current : root.current = start.current
  candidate : version ∉ root.releases
  transaction : root.transaction = none
  floor : root.floor = start.floor

/-- The upgrade to `version` is done, and cannot be undone. -/
structure Completed (version : Name) (root : InstallRoot) : Prop where
  current : root.current = .link (releasePath version)
  directory : version ∈ root.releases
  transaction : root.transaction = none
  floor : ∃ v, versionOf version = some v ∧ root.FloorAtLeast v

/-- The confirmed record of `version` has been published at some time. -/
def ConfirmedPublished (version : Name) (h : Host) : Prop :=
  ∃ entry ∈ h.log, ∃ t : UpgradeTransaction,
    entry.2 = .writeTransaction t ∧ t.state = .confirmed ∧ t.version = version

variable {root : InstallRoot}

theorem RolledBack.not_completed {start : InstallRoot} {version : Name} (h : RolledBack start version root) :
    ¬ Completed version root :=
  fun hc => h.candidate hc.directory

variable {h : Host}

theorem ConfirmedPublished.perform {version : Name} (hp : ConfirmedPublished version h) (op : FsOp) :
    ConfirmedPublished version (h.perform op) := by
  obtain ⟨entry, hmem, hentry⟩ := hp
  exact ⟨entry, Journaled.mem_perform_log.2 (.inl hmem), hentry⟩

/-! ## The phases -/

/-- An upgrade that has passed the checks of `InstallUpgrade` in the root `start`. -/
structure Upgrade (start : InstallRoot) (version : Name) where
  candidate : Version
  previousRelease : Path
  denotes : versionOf version = some candidate
  current : start.current = Entry.ofRelease previousRelease
  wellFormed : ∀ state, UpgradeTransaction.WellFormed { state, version, previousRelease }
  newer : Newer start previousRelease candidate

/-- A transaction of the upgrade is on record, and it is not confirmed. -/
structure Pending {start : InstallRoot} {version : Name} (u : Upgrade start version)
    (t : UpgradeTransaction) (root : InstallRoot) : Prop where
  record : root.transaction = some t.file
  sameVersion : t.version = version
  samePrevious : t.previousRelease = u.previousRelease
  unconfirmed : t.state ≠ .confirmed
  current : root.current = start.current ∨
    root.current = .link (releasePath version) ∧ version ∈ root.releases
  floor : root.floor = start.floor

/-- The confirmed transaction of the upgrade is on record. -/
structure Confirmed {start : InstallRoot} {version : Name} (u : Upgrade start version)
    (t : UpgradeTransaction) (h : Host) : Prop where
  record : h.root.transaction = some t.file
  sameVersion : t.version = version
  samePrevious : t.previousRelease = u.previousRelease
  confirmed : t.state = .confirmed
  current : h.root.current = .link (releasePath version)
  directory : version ∈ h.root.releases
  published : ConfirmedPublished version h

/-- Which phase it is can be told from the record: none, and the root as it was; an unconfirmed one, and the
    previous release or the candidate is active; a confirmed one, and the candidate is there; none, and the
    upgrade done. -/
inductive Phase (start : InstallRoot) (version : Name) (h : Host) : Prop where
  | rolledBack (hroot : RolledBack start version h.root)
  | pending (u : Upgrade start version) (t : UpgradeTransaction) (hroot : Pending u t h.root)
  | confirmed (u : Upgrade start version) (t : UpgradeTransaction) (hhost : Confirmed u t h)
  | completed (hroot : Completed version h.root) (hpub : ConfirmedPublished version h)

/-- The phases without a record. -/
def Settled (start : InstallRoot) (version : Name) (h : Host) : Prop :=
  RolledBack start version h.root ∨ Completed version h.root ∧ ConfirmedPublished version h

variable {start : InstallRoot} {version : Name}

theorem Settled.phase (hs : Settled start version h) : Phase start version h := by
  rcases hs with hroot | ⟨hroot, hpub⟩
  · exact .rolledBack hroot
  · exact .completed hroot hpub

variable {t : UpgradeTransaction}

theorem Phase.pending_of_record (hp : Phase start version h) (hrecord : h.root.transaction = some t.file)
    (hstate : t.state ≠ .confirmed) : ∃ u : Upgrade start version, Pending u t h.root := by
  cases hp with
  | rolledBack hroot => exact absurd hrecord (by rw [hroot.transaction]; simp)
  | pending u t' hroot =>
    have hfile : t'.file = t.file := Option.some.inj (hroot.record.symm.trans hrecord)
    obtain rfl := UpgradeTransaction.file_inj.1 hfile
    exact ⟨u, hroot⟩
  | confirmed u t' hhost =>
    have hfile : t'.file = t.file := Option.some.inj (hhost.record.symm.trans hrecord)
    obtain rfl := UpgradeTransaction.file_inj.1 hfile
    exact absurd hhost.confirmed hstate
  | completed hroot _ => exact absurd hrecord (by rw [hroot.transaction]; simp)

theorem Upgrade.differs (u : Upgrade start version) : u.previousRelease ≠ releasePath version :=
  (u.wellFormed .prepared).differs

theorem Upgrade.load (u : Upgrade start version) {file : Option TransactionFile} (hrecord : file = some t.file)
    (hver : t.version = version) (hprev : t.previousRelease = u.previousRelease) :
    loadTransaction file = .ok t := by
  obtain ⟨hvalid, hsafe, hdiffers⟩ := u.wellFormed t.state
  refine loadTransaction_eq_ok.2 ⟨hrecord, ?_, ?_, ?_⟩
  · rw [hver]
    exact hvalid
  · rw [hprev]
    exact hsafe
  · rw [hver, hprev]
    exact hdiffers

variable {u : Upgrade start version}

theorem Pending.directory (hp : Pending u t root) (hactive : root.current = .link (releasePath version)) :
    version ∈ root.releases := by
  rcases hp.current with hcur | ⟨-, hmem⟩
  · exfalso
    rw [hcur, u.current, Entry.ofRelease] at hactive
    split at hactive
    · exact absurd hactive (by simp)
    · exact u.differs (Entry.link.inj hactive)
  · exact hmem

/-! ## What the procedures do to the phases -/

theorem Pending.rollbackKeeps (u : Upgrade start version) (t : UpgradeTransaction) :
    RollbackKeeps (fun h => Pending u t h.root) u.previousRelease where
  unlinkNew _ hh := { hh with }
  unlinkCurrent hempty _ hh :=
    { hh with current := .inl (by rw [u.current]; simp [FsOp.apply, Entry.ofRelease, hempty]) }
  linkNew _ _ hh := { hh with }
  renameCurrent hnonempty _ hh hnew :=
    { hh with current := .inl (by rw [u.current, Entry.ofRelease_of_nonempty hnonempty]; exact hnew) }
  removeFailed name hsafe _ h hh hcur := by
    obtain ⟨name', hpath, -, hname⟩ := isSafeReleaseTarget_iff.1 hsafe
    obtain rfl := releasePath_inj.1 hpath
    have happly : (h.perform (.removeRelease name)).root
        = { h.root with releases := h.root.releases.filter (· ≠ name) } :=
      InstallRoot.removeRelease_of_safe hname
    rw [happly]
    exact { hh with current := .inl (hcur.trans u.current.symm) }

theorem Pending.installerKeeps (u : Upgrade start version) :
    InstallerKeeps (fun h => ∃ t, Pending u t h.root) version where
  makeRelease h hh := by
    obtain ⟨t, ht⟩ := hh
    exact ⟨t, { ht with current := ht.current.imp_right fun hc => ⟨hc.1, List.mem_insert_self⟩ }⟩
  linkNew h hh := by
    obtain ⟨t, ht⟩ := hh
    exact ⟨t, { ht with }⟩
  renameCurrent h hh hmem hnew := by
    obtain ⟨t, ht⟩ := hh
    exact ⟨t, { ht with current := .inr ⟨hnew, hmem⟩ }⟩

variable {t' : UpgradeTransaction}

theorem Pending.eq_of_record (hp : Pending u t root) (hrecord : root.transaction = some t'.file) : t = t' :=
  UpgradeTransaction.file_inj.1 (Option.some.inj (hp.record.symm.trans hrecord))

theorem Confirmed.eq_of_record (hc : Confirmed u t h) (hrecord : h.root.transaction = some t'.file) : t = t' :=
  UpgradeTransaction.file_inj.1 (Option.some.inj (hc.record.symm.trans hrecord))

variable {answers : RecoverStep → Answer}

/-- Recovery leaves an unconfirmed record for the root as it was. -/
theorem recover_pending (u : Upgrade start version) :
    Triple answers (fun h => ∃ t, Pending u t h.root) recoverInterruptedUpgrade
      (fun _ h => RolledBack start version h.root)
      (fun h => (∃ t, Pending u t h.root) ∨ RolledBack start version h.root) := by
  have hname : version ≠ dot ∧ version ≠ dotDot :=
    ⟨versionOf_ne_none u.denotes (by decide), versionOf_ne_none u.denotes (by decide)⟩
  refine recoverInterruptedUpgrade_triple
    (S := fun t h => Pending u t h.root ∧ RolledBack start version { h.root with transaction := none })
    (fun _ hh _ => .inl hh) ?_ ?_ (fun _ t _ hh => .inl ⟨t, hh.1⟩) (fun _ _ _ hh => hh.2)
    fun _ hh => .inr hh
  · rintro h ⟨t, hp⟩ hnone
    exact absurd hp.record (by rw [hnone]; simp)
  · intro _ _ t _
    refine .of_state fun h hh => ?_
    obtain ⟨⟨t', hp⟩, hrecord⟩ := hh
    obtain rfl := hp.eq_of_record hrecord
    refine .ite (fun hconf => absurd hconf hp.unconfirmed) fun _ => ?_
    refine (undoTransaction_triple (I := fun h => Pending u t' h.root)
      (D := fun h => Pending u t' h.root ∧
        RolledBack start version { h.root with transaction := none }) ?_ ?_ fun _ hh => hh.1).mono
      (by rintro _ rfl; exact hp) (fun _ _ hh => hh) fun _ hh => .inl ⟨t', hh⟩
    · rw [hp.samePrevious]
      exact Pending.rollbackKeeps u t'
    · intro k hk hcur
      have happly : (k.perform (.removeRelease t'.version)).root
          = { k.root with releases := k.root.releases.filter (· ≠ version) } := by
        rw [hp.sameVersion]
        exact InstallRoot.removeRelease_of_safe hname
      have hstart : k.root.current = start.current := by rw [hcur, hp.samePrevious, u.current]
      rw [happly]
      exact ⟨{ hk with current := .inl hstart },
        { current := hstart, candidate := by simp, transaction := rfl, floor := hk.floor }⟩

theorem Confirmed.writeFloor (hh : Confirmed u t h) (text : Name) : Confirmed u t (h.perform (.writeFloor text)) :=
  { hh with published := hh.published.perform _ }

theorem Confirmed.persist {answers : FloorStep → Answer} (u : Upgrade start version) (t : UpgradeTransaction) :
    Triple answers (Confirmed u t) (persistVersionFloor version)
      (fun _ h => Confirmed u t h ∧ h.root.FloorAtLeast u.candidate) (Confirmed u t) := by
  refine persistVersionFloor_triple u.denotes (fun _ _ hh => hh) (fun _ hh _ => hh)
    (fun _ _ hh _ => hh) ?_ (fun _ _ hh => hh) (fun _ _ hh => hh.1) ?_
  · exact fun _ _ h hh _ => ⟨hh.writeFloor version, u.candidate, u.denotes, Version.le_refl _⟩
  · exact fun _ h hh hfloor => ⟨hh, u.candidate, hfloor, Version.le_refl _⟩

theorem Confirmed.completed (hh : Confirmed u t h) (hfloor : h.root.FloorAtLeast u.candidate) :
    Completed version (h.perform .removeTransaction).root ∧
      ConfirmedPublished version (h.perform .removeTransaction) :=
  ⟨{ current := hh.current, directory := hh.directory, transaction := rfl,
     floor := ⟨u.candidate, u.denotes, hfloor⟩ }, hh.published.perform _⟩

/-- And a confirmed one for the upgrade done. -/
theorem recover_confirmed (u : Upgrade start version) :
    Triple answers (fun h => ∃ t, Confirmed u t h) recoverInterruptedUpgrade
      (fun _ h => Completed version h.root ∧ ConfirmedPublished version h) (Phase start version) := by
  refine recoverInterruptedUpgrade_triple
    (S := fun t h => Confirmed u t h ∧ h.root.FloorAtLeast u.candidate)
    (fun _ hh _ => hh.elim (.confirmed u)) ?_ ?_ (fun _ t _ hh => .confirmed u t hh.1)
    (fun _ _ _ hh => hh.1.completed hh.2) fun _ hh => .completed hh.1 hh.2
  · rintro h ⟨t, hc⟩ hnone
    exact absurd hc.record (by rw [hnone]; simp)
  · intro _ _ t _
    refine .of_state fun h hh => ?_
    obtain ⟨⟨t', hc⟩, hrecord⟩ := hh
    obtain rfl := hc.eq_of_record hrecord
    refine .ite (fun _ => ?_) fun hunconfirmed => absurd hc.confirmed hunconfirmed
    rw [hc.sameVersion]
    refine completeConfirmed_triple ?_ fun _ => (Confirmed.persist u t').mono ?_ (fun _ _ hh => hh)
      fun _ hh => .confirmed u t' hh
    · rintro _ rfl _
      exact .confirmed u t' hc
    · rintro _ ⟨rfl, -⟩
      exact hc

theorem recover_none {g : Host} (hnone : g.root.transaction = none) :
    Triple answers (· = g) recoverInterruptedUpgrade (fun _ => (· = g)) (· = g) := by
  refine recoverInterruptedUpgrade_triple (S := fun _ _ => False) (fun _ hh _ => hh)
    (fun _ hh _ => hh) ?_ (fun _ _ _ hh => hh.elim) (fun _ _ _ hh => hh.elim) fun _ hh => hh
  rintro - - t - h ⟨rfl, hrecord⟩
  rw [hnone] at hrecord
  exact absurd hrecord (by simp)

theorem recover_phase (answers : RecoverStep → Answer) :
    Triple answers (Phase start version) recoverInterruptedUpgrade (fun _ => Settled start version)
      (Phase start version) := by
  refine .of_state fun h hh => ?_
  cases hh with
  | rolledBack hroot =>
    exact (recover_none hroot.transaction).mono (fun _ hh => hh)
      (by rintro _ _ rfl; exact .inl hroot) (by rintro _ rfl; exact .rolledBack hroot)
  | pending u t hroot =>
    refine (recover_pending u).mono (by rintro _ rfl; exact ⟨t, hroot⟩) (fun _ _ hh => .inl hh) ?_
    rintro k (⟨t', hp⟩ | hrolled)
    · exact .pending u t' hp
    · exact .rolledBack hrolled
  | confirmed u t hhost =>
    exact (recover_confirmed u).mono (by rintro _ rfl; exact ⟨t, hhost⟩) (fun _ _ hh => .inr hh)
      fun _ hh => hh
  | completed hroot hpub =>
    exact (recover_none hroot.transaction).mono (fun _ hh => hh)
      (by rintro _ _ rfl; exact .inr ⟨hroot, hpub⟩)
      (by rintro _ rfl; exact .completed hroot hpub)

theorem Pending.confirm (hp : Pending u t h.root) (hactive : h.root.current = .link (releasePath version)) :
    Confirmed u { t with state := .confirmed }
      (h.perform (.writeTransaction { t with state := .confirmed })) where
  record := rfl
  sameVersion := hp.sameVersion
  samePrevious := hp.samePrevious
  confirmed := rfl
  current := hactive
  directory := hp.directory hactive
  published := ⟨_, Journaled.mem_perform_log.2 (.inr rfl), _, rfl, rfl, hp.sameVersion⟩

theorem confirm_phase (confirmedVersion : Name) (answers : ConfirmStep → Answer) :
    Triple answers (Phase start version) (confirmUpgrade confirmedVersion)
      (fun _ => Settled start version) (Phase start version) := by
  refine confirmUpgrade_triple (fun _ hh _ => hh) ?_
  intro _ _ t _ hstate _
  refine .of_state fun h hh => ?_
  obtain ⟨hphase, hrecord, hactive⟩ := hh
  obtain ⟨u, hpending⟩ := hphase.pending_of_record hrecord (by rw [hstate]; decide)
  obtain rfl := hpending.sameVersion
  let confirmed : UpgradeTransaction := { t with state := .confirmed }
  refine (settleTransaction_triple (C := Confirmed u confirmed)
    (R := fun h => Confirmed u confirmed h ∧ h.root.FloorAtLeast u.candidate)
    (D := Settled start t.version) (writeYaml_triple ?_ ?_ (fun _ _ hh => hh) ?_)
    ((Confirmed.persist u confirmed).mono (fun _ hh => hh) (fun _ _ hh => hh)
      fun _ hh => .confirmed u confirmed hh)
    (fun _ _ hh => .confirmed u confirmed hh.1) (fun _ _ hh => .inr (hh.1.completed hh.2))
    fun _ _ hh => hh.phase).mono (fun _ hh => hh) (fun _ _ hh => hh.2) fun _ hh => hh
  · rintro _ _ rfl
    exact hphase
  · rintro _ _ rfl
    exact hpending.confirm hactive
  · exact fun _ h hh => .confirmed u confirmed hh

variable {request : UpgradeRequest}

theorem Accepted.upgrade {previousRelease : Path} (hacc : Accepted start request previousRelease) :
    ∃ u : Upgrade start request.version, u.previousRelease = previousRelease := by
  obtain ⟨candidate, hver, hnewer⟩ := checkAntiRollback_eq_ok hacc.newer
  obtain ⟨hcur, -⟩ := previousReleaseOf_eq_ok hacc.previous
  exact ⟨⟨candidate, previousRelease, hver, hcur,
    hacc.wellFormed, hnewer⟩, rfl⟩

theorem install_pending {answers : InstallStep → Answer} (g : Host) : Triple answers (· = g) (installUpgrade request)
      (fun result h => ∃ (u : Upgrade g.root request.version) (t : UpgradeTransaction),
        result.previousRelease = u.previousRelease ∧ Pending u t h.root ∧ t.state = .activated ∧
          h.root.current = .link (releasePath request.version))
      (fun h => h = g ∨ ∃ u : Upgrade g.root request.version,
        (∃ t, Pending u t h.root) ∨ RolledBack g.root request.version h.root) := by
  refine installUpgrade_triple (fun _ hh => .inl hh) ?_
  intro root previousRelease hacc
  refine .of_state fun h hh => ?_
  obtain ⟨rfl, rfl⟩ := hh
  obtain ⟨u, rfl⟩ := hacc.upgrade
  let prepared : UpgradeTransaction :=
    { state := .prepared, version := request.version, previousRelease := u.previousRelease }
  let activated : UpgradeTransaction := { prepared with state := .activated }
  refine (installTransaction_triple (P := fun k => Pending u prepared k.root)
    (I := fun k => ∃ t, Pending u t k.root)
    (D := fun k => Pending u activated k.root ∧ k.root.current = .link (releasePath request.version))
    (writeYaml_triple ?_ ?_ (fun _ _ hh => hh) ?_) (fun _ hh => ⟨prepared, hh⟩) (fun _ hh => ⟨prepared, { hh with }⟩)
    (Pending.installerKeeps u) (writeYaml_triple ?_ ?_ (fun _ _ hh => hh) ?_) ?_ ?_).mono (fun _ hh => hh) ?_
    fun _ hh => hh
  · exact fun _ _ hh => .inl hh
  · rintro _ k rfl
    exact { record := rfl, sameVersion := rfl, samePrevious := rfl, unconfirmed := nofun,
            current := .inl rfl, floor := rfl }
  · exact fun _ _ hh => .inr ⟨u, .inl ⟨prepared, hh⟩⟩
  · exact fun _ _ hh => hh.1
  · rintro _ k ⟨⟨t, ht⟩, hactive⟩
    exact ⟨{ ht with record := rfl, sameVersion := rfl, samePrevious := rfl,
                     unconfirmed := nofun }, hactive⟩
  · exact fun _ _ hh => ⟨activated, hh.1⟩
  · exact (recover_pending u).mono (fun _ hh => hh) (fun _ _ hh => .inr ⟨u, .inr hh⟩)
      fun _ hh => .inr ⟨u, hh⟩
  · exact fun _ hh => .inr ⟨u, .inl hh⟩
  · rintro _ k ⟨rfl, hpending, hactive⟩
    exact ⟨u, activated, rfl, hpending, rfl, hactive⟩

theorem install_phase (answers : InstallStep → Answer) (hidle : start.transaction = none)
    (hfresh : request.version ∉ start.releases) : Triple answers (fun h => h.root = start) (installUpgrade request)
      (fun _ => Phase start request.version) (Phase start request.version) := by
  refine .of_state fun h hh => ?_
  obtain rfl := hh
  refine (install_pending h).mono (fun _ hh => hh) ?_ ?_
  · rintro _ k ⟨u, t, -, hpending, -⟩
    exact .pending u t hpending
  · rintro k (rfl | ⟨u, ⟨t, hpending⟩ | hrolled⟩)
    · exact .rolledBack { current := rfl, candidate := hfresh, transaction := hidle, floor := rfl }
    · exact .pending u t hpending
    · exact .rolledBack hrolled

/-! ## Runs -/

/-- A call that deals with the transaction of an upgrade under way. -/
def UpgradeCall.IsSettling : UpgradeCall → Prop
  | .confirm _ _ => True
  | .recover _ => True
  | _ => False

/-- Whatever becomes of a call, it ends in a phase. -/
theorem step_phase {call : UpgradeCall} (hh : Phase start version h) (hcall : call.IsSettling) :
    Phase start version (step h call).1 := by
  cases call with
  | install request answers => exact hcall.elim
  | confirm confirmedVersion answers =>
    exact (confirm_phase confirmedVersion answers).anyway hh fun _ _ hs => hs.phase
  | rollback previousRelease answers => exact hcall.elim
  | recover answers => exact (recover_phase answers).anyway hh fun _ _ hs => hs.phase

/-- **Crash consistency.**  `InstallUpgrade` in a root without a transaction, cut off anywhere; then
    confirmations and recoveries, cut off anywhere and as often as they are tried: once a recovery
    returns true, the upgrade is either undone, or done — and done only if its confirmed record
    has been published. -/
theorem upgrade_crash_consistent (start : InstallRoot) (request : UpgradeRequest)
    (hidle : start.transaction = none) (hfresh : request.version ∉ start.releases)
    (installAnswers : InstallStep → Answer) (calls : List UpgradeCall)
    (hcalls : ∀ call ∈ calls, call.IsSettling) (recoverAnswers : RecoverStep → Answer)
    (hrecovered : (step (run step (Host.ofRoot start) (.install request installAnswers :: calls))
      (.recover recoverAnswers)).2.isTrue = true) :
    let host := run step (Host.ofRoot start)
      (.install request installAnswers :: calls ++ [.recover recoverAnswers])
    (RolledBack start request.version host.root ∧ ¬ Completed request.version host.root) ∨
      (Completed request.version host.root ∧ ¬ RolledBack start request.version host.root ∧
        ConfirmedPublished request.version host) := by
  have hinstalled : Phase start request.version
      (step (Host.ofRoot start) (.install request installAnswers)).1 :=
    (install_phase installAnswers hidle hfresh).anyway rfl fun _ _ hh => hh
  have hcut : Phase start request.version
      (run step (Host.ofRoot start) (.install request installAnswers :: calls)) := by
    rw [run_cons]
    exact Along.invariant (fun _ _ hh hcall => step_phase hh hcall) hinstalled
      (along_of_forall (fun call hmem _ => hcalls call hmem) _)
  obtain ⟨recovered, hret⟩ := conclude_isTrue hrecovered
  have hsettled := (recover_phase recoverAnswers).returned hcut hret
  rw [run_append]
  rcases hsettled with hroot | ⟨hroot, hpub⟩
  · exact .inl ⟨hroot, hroot.not_completed⟩
  · exact .inr ⟨hroot, fun hrolled => hrolled.not_completed hroot, hpub⟩

/-- A root in which release 1.0 is active, and the candidate for the release after it. -/
def exampleRoot : InstallRoot where
  current := .link (releasePath ['1', '.', '0', '.', '0'])
  currentNew := .absent
  releases := [['1', '.', '0', '.', '0']]
  transaction := none
  floor := some [['1', '.', '0', '.', '0']]

def exampleRequest : UpgradeRequest where
  version := ['1', '.', '1', '.', '0']
  verification := .ok ()

theorem upgrade_crash_consistent_cut :
    let host := run step (Host.ofRoot exampleRoot)
      (.install exampleRequest (fun _ => .done) ::
        [.confirm exampleRequest.version
          (fun label => if label = .floor .inspectFloor then .crashed else .done),
        .recover (fun label => if label = .removeTransaction then .crashed else .done)] ++
        [.recover fun _ => .done])
    (RolledBack exampleRoot exampleRequest.version host.root ∧
        ¬ Completed exampleRequest.version host.root) ∨
      (Completed exampleRequest.version host.root ∧
        ¬ RolledBack exampleRoot exampleRequest.version host.root ∧
        ConfirmedPublished exampleRequest.version host) :=
  upgrade_crash_consistent exampleRoot exampleRequest rfl (by decide) _ _
    (by
      intro call hmem
      simp only [List.mem_cons, List.not_mem_nil, or_false] at hmem
      rcases hmem with rfl | rfl <;> trivial)
    _ (by decide +kernel)

end Cockpit.Upgrader
