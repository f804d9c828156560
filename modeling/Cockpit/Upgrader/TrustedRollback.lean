/-
  Which release a rollback returns to.

  The record is the only memory of the release that was active before an upgrade, and `InstallUpgrade` writes
  its own over whatever is there.  So a second installation over a pending one makes the unconfirmed candidate
  the release to return to; safe-ota recovers first, the upgrader module does not.  The condition is on single
  calls: an upgrade that is accepted finds no record, and a confirmation that is accepted is not cut off behind
  its record — recovery would complete it, and the release would be in use without its confirmation ever having
  returned true.
-/
import Cockpit.Upgrader.Procedures

namespace Cockpit.Upgrader

open Durable StepRun List

/-! ## The law -/

/-- Active at the start, or confirmed since by a call that returned true. -/
def Trusted (start : InstallRoot) (history : List (UpgradeCall × CallResult)) (release : Path) : Prop :=
  start.current = .link release ∨
    ∃ entry ∈ history, ∃ version answers, entry.1 = .confirm version answers ∧
      entry.2.isTrue = true ∧ release = releasePath version

/-- Putting the recorded previous release in place restores a trusted one, and a record that is
    not confirmed is only replaced by one of the same candidate. -/
def RollbackLaw (trusted : Path → Prop) (root : InstallRoot) : FsOp → Prop
  | .renameCurrent => ∀ t, loadTransaction root.transaction = .ok t →
      root.currentNew = .link t.previousRelease → trusted t.previousRelease
  | .writeTransaction t => ∀ pending, loadTransaction root.transaction = .ok pending →
      pending.state ≠ .confirmed → pending.version = t.version
  | _ => True

/-- Every operation behind the confirmed record succeeds. -/
def CompletesConfirmation (answers : ConfirmStep → Answer) : Prop :=
  answers (.write .syncDirectory) = .done ∧ (∀ label, answers (.floor label) = .done) ∧
    answers .removeTransaction = .done ∧ answers .syncDirectory = .done

/-- No upgrade is accepted over a record, and no confirmation cut off behind its own. -/
def Orderly (h : Host) : UpgradeCall → Prop
  | .install request _ => (∃ previousRelease, Accepted h.root request previousRelease) →
      h.root.transaction = none
  | .confirm version answers => ConfirmAccepted h.root version → CompletesConfirmation answers
  | _ => True

/-- The calls of the upgrader module and of safe-ota. -/
def UpgradeCall.IsManaged : UpgradeCall → Prop
  | .rollback _ _ => False
  | _ => True

/-! ## The invariant -/

/-- An unconfirmed transaction on record, with a trusted release to return to. -/
structure PendingTrust (trusted : Path → Prop) (t : UpgradeTransaction) (root : InstallRoot) : Prop where
  record : root.transaction = some t.file
  wellFormed : t.WellFormed
  unconfirmed : t.state ≠ .confirmed
  previous : t.previousRelease.isEmpty = false → trusted t.previousRelease
  raisable : ∃ v, versionOf t.version = some v ∧ root.Raisable v

/-- Between calls there is no record and a trusted release is active, or there is a pending one. -/
inductive TrustState (trusted : Path → Prop) (root : InstallRoot) : Prop where
  | idle (hnone : root.transaction = none)
      (hcur : ∀ release, root.current = .link release → trusted release)
  | pending (t : UpgradeTransaction) (hpending : PendingTrust trusted t root)

/-- The release to return to is trusted, and so were all that were returned to. -/
structure TrustInv (trusted : Path → Prop) (h : Host) : Prop where
  state : TrustState trusted h.root
  lawful : h.Allowed (RollbackLaw trusted)

variable {trusted : Path → Prop}

variable {trusted' : Path → Prop} {root : InstallRoot}

theorem TrustState.mono (hle : ∀ release, trusted release → trusted' release) (hs : TrustState trusted root) :
    TrustState trusted' root := by
  cases hs with
  | idle hnone hcur => exact .idle hnone fun release hlink => hle _ (hcur release hlink)
  | pending t hp => exact .pending t { hp with previous := fun hne => hle _ (hp.previous hne) }

theorem RollbackLaw.mono (hle : ∀ release, trusted release → trusted' release) {op : FsOp}
    (hlaw : RollbackLaw trusted root op) : RollbackLaw trusted' root op := by
  cases op with
  | renameCurrent => exact fun t hload hnew => hle _ (hlaw t hload hnew)
  | writeTransaction t => exact hlaw
  | _ => trivial

variable {h : Host}

theorem TrustInv.mono (hle : ∀ release, trusted release → trusted' release) (hi : TrustInv trusted h) :
    TrustInv trusted' h :=
  ⟨hi.state.mono hle, fun entry hmem => (hi.lawful entry hmem).mono hle⟩

variable {t : UpgradeTransaction}

theorem loaded_eq {t' : UpgradeTransaction} (hrecord : root.transaction = some t.file)
    (hload : loadTransaction root.transaction = .ok t') : t' = t := by
  have hfile : t'.file = t.file :=
    (Option.some.inj (hrecord.symm.trans (loadTransaction_eq_ok.1 hload).1)).symm
  exact UpgradeTransaction.file_inj.1 hfile

theorem TrustInv.pending_of_record (hi : TrustInv trusted h) (hrecord : h.root.transaction = some t.file) :
    PendingTrust trusted t h.root := by
  cases hi.state with
  | idle hnone _ =>
    rw [hnone] at hrecord
    exact absurd hrecord (by simp)
  | pending t' hp =>
    have hfile : t'.file = t.file := Option.some.inj (hp.record.symm.trans hrecord)
    obtain rfl := UpgradeTransaction.file_inj.1 hfile
    exact hp

/-! ## What the procedures do -/

/-- While `t` is pending, and everything done so far was lawful. -/
structure Undoing (trusted : Path → Prop) (t : UpgradeTransaction) (h : Host) : Prop where
  pending : PendingTrust trusted t h.root
  lawful : h.Allowed (RollbackLaw trusted)

theorem Undoing.trustInv (hu : Undoing trusted t h) : TrustInv trusted h :=
  ⟨.pending t hu.pending, hu.lawful⟩

theorem Undoing.perform {op : FsOp} (hu : Undoing trusted t h)
    (htransaction : (op.apply h.root).transaction = h.root.transaction)
    (hfloor : (op.apply h.root).floor = h.root.floor) (hlaw : RollbackLaw trusted h.root op) :
    Undoing trusted t (h.perform op) := by
  refine ⟨{ hu.pending with record := htransaction.trans hu.pending.record, raisable := ?_ },
    hu.lawful.perform hlaw⟩
  obtain ⟨v, hver, hraisable⟩ := hu.pending.raisable
  refine ⟨v, hver, ?_⟩
  unfold InstallRoot.Raisable InstallRoot.FloorReadable InstallRoot.floorVersion at *
  rw [Host.perform_root, hfloor]
  exact hraisable

theorem Undoing.removeRelease (hu : Undoing trusted t h) {name : Name} (hname : name ≠ dot ∧ name ≠ dotDot) :
    Undoing trusted t (h.perform (.removeRelease name)) := by
  have happly : FsOp.apply (.removeRelease name) h.root
      = { h.root with releases := h.root.releases.filter (· ≠ name) } :=
    InstallRoot.removeRelease_of_safe hname
  exact hu.perform (by rw [happly]) (by rw [happly]) trivial

theorem Undoing.rollbackKeeps (t : UpgradeTransaction) : RollbackKeeps (Undoing trusted t) t.previousRelease where
  unlinkNew _ hu := hu.perform rfl rfl trivial
  unlinkCurrent _ _ hu := hu.perform rfl rfl trivial
  linkNew _ _ hu := hu.perform rfl rfl trivial
  renameCurrent hnonempty h hu _ := by
    refine hu.perform rfl rfl fun t' hload _ => ?_
    obtain rfl := loaded_eq hu.pending.record hload
    exact hu.pending.previous hnonempty
  removeFailed name hsafe _ _ hu _ := by
    obtain ⟨name', hpath, -, hname⟩ := isSafeReleaseTarget_iff.1 hsafe
    obtain rfl := releasePath_inj.1 hpath
    exact hu.removeRelease hname

theorem Undoing.installerKeeps (version : Name) :
    InstallerKeeps (fun h => ∃ t, t.version = version ∧ Undoing trusted t h) version where
  makeRelease _ hh := hh.imp fun _ ht => ⟨ht.1, ht.2.perform rfl rfl trivial⟩
  linkNew _ hh := hh.imp fun _ ht => ⟨ht.1, ht.2.perform rfl rfl trivial⟩
  renameCurrent h hh _ hnew := by
    obtain ⟨t, rfl, hu⟩ := hh
    refine ⟨t, rfl, hu.perform rfl rfl fun t' hload hprev => ?_⟩
    obtain rfl := loaded_eq hu.pending.record hload
    exact absurd (Entry.link.inj (hprev.symm.trans hnew)) hu.pending.wellFormed.differs

/-- Recovery returns to a release that is trusted. -/
theorem recover_trust {answers : RecoverStep → Answer} {g : Host} (hg : TrustInv trusted g) :
    Triple answers (· = g) recoverInterruptedUpgrade
      (fun _ h => TrustInv trusted h ∧ ∀ t, loadTransaction g.root.transaction = .ok t →
        h.root.current = Entry.ofRelease t.previousRelease) (TrustInv trusted) := by
  have hstart : ∀ h, h = g → TrustInv trusted h := by
    rintro _ rfl
    exact hg
  refine recoverInterruptedUpgrade_triple
    (S := fun t h => loadTransaction g.root.transaction = .ok t ∧ Undoing trusted t h ∧
      h.root.current = Entry.ofRelease t.previousRelease)
    (fun h hh _ => hstart h hh) ?_ ?_ (fun _ _ _ hh => hh.2.1.trustInv) ?_ fun _ hh => hh.1
  · rintro _ rfl hnone
    refine ⟨hg, fun t hload => ?_⟩
    rw [hnone] at hload
    exact absurd hload (by simp [loadTransaction])
  · intro _ _ t hwell
    refine .of_state fun h hh => ?_
    obtain ⟨rfl, hrecord⟩ := hh
    have hload : loadTransaction h.root.transaction = .ok t := loadTransaction_eq_ok.2 ⟨hrecord, hwell⟩
    have hu : Undoing trusted t h := ⟨hg.pending_of_record hrecord, hg.lawful⟩
    obtain ⟨v, hver, -⟩ := hu.pending.raisable
    have hname : t.version ≠ dot ∧ t.version ≠ dotDot :=
      ⟨versionOf_ne_none hver (by decide), versionOf_ne_none hver (by decide)⟩
    refine .ite (fun hconf => absurd hconf hu.pending.unconfirmed) fun _ => ?_
    refine (undoTransaction_triple (Undoing.rollbackKeeps t)
      (D := fun h => Undoing trusted t h ∧ h.root.current = Entry.ofRelease t.previousRelease) ?_
      fun _ hh => hh.1).mono ?_ (fun _ _ hh => ⟨hload, hh⟩) fun _ hh => hh.trustInv
    · intro g hg hcur
      refine ⟨hg.removeRelease hname, ?_⟩
      rw [Host.perform_root, FsOp.apply, InstallRoot.removeRelease_of_safe hname]
      exact hcur
    · rintro _ rfl
      exact hu
  · rintro - t h ⟨hload, hu, hcur⟩
    refine ⟨⟨.idle rfl fun release hlink => ?_, hu.lawful.perform trivial⟩, fun t' hload' => ?_⟩
    · have hentry : Entry.ofRelease t.previousRelease = .link release := hcur.symm.trans hlink
      unfold Entry.ofRelease at hentry
      split at hentry
      · exact absurd hentry (by simp)
      · rename_i hnonempty
        obtain rfl := Entry.link.inj hentry
        exact hu.pending.previous (by simpa using hnonempty)
    · rw [hload] at hload'
      obtain rfl := Except.ok.inj hload'
      exact hcur

/-- An installation over no record remembers one. -/
theorem install_trust {request : UpgradeRequest} {answers : InstallStep → Answer} {g : Host} (hg : TrustInv trusted g)
    (horderly : (∃ previousRelease, Accepted g.root request previousRelease) →
      g.root.transaction = none) :
    Triple answers (· = g) (installUpgrade request) (fun _ => TrustInv trusted) (TrustInv trusted) := by
  refine installUpgrade_triple (by rintro _ rfl; exact hg) ?_
  intro root previousRelease hacc
  refine .of_state fun h hh => ?_
  obtain ⟨rfl, rfl⟩ := hh
  have hnone : h.root.transaction = none := horderly ⟨previousRelease, hacc⟩
  obtain ⟨candidate, hver, hnewer⟩ := checkAntiRollback_eq_ok hacc.newer
  obtain ⟨hcur, -⟩ := previousReleaseOf_eq_ok hacc.previous
  have htrusted : previousRelease.isEmpty = false → trusted previousRelease := by
    intro hnonempty
    cases hg.state with
    | idle _ htrusted => exact htrusted _ (by rw [hcur, Entry.ofRelease_of_nonempty hnonempty])
    | pending t' hp => exact absurd hp.record (by rw [hnone]; simp)
  have hwritten (state : TransactionState) (hstate : state ≠ .confirmed) {k : Host}
      (hlawful : k.Allowed (RollbackLaw trusted))
      (hraisable : ∃ v, versionOf request.version = some v ∧ k.root.Raisable v)
      (hpending : ∀ pending, loadTransaction k.root.transaction = .ok pending →
        pending.version = request.version) :
      Undoing trusted { state, version := request.version, previousRelease }
        (k.perform (.writeTransaction { state, version := request.version, previousRelease })) :=
    ⟨⟨rfl, hacc.wellFormed state, hstate, htrusted, hraisable⟩,
      hlawful.perform fun pending hload _ => hpending pending hload⟩
  refine (installTransaction_triple
    (P := Undoing trusted { state := .prepared, version := request.version, previousRelease })
    (I := fun g => ∃ t, t.version = request.version ∧ Undoing trusted t g)
    (D := fun g => ∃ t, t.version = request.version ∧ Undoing trusted t g)
    (writeYaml_triple ?_ ?_ (fun _ _ hh => hh) ?_) (fun _ hh => ⟨_, rfl, hh⟩)
    (fun _ hh => ⟨_, rfl, hh.perform rfl rfl trivial⟩) (Undoing.installerKeeps _)
    (writeYaml_triple ?_ ?_ (fun _ _ hh => hh) ?_) ?_ ?_).mono (fun _ hh => hh) ?_ fun _ hh => hh
  · rintro _ _ rfl
    exact hg
  · rintro - k rfl
    refine hwritten .prepared (by decide) hg.lawful ⟨candidate, hver, hnewer.readable, fun floor hfloor =>
      Version.le_of_lt (hnewer.floor floor hfloor)⟩ fun pending hload => ?_
    rw [hnone] at hload
    exact absurd hload (by simp [loadTransaction])
  · exact fun _ _ hh => hh.trustInv
  · exact fun _ _ hh => hh.1
  · rintro - k ⟨⟨t, hver', hu⟩, -⟩
    refine ⟨_, rfl, hwritten .activated (by decide) hu.lawful (hver' ▸ hu.pending.raisable)
      fun pending hload => ?_⟩
    rw [loaded_eq hu.pending.record hload]
    exact hver'
  · exact fun _ _ hh => hh
  · refine .of_state fun g hh => ?_
    obtain ⟨t, -, hu⟩ := hh
    exact (recover_trust hu.trustInv).mono (fun _ hh => hh) (fun _ _ hh => hh.1) fun _ hh => hh
  · rintro g ⟨t, -, hu⟩
    exact hu.trustInv
  · rintro _ g ⟨-, t, -, hu⟩
    exact hu.trustInv

theorem confirm_trust {version : Name} {answers : ConfirmStep → Answer} {g : Host} (hg : TrustInv trusted g)
    (horderly : ConfirmAccepted g.root version → CompletesConfirmation answers) :
    Triple answers (· = g) (confirmUpgrade version)
      (fun _ h => h.root.transaction = none ∧ h.root.current = .link (releasePath version) ∧
        h.Allowed (RollbackLaw trusted)) (TrustInv trusted) := by
  refine confirmUpgrade_triple (by rintro _ rfl _; exact hg) ?_
  rintro - - t hwell hstate rfl
  refine .of_state fun h hh => ?_
  obtain ⟨rfl, hrecord, hcur⟩ := hh
  obtain ⟨hsync, hfloor, hremove, hlast⟩ :=
    horderly ⟨t, loadTransaction_eq_ok.2 ⟨hrecord, hwell⟩, hstate, rfl, hcur⟩
  have hpending := hg.pending_of_record hrecord
  obtain ⟨v, hver, hraisable⟩ := hpending.raisable
  refine (settleTransaction_triple
    (C := fun k => k.root.Raisable v ∧ k.root.current = .link (releasePath t.version) ∧
      k.Allowed (RollbackLaw trusted))
    (R := fun k => k.root.current = .link (releasePath t.version) ∧ k.Allowed (RollbackLaw trusted))
    (D := fun k => k.root.transaction = none ∧ k.root.current = .link (releasePath t.version) ∧
      k.Allowed (RollbackLaw trusted))
    (writeYaml_triple ?_ ?_ (fun _ _ hh => hh) (fun hnot => absurd hsync hnot))
    (persistVersionFloor_triple hver (fun hnot => absurd (hfloor _) hnot) ?_ ?_ ?_
      (fun _ _ hh => hh) (fun hnot => absurd (hfloor _) hnot) ?_)
    (fun hnot => absurd hremove hnot) ?_ (fun hnot => absurd hlast hnot)).mono (fun _ hh => hh)
    (fun _ _ hh => hh.2) fun _ hh => hh
  · rintro _ _ rfl
    exact hg
  · rintro - _ rfl
    refine ⟨hraisable, hcur, hg.lawful.perform fun pending hload _ => ?_⟩
    rw [loaded_eq hrecord hload]
  · exact fun k hk hnot => absurd hk.1 hnot
  · exact fun hnot => absurd (fun label _ => hfloor (.write label)) hnot
  · exact fun _ _ k hk _ => ⟨hk.2.1, hk.2.2.perform trivial⟩
  · exact fun _ k hk _ => hk.2
  · exact fun _ k hk => ⟨rfl, hk.1, hk.2.perform trivial⟩

/-! ## Histories -/

theorem Trusted.append {start : InstallRoot} {history more : List (UpgradeCall × CallResult)}
    {release : Path} (h : Trusted start history release) : Trusted start (history ++ more) release :=
  h.imp_right fun ⟨entry, hmem, hentry⟩ => ⟨entry, mem_append_left _ hmem, hentry⟩

/-- **One call** keeps the invariant; a confirmation that returned true is trusted from then on. -/
theorem step_trust {start : InstallRoot} {history : List (UpgradeCall × CallResult)} {call : UpgradeCall}
    (hi : TrustInv (Trusted start history) h) (hcall : call.IsManaged ∧ Orderly h call) :
    TrustInv (Trusted start (history ++ [(call, (step h call).2)])) (step h call).1 := by
  obtain ⟨hmanaged, horderly⟩ := hcall
  have hmore : ∀ release, Trusted start history release →
      Trusted start (history ++ [(call, (step h call).2)]) release := fun _ ht => ht.append
  cases call with
  | install request answers =>
    exact ((install_trust hi horderly).anyway rfl fun _ _ hh => hh).mono hmore
  | rollback previousRelease answers => exact hmanaged.elim
  | recover answers => exact ((recover_trust hi).anyway rfl fun _ _ hh => hh.1).mono hmore
  | confirm version answers =>
    have htriple := confirm_trust hi horderly
    cases htrue : (step h (.confirm version answers)).2.isTrue with
    | true =>
      obtain ⟨value, hret⟩ := conclude_isTrue htrue
      obtain ⟨hnone, hcur, hlawful⟩ := htriple.returned rfl hret
      refine ⟨.idle hnone fun release hlink => .inr ?_, fun entry hmem => (hlawful entry hmem).mono hmore⟩
      obtain rfl := Entry.link.inj (hcur.symm.trans hlink)
      exact ⟨_, mem_append_right _ mem_cons_self, version, answers, rfl, htrue, rfl⟩
    | false => exact (conclude_stop htriple rfl htrue).mono hmore

/-- **Rollback returns to a trusted release.**  In every orderly history of installations,
    confirmations and recoveries, whatever was put in place of a candidate was active at the start or
    confirmed, no pending record was replaced by another candidate's, and a recovery that returns
    true from a record has made such a release active, or none if there was none. -/
theorem rollback_returns_to_trusted (start : InstallRoot) (hidle : start.transaction = none)
    (calls : List UpgradeCall) (hcalls : ∀ call ∈ calls, call.IsManaged)
    (horderly : Along step Orderly (Host.ofRoot start) calls) :
    let host := run step (Host.ofRoot start) calls
    let history := trace step (Host.ofRoot start) calls
    host.Allowed (RollbackLaw (Trusted start history)) ∧
      ∀ answers t, loadTransaction host.root.transaction = .ok t →
        (step host (.recover answers)).2.isTrue = true →
        (step host (.recover answers)).1.root.current = Entry.ofRelease t.previousRelease ∧
          (t.previousRelease.isEmpty = false → Trusted start history t.previousRelease) := by
  have hstart : TrustInv (Trusted start []) (Host.ofRoot start) :=
    ⟨.idle hidle fun _ hlink => .inl hlink, fun entry hmem => absurd hmem not_mem_nil⟩
  have hrun := Along.trace_invariant (I := fun history h => TrustInv (Trusted start history) h)
    (fun _ _ _ hi hcall => step_trust hi hcall) hstart
    ((along_of_forall (fun call hmem _ => hcalls call hmem) _).and horderly)
  refine ⟨hrun.lawful, fun answers t hload htrue => ?_⟩
  obtain ⟨value, hret⟩ := conclude_isTrue htrue
  refine ⟨((recover_trust hrun).returned rfl hret).2 t hload, ?_⟩
  exact (hrun.pending_of_record (loadTransaction_eq_ok.1 hload).1).previous

/-- Release 1.0.0 is active, with its version as the floor. -/
def trustedRoot : InstallRoot where
  current := .link (releasePath ['1', '.', '0', '.', '0'])
  currentNew := .absent
  releases := [['1', '.', '0', '.', '0']]
  transaction := none
  floor := some [['1', '.', '0', '.', '0']]

theorem rollback_returns_to_trusted_upgrade :
    let calls : List UpgradeCall :=
      [.install { version := ['1', '.', '1', '.', '0'], verification := .ok () } fun _ => .done,
        .confirm ['1', '.', '1', '.', '0'] fun _ => .done,
        .install { version := ['1', '.', '2', '.', '0'], verification := .ok () } fun _ => .done]
    let host := run step (Host.ofRoot trustedRoot) calls
    let history := trace step (Host.ofRoot trustedRoot) calls
    host.Allowed (RollbackLaw (Trusted trustedRoot history)) ∧
      ∀ answers t, loadTransaction host.root.transaction = .ok t →
        (step host (.recover answers)).2.isTrue = true →
        (step host (.recover answers)).1.root.current = Entry.ofRelease t.previousRelease ∧
          (t.previousRelease.isEmpty = false → Trusted trustedRoot history t.previousRelease) :=
  rollback_returns_to_trusted trustedRoot rfl _
    (by
      intro call hmem
      simp only [mem_cons, not_mem_nil, or_false] at hmem
      rcases hmem with rfl | rfl | rfl <;> trivial)
    ⟨fun _ => rfl, fun _ => ⟨rfl, fun _ => rfl, rfl, rfl⟩, fun _ => by decide +kernel, trivial⟩

/-- 1.1.0 is activated, and never confirmed; 1.2.0 is installed over it, and rolled back. -/
def overwritingCalls : List UpgradeCall :=
  [.install { version := ['1', '.', '1', '.', '0'], verification := .ok () } fun _ => .done,
    .install { version := ['1', '.', '2', '.', '0'], verification := .ok () } fun _ => .done,
    .recover fun _ => .done]

/-- The pending record of 1.1.0, and the record that is written over it. -/
def firstOverwritten : UpgradeTransaction where
  state := .activated
  version := ['1', '.', '1', '.', '0']
  previousRelease := releasePath ['1', '.', '0', '.', '0']

def overwriting : UpgradeTransaction where
  state := .prepared
  version := ['1', '.', '2', '.', '0']
  previousRelease := releasePath ['1', '.', '1', '.', '0']

/-- **An untrusted release is restored**: the unconfirmed 1.1.0 is active, and its pending record
    has been replaced by the one of 1.2.0. -/
theorem untrusted_release_restored :
    let host := run step (Host.ofRoot trustedRoot) overwritingCalls
    let history := trace step (Host.ofRoot trustedRoot) overwritingCalls
    (∀ entry ∈ history, entry.2.isTrue = true) ∧
      host.root.current = .link (releasePath ['1', '.', '1', '.', '0']) ∧
      ¬ Trusted trustedRoot history (releasePath ['1', '.', '1', '.', '0']) ∧
      ¬ host.Allowed (RollbackLaw (Trusted trustedRoot history)) := by
  have huntrusted : ¬ Trusted trustedRoot (trace step (Host.ofRoot trustedRoot) overwritingCalls)
      (releasePath ['1', '.', '1', '.', '0']) := by
    rintro (hstart | ⟨entry, hmem, version, answers, hcall, -⟩)
    · exact absurd hstart (by decide)
    · simp only [overwritingCalls, trace, mem_cons, not_mem_nil, or_false] at hmem
      rcases hmem with rfl | rfl | rfl <;> exact absurd hcall (by simp)
  refine ⟨?_, by decide +kernel, huntrusted, fun hlawful => ?_⟩
  · intro entry hmem
    simp only [overwritingCalls, trace, mem_cons, not_mem_nil, or_false] at hmem
    rcases hmem with rfl | rfl | rfl <;> decide +kernel
  · -- The entry is the first record of 1.2.0, over the activated one of 1.1.0.
    have hentry : ∃ entry ∈ (run step (Host.ofRoot trustedRoot) overwritingCalls).log,
        entry.1.transaction = some firstOverwritten.file ∧ entry.2 = .writeTransaction overwriting :=
      ⟨_, mem_of_getElem? (i := 6) rfl, by decide +kernel, by decide +kernel⟩
    obtain ⟨entry, hmem, hrecord, hop⟩ := hentry
    have hlaw := hlawful entry hmem
    rw [hop] at hlaw
    have hload : loadTransaction entry.1.transaction = .ok firstOverwritten := by
      rw [hrecord]
      rfl
    exact absurd (hlaw firstOverwritten hload (by decide)) (by decide)

end Cockpit.Upgrader
