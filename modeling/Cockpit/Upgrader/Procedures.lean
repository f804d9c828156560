/-
  What the procedures of the upgrader do, operation by operation.

  The laws about upgrades (crash consistency, anti-rollback, trusted rollback) each have an invariant of their
  own, but they go through the same procedures.  So each procedure has one triple here, with the invariant as a
  variable: it asks for every operation of the procedure that the invariant survives it in the states in which
  the procedure performs it, and for nothing else.  A law then only says what its invariant does under the ten
  operations.
-/
import Cockpit.Upgrader.Transaction

namespace Cockpit.Upgrader

open Durable Durable.Program

/-! ## Decisions -/

namespace InstallRoot

/-- The version of the floor; none when there is no floor, or none that can be read. -/
def floorVersion (root : InstallRoot) : Option Version :=
  match root.floor with
  | some [value] => versionOf value
  | _ => none

/-- The floor file is absent or valid. -/
def FloorReadable (root : InstallRoot) : Prop :=
  root.floor = none ∨ root.floorVersion.isSome = true

/-- The floor can be raised to `v`, or is there already. -/
def Raisable (root : InstallRoot) (v : Version) : Prop :=
  root.FloorReadable ∧ ∀ floor, root.floorVersion = some floor → floor ≤ v

/-- The floor can be read, and is not below this version. -/
def FloorAtLeast (root : InstallRoot) (v : Version) : Prop :=
  ∃ floor, root.floorVersion = some floor ∧ v ≤ floor

end InstallRoot

theorem readVersionFile_eq_ok {lines : List Name} {value : Name} :
    readVersionFile lines = .ok value ↔ lines = [value] ∧ (versionOf value).isSome = true := by
  constructor
  · intro h
    unfold readVersionFile at h
    split at h
    · split at h
      · exact absurd h (by simp)
      · rename_i text parsed hparse
        obtain rfl := Except.ok.inj h
        obtain ⟨v, hv, -⟩ := versionOf_of_parseSemanticVersion hparse
        exact ⟨rfl, by rw [hv]; rfl⟩
    · exact absurd h (by simp)
  · rintro ⟨rfl, hsome⟩
    obtain ⟨v, hv⟩ := Option.isSome_iff_exists.1 hsome
    simp [readVersionFile, parseSemanticVersion_of_versionOf hv]

theorem checkBaselines_eq_ok {candidate : Version} {baselines : List Name}
    (h : checkBaselines { core := candidate.core } baselines = .ok ()) :
    ∀ baseline ∈ baselines, ∃ v, versionOf baseline = some v ∧ v < candidate := by
  induction baselines with
  | nil => exact fun _ hmem => absurd hmem List.not_mem_nil
  | cons baseline baselines ih =>
    unfold checkBaselines at h
    rw [parseSemanticVersion_eq] at h
    rcases hv : versionOf baseline with _ | v
    · simp [hv] at h
    · simp only [hv, Option.map_some] at h
      split at h
      · exact absurd h (by simp)
      · rename_i hnewer
        intro found hmem
        rcases List.mem_cons.1 hmem with rfl | hmem
        · exact ⟨v, hv, compareSemanticVersions_pos.1 hnewer⟩
        · exact ih h found hmem

/-- What the anti-rollback check has established about the candidate. -/
structure Newer (root : InstallRoot) (currentRelease : Path) (candidate : Version) : Prop where
  readable : root.FloorReadable
  floor : ∀ floor, root.floorVersion = some floor → floor < candidate
  active : currentRelease.isEmpty = false →
    ∃ v, versionOf currentRelease.filename = some v ∧ v < candidate

variable {root : InstallRoot}

/-- What has been checked when it succeeds: the candidate is newer than the floor and than what is active. -/
theorem checkAntiRollback_eq_ok {currentRelease : Path} {candidateVersion : Name}
    (h : checkAntiRollback root currentRelease candidateVersion = .ok ()) :
    ∃ candidate, versionOf candidateVersion = some candidate ∧
      Newer root currentRelease candidate := by
  unfold checkAntiRollback at h
  rw [parseSemanticVersion_eq] at h
  rcases hv : versionOf candidateVersion with _ | candidate
  · simp [hv] at h
  · simp only [hv, Option.map_some] at h
    have hactive {baselines : List Name}
        (hmem : ∀ b ∈ (if currentRelease.isEmpty then [] else [currentRelease.filename]), b ∈ baselines)
        (hok : checkBaselines { core := candidate.core } baselines = .ok ()) :
        currentRelease.isEmpty = false →
          ∃ v, versionOf currentRelease.filename = some v ∧ v < candidate := by
      intro hnonempty
      refine checkBaselines_eq_ok hok _ (hmem _ ?_)
      simp [hnonempty]
    refine ⟨candidate, rfl, ?_⟩
    split at h
    · rename_i hnone
      refine ⟨.inl hnone, ?_, hactive (fun _ hb => hb) h⟩
      intro floor hfloor
      exact absurd hfloor (by simp [InstallRoot.floorVersion, hnone])
    · rename_i lines hsome
      split at h
      · exact absurd h (by simp)
      · rename_i floorVersion hread
        obtain ⟨rfl, hvalid⟩ := readVersionFile_eq_ok.1 hread
        have hver : root.floorVersion = versionOf floorVersion := by
          simp [InstallRoot.floorVersion, hsome]
        refine ⟨.inr (by rw [hver]; exact hvalid), ?_,
          hactive (fun _ hb => List.mem_cons_of_mem _ hb) h⟩
        intro floor hfloor
        obtain ⟨v, hv', hlt⟩ := checkBaselines_eq_ok h floorVersion List.mem_cons_self
        rw [hver, hv'] at hfloor
        obtain rfl := Option.some.inj hfloor
        exact hlt

/-- What a request is checked for before the root is touched. -/
structure Accepted (root : InstallRoot) (request : UpgradeRequest) (previousRelease : Path) : Prop where
  verified : request.verification = .ok ()
  previous : previousReleaseOf root = .ok previousRelease
  newer : checkAntiRollback root previousRelease request.version = .ok ()
  fresh : request.version ∉ root.releases

theorem Entry.ofRelease_of_nonempty {release : Path} (h : release.isEmpty = false) :
    Entry.ofRelease release = .link release := by
  simp [Entry.ofRelease, h]

theorem isSafeReleaseTarget_nonempty {path : Path} (h : isSafeReleaseTarget path = true) : path.isEmpty = false := by
  obtain ⟨version, rfl, -⟩ := isSafeReleaseTarget_iff.1 h
  rfl

variable {previousRelease : Path}

/-- What has been checked of the release that is active when it succeeds. -/
theorem previousReleaseOf_eq_ok (h : previousReleaseOf root = .ok previousRelease) :
    root.current = Entry.ofRelease previousRelease ∧ (previousRelease = noRelease ∨
      isSafeReleaseTarget previousRelease = true ∧ root.isDirectory previousRelease = true) := by
  unfold previousReleaseOf at h
  split at h
  · rename_i habsent
    obtain rfl := Except.ok.inj h
    exact ⟨habsent, .inl rfl⟩
  · exact absurd h (by simp)
  · rename_i target hlink
    split at h
    · rename_i hsafe
      obtain rfl := Except.ok.inj h
      exact ⟨by rw [hlink, Entry.ofRelease_of_nonempty (isSafeReleaseTarget_nonempty hsafe.1)],
        .inr hsafe⟩
    · exact absurd h (by simp)

/-- What a record must satisfy to be loaded. -/
structure UpgradeTransaction.WellFormed (t : UpgradeTransaction) : Prop where
  version : isValidVersion t.version = true
  previous : t.previousRelease.isEmpty = true ∨ isSafeReleaseTarget t.previousRelease = true
  differs : t.previousRelease ≠ releasePath t.version

/-- **Records round-trip**: a file loads as a transaction exactly when it is what saving that
    transaction writes, and the transaction is well formed. -/
theorem loadTransaction_eq_ok {file : Option TransactionFile} {t : UpgradeTransaction} :
    loadTransaction file = .ok t ↔ file = some t.file ∧ t.WellFormed := by
  constructor
  · intro h
    unfold loadTransaction at h
    split at h
    · exact absurd h (by simp)
    · exact absurd h (by simp)
    · exact absurd h (by simp)
    · rename_i state version previousRelease
      split at h
      · exact absurd h (by simp)
      · rename_i hvalid
        split at h
        · exact absurd h (by simp)
        · rename_i hprev
          split at h
          · exact absurd h (by simp)
          · rename_i hdiffers
            have hwell (s : TransactionState) : UpgradeTransaction.WellFormed
                { state := s, version := version, previousRelease := previousRelease } := by
              refine ⟨by simpa using hvalid, ?_, hdiffers⟩
              cases hempty : previousRelease.isEmpty with
              | true => exact .inl rfl
              | false => exact .inr (by simpa [hempty] using hprev)
            split at h
            · rename_i hstate
              obtain rfl := Except.ok.inj h
              exact ⟨by rw [hstate]; rfl, hwell _⟩
            · split at h
              · rename_i hstate
                obtain rfl := Except.ok.inj h
                exact ⟨by rw [hstate]; rfl, hwell _⟩
              · split at h
                · rename_i hstate
                  obtain rfl := Except.ok.inj h
                  exact ⟨by rw [hstate]; rfl, hwell _⟩
                · exact absurd h (by simp)
  · rintro ⟨rfl, hvalid, hprev, hdiffers⟩
    have hsafe : ¬ (t.previousRelease.isEmpty = false ∧ isSafeReleaseTarget t.previousRelease = false) := by
      rintro ⟨hempty, hrefused⟩
      rcases hprev with h | h
      · rw [hempty] at h; exact absurd h (by decide)
      · rw [hrefused] at h; exact absurd h (by decide)
    obtain ⟨state, version, previousRelease⟩ := t
    simp only at hvalid hsafe hdiffers
    cases state <;> simp [loadTransaction, UpgradeTransaction.file, TransactionState.text, hvalid,
      hsafe, hdiffers]

theorem Accepted.wellFormed {request : UpgradeRequest} (hacc : Accepted root request previousRelease)
    (state : TransactionState) :
    UpgradeTransaction.WellFormed { state, version := request.version, previousRelease } := by
  obtain ⟨candidate, hver, -⟩ := checkAntiRollback_eq_ok hacc.newer
  obtain ⟨-, hprev⟩ := previousReleaseOf_eq_ok hacc.previous
  obtain ⟨name, hname, hvalid, -⟩ :=
    isSafeReleaseTarget_iff.1 (isSafeReleaseTarget_of_versionOf hver)
  obtain rfl := releasePath_inj.1 hname
  refine ⟨hvalid, hprev.imp (by rintro rfl; rfl) fun hsafe => hsafe.1, ?_⟩
  intro (heq : previousRelease = releasePath request.version)
  rw [heq] at hprev
  rcases hprev with hnone | ⟨-, hdir⟩
  · exact absurd hnone (by simp [releasePath, noRelease])
  · exact hacc.fresh ((root.isDirectory_releasePath request.version).1 hdir)

theorem UpgradeTransaction.file_inj {a b : UpgradeTransaction} : a.file = b.file ↔ a = b := by
  obtain ⟨sa, va, pa⟩ := a
  obtain ⟨sb, vb, pb⟩ := b
  constructor
  · intro h
    simp only [file, TransactionFile.record.injEq] at h
    obtain ⟨hstate, rfl, rfl⟩ := h
    cases sa <;> cases sb <;> first | rfl | exact absurd hstate (by decide)
  · rintro ⟨⟩
    rfl

/-! ## Operations and records -/

section Operations

variable {ℓ : Type} {answers : ℓ → Answer} {pre post stop I : Host → Prop}

/-- One operation: it is done, or it fails or the process dies before it. -/
theorem perform_triple {label : ℓ} {op : FsOp} {error : String}
    (hdone : ∀ h, pre h → post (h.perform op)) (hstop : answers label ≠ .done → ∀ h, pre h → stop h) :
    Triple answers pre (perform label op error) (fun _ => post) stop :=
  .act (fun _ => hdone) hstop

/-- The root is what it is. -/
theorem getRoot_triple :
    Triple answers pre (getRoot : UpgradeProgram ℓ InstallRoot) (fun root h => h.root = root ∧ pre h) stop :=
  .bind (M := fun g h => g = h ∧ pre h) (.get fun _ hs => ⟨rfl, hs⟩) fun _ =>
    .pure fun _ hs => ⟨by rw [hs.1], hs.2⟩

theorem removeAll_triple {label : ℓ} {name : Name} {error : String}
    (hdone : ∀ h, pre h → post (h.perform (.removeRelease name)))
    (hstop : answers label ≠ .done → ∀ h, pre h → stop h) (hdot : name = dot → ∀ h, post h → stop h) :
    Triple answers pre (removeAll label name error) (fun _ => post) stop := by
  refine .bind (perform_triple hdone hstop) fun _ => ?_
  refine (Triple.require fun hname => hdot ?_).mono (fun _ h => h) (fun _ _ h => h.2) (fun _ h => h)
  simpa using hname

/-- The operations up to the rename of a record are done. -/
def WritePublishes (answers : WriteStep → Answer) : Prop := ∀ s, s ≠ .syncDirectory → answers s = .done

/-- A record is published by its rename, and by nothing before. -/
theorem writeYaml_triple {answers : WriteStep → Answer} {record : FsOp} {W : Host → Prop}
    (hpre : ¬ WritePublishes answers → ∀ h, pre h → stop h)
    (hpublish : WritePublishes answers → ∀ h, pre h → W (h.perform record))
    (hsynced : answers .syncDirectory = .done → ∀ h, W h → post h)
    (hunsynced : answers .syncDirectory ≠ .done → ∀ h, W h → stop h) :
    Triple answers pre (writeYaml record) (fun _ => post) stop := by
  have hcut {label : WriteStep} (hlabel : label ≠ .syncDirectory) (hnot : answers label ≠ .done) :
      ∀ h, pre h → stop h :=
    hpre fun hall => hnot (hall label hlabel)
  unfold writeYaml
  refine .bind (.check_done (hcut nofun)) fun _ => .of_pure fun hcreate => ?_
  refine .bind (.check_done (hcut nofun)) fun _ => .of_pure fun hopen => ?_
  refine .bind (.check_done (hcut nofun)) fun _ => .of_pure fun hwrite => ?_
  refine .bind (.check_done (hcut nofun)) fun _ => .of_pure fun hsync => ?_
  refine .bind (M := fun _ => W) (.act (fun hrename h hh => hpublish ?_ h hh)
    (hcut nofun)) fun _ => .act hsynced hunsynced
  intro label hlabel
  cases label with
  | createDirectories => exact hcreate
  | openTemporary => exact hopen
  | writeTemporary => exact hwrite
  | syncTemporary => exact hsync
  | publish => exact hrename
  | syncDirectory => exact absurd rfl hlabel

/-- The version is refused, or the floor is raised to it, or was there already. -/
theorem persistVersionFloor_triple {answers : FloorStep → Answer} {version : Name} {v : Version} {W : Host → Prop}
    (hver : versionOf version = some v) (hinspect : answers .inspectFloor ≠ .done → ∀ h, pre h → stop h)
    (hrefuse : ∀ h, pre h → ¬ h.root.Raisable v → stop h)
    (hunwritten : ¬ WritePublishes (answers ∘ .write) → ∀ h, pre h →
      (∀ floor, h.root.floorVersion = some floor → floor < v) → stop h)
    (hwrite : answers .inspectFloor = .done → WritePublishes (answers ∘ .write) → ∀ h, pre h →
      (∀ floor, h.root.floorVersion = some floor → floor < v) → W (h.perform (.writeFloor version)))
    (hsynced : answers (.write .syncDirectory) = .done → ∀ h, W h → post h)
    (hunsynced : answers (.write .syncDirectory) ≠ .done → ∀ h, W h → stop h)
    (hkeep : answers .inspectFloor = .done → ∀ h, pre h → h.root.floorVersion = some v → post h) :
    Triple answers pre (persistVersionFloor version) (fun _ => post) stop := by
  have hwriteFloor {P : Host → Prop} (hdone : answers .inspectFloor = .done)
      (hP : ∀ h, P h → pre h ∧ ∀ floor, h.root.floorVersion = some floor → floor < v) :
      Triple answers P (writeFloor version) (fun _ => post) stop := by
    refine .relabel (writeYaml_triple ?_ ?_ hsynced hunsynced)
    · exact fun hnot h hh => hunwritten hnot h (hP h hh).1 (hP h hh).2
    · exact fun hall h hh => hwrite hdone hall h (hP h hh).1 (hP h hh).2
  unfold persistVersionFloor
  rw [parseSemanticVersion_of_versionOf hver]
  refine .bind (.check_done hinspect) fun _ => .of_pure fun hdone => ?_
  refine .bind getRoot_triple fun root => ?_
  rcases hfloor : root.floor with _ | lines
  · refine hwriteFloor hdone ?_
    rintro h ⟨rfl, hh⟩
    refine ⟨hh, fun floor hsome => ?_⟩
    exact absurd hsome (by simp [InstallRoot.floorVersion, hfloor])
  · -- A floor file is there: it is read, and compared with the version.
    refine .bind (M := fun value h => (lines = [value] ∧ (versionOf value).isSome = true) ∧
      h.root = root ∧ pre h) (.ofExcept ?_ ?_) fun value => .of_pure fun hread => ?_
    · exact fun value hok h hh => ⟨readVersionFile_eq_ok.1 hok, hh⟩
    · rintro error herror h ⟨rfl, hh⟩
      refine hrefuse h hh fun hraisable => ?_
      rcases hraisable.1 with hnone | hsome
      · rw [hfloor] at hnone
        exact absurd hnone (by simp)
      · unfold InstallRoot.floorVersion at hsome
        rw [hfloor] at hsome
        split at hsome
        · rename_i text heq
          obtain rfl := Option.some.inj heq
          rw [readVersionFile_eq_ok.2 ⟨rfl, hsome⟩] at herror
          exact absurd herror (by simp)
        · exact absurd hsome (by simp)
    · obtain ⟨rfl, hsome⟩ := hread
      obtain ⟨existing, hexisting⟩ := Option.isSome_iff_exists.1 hsome
      have hfloorVersion : root.floorVersion = some existing := by
        simp [InstallRoot.floorVersion, hfloor, hexisting]
      simp only [parseSemanticVersion_of_versionOf hexisting]
      refine .ite (fun hlower => .fail ?_) fun hnotLower =>
        .ite (fun hsame => .pure ?_) fun hdiffers => hwriteFloor hdone ?_
      · rintro h ⟨rfl, hh⟩
        refine hrefuse h hh fun hraisable => ?_
        exact hraisable.2 existing hfloorVersion (compareSemanticVersions_neg.1 hlower)
      · rintro h ⟨rfl, hh⟩
        obtain rfl := compareSemanticVersions_zero.1 hsame
        exact hkeep hdone h hh hfloorVersion
      · rintro h ⟨rfl, hh⟩
        refine ⟨hh, fun floor hsome => ?_⟩
        rw [hfloorVersion] at hsome
        obtain rfl := Option.some.inj hsome
        exact compareSemanticVersions_pos.1 (by omega)

theorem persistVersionFloor_triple_none {answers : FloorStep → Answer} {version : Name}
    (hver : versionOf version = none) (hpre : ∀ h, pre h → stop h) :
    Triple answers pre (persistVersionFloor version) (fun _ => post) stop := by
  unfold persistVersionFloor
  rw [parseSemanticVersion_eq, hver]
  exact .fail hpre

end Operations

/-! ## Rolling back and recovering -/

@[simp] theorem Host.perform_root (h : Host) (op : FsOp) : (h.perform op).root = op.apply h.root := rfl

theorem InstallRoot.removeRelease_of_safe {name : Name} (hname : name ≠ dot ∧ name ≠ dotDot) :
    root.removeRelease name = { root with releases := root.releases.filter (· ≠ name) } := by
  simp [InstallRoot.removeRelease, hname]

/-- The operations of a rollback to `previousRelease` keep `I`. -/
structure RollbackKeeps (I : Host → Prop) (previousRelease : Path) : Prop where
  unlinkNew : ∀ h, I h → I (h.perform .unlinkNew)
  unlinkCurrent : previousRelease.isEmpty = true → ∀ h, I h → I (h.perform .unlinkCurrent)
  linkNew : previousRelease.isEmpty = false → ∀ h, I h → I (h.perform (.linkNew previousRelease))
  renameCurrent : previousRelease.isEmpty = false → ∀ h, I h →
    h.root.currentNew = .link previousRelease → I (h.perform .renameCurrent)
  removeFailed : ∀ name, isSafeReleaseTarget (releasePath name) = true →
    releasePath name ≠ previousRelease → ∀ h, I h →
    h.root.current = Entry.ofRelease previousRelease → I (h.perform (.removeRelease name))

section Recovery

variable {I D : Host → Prop}

variable {previousRelease : Path}

/-- The link is switched in one operation. -/
theorem switchCurrent_triple {answers : RollbackStep → Answer} (keeps : RollbackKeeps I previousRelease) :
    Triple answers I (switchCurrent previousRelease)
      (fun _ h => I h ∧ h.root.current = Entry.ofRelease previousRelease) I := by
  refine .ite (fun hempty => ?_) fun hnonempty => ?_
  · refine perform_triple (fun h hh => ⟨keeps.unlinkCurrent hempty h hh, ?_⟩) fun _ _ hh => hh
    simp [FsOp.apply, Entry.ofRelease, hempty]
  · rw [Bool.not_eq_true] at hnonempty
    refine .bind (.require fun _ _ hh => hh) fun _ => .of_pure fun _ => ?_
    refine .bind getRoot_triple fun root => ?_
    refine .bind (.require fun _ _ hh => hh.2) fun _ => .of_pure fun _ => ?_
    refine .bind (.require fun _ _ hh => hh.2) fun _ => .of_pure fun _ => ?_
    refine .bind (M := fun _ h => I h ∧ h.root.currentNew = .link previousRelease)
      (perform_triple ?_ fun _ _ hh => hh.2) fun _ => perform_triple ?_ fun _ _ hh => hh.1
    · rintro h ⟨-, hh⟩
      exact ⟨keeps.linkNew hnonempty h hh, rfl⟩
    · rintro h ⟨hh, hnew⟩
      refine ⟨keeps.renameCurrent hnonempty h hh hnew, ?_⟩
      rw [Entry.ofRelease_of_nonempty hnonempty]
      exact hnew

theorem activatedRelease_eq_ok {current : Entry} {activated : Path} (h : activatedRelease current = .ok activated) :
    activated = noRelease ∨ isSafeReleaseTarget activated = true := by
  unfold activatedRelease at h
  split at h
  · split at h
    · rename_i hsafe
      obtain rfl := Except.ok.inj h
      exact .inr hsafe
    · exact absurd h (by simp)
  · obtain rfl := Except.ok.inj h
    exact .inl rfl

/-- The previous release is active again. -/
theorem rollbackUpgrade_triple {answers : RollbackStep → Answer} (keeps : RollbackKeeps I previousRelease) :
    Triple answers I (rollbackUpgrade previousRelease)
      (fun _ h => I h ∧ h.root.current = Entry.ofRelease previousRelease) I := by
  unfold rollbackUpgrade
  refine .bind (.check fun _ _ hh => hh) fun _ => ?_
  refine .bind getRoot_triple fun root => ?_
  refine .bind (M := fun activated h =>
      (activated = noRelease ∨ isSafeReleaseTarget activated = true) ∧ I h)
    (.ofExcept (fun _ hok _ hh => ⟨activatedRelease_eq_ok hok, hh.2⟩) fun _ _ _ hh => hh.2)
    fun activated => .of_pure fun hactivated => ?_
  refine .bind (M := fun _ => I)
    (.attempt (perform_triple keeps.unlinkNew fun _ _ hh => hh) fun _ _ hh => hh) fun _ => ?_
  refine .bind (switchCurrent_triple keeps) fun _ => ?_
  refine .bind (M := fun _ h => I h ∧ h.root.current = Entry.ofRelease previousRelease)
    (.ite (fun hfailed => ?_) fun _ => .pure fun _ hh => hh) fun _ => ?_
  · rcases hactivated with rfl | hsafe
    · exact absurd hfailed.1 (by decide)
    · obtain ⟨name, rfl, -, hname⟩ := isSafeReleaseTarget_iff.1 hsafe
      refine removeAll_triple ?_ (fun _ _ hh => hh.1) fun hdot => absurd hdot hname.1
      rintro h ⟨hh, hcur⟩
      refine ⟨keeps.removeFailed name hsafe hfailed.2 h hh hcur, ?_⟩
      rw [Host.perform_root, FsOp.apply, filename_releasePath, InstallRoot.removeRelease_of_safe hname]
      exact hcur
  · refine .bind (.check fun _ _ hh => hh.1) fun _ => ?_
    exact .check fun _ _ hh => hh.1

variable {answers : RecoverStep → Answer}

theorem undoTransaction_triple {transaction : UpgradeTransaction}
    (keeps : RollbackKeeps I transaction.previousRelease)
    (hcandidate : ∀ h, I h → h.root.current = Entry.ofRelease transaction.previousRelease → D (h.perform
      (.removeRelease transaction.version))) (hdone : ∀ h, D h → I h) :
    Triple answers I (undoTransaction transaction) (fun _ => D) I := by
  unfold undoTransaction
  refine .bind (.relabel (rollbackUpgrade_triple keeps)) fun _ => ?_
  refine .bind (removeAll_triple (fun h hh => hcandidate h hh.1 hh.2) (fun _ _ hh => hh.1)
    fun _ => hdone) fun _ => ?_
  exact .check fun _ => hdone

theorem completeConfirmed_triple {version : Name} {pre stop : Host → Prop}
    (hpre : ∀ h, pre h → ¬ (answers .inspectCurrent = .done ∧ h.root.current = .link (releasePath version) ∧
      version ∈ h.root.releases) → stop h)
    (hpersist : answers .inspectCurrent = .done → Triple (answers ∘ RecoverStep.floor) (fun h => pre h ∧
      h.root.current = .link (releasePath version) ∧ version ∈ h.root.releases) (persistVersionFloor version) (fun
      _ => D) stop) : Triple answers pre (completeConfirmed version) (fun _ => D) stop := by
  unfold completeConfirmed
  refine .bind (.check_done fun hnot h hh => hpre h hh fun hall => hnot hall.1) fun _ =>
    .of_pure fun hinspected => ?_
  refine .bind getRoot_triple fun root => ?_
  refine .bind (.require ?_) fun _ => .of_pure fun hactive => ?_
  · rintro hcond h ⟨rfl, hh⟩
    refine hpre h hh fun hall => ?_
    rw [(h.root.isDirectory_releasePath version).2 hall.2.2, decide_eq_true hall.2.1] at hcond
    exact absurd hcond (by decide)
  · refine .relabel ((hpersist hinspected).mono ?_ (fun _ _ hh => hh) fun _ hh => hh)
    rintro h ⟨rfl, hh⟩
    simp only [Bool.and_eq_true, decide_eq_true_eq, InstallRoot.isDirectory_releasePath] at hactive
    exact ⟨hh, hactive⟩

/-- What recovery asks of an invariant. -/
theorem recoverInterruptedUpgrade_triple {pre stop : Host → Prop} {S : UpgradeTransaction → Host → Prop}
    {D : Bool → Host → Prop}
    (hpre : ∀ h, pre h → ¬ (answers .inspectTransaction = .done ∧ answers .readTransaction = .done ∧ ∃ t,
      loadTransaction h.root.transaction = .ok t) → stop h)
    (hnone : ∀ h, pre h → h.root.transaction = none → D false h)
    (hresolve : answers .inspectTransaction = .done → answers .readTransaction = .done → ∀ t : UpgradeTransaction,
      t.WellFormed → Triple answers (fun h => pre h ∧ h.root.transaction = some t.file) (resolveTransaction t) (fun
      _ => S t) stop) (hkept : answers .removeTransaction ≠ .done → ∀ t h, S t h → stop h)
    (hremove : answers .removeTransaction = .done → ∀ t h, S t h → D true (h.perform .removeTransaction))
    (hdone : ∀ h, D true h → stop h) : Triple answers pre recoverInterruptedUpgrade D stop := by
  unfold recoverInterruptedUpgrade
  refine .bind (.check_done fun hnot h hh => hpre h hh fun hall => hnot hall.1) fun _ =>
    .of_pure fun hinspected => ?_
  refine .bind getRoot_triple fun root => ?_
  rcases hfile : root.transaction with _ | file
  · refine .pure ?_
    rintro h ⟨rfl, hh⟩
    exact hnone h hh hfile
  · change Triple answers _ (recoverTransaction file) _ _
    unfold recoverTransaction
    refine .bind (.require ?_) fun _ => .of_pure fun _ => ?_
    · rintro hregular h ⟨rfl, hh⟩
      refine hpre h hh fun hall => ?_
      obtain ⟨-, -, t, hload⟩ := hall
      obtain ⟨hrecord, -⟩ := loadTransaction_eq_ok.1 hload
      obtain rfl := Option.some.inj (hfile.symm.trans hrecord)
      exact absurd hregular (by simp [UpgradeTransaction.file])
    refine .bind (.check_done ?_) fun _ => .of_pure fun hread => ?_
    · rintro hnot h ⟨rfl, hh⟩
      exact hpre h hh fun hall => hnot hall.2.1
    refine .bind (M := fun t h => loadTransaction (some file) = .ok t ∧ h.root = root ∧ pre h)
      (.ofExcept (fun _ hok _ hh => ⟨hok, hh⟩) ?_) fun t => .of_pure fun hload => ?_
    · rintro error herror h ⟨rfl, hh⟩
      refine hpre h hh fun hall => ?_
      obtain ⟨-, -, t, hload⟩ := hall
      rw [hfile, herror] at hload
      exact absurd hload (by simp)
    obtain ⟨hrecord, hwell⟩ := loadTransaction_eq_ok.1 hload
    refine .bind (M := fun _ => S t) ((hresolve hinspected hread t hwell).mono ?_ (fun _ _ hh => hh)
      fun _ hh => hh) fun _ => ?_
    · rintro h ⟨rfl, hh⟩
      exact ⟨hh, by rw [hfile, hrecord]⟩
    · refine .bind (M := fun _ => D true) (.act (fun hremoved => hremove hremoved t)
        fun hnot => hkept hnot t) fun _ => ?_
      refine .bind (.check fun _ => hdone) fun _ => ?_
      exact .pure fun _ hh => hh

end Recovery

/-! ## Confirming and installing -/

section Procedures

variable {pre I stop : Host → Prop}

variable {t : UpgradeTransaction} {D : Host → Prop}

theorem settleTransaction_triple {answers : ConfirmStep → Answer} {C R : Host → Prop}
    (hwrite : Triple (answers ∘ ConfirmStep.write) pre (saveTransaction { t with state := .confirmed }) (fun _ =>
      C) stop) (hpersist : Triple (answers ∘ ConfirmStep.floor) C (persistVersionFloor t.version) (fun _ => R) stop)
    (hkept : answers .removeTransaction ≠ .done → ∀ h, R h → stop h)
    (hremove : answers .removeTransaction = .done → ∀ h, R h → D (h.perform .removeTransaction))
    (hdone : answers .syncDirectory ≠ .done → ∀ h, D h → stop h) :
    Triple answers pre (settleTransaction t) (fun _ h => answers .syncDirectory = .done ∧ D h) stop := by
  unfold settleTransaction
  refine .bind (.relabel hwrite) fun _ => ?_
  refine .bind (.relabel hpersist) fun _ => ?_
  refine .bind (M := fun _ => D) (.act hremove hkept) fun _ => ?_
  exact .check_done hdone

/-- The root of an activated transaction for `version`, with its candidate active. -/
def ConfirmAccepted (root : InstallRoot) (version : Name) : Prop :=
  ∃ t, loadTransaction root.transaction = .ok t ∧ t.state = .activated ∧ t.version = version ∧
    root.current = .link (releasePath version)

/-- What a confirmation asks of one. -/
theorem confirmUpgrade_triple {answers : ConfirmStep → Answer} {version : Name}
    (hpre : ∀ h, pre h → ¬ (answers .readTransaction = .done ∧ answers .inspectCurrent = .done ∧ ConfirmAccepted
      h.root version) → stop h)
    (hsettle : answers .readTransaction = .done → answers .inspectCurrent = .done → ∀ t : UpgradeTransaction,
      t.WellFormed → t.state = .activated → t.version = version → Triple answers (fun h => pre h ∧
      h.root.transaction = some t.file ∧ h.root.current = .link (releasePath t.version)) (settleTransaction t) (fun
      _ => D) stop) : Triple answers pre (confirmUpgrade version) (fun _ => D) stop := by
  unfold confirmUpgrade
  refine .bind (.check_done fun hnot h hh => hpre h hh fun hall => hnot hall.1) fun _ =>
    .of_pure fun hread => ?_
  refine .bind getRoot_triple fun root => ?_
  refine .bind (M := fun t h => loadTransaction root.transaction = .ok t ∧ h.root = root ∧ pre h)
    (.ofExcept (fun _ hok _ hh => ⟨hok, hh⟩) ?_) fun t => .of_pure fun hload => ?_
  · rintro error herror h ⟨rfl, hh⟩
    refine hpre h hh fun hall => ?_
    obtain ⟨-, -, t, hload, -⟩ := hall
    rw [herror] at hload
    exact absurd hload (by simp)
  have hacc {h : Host} (hroot : h.root = root) (hall : ConfirmAccepted h.root version) :
      t.state = .activated ∧ t.version = version ∧ root.current = .link (releasePath t.version) := by
    obtain ⟨t', hload', hstate, hver, hcur⟩ := hall
    rw [hroot, hload] at hload'
    obtain rfl := Except.ok.inj hload'
    exact ⟨hstate, hver, by rw [hver, ← hroot, hcur]⟩
  obtain ⟨hrecord, hwell⟩ := loadTransaction_eq_ok.1 hload
  refine .bind (.require ?_) fun _ => .of_pure fun hmatches => ?_
  · rintro hcond h ⟨hroot, hh⟩
    refine hpre h hh fun hall => of_decide_eq_false hcond ?_
    exact ⟨(hacc hroot hall.2.2).1, (hacc hroot hall.2.2).2.1⟩
  simp only [decide_eq_true_eq] at hmatches
  refine .bind (.check_done fun hnot h hh => hpre h hh.2 fun hall => hnot hall.2.1) fun _ =>
    .of_pure fun hinspected => ?_
  refine .bind (.require ?_) fun _ => .of_pure fun hactive => ?_
  · rintro hcond h ⟨hroot, hh⟩
    exact hpre h hh fun hall => of_decide_eq_false hcond (hacc hroot hall.2.2).2.2
  refine (hsettle hread hinspected t hwell hmatches.1 hmatches.2).mono ?_ (fun _ _ hh => hh)
    fun _ hh => hh
  rintro h ⟨rfl, hh⟩
  exact ⟨hh, hrecord, of_decide_eq_true hactive⟩

/-- The operations of the installer of `version` keep `I`. -/
structure InstallerKeeps (I : Host → Prop) (version : Name) : Prop where
  makeRelease : ∀ h, I h → I (h.perform (.makeRelease version))
  linkNew : ∀ h, I h → I (h.perform (.linkNew (releasePath version)))
  renameCurrent : ∀ h, I h → version ∈ h.root.releases →
    h.root.currentNew = .link (releasePath version) → I (h.perform .renameCurrent)

/-- What the installer keeps. -/
theorem runInstaller_triple {answers : InstallerStep → Answer} {version : Name}
    (hpre : ∀ h, pre h → I h) (hlaunch : ∀ h, pre h → I (h.perform (.launchInstaller version)))
    (keeps : InstallerKeeps I version) : Triple answers pre (runInstaller version) (fun _ => I) I := by
  unfold runInstaller
  refine .bind (perform_triple hlaunch fun _ => hpre) fun _ => ?_
  refine .bind (.check fun _ _ hh => hh) fun _ => ?_
  refine .bind (M := fun _ h => I h ∧ version ∈ h.root.releases) (perform_triple
    (fun h hh => ⟨keeps.makeRelease h hh, List.mem_insert_self⟩) fun _ _ hh => hh) fun _ => ?_
  refine .bind (.check fun _ _ hh => hh.1) fun _ => ?_
  refine .bind (.check fun _ _ hh => hh.1) fun _ => ?_
  refine .bind (M := fun _ h => I h ∧ version ∈ h.root.releases ∧
    h.root.currentNew = .link (releasePath version)) (perform_triple
    (fun h hh => ⟨keeps.linkNew h hh.1, hh.2, rfl⟩) fun _ _ hh => hh.1) fun _ => ?_
  refine .bind (perform_triple (fun h hh => keeps.renameCurrent h hh.1 hh.2.1 hh.2.2)
    fun _ _ hh => hh.1) fun _ => ?_
  exact .check fun _ _ hh => hh

variable {answers : InstallStep → Answer}

theorem failAfterRecovery_triple {α : Type} {error : String} {post : α → Host → Prop}
    (hrecover : Triple (answers ∘ InstallStep.recovery) pre recoverInterruptedUpgrade (fun _ => stop) stop) :
    Triple answers pre (failAfterRecovery error) post stop := by
  unfold failAfterRecovery
  refine .bind (M := fun _ => stop)
    (.attempt (.relabel hrecover) fun _ _ hh => hh) fun recovery => ?_
  cases recovery with
  | ok recovered | error recoveryError => exact .fail fun _ hh => hh

theorem installTransaction_triple {P : Host → Prop}
    (hprepare : Triple (answers ∘ InstallStep.prepare) pre (saveTransaction t) (fun _ => P) stop)
    (hprepared : ∀ h, P h → I h) (hlaunch : ∀ h, P h → I (h.perform (.launchInstaller t.version)))
    (keeps : InstallerKeeps I t.version)
    (hactivate : Triple (answers ∘ InstallStep.activate) (fun h => I h ∧ h.root.current = .link (releasePath
      t.version)) (saveTransaction { t with state := .activated }) (fun _ => D) I)
    (hrecover : Triple (answers ∘ InstallStep.recovery) I recoverInterruptedUpgrade (fun _ => stop) stop)
    (hstop : ∀ h, I h → stop h) :
    Triple answers pre (installTransaction t)
      (fun result h => result = { version := t.version, previousRelease := t.previousRelease } ∧ D h)
      stop := by
  unfold installTransaction
  refine .bind (.relabel hprepare) fun _ => ?_
  have hinstaller : Triple answers P
      (attempt (relabel InstallStep.installer (runInstaller t.version)) : UpgradeProgram _ _)
      (fun _ => I) stop :=
    (Triple.attempt (Triple.relabel (runInstaller_triple hprepared hlaunch keeps))
      fun _ _ hh => hh).mono (fun _ hh => hh) (fun _ _ hh => hh) hstop
  refine .bind hinstaller fun installed => ?_
  cases installed with
  | error code => exact failAfterRecovery_triple hrecover
  | ok =>
    change Triple answers _ (activateCandidate t) _ _
    unfold activateCandidate
    refine .bind (.check fun _ => hstop) fun _ => ?_
    refine .bind getRoot_triple fun root => .ite (fun _ => ?_) fun hactive => ?_
    · exact failAfterRecovery_triple (hrecover.mono (fun _ hh => hh.2) (fun _ _ hh => hh)
        fun _ hh => hh)
    · -- The candidate is active; recovery still runs when its record cannot be saved.
      have hpre : ∀ h : Host, h.root = root ∧ I h →
          I h ∧ h.root.current = .link (releasePath t.version) := by
        rintro h ⟨rfl, hh⟩
        exact ⟨hh, Decidable.not_not.1 hactive⟩
      have hsaved : Triple answers (fun h => h.root = root ∧ I h)
          (attempt (relabel InstallStep.activate (saveTransaction { t with state := .activated })) :
            UpgradeProgram _ _)
          (fun saved h => match saved with | .ok _ => D h | .error _ => I h) stop :=
        (Triple.attempt (Triple.relabel hactivate) fun _ _ hh => hh).mono hpre
          (fun _ _ hh => hh) hstop
      refine .bind hsaved fun saved => ?_
      cases saved with
      | error error => exact failAfterRecovery_triple hrecover
      | ok => exact .pure fun _ hh => ⟨rfl, hh⟩

/-- And what an installation asks. -/
theorem installUpgrade_triple {request : UpgradeRequest} {post : UpgradeResult → Host → Prop}
    (hpre : ∀ h, pre h → stop h)
    (hinstall : ∀ root previousRelease, Accepted root request previousRelease → Triple answers (fun h => h.root =
      root ∧ pre h) (installTransaction { state := .prepared, version := request.version, previousRelease }) post
      stop) :
    Triple answers pre (installUpgrade request) post stop := by
  unfold installUpgrade
  refine .bind (M := fun _ h => request.verification = .ok () ∧ pre h)
    (.ofExcept (fun _ hok _ hh => ⟨hok, hh⟩) fun _ _ => hpre)
    fun _ => .of_pure fun hverified => ?_
  refine .bind (.check fun _ => hpre) fun _ => ?_
  refine .bind getRoot_triple fun root => ?_
  refine .bind (M := fun p h => previousReleaseOf root = .ok p ∧ h.root = root ∧ pre h)
    (.ofExcept (fun _ hok _ hh => ⟨hok, hh⟩) fun _ _ h hh => hpre h hh.2)
    fun previousRelease => .of_pure fun hprev => ?_
  refine .bind (.check fun _ h hh => hpre h hh.2) fun _ => ?_
  refine .bind (M := fun _ h =>
      checkAntiRollback root previousRelease request.version = .ok () ∧ h.root = root ∧ pre h)
    (.ofExcept (fun _ hok _ hh => ⟨hok, hh⟩) fun _ _ h hh => hpre h hh.2)
    fun _ => .of_pure fun hchecked => ?_
  refine .bind (.check fun _ h hh => hpre h hh.2) fun _ => ?_
  refine .bind (.require fun _ h hh => hpre h hh.2) fun _ => .of_pure fun hfresh => ?_
  exact hinstall root previousRelease ⟨hverified, hprev, hchecked, of_decide_eq_true hfresh⟩

end Procedures

/-! ## Calls -/

theorem conclude_isTrue {α : Type} {result : Outcome String α × Host}
    (h : (conclude result).2.isTrue = true) : ∃ a, result = (.returned a, (conclude result).1) := by
  obtain ⟨outcome, host⟩ := result
  cases outcome with
  | returned a => exact ⟨a, rfl⟩
  | failed error | crashed => exact absurd h (by simp [conclude, CallResult.of, CallResult.isTrue])

theorem conclude_stop {ℓ α : Type} {answers : ℓ → Answer} {pre stop : Host → Prop}
    {post : α → Host → Prop} {p : UpgradeProgram ℓ α} (htriple : Triple answers pre p post stop)
    {h : Host} (hh : pre h) (hfalse : (conclude (p.run answers h)).2.isTrue = false) :
    stop (conclude (p.run answers h)).1 := by
  have hrun := htriple h hh
  rcases hres : p.run answers h with ⟨outcome, h'⟩
  rw [hres] at hrun hfalse
  cases outcome with
  | returned value => exact absurd hfalse (by simp [conclude, CallResult.of, CallResult.isTrue])
  | failed error | crashed => exact hrun

end Cockpit.Upgrader
