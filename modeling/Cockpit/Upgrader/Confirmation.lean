/-
  Where a confirmation stops, and what recovery makes of it.

  `ConfirmUpgrade` decides the upgrade with the rename of its confirmed record; the floor, the removal of the
  record and two directory syncs come after it.  Which of these were done can be told from the answers alone,
  for a candidate that is activated.
-/
import Cockpit.Upgrader.CrashConsistency

namespace Cockpit.Upgrader

open Durable

variable {start : InstallRoot} {version : Name}

/-! ## The operations behind the record -/

/-- The confirmed record is renamed into place. -/
def ConfirmPublishes (answers : ConfirmStep → Answer) : Prop :=
  answers .readTransaction = .done ∧ answers .inspectCurrent = .done ∧
    WritePublishes (answers ∘ .write)

/-- The floor is renamed into place as well. -/
def ConfirmRaises (answers : ConfirmStep → Answer) : Prop :=
  ConfirmPublishes answers ∧ answers (.write .syncDirectory) = .done ∧
    answers (.floor .inspectFloor) = .done ∧ WritePublishes (answers ∘ .floor ∘ .write)

/-- The record is removed again; only the last sync is left to do. -/
def ConfirmRemoves (answers : ConfirmStep → Answer) : Prop :=
  ConfirmRaises answers ∧ answers (.floor (.write .syncDirectory)) = .done ∧
    answers .removeTransaction = .done

/-- Recovery removes a confirmed record whose floor is `raised` already, or raises it first. -/
def RecoverRemoves (raised : Prop) (answers : RecoverStep → Answer) : Prop :=
  answers .inspectTransaction = .done ∧ answers .readTransaction = .done ∧
    answers .inspectCurrent = .done ∧ answers (.floor .inspectFloor) = .done ∧
    (raised ∨ ∀ s, answers (.floor (.write s)) = .done) ∧ answers .removeTransaction = .done

/-! ## The states -/

/-- The candidate is active, and its transaction waits for its confirmation. -/
structure Activated (u : Upgrade start version) (h : Host) : Prop where
  pending : ∃ t, Pending u t h.root ∧ t.state = .activated
  current : h.root.current = .link (releasePath version)

/-- The candidate is active, and there is no record. -/
structure Installed (version : Name) (h : Host) : Prop where
  current : h.root.current = .link (releasePath version)
  transaction : h.root.transaction = none

/-- The candidate is active, its confirmed record is out, and the floor is at the candidate
    exactly if it has been `raised`. -/
structure Unfinished (u : Upgrade start version) (raised : Prop) (h : Host) : Prop where
  confirmed : ∃ t, Confirmed u t h
  atCandidate : raised → h.root.floorVersion = some u.candidate
  below : ¬ raised → h.root.FloorReadable ∧
    ∀ floor, h.root.floorVersion = some floor → floor < u.candidate

theorem Version.lt_irrefl (v : Version) : ¬ v < v := Version.not_lt.2 (Version.le_refl v)

theorem InstallRoot.readable_of_floorVersion {root : InstallRoot} {v : Version}
    (h : root.floorVersion = some v) : root.FloorReadable :=
  .inr (by rw [h]; rfl)

variable {u : Upgrade start version}

theorem Pending.below {t : UpgradeTransaction} {root : InstallRoot} (hp : Pending u t root) : root.FloorReadable ∧
      ∀ floor, root.floorVersion = some floor → floor < u.candidate := by
  have hver : root.floorVersion = start.floorVersion := by
    simp [InstallRoot.floorVersion, hp.floor]
  refine ⟨?_, fun floor hfloor => u.newer.floor floor (hver ▸ hfloor)⟩
  have hreadable := u.newer.readable
  unfold InstallRoot.FloorReadable at *
  rw [hver, hp.floor]
  exact hreadable

/-! ## Confirmation -/

/-- **Where a confirmation of an activated candidate stops.** -/
theorem confirm_exact (answers : ConfirmStep → Answer) {g : Host} (hg : Activated u g) :
    Triple answers (· = g) (confirmUpgrade version)
      (fun _ h => (ConfirmRemoves answers ∧ answers .syncDirectory = .done) ∧ Installed version h)
      (fun h => (¬ ConfirmPublishes answers ∧ h = g) ∨
        (ConfirmPublishes answers ∧ ¬ ConfirmRemoves answers ∧ Unfinished u (ConfirmRaises answers) h) ∨
        ((ConfirmRemoves answers ∧ answers .syncDirectory ≠ .done) ∧ Installed version h)) := by
  obtain ⟨⟨t₀, hpending, hactivated⟩, hcur⟩ := hg
  refine confirmUpgrade_triple ?_ ?_
  · rintro _ rfl hnot
    refine .inl ⟨fun hpublishes => hnot ⟨hpublishes.1, hpublishes.2.1, ?_⟩, rfl⟩
    exact ⟨t₀, u.load hpending.record hpending.sameVersion hpending.samePrevious, hactivated,
      hpending.sameVersion, hcur⟩
  intro hread hinspect t _ _ hver
  subst hver
  refine .of_state fun h hh => ?_
  obtain ⟨rfl, hrecord, -⟩ := hh
  obtain rfl := hpending.eq_of_record hrecord
  let confirmed : UpgradeTransaction := { t₀ with state := .confirmed }
  have hbelow {k : Host} (hpublishes : ConfirmPublishes answers) (hraises : ¬ ConfirmRaises answers)
      (hk : Confirmed u confirmed k ∧ k.root.FloorReadable ∧
        ∀ floor, k.root.floorVersion = some floor → floor < u.candidate) :
      ConfirmPublishes answers ∧ ¬ ConfirmRemoves answers ∧ Unfinished u (ConfirmRaises answers) k :=
    ⟨hpublishes, fun hremoves => hraises hremoves.1,
      ⟨⟨confirmed, hk.1⟩, fun hraised => absurd hraised hraises, fun _ => hk.2⟩⟩
  have hraised {k : Host} (hraises : ConfirmRaises answers) (hremoves : ¬ ConfirmRemoves answers)
      (hk : Confirmed u confirmed k ∧ k.root.floorVersion = some u.candidate) :
      ConfirmPublishes answers ∧ ¬ ConfirmRemoves answers ∧ Unfinished u (ConfirmRaises answers) k :=
    ⟨hraises.1, hremoves, ⟨⟨confirmed, hk.1⟩, fun _ => hk.2, fun hnot => absurd hraises hnot⟩⟩
  refine (settleTransaction_triple
    (C := fun k => (ConfirmPublishes answers ∧ answers (.write .syncDirectory) = .done) ∧
      Confirmed u confirmed k ∧ k.root.FloorReadable ∧
        ∀ floor, k.root.floorVersion = some floor → floor < u.candidate)
    (R := fun k => (ConfirmRaises answers ∧ answers (.floor (.write .syncDirectory)) = .done) ∧
      Confirmed u confirmed k ∧ k.root.floorVersion = some u.candidate)
    (D := fun k => ConfirmRemoves answers ∧ Installed t₀.version k)
    (writeYaml_triple
      (W := fun k => ConfirmPublishes answers ∧ Confirmed u confirmed k ∧ k.root.FloorReadable ∧
        ∀ floor, k.root.floorVersion = some floor → floor < u.candidate) ?_ ?_ ?_ ?_)
    (persistVersionFloor_triple u.denotes
      (W := fun k => ConfirmRaises answers ∧ Confirmed u confirmed k ∧
        k.root.floorVersion = some u.candidate) ?_ ?_ ?_ ?_ ?_ ?_ ?_) ?_ ?_ ?_).mono
    (fun _ hh => hh) (fun _ k hh => ⟨⟨hh.2.1, hh.1⟩, hh.2.2⟩) fun _ hh => hh
  -- The record.
  · exact fun hnot k hk => .inl ⟨fun hpublishes => hnot hpublishes.2.2, hk⟩
  · rintro hall _ rfl
    exact ⟨⟨hread, hinspect, hall⟩, hpending.confirm hcur, hpending.below⟩
  · exact fun hsync k hk => ⟨⟨hk.1, hsync⟩, hk.2⟩
  · exact fun hnot k hk => .inr (.inl (hbelow hk.1 (fun hraises => hnot hraises.2.1) hk.2))
  -- The floor.
  · exact fun hnot k hk => .inr (.inl (hbelow hk.1.1 (fun hraises => hnot hraises.2.2.1) hk.2))
  · intro k hk hnot
    exact absurd ⟨hk.2.2.1, fun floor hfloor => Version.le_of_lt (hk.2.2.2 floor hfloor)⟩ hnot
  · exact fun hnot k hk _ => .inr (.inl (hbelow hk.1.1 (fun hraises => hnot hraises.2.2.2) hk.2))
  · exact fun hfloor hall k hk _ => ⟨⟨hk.1.1, hk.1.2, hfloor, hall⟩, hk.2.1.writeFloor _, u.denotes⟩
  · exact fun hsync k hk => ⟨⟨hk.1, hsync⟩, hk.2⟩
  · exact fun hnot k hk => .inr (.inl (hraised hk.1 (fun hremoves => hnot hremoves.2.1) hk.2))
  · exact fun _ k hk hfloor => absurd (hk.2.2.2 _ hfloor) (Version.lt_irrefl _)
  -- The removal.
  · exact fun hnot k hk => .inr (.inl (hraised hk.1.1 (fun hremoves => hnot hremoves.2.2) hk.2))
  · exact fun hremove k hk => ⟨⟨hk.1.1, hk.1.2, hremove⟩, ⟨hk.2.1.current, rfl⟩⟩
  · exact fun hnot k hk => .inr (.inr ⟨⟨hk.1, hnot⟩, hk.2⟩)

/-! ## Recovery of a confirmed record -/

/-- **What recovery does to a confirmed record** that a confirmation has left behind. -/
theorem recover_exact {raised : Prop} (answers : RecoverStep → Answer) {g : Host} (hg : Unfinished u raised g) :
    Triple answers (· = g) recoverInterruptedUpgrade (fun _ h => RecoverRemoves raised answers ∧ Installed version h)
      (fun h => (RecoverRemoves raised answers ∧ Installed version h) ∨
        (¬ RecoverRemoves raised answers ∧ h.root.transaction ≠ none)) := by
  obtain ⟨⟨t, hconf⟩, hat, hbelow⟩ := hg
  have hload : loadTransaction g.root.transaction = .ok t :=
    u.load hconf.record hconf.sameVersion hconf.samePrevious
  have hkept {k : Host} (hk : Confirmed u t k) : k.root.transaction ≠ none := by
    rw [hk.record]
    simp
  refine recoverInterruptedUpgrade_triple
    (S := fun _ k => (answers .inspectTransaction = .done ∧ answers .readTransaction = .done ∧
      answers .inspectCurrent = .done ∧ answers (.floor .inspectFloor) = .done ∧
      (raised ∨ ∀ s, answers (.floor (.write s)) = .done)) ∧ Confirmed u t k)
    ?_ ?_ ?_ ?_ ?_ fun _ hh => .inl hh
  · rintro _ rfl hnot
    exact .inr ⟨fun hall => hnot ⟨hall.1, hall.2.1, t, hload⟩, hkept hconf⟩
  · rintro _ rfl hnone
    exact absurd hnone (hkept hconf)
  · intro hinspect hread t' _
    refine .of_state fun h hh => ?_
    obtain ⟨rfl, hrecord⟩ := hh
    obtain rfl := hconf.eq_of_record hrecord
    refine .ite (fun _ => ?_) fun hnot => absurd hconf.confirmed hnot
    have hver := hconf.sameVersion
    subst hver
    refine completeConfirmed_triple ?_ fun hcur => persistVersionFloor_triple u.denotes
      (W := fun k => (¬ raised ∧ answers (.floor .inspectFloor) = .done ∧
        WritePublishes (answers ∘ .floor ∘ .write)) ∧ Confirmed u t k) ?_ ?_ ?_ ?_ ?_ ?_ ?_
    · rintro _ rfl hnot
      exact .inr ⟨fun hall => hnot ⟨hall.2.2.1, hconf.current, hconf.directory⟩,
        hkept hconf⟩
    · rintro hnot _ ⟨rfl, -⟩
      exact .inr ⟨fun hall => hnot hall.2.2.2.1, hkept hconf⟩
    · rintro _ ⟨rfl, -⟩ hnot
      refine absurd ?_ hnot
      rcases Classical.em raised with hraised | hraised
      · refine ⟨InstallRoot.readable_of_floorVersion (hat hraised), fun floor hfloor => ?_⟩
        obtain rfl := Option.some.inj ((hat hraised).symm.trans hfloor)
        exact Version.le_refl _
      · exact ⟨(hbelow hraised).1, fun floor hfloor => Version.le_of_lt ((hbelow hraised).2 floor hfloor)⟩
    · rintro hnot _ ⟨rfl, -⟩ hless
      refine .inr ⟨fun hall => ?_, hkept hconf⟩
      rcases hall.2.2.2.2.1 with hraised | hwrites
      · exact Version.lt_irrefl _ (hless _ (hat hraised))
      · exact hnot fun s _ => hwrites s
    · rintro hfloor hall _ ⟨rfl, -⟩ hless
      exact ⟨⟨fun hraised => Version.lt_irrefl _ (hless _ (hat hraised)), hfloor, hall⟩,
        hconf.writeFloor _⟩
    · intro hsync k hk
      refine ⟨⟨hinspect, hread, hcur, hk.1.2.1, .inr fun s => ?_⟩, hk.2⟩
      rcases Decidable.em (s = .syncDirectory) with rfl | hs
      · exact hsync
      · exact hk.1.2.2 s hs
    · exact fun hnot k hk => .inr ⟨fun hall => hall.2.2.2.2.1.elim hk.1.1 fun hwrites =>
        hnot (hwrites _), hkept hk.2⟩
    · rintro hfloor _ ⟨rfl, -⟩ hfloorVersion
      refine ⟨⟨hinspect, hread, hcur, hfloor, .inl ?_⟩, hconf⟩
      rcases Classical.em raised with hraised | hraised
      · exact hraised
      · exact absurd ((hbelow hraised).2 _ hfloorVersion) (Version.lt_irrefl _)
  · exact fun hnot _ k hk => .inr ⟨fun hall => hnot hall.2.2.2.2.2, hkept hk.2⟩
  · rintro hremove _ k ⟨⟨hinspect, hread, hcur, hfloor, hraise⟩, hk⟩
    exact ⟨⟨hinspect, hread, hcur, hfloor, hraise, hremove⟩, ⟨hk.current, rfl⟩⟩

end Cockpit.Upgrader
