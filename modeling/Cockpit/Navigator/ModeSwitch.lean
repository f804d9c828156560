/-
  `SwitchMode` is all or nothing.
-/
import Cockpit.Navigator.ProcessRecords

namespace Cockpit.Navigator.ProcessManager

variable {s s' s₀ : ProcessManager} {m n : ModuleId} {P : ModuleId → Prop}

/-- Wanted, and running. -/
def Serving (s : ProcessManager) (m : ModuleId) : Prop :=
  (s.processes m).desired = true ∧ (s.processes m).state = .running

/-! ## What a successful start or stop leaves -/

theorem startModule_serving (h : Consistent s) {a : StartAnswers}
    (hok : (startModule a s m).2 = .ok ()) : Serving (startModule a s m).1 m := by
  rcases startModule_cases (m := m) a h.pid_eq_zero with
    ⟨-, hnot, -⟩ | ⟨hrunning, -, hchanged, -⟩ | ⟨-, -, pid, -, -, -, hchanged, -⟩ | ⟨-, hnot, -, -⟩
  · exact absurd hok hnot
  · unfold Serving
    rw [hchanged.self]
    exact ⟨rfl, hrunning⟩
  · unfold Serving
    rw [hchanged.self]
    exact ⟨rfl, rfl⟩
  · exact absurd hok hnot

theorem startModule_other (h : Consistent s) (a : StartAnswers) (hm : m ≠ n) :
    (startModule a s n).1.processes m = s.processes m := by
  rcases startModule_cases (m := n) a h.pid_eq_zero with
    ⟨-, -, heq⟩ | ⟨-, -, hchanged, -⟩ | ⟨-, -, pid, -, -, -, hchanged, -⟩ | ⟨-, -, hchanged, -⟩
  · rw [heq]
  all_goals exact hchanged.other hm

theorem stopModule_stopped {a : StopAnswers} (hok : (stopModule a s m).2 = .ok ()) :
    ((stopModule a s m).1.processes m).desired = false ∧
      ((stopModule a s m).1.processes m).state ≠ .running := by
  rcases stopModule_cases (m := m) (s := s) a with
    ⟨-, hnot, -⟩ | ⟨hnot, -, -⟩ | ⟨-, hnot, -, -⟩ | ⟨-, hchanged, -⟩
  · exact absurd hok hnot
  · exact absurd hok hnot
  · exact absurd hok hnot
  · rw [hchanged.self]
    exact ⟨rfl, nofun⟩

theorem stopModule_other (a : StopAnswers) (hm : m ≠ n) : (stopModule a s n).1.processes m = s.processes m := by
  rcases stopModule_cases (m := n) (s := s) a with
    ⟨-, -, heq⟩ | ⟨-, hchanged, -⟩ | ⟨-, -, hchanged, -⟩ | ⟨-, hchanged, -⟩
  · rw [heq]
  all_goals exact hchanged.other hm

theorem Serving.startModule (hs : Consistent s) (h : Serving s m) (a : StartAnswers) :
    Serving (startModule a s n).1 m := by
  by_cases hm : m = n
  · subst hm
    rcases startModule_cases (m := m) a hs.pid_eq_zero with
      ⟨-, -, heq⟩ | ⟨-, hok, -, -⟩ | ⟨-, hnot, -⟩ | ⟨hnot, -⟩
    · rw [heq]
      exact h
    · exact startModule_serving hs hok
    · exact absurd h.2 hnot
    · exact absurd h.2 hnot
  · unfold Serving
    rw [startModule_other hs a hm]
    exact h

theorem stopModule_desired (a : StopAnswers) (h : (s.processes m).desired = false) :
    ((stopModule a s n).1.processes m).desired = false := by
  by_cases hm : m = n
  · subst hm
    rcases stopModule_cases (m := m) (s := s) a with
      ⟨-, -, heq⟩ | ⟨-, hchanged, -⟩ | ⟨-, -, hchanged, -⟩ | ⟨-, hchanged, -⟩
    · rw [heq]
      exact h
    · rw [hchanged.self]
      exact h
    · rw [hchanged.self]
    · rw [hchanged.self]
  · rw [stopModule_other a hm]
    exact h

/-! ## What the loops leave alone -/

/-- From `s₀` to `s`, the modules with `P` keep their records, and the mode stays. -/
structure Frame (P : ModuleId → Prop) (s₀ s : ProcessManager) : Prop where
  consistent : Consistent s
  config : s.config = s₀.config
  mode : s.mode = s₀.mode
  same : ∀ m, P m → s.processes m = s₀.processes m

namespace Frame

theorem refl (h : Consistent s) : Frame P s s := ⟨h, rfl, rfl, fun _ _ => rfl⟩

theorem startModule (h : Frame P s₀ s) (hn : ¬P n) (a : StartAnswers) : Frame P s₀ (startModule a s n).1 := by
  have hconsistent := kept_consistent.startModule a s n h.consistent
  have hsame : ∀ m, P m → (ProcessManager.startModule a s n).1.processes m = s₀.processes m := by
    intro m hm
    rw [startModule_other h.consistent a fun (heq : m = n) => hn (heq ▸ hm)]
    exact h.same m hm
  rcases startModule_cases (m := n) a h.consistent.pid_eq_zero with
    ⟨-, -, heq⟩ | ⟨-, -, hchanged, -⟩ | ⟨-, -, pid, -, -, -, hchanged, -⟩ | ⟨-, -, hchanged, -⟩
  · rw [heq]
    exact h
  all_goals
    exact ⟨hconsistent, hchanged.config.trans h.config, hchanged.mode.trans h.mode, hsame⟩

theorem stopModule (h : Frame P s₀ s) (hn : ¬P n) (a : StopAnswers) : Frame P s₀ (stopModule a s n).1 := by
  have hconsistent := kept_consistent.stopModule a s n h.consistent
  have hsame : ∀ m, P m → (ProcessManager.stopModule a s n).1.processes m = s₀.processes m := by
    intro m hm
    rw [stopModule_other a fun (heq : m = n) => hn (heq ▸ hm)]
    exact h.same m hm
  rcases stopModule_cases (m := n) (s := s) a with
    ⟨-, -, heq⟩ | ⟨-, hchanged, -⟩ | ⟨-, -, hchanged, -⟩ | ⟨-, hchanged, -⟩
  · rw [heq]
    exact h
  all_goals
    exact ⟨hconsistent, hchanged.config.trans h.config, hchanged.mode.trans h.mode, hsame⟩

end Frame

theorem isOk_eq_true {r : ProcessManager × Except String Unit} (h : (isOk r).2 = true) : r.2 = .ok () := by
  unfold isOk at h
  simp only [] at h
  split at h
  case h_1 heq => exact heq
  case h_2 => cases h

theorem mem_desiredModules : m ∈ s.desiredModules ↔ m ∈ s.config.ids ∧ (s.processes m).desired = true :=
  List.mem_filter

/-! ## The loops of `SwitchMode` -/

theorem stopUnlessIn_frame (h : Frame P s₀ s) (hn : ¬P n) (answers : ModuleId → StopAnswers)
    (kept : List ModuleId) : Frame P s₀ (stopUnlessIn answers kept s n).1 := by
  unfold stopUnlessIn
  split
  · exact h.stopModule hn (answers n)
  · exact h

theorem stopUnlessIn_desired (answers : ModuleId → StopAnswers) (kept : List ModuleId)
    (h : (s.processes m).desired = false) : ((stopUnlessIn answers kept s n).1.processes m).desired = false := by
  unfold stopUnlessIn
  split
  · exact stopModule_desired (answers n) h
  · exact h

theorem stopUnlessIn_ok {answers : ModuleId → StopAnswers} {kept : List ModuleId} (hm : m ∉ kept)
    (hok : (stopUnlessIn answers kept s m).2 = .ok ()) :
    ((stopUnlessIn answers kept s m).1.processes m).desired = false := by
  unfold stopUnlessIn at hok ⊢
  split
  case isTrue hcond =>
    rw [if_pos hcond] at hok
    exact (stopModule_stopped hok).1
  case isFalse hcond =>
    rw [Bool.and_eq_true, not_and] at hcond
    by_cases hdesired : (s.processes m).desired = true
    · exact absurd (by simpa using hm) (hcond hdesired)
    · exact Bool.eq_false_of_not_eq_true hdesired

theorem startIfMissing_frame (h : Frame P s₀ s) (hn : ¬P n) (answers : ModuleId → StartAnswers) :
    Frame P s₀ (startIfMissing answers s n).1 := by
  unfold startIfMissing
  split
  · exact h.startModule hn (answers n)
  · exact h

theorem startIfMissing_ok (h : Consistent s) {answers : ModuleId → StartAnswers}
    (hok : (startIfMissing answers s m).2 = .ok ()) : Serving (startIfMissing answers s m).1 m := by
  unfold startIfMissing at hok ⊢
  split
  case isTrue hcond =>
    rw [if_pos hcond] at hok
    exact startModule_serving h hok
  case isFalse hcond => simpa [Serving] using hcond

theorem Serving.startIfMissing (hs : Consistent s) (h : Serving s m)
    (answers : ModuleId → StartAnswers) : Serving (startIfMissing answers s n).1 m := by
  unfold ProcessManager.startIfMissing
  split
  · exact h.startModule hs (answers n)
  · exact h

section Loops

variable {a : SwitchAnswers} {modules previous : List ModuleId}

theorem stopOthers_frame (a : SwitchAnswers) (modules : List ModuleId) (h : Consistent s) :
    Frame (fun _ => False) s (stopOthers a modules s).1 :=
  ForEach.untilError_invariant (I := Frame (fun _ => False) s)
    (fun _ _ _ hs => stopUnlessIn_frame hs id a.stop modules) (Frame.refl h)

theorem startMissing_frame (a : SwitchAnswers) (modules : List ModuleId) (h : Consistent s) :
    Frame (fun m => m ∉ modules) s (startMissing a modules s).1 :=
  ForEach.untilError_invariant (I := Frame (fun m => m ∉ modules) s)
    (fun _ _ hm hs => startIfMissing_frame hs (fun hnot => hnot hm) a.start) (Frame.refl h)

theorem stopOthers_desired (hok : (stopOthers a modules s).2 = .ok ()) (hid : m ∈ s.config.ids)
    (hm : m ∉ modules) : ((stopOthers a modules s).1.processes m).desired = false := by
  refine ForEach.untilError_ok (I := fun _ => True)
    (Q := fun m s => m ∉ modules → (s.processes m).desired = false) ?_ ?_ ?_ trivial hok m
    (List.mem_reverse.2 hid) hm
  · exact fun _ _ _ _ _ => trivial
  · exact fun s n _ _ hok hn => stopUnlessIn_ok hn hok
  · exact fun s n _ k _ _ hs hk => stopUnlessIn_desired a.stop modules (hs hk)

theorem stopOthers_running (hok : (stopOthers a modules s).2 = .ok ()) (hid : m ∈ s.config.ids)
    (hm : m ∉ modules) (hrun : ((stopOthers a modules s).1.processes m).state = .running) :
    (s.processes m).desired = false ∧ (s.processes m).state = .running := by
  have hkept := ForEach.untilError_ok_invariant
    (I := fun s' => (s'.processes m).state = .running → (s'.processes m).desired = true ∨
      ((s.processes m).desired = false ∧ (s.processes m).state = .running)) ?_ ?_ hok
  · refine (hkept hrun).resolve_left ?_
    show ¬((stopOthers a modules s).1.processes m).desired = true
    rw [stopOthers_desired hok hid hm]
    decide
  · intro s' n _ hs hok
    unfold stopUnlessIn at hok ⊢
    split
    case isTrue hcond =>
      rw [if_pos hcond] at hok
      by_cases hmn : m = n
      · subst hmn
        exact fun hrun => absurd hrun (stopModule_stopped hok).2
      · rw [stopModule_other (a.stop n) hmn]
        exact hs
    case isFalse => exact hs
  · intro hrun
    by_cases hdesired : (s.processes m).desired = true
    · exact .inl hdesired
    · exact .inr ⟨Bool.eq_false_of_not_eq_true hdesired, hrun⟩

theorem startMissing_serving (h : Consistent s) (hok : (startMissing a modules s).2 = .ok ())
    (hm : m ∈ modules) : Serving (startMissing a modules s).1 m := by
  refine ForEach.untilError_ok (I := Consistent) (Q := fun m s => Serving s m) ?_ ?_ ?_ h hok m hm
  · exact fun s n _ hs _ => (startIfMissing_frame (P := fun _ => False) (Frame.refl hs) id a.start).consistent
  · exact fun s n _ hs hok => startIfMissing_ok hs hok
  · exact fun s n _ k hs _ hserving => hserving.startIfMissing hs a.start

/-! ## The rollback -/

theorem restorePreviousMode_frame (a : SwitchAnswers) (previous : List ModuleId) (h : Consistent s) :
    Frame (fun _ => False) s (restorePreviousMode a previous s).1 := by
  refine ForEach.tryAll_invariant (I := Frame (fun _ => False) s)
    (fun s n _ hs => hs.startModule id (a.rollbackStart n)) ?_
  exact ForEach.tryAll_invariant (I := Frame (fun _ => False) s)
    (fun s n _ hs => stopUnlessIn_frame hs id a.rollbackStop previous) (Frame.refl h)

theorem restorePreviousMode_ok (h : Consistent s) (hok : (restorePreviousMode a previous s).2 = true)
    (hid : m ∈ s.config.ids) :
    (m ∈ previous → Serving (restorePreviousMode a previous s).1 m) ∧
      (m ∉ previous → ((restorePreviousMode a previous s).1.processes m).desired = false) := by
  obtain ⟨hstopped, hstarted⟩ := Bool.and_eq_true_iff.1 hok
  -- `middle` is the state between the two loops
  generalize hmiddle : (ForEach.tryAll (fun s m => isOk (stopUnlessIn a.rollbackStop previous s m))
    s.config.ids.reverse s).1 = middle at hstarted
  have hframe : Frame (fun _ => False) s middle := by
    rw [← hmiddle]
    refine ForEach.tryAll_invariant (I := Frame (fun _ => False) s) (fun s' n _ hs => ?_)
      (Frame.refl h)
    exact stopUnlessIn_frame hs id a.rollbackStop previous
  refine ⟨fun hm => ?_, fun hm => ?_⟩
  · show Serving (ForEach.tryAll (fun s m => isOk (startModule (a.rollbackStart m) s m)) previous _).1 m
    rw [hmiddle]
    refine ForEach.tryAll_ok (I := Consistent) (Q := fun m s => Serving s m) ?_ ?_ ?_
      hframe.consistent hstarted m hm
    · exact fun s n _ hs => kept_consistent.startModule _ s n hs
    · exact fun s n _ hs hok => startModule_serving hs (isOk_eq_true hok)
    · exact fun s n _ k hs hserving => hserving.startModule hs (a.rollbackStart n)
  · have hdesired : (middle.processes m).desired = false := by
      rw [← hmiddle]
      refine ForEach.tryAll_ok (I := fun _ => True)
        (Q := fun m s => m ∉ previous → (s.processes m).desired = false) ?_ ?_ ?_ trivial hstopped m
        (List.mem_reverse.2 hid) hm
      · exact fun _ _ _ _ => trivial
      · exact fun s n _ _ hok hn => stopUnlessIn_ok hn (isOk_eq_true hok)
      · exact fun s n _ k _ hs hk => stopUnlessIn_desired a.rollbackStop previous (hs hk)
    have hrest : Frame (fun m => m ∉ previous) middle
        (ForEach.tryAll (fun s m => isOk (startModule (a.rollbackStart m) s m)) previous middle).1 := by
      refine ForEach.tryAll_invariant (I := Frame (fun m => m ∉ previous) middle)
        (fun s' n hn hs => ?_) (Frame.refl hframe.consistent)
      exact hs.startModule (fun hnot => hnot hn) (a.rollbackStart n)
    show ((ForEach.tryAll (fun s m => isOk (startModule (a.rollbackStart m) s m)) previous
      _).1.processes m).desired = false
    rw [hmiddle, hrest.same m hm]
    exact hdesired

end Loops

/-! ## All or nothing -/

/-- The error text of a rollback that failed too. -/
def EndsIn (text suffix : String) : Prop := ∃ before, text = before ++ suffix

/-- What a switch that is all or nothing leaves behind, whatever the mode. -/
structure SwitchedWholly (s : ProcessManager) (mode : RunMode)
    (r : ProcessManager × Except String Unit) : Prop where
  switched : r.2 = .ok () → ∃ modules, s.config.findMode mode = some modules ∧
    ∀ m ∈ s.config.ids, (m ∈ modules → Serving r.1 m) ∧
      (m ∉ modules → (r.1.processes m).desired = false ∧ (r.1.processes m).pid = 0)
  refused : ∀ error, r.2 = .error error → r.1.mode = s.mode ∧
    (¬EndsIn error "rollback failed" → ∀ m ∈ s.config.ids,
      (r.1.processes m).desired = (s.processes m).desired ∧
      ((s.processes m).desired = true → (r.1.processes m).state = .running))

/-- What `SwitchMode` leaves behind. -/
structure SwitchLaw (s : ProcessManager) (mode : RunMode)
    (r : ProcessManager × Except String Unit) : Prop where
  /-- A module outside the mode has a process only if it had one before that was not wanted. -/
  switched : r.2 = .ok () → ∃ modules, s.config.findMode mode = some modules ∧
    r.1.mode = runModeName mode ∧
    ∀ m ∈ s.config.ids, (m ∈ modules → Serving r.1 m) ∧
      (m ∉ modules → (r.1.processes m).desired = false ∧
        ((r.1.processes m).pid ≠ 0 → (s.processes m).desired = false ∧ (s.processes m).pid ≠ 0))
  refused : ∀ error, r.2 = .error error → r.1.mode = s.mode ∧
    (¬EndsIn error "rollback failed" → ∀ m ∈ s.config.ids,
      (r.1.processes m).desired = (s.processes m).desired ∧
      (s.config.findMode mode ≠ none → (s.processes m).desired = true →
        (r.1.processes m).state = .running))
  unknown : s.config.findMode mode = none → r = (s, .error ("unknown mode: " ++ runModeName mode))

section SwitchMode

variable {a : SwitchAnswers} {mode : RunMode}

/-- A switch that fails on the way is taken back, or says that it could not be. -/
theorem rollback_law {error : String} (h : Frame (fun _ => False) s₀ s) (hfind : s₀.config.findMode mode ≠ none) :
    SwitchLaw s₀ mode (rollback a s₀.desiredModules error s) := by
  have hframe := restorePreviousMode_frame a s₀.desiredModules h.consistent
  refine ⟨nofun, fun error' herror => ⟨hframe.mode.trans h.mode, fun hends m hm => ?_⟩,
    fun hnone => absurd hnone hfind⟩
  have hok : (restorePreviousMode a s₀.desiredModules s).2 = true := by
    by_contra hnot
    refine hends ⟨error ++ "; ", ?_⟩
    have heq : error ++ (if (restorePreviousMode a s₀.desiredModules s).2 then ""
        else "; rollback failed") = error' := Except.error.inj herror
    rw [← heq, if_neg hnot, String.append_assoc]
    rfl
  obtain ⟨hin, hout⟩ := restorePreviousMode_ok h.consistent hok (m := m) (by rw [h.config]; exact hm)
  by_cases hdesired : (s₀.processes m).desired = true
  · have hserving := hin (mem_desiredModules.2 ⟨hm, hdesired⟩)
    exact ⟨hserving.1.trans hdesired.symm, fun _ _ => hserving.2⟩
  · refine ⟨?_, fun _ hd => absurd hd hdesired⟩
    rw [Bool.eq_false_of_not_eq_true hdesired]
    exact hout fun hmem => hdesired (mem_desiredModules.1 hmem).2

theorem switchMode_law (h : Consistent s) : SwitchLaw s mode (switchMode a mode s) := by
  unfold switchMode
  split
  case h_1 hnone =>
    refine ⟨nofun, fun error _ => ⟨rfl, fun _ m _ => ⟨rfl, fun hfind => ?_⟩⟩, fun _ => rfl⟩
    exact absurd hnone hfind
  case h_2 modules hfind =>
    have hsome : s.config.findMode mode ≠ none := by
      rw [hfind]
      nofun
    have hstop := stopOthers_frame a modules h
    simp only []
    split
    case h_1 s₁ error heq =>
      rw [heq] at hstop
      exact rollback_law hstop hsome
    case h_2 s₁ heq =>
      have hstopped : (stopOthers a modules s).2 = .ok () := by rw [heq]
      have hdesired := fun m => stopOthers_desired (m := m) hstopped
      have hrunning := fun m => stopOthers_running (m := m) hstopped
      rw [heq] at hstop hdesired hrunning
      have hstart := startMissing_frame a modules hstop.consistent
      split
      case h_1 s₂ error heq' =>
        rw [heq'] at hstart
        refine rollback_law ⟨hstart.consistent, ?_, ?_, nofun⟩ hsome
        · exact hstart.config.trans hstop.config
        · exact hstart.mode.trans hstop.mode
      case h_2 s₂ heq' =>
        have hstarted : (startMissing a modules s₁).2 = .ok () := by rw [heq']
        have hserving := fun m => startMissing_serving (m := m) hstop.consistent hstarted
        rw [heq'] at hstart hserving
        refine ⟨fun _ => ⟨modules, hfind, rfl, fun m hm => ⟨hserving m, fun hout => ?_⟩⟩, nofun,
          fun hnone => absurd hnone hsome⟩
        show (s₂.processes m).desired = false ∧ ((s₂.processes m).pid ≠ 0 → _)
        rw [hstart.same m hout]
        refine ⟨hdesired m hm hout, fun hpid => ?_⟩
        obtain ⟨hwanted, hrun⟩ := hrunning m hm hout ((hstop.consistent.record m).running.1 hpid)
        exact ⟨hwanted, (h.record m).running.2 hrun⟩

/-- **`SwitchMode` is all or nothing**: the modules of the mode are the wanted ones and run, or those wanted
    before are and run, unless the rollback fails as well. -/
theorem switch_all_or_nothing (config : RunConfig) (operations : List Operation) (a : SwitchAnswers) :
    (∀ mode, SwitchLaw (after config operations) mode
      ((after config operations).switchMode a mode)) ∧
    ∀ name, (parseRunMode name = none → (after config operations).switchModeNamed a name =
        (after config operations, .error ("unknown mode: " ++ name))) ∧
      ∀ mode, parseRunMode name = some mode → SwitchLaw (after config operations) mode
        ((after config operations).switchModeNamed a name) := by
  have h := kept_consistent.after (Consistent.create config) operations
  refine ⟨fun mode => switchMode_law h, fun name => ⟨fun hnone => ?_, fun mode hsome => ?_⟩⟩ <;>
    unfold switchModeNamed
  · rw [hnone]
  · rw [hsome]
    exact switchMode_law h

/-- An unknown mode is refused while a wanted module is down; a module whose stop has failed is left running. -/
theorem switch_not_wholly :
    ¬SwitchedWholly
      (after .default
        [.switchMode {} .cloud, .reapExited [{ pid := 3, elapsedNs := 5 }] 0 fun _ => {}])
      .unknown
      ((after .default
        [.switchMode {} .cloud, .reapExited [{ pid := 3, elapsedNs := 5 }] 0 fun _ => {}]).switchMode
          {} .unknown) ∧
    ¬SwitchedWholly
      (after .default
        [.switchMode {} .cloud,
          .stopModule { sigterm := some "Operation not permitted" } "carupload"])
      .upgrade
      ((after .default
        [.switchMode {} .cloud,
          .stopModule { sigterm := some "Operation not permitted" } "carupload"]).switchMode
          {} .upgrade) := by
  refine ⟨fun h => ?_, fun h => ?_⟩
  · obtain ⟨-, hrest⟩ := h.refused "unknown mode: unknown" rfl
    have hends : ¬EndsIn "unknown mode: unknown" "rollback failed" := by
      rintro ⟨before, heq⟩
      have hlast := congrArg (fun text : String => text.toList.getLast?) heq
      simp [String.toList_append] at hlast
    have hrun := (hrest hends .carupload (by decide)).2 (by decide)
    exact absurd hrun (by decide)
  · obtain ⟨modules, hfind, hrest⟩ := h.switched rfl
    cases hfind
    have hpid := ((hrest .carupload (by decide)).2 (by decide)).2
    exact absurd hpid (by decide)

end SwitchMode

end Cockpit.Navigator.ProcessManager
