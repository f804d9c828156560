/-
  The process records in every reachable state.
-/
import Cockpit.Lib.SlidingWindow
import Cockpit.Navigator.ProcessSteps

namespace Cockpit.Navigator

open List Function

/-- A record whose pid, state and pending restart agree. -/
structure ProcessRecord.Ok (p : ProcessRecord) : Prop where
  running : p.pid ≠ 0 ↔ p.state = .running
  restarting : p.restartPending = true ↔ p.state = .restarting
  wanted : p.restartPending = true → p.desired = true

/-- The restarts of one period. -/
def ProcessRecord.restartsIn (p : ProcessRecord) (period : Nat) : List Int :=
  (p.scheduled.filter (·.period = period)).map (·.atNs)

namespace ProcessManager

variable {s s' : ProcessManager} {m : ModuleId}

/-! ## pid, state and children -/

/-- The records are sound, and each pid in them is that of another child. -/
structure Consistent (s : ProcessManager) : Prop where
  record : ∀ m, (s.processes m).Ok
  configured : ∀ m, (s.processes m).pid ≠ 0 → m ∈ s.config.ids
  child : ∀ m, (s.processes m).pid ≠ 0 → (s.processes m).pid ∈ s.children
  distinct : ∀ m n, (s.processes m).pid ≠ 0 → (s.processes m).pid = (s.processes n).pid → m = n

namespace Consistent

theorem create (config : RunConfig) : Consistent (create config) where
  record _ := ⟨by simp [ProcessManager.create], by simp [ProcessManager.create],
    by simp [ProcessManager.create]⟩
  configured _ h := absurd rfl h
  child _ h := absurd rfl h
  distinct _ _ h := absurd rfl h

theorem pid_eq_zero (h : Consistent s) (hstate : (s.processes m).state ≠ .running) : (s.processes m).pid = 0 := by
  by_cases hpid : (s.processes m).pid = 0
  · exact hpid
  · exact absurd ((h.record m).running.1 hpid) hstate

theorem pid_eq_zero_of_pending (h : Consistent s) (hpending : (s.processes m).restartPending = true) :
    (s.processes m).pid = 0 := by
  apply h.pid_eq_zero
  rw [(h.record m).restarting.1 hpending]
  decide

theorem changed {p : ProcessRecord} (h : Consistent s)
    (hprocesses : s'.processes = update s.processes m p) (hconfig : s'.config = s.config)
    (hok : p.Ok) (hchildren : ∀ c ∈ s.children, c ≠ (s.processes m).pid → c ∈ s'.children)
    (hpid : p.pid = 0 ∨ (m ∈ s.config.ids ∧ p.pid ∉ s.children ∧ p.pid ∈ s'.children) ∨
      (p.pid = (s.processes m).pid ∧ s.children ⊆ s'.children)) : Consistent s' := by
  have hself : s'.processes m = p := by rw [hprocesses, update_self]
  have hother : ∀ n, n ≠ m → s'.processes n = s.processes n := fun n hn => by
    rw [hprocesses, update_of_ne hn]
  -- the other records keep their pids, which are not the one of this record
  have hapart : ∀ n, n ≠ m → (s.processes n).pid ≠ 0 → (s.processes n).pid ≠ p.pid := by
    intro n hn hne heq
    rcases hpid with hzero | ⟨-, hfresh, -⟩ | ⟨hsame, -⟩
    · exact hne (heq.trans hzero)
    · exact hfresh (heq ▸ h.child n hne)
    · exact hn (h.distinct n m hne (heq.trans hsame))
  refine ⟨fun n => ?_, fun n hne => ?_, fun n hne => ?_, fun n k hne heq => ?_⟩
  · by_cases hn : n = m
    · rw [hn, hself]
      exact hok
    · rw [hother n hn]
      exact h.record n
  · rw [hconfig]
    by_cases hn : n = m
    · rw [hn, hself] at hne
      rw [hn]
      rcases hpid with hzero | ⟨hm, -, -⟩ | ⟨hsame, -⟩
      · exact absurd hzero hne
      · exact hm
      · exact h.configured m (hsame ▸ hne)
    · rw [hother n hn] at hne
      exact h.configured n hne
  · by_cases hn : n = m
    · rw [hn, hself] at hne ⊢
      rcases hpid with hzero | ⟨-, -, hmem⟩ | ⟨hsame, hsub⟩
      · exact absurd hzero hne
      · exact hmem
      · rw [hsame] at hne ⊢
        exact hsub (h.child m hne)
    · rw [hother n hn] at hne ⊢
      exact hchildren _ (h.child n hne) fun heq => hn (h.distinct n m hne heq)
  · by_cases hn : n = m <;> by_cases hk : k = m
    · rw [hn, hk]
    · rw [hn, hself] at hne heq
      rw [hother k hk] at heq
      exact absurd heq.symm (hapart k hk (heq ▸ hne))
    · rw [hother n hn] at hne heq
      rw [hk, hself] at heq
      exact absurd heq (hapart n hn hne)
    · rw [hother n hn] at hne heq
      rw [hother k hk] at heq
      exact h.distinct n k hne heq

theorem collected (h : Consistent s) {pid : Nat}
    (hpid : ∀ module ∈ s.config.modules, (s.processes module.id).pid ≠ pid) (clockNs : Int) :
    Consistent { s with children := s.children.erase pid, clockNs := clockNs } where
  record := h.record
  configured := h.configured
  child m hne := by
    obtain ⟨module, hmodule, rfl⟩ := mem_map.1 (h.configured m hne)
    exact (mem_erase_of_ne (hpid module hmodule)).2 (h.child _ hne)
  distinct := h.distinct

end Consistent

/-- What the operations keep of pid, state and pending restart. -/
theorem kept_consistent : Kept Consistent where
  startModule a s m h := by
    have hok := h.record m
    rcases startModule_cases (m := m) a h.pid_eq_zero with
      ⟨-, -, heq⟩ | ⟨-, -, hchanged, hchildren⟩ | ⟨hm, -, pid, hne, hfresh, -, hchanged, hchildren⟩ |
        ⟨hstate, -, hchanged, hchildren⟩
    · rw [heq]
      exact h
    · refine h.changed hchanged.processes hchanged.config ⟨hok.running, hok.restarting, fun _ => rfl⟩ ?_ ?_ <;>
        rw [hchildren]
      · exact fun c hc _ => hc
      · exact .inr (.inr ⟨rfl, List.Subset.refl _⟩)
    · refine h.changed hchanged.processes hchanged.config ⟨by simpa using hne, by simp, by simp⟩ ?_ ?_ <;>
        rw [hchildren]
      · exact fun c hc _ => mem_cons_of_mem _ hc
      · exact .inr (.inl ⟨hm, hfresh, mem_cons_self⟩)
    · have hzero := h.pid_eq_zero hstate
      refine h.changed hchanged.processes hchanged.config ⟨by simpa using hzero, by simp, by simp⟩ ?_ (.inl hzero)
      exact fun c hc _ => hchildren hc
  stopModule a s m h := by
    have hok := h.record m
    rcases stopModule_cases (m := m) (s := s) a with
      ⟨-, -, heq⟩ | ⟨-, hchanged, hchildren⟩ | ⟨hne, -, hchanged, hchildren⟩ |
        ⟨-, hchanged, hchildren⟩
    · rw [heq]
      exact h
    · refine h.changed hchanged.processes hchanged.config ⟨hok.running, hok.restarting, hok.wanted⟩ ?_ ?_ <;>
        rw [hchildren]
      · exact fun c hc _ => hc
      · exact .inr (.inr ⟨rfl, List.Subset.refl _⟩)
    · have hrunning := hok.running.1 hne
      refine h.changed hchanged.processes hchanged.config ⟨hok.running, by simp [hrunning], by simp⟩ ?_ ?_ <;>
        rw [hchildren]
      · exact fun c hc _ => hc
      · exact .inr (.inr ⟨rfl, List.Subset.refl _⟩)
    · exact h.changed hchanged.processes hchanged.config ⟨by simp, by simp, by simp⟩ hchildren (.inl rfl)
  collect s exit hpid h := by
    rcases collect_cases s exit with ⟨hnone, heq⟩ | ⟨module, -, heq, hcollect⟩
    · rw [heq]
      exact h.collected hnone _
    · -- the record that has this pid is the only one
      have hchildren : ∀ c ∈ s.children, c ≠ (s.processes module.id).pid →
          c ∈ s.children.erase exit.pid :=
        fun c hc hne => (mem_erase_of_ne (heq ▸ hne)).2 hc
      rw [hcollect]
      rcases handleExit_cases
          { s with
            children := s.children.erase exit.pid, clockNs := s.clockNs + exit.elapsedNs }
          module (s.clockNs + exit.elapsedNs) with
        ⟨-, hchanged⟩ | ⟨-, -, hchanged, -⟩ | ⟨hdesired, -, hchanged⟩
      · have hpending : (s.processes module.id).restartPending = false :=
          Bool.eq_false_of_not_eq_true fun hp => hpid (heq.symm.trans (h.pid_eq_zero_of_pending hp))
        refine h.changed hchanged.processes hchanged.config
          ⟨by simp, by simp [hpending], by simp [hpending]⟩ ?_ (.inl rfl)
        rw [handleExit_children]
        exact hchildren
      · refine h.changed hchanged.processes hchanged.config ⟨by simp, by simp, by simp⟩ ?_ (.inl rfl)
        rw [handleExit_children]
        exact hchildren
      · refine h.changed hchanged.processes hchanged.config ⟨by simp, by simp, fun _ => hdesired⟩ ?_
          (.inl rfl)
        rw [handleExit_children]
        exact hchildren
  restartIfDue answers s module hmodule h := by
    have hok := h.record module.id
    rcases restartIfDue_cases answers s.clockNs module h.pid_eq_zero_of_pending with
      heq | ⟨-, pid, hne, hfresh, hchanged, hchildren⟩ | ⟨hpending, hchanged, hchildren⟩
    · rw [heq]
      exact h
    · refine h.changed hchanged.processes hchanged.config ⟨by simpa using hne, by simp, by simp⟩ ?_ ?_ <;>
        rw [hchildren]
      · exact fun c hc _ => mem_cons_of_mem _ hc
      · exact .inr (.inl ⟨mem_map_of_mem hmodule, hfresh, mem_cons_self⟩)
    · have hzero := h.pid_eq_zero_of_pending hpending
      refine h.changed hchanged.processes hchanged.config ⟨by simpa using hzero, by simp, by simp⟩ ?_ (.inl hzero)
      exact fun c hc _ => hchildren hc
  mode s _ _ h := ⟨h.record, h.configured, h.child, h.distinct⟩
  clock s _ h := ⟨h.record, h.configured, h.child, h.distinct⟩

/-! ## The restart budget -/

/-- The restarts of a module keep to its budget: within each period between explicit calls, no window
has more than `limit`, and `restart_times` still has all recent ones of the current period. -/
structure Budget (window limit now : Int) (p : ProcessRecord) : Prop where
  within : ∀ period, SlidingWindow.Within window limit (p.restartsIn period)
  recent : ((p.restartsIn p.explicitCalls).filter (SlidingWindow.recent window now)).Sublist
    p.restartTimes
  period : ∀ restart ∈ p.scheduled, restart.period ≤ p.explicitCalls

namespace Budget

variable {window limit now later : Int} {p q : ProcessRecord}

theorem initial (h : 0 ≤ limit) : Budget window limit now {} where
  within _ := SlidingWindow.within_nil h
  recent := List.Sublist.refl _
  period _ hmem := absurd hmem not_mem_nil

section

variable (h : Budget window limit now p)
include h

theorem at_later (hlater : now ≤ later) : Budget window limit later p where
  within := h.within
  recent := SlidingWindow.recent_sublist_of_le h.recent hlater
  period := h.period

theorem same (hscheduled : q.scheduled = p.scheduled)
    (hcalls : q.explicitCalls = p.explicitCalls) (htimes : q.restartTimes = p.restartTimes) :
    Budget window limit now q where
  within period := by
    unfold ProcessRecord.restartsIn
    rw [hscheduled]
    exact h.within period
  recent := by
    unfold ProcessRecord.restartsIn
    rw [hscheduled, hcalls, htimes]
    exact h.recent
  period := by
    rw [hscheduled, hcalls]
    exact h.period

theorem called (hscheduled : q.scheduled = p.scheduled)
    (hcalls : q.explicitCalls = p.explicitCalls + 1) : Budget window limit now q where
  within period := by
    unfold ProcessRecord.restartsIn
    rw [hscheduled]
    exact h.within period
  recent := by
    have hnone : q.restartsIn q.explicitCalls = [] := by
      unfold ProcessRecord.restartsIn
      rw [hscheduled, hcalls, map_eq_nil_iff, filter_eq_nil_iff]
      intro restart hmem heq
      have hperiod := h.period restart hmem
      have heq := of_decide_eq_true heq
      omega
    rw [hnone]
    exact nil_sublist _
  period := by
    rw [hscheduled, hcalls]
    exact fun restart hmem => Nat.le_succ_of_le (h.period restart hmem)

theorem dropped (hlater : now ≤ later)
    (hscheduled : q.scheduled = p.scheduled) (hcalls : q.explicitCalls = p.explicitCalls)
    (htimes : q.restartTimes = SlidingWindow.dropOld window later p.restartTimes) : Budget window limit later q where
  within period := by
    unfold ProcessRecord.restartsIn
    rw [hscheduled]
    exact h.within period
  recent := by
    unfold ProcessRecord.restartsIn
    rw [hscheduled, hcalls, htimes]
    exact SlidingWindow.recent_sublist_dropOld h.recent hlater
  period := by
    rw [hscheduled, hcalls]
    exact h.period

theorem scheduled (hwindow : 0 ≤ window) (hnow : now ≤ later)
    (hlimit : ((SlidingWindow.dropOld window later p.restartTimes).length : Int) < limit)
    (hscheduled : q.scheduled = p.scheduled ++ [{ period := p.explicitCalls, atNs := later }])
    (hcalls : q.explicitCalls = p.explicitCalls)
    (htimes : q.restartTimes = SlidingWindow.dropOld window later p.restartTimes ++ [later]) :
    Budget window limit later q := by
  have hsub := SlidingWindow.recent_sublist_dropOld h.recent hnow
  have hsame : q.restartsIn p.explicitCalls = p.restartsIn p.explicitCalls ++ [later] := by
    unfold ProcessRecord.restartsIn
    rw [hscheduled, filter_append, map_append]
    simp
  have hother : ∀ period, period ≠ p.explicitCalls → q.restartsIn period = p.restartsIn period := by
    intro period hne
    unfold ProcessRecord.restartsIn
    rw [hscheduled, filter_append, map_append]
    simp [hne.symm]
  refine ⟨fun period => ?_, ?_, fun restart hmem => ?_⟩
  · by_cases hperiod : period = p.explicitCalls
    · rw [hperiod, hsame]
      refine (h.within p.explicitCalls).snoc ?_
      have hle := hsub.length_le
      omega
    · rw [hother period hperiod]
      exact h.within period
  · rw [hcalls, hsame, SlidingWindow.recent_snoc hwindow, htimes]
    exact hsub.append (List.Sublist.refl _)
  · rw [hcalls]
    rw [hscheduled] at hmem
    rcases mem_append.1 hmem with hmem | hmem
    · exact h.period restart hmem
    · exact Nat.le_of_eq (congrArg Scheduled.period (mem_singleton.1 hmem))

end

end Budget

/-- All configured modules keep to their budgets. -/
structure Budgets (config : RunConfig) (s : ProcessManager) : Prop where
  config_eq : s.config = config
  consistent : Consistent s
  budget : ∀ module ∈ config.modules,
    Budget (windowNs config) module.restartLimit s.clockNs (s.processes module.id)

variable {config : RunConfig}

variable {p : ProcessRecord}

theorem Budgets.changed (h : Budgets config s)
    (hprocesses : s'.processes = update s.processes m p) (hconfig : s'.config = s.config)
    (hclock : s.clockNs ≤ s'.clockNs) (hconsistent : Consistent s')
    (hbudget : ∀ module ∈ config.modules, module.id = m → Budget (windowNs config) module.restartLimit s'.clockNs p) :
    Budgets config s' where
  config_eq := hconfig.trans h.config_eq
  consistent := hconsistent
  budget module hmodule := by
    rw [hprocesses]
    by_cases hm : module.id = m
    · rw [hm, update_self]
      exact hbudget module hmodule hm
    · rw [update_of_ne hm]
      exact (h.budget module hmodule).at_later hclock

theorem kept_budgets (hconfig : config.Validate) : Kept (Budgets config) where
  startModule a s m h := by
    have hconsistent := kept_consistent.startModule a s m h.consistent
    rcases startModule_cases (m := m) a h.consistent.pid_eq_zero with
      ⟨-, -, heq⟩ | ⟨-, -, hchanged, -⟩ | ⟨-, -, pid, -, -, -, hchanged, -⟩ | ⟨-, -, hchanged, -⟩
    · rw [heq]
      exact h
    all_goals
      refine h.changed hchanged.processes hchanged.config (Int.le_of_eq hchanged.clockNs.symm) hconsistent ?_
      rintro module hmodule rfl
      rw [hchanged.clockNs]
      exact (h.budget module hmodule).called rfl rfl
  stopModule a s m h := by
    have hconsistent := kept_consistent.stopModule a s m h.consistent
    rcases stopModule_cases (m := m) (s := s) a with
      ⟨-, -, heq⟩ | ⟨-, hchanged, -⟩ | ⟨-, -, hchanged, -⟩ | ⟨-, hchanged, -⟩
    · rw [heq]
      exact h
    all_goals
      refine h.changed hchanged.processes hchanged.config (Int.le_of_eq hchanged.clockNs.symm) hconsistent ?_
      rintro module hmodule rfl
      rw [hchanged.clockNs]
      exact (h.budget module hmodule).called rfl rfl
  collect s exit hpid h := by
    have hconsistent := kept_consistent.collect s exit hpid h.consistent
    have hlater : s.clockNs ≤ s.clockNs + exit.elapsedNs := by omega
    rcases collect_cases s exit with ⟨-, heq⟩ | ⟨module, hmodule, -, heq⟩ <;> rw [heq] at hconsistent ⊢
    · exact ⟨h.config_eq, hconsistent, fun module hmodule => (h.budget module hmodule).at_later hlater⟩
    · rw [h.config_eq] at hmodule
      have hbudget := h.budget module hmodule
      have hwindow : 0 ≤ windowNs config := by
        have hpos := hconfig.window
        unfold windowNs
        omega
      rcases handleExit_cases
          { s with
            children := s.children.erase exit.pid, clockNs := s.clockNs + exit.elapsedNs }
          module (s.clockNs + exit.elapsedNs) with
        ⟨-, hchanged⟩ | ⟨-, -, hchanged, -⟩ | ⟨-, hlimit, hchanged⟩
      all_goals
        have hclock := hchanged.clockNs
        refine h.changed hchanged.processes hchanged.config (hclock ▸ hlater) hconsistent ?_
        intro other hother hid
        rw [hconfig.module_eq hother hmodule hid, hclock]
      · exact (hbudget.at_later hlater).same rfl rfl rfl
      · refine hbudget.dropped hlater rfl rfl ?_
        rw [← h.config_eq]
        rfl
      · refine hbudget.scheduled hwindow hlater ?_ rfl rfl ?_
        · rw [← h.config_eq]
          exact hlimit
        · rw [← h.config_eq]
          rfl
  restartIfDue answers s module hmodule h := by
    have hconsistent := kept_consistent.restartIfDue answers s module hmodule h.consistent
    rcases restartIfDue_cases answers s.clockNs module h.consistent.pid_eq_zero_of_pending with
      heq | ⟨-, pid, -, -, hchanged, -⟩ | ⟨-, hchanged, -⟩
    · rw [heq]
      exact h
    all_goals
      refine h.changed hchanged.processes hchanged.config (Int.le_of_eq hchanged.clockNs.symm) hconsistent ?_
      intro other hother hid
      rw [hchanged.clockNs, ← hid]
      exact (h.budget other hother).same rfl rfl rfl
  mode s _ _ h := ⟨h.config_eq, kept_consistent.mode s _ _ h.consistent, h.budget⟩
  clock s elapsedNs h := by
    refine ⟨h.config_eq, kept_consistent.clock s elapsedNs h.consistent, fun module hmodule => ?_⟩
    refine (h.budget module hmodule).at_later ?_
    show s.clockNs ≤ s.clockNs + elapsedNs
    omega

/-- Every module stays within its budget. -/
theorem budgets_after (hconfig : config.Validate) (operations : List Operation) :
    Budgets config (after config operations) := by
  refine (kept_budgets hconfig).after ⟨rfl, Consistent.create config, fun module hmodule => ?_⟩ _
  exact Budget.initial (hconfig.restartLimit module hmodule)

/-! ## Beyond the budget -/

/-- A configured module has failed, and so has the whole system if it is critical. -/
structure Failed (module : ModuleConfig) (s : ProcessManager) : Prop where
  consistent : Consistent s
  failed : (s.processes module.id).state = .failed
  critical : module.critical = true → s.criticalFailure = true

variable {module : ModuleConfig}

theorem Failed.pid_eq_zero (h : Failed module s) : (s.processes module.id).pid = 0 :=
  h.consistent.pid_eq_zero (by rw [h.failed]; decide)

theorem Failed.not_pending (h : Failed module s) : (s.processes module.id).restartPending ≠ true := by
  intro hpending
  have hstate := (h.consistent.record module.id).restarting.1 hpending
  rw [h.failed] at hstate
  cases hstate

theorem keptByReaping_failed (module : ModuleConfig) : KeptByReaping (Failed module) where
  collect s exit hpid h := by
    have hconsistent := kept_consistent.collect s exit hpid h.consistent
    rcases collect_cases s exit with ⟨-, heq⟩ | ⟨other, -, hother, heq⟩
    · rw [heq] at hconsistent ⊢
      exact ⟨hconsistent, h.failed, h.critical⟩
    · have hne : module.id ≠ other.id := by
        intro hid
        rw [← hid, h.pid_eq_zero] at hother
        exact hpid hother.symm
      rw [heq] at hconsistent ⊢
      refine ⟨hconsistent, ?_, fun hcritical => handleExit_criticalFailure (h.critical hcritical)⟩
      rcases handleExit_cases
          { s with
            children := s.children.erase exit.pid, clockNs := s.clockNs + exit.elapsedNs }
          other (s.clockNs + exit.elapsedNs) with
        ⟨-, hchanged⟩ | ⟨-, -, hchanged, -⟩ | ⟨-, -, hchanged⟩
      all_goals
        rw [hchanged.other hne]
        exact h.failed
  restartIfDue answers s other hmodule h := by
    have hconsistent := kept_consistent.restartIfDue answers s other hmodule h.consistent
    refine ⟨hconsistent, ?_, fun hcritical => restartIfDue_criticalFailure (h.critical hcritical)⟩
    have hne : (s.processes other.id).restartPending = true → module.id ≠ other.id := by
      intro hpending hid
      rw [← hid] at hpending
      exact h.not_pending hpending
    rcases restartIfDue_cases answers s.clockNs other h.consistent.pid_eq_zero_of_pending with
      heq | ⟨hpending, pid, -, -, hchanged, -⟩ | ⟨hpending, hchanged, -⟩
    · rw [heq]
      exact h.failed
    all_goals
      rw [hchanged.other (hne hpending)]
      exact h.failed
  clock s elapsedNs h := ⟨kept_consistent.clock s elapsedNs h.consistent, h.failed, h.critical⟩

theorem collectAll_append {before rest : List Exit} {exit : Exit}
    (hbefore : ∀ e ∈ before, e.pid ≠ 0) (hexit : exit.pid ≠ 0) :
    collectAll (before ++ exit :: rest) s = collectAll rest ((collectAll before s).collect exit) := by
  induction before generalizing s with
  | nil => exact if_neg hexit
  | cons e before ih =>
    rw [cons_append, collectAll, collectAll, if_neg (hbefore e mem_cons_self),
      if_neg (hbefore e mem_cons_self)]
    exact ih fun e he => hbefore e (mem_cons_of_mem _ he)

theorem Budgets.failed (hconfig : config.Validate) (h : Budgets config s) (hmodule : module ∈ config.modules)
    {before rest : List Exit} {exit : Exit} (hbefore : ∀ e ∈ before, e.pid ≠ 0) (hexit : exit.pid ≠ 0)
    (hpid : ((collectAll before s).processes module.id).pid = exit.pid)
    (hdesired : ((collectAll before s).processes module.id).desired = true)
    (hused : module.restartLimit ≤ ((((collectAll before s).processes module.id).restartsIn ((collectAll before
      s).processes module.id).explicitCalls).filter (SlidingWindow.recent (windowNs config) ((collectAll before
      s).clockNs + exit.elapsedNs))).length) (elapsedNs : Nat) (answers : ModuleId → StartAnswers) :
    Failed module (s.reapExited (before ++ exit :: rest) elapsedNs answers) := by
  have hbefore' := (kept_budgets hconfig).collectAll before h
  generalize hs : collectAll before s = s₁ at hpid hdesired hused hbefore'
  have hlater : s₁.clockNs ≤ s₁.clockNs + exit.elapsedNs := by omega
  have hcollected : Failed module (s₁.collect exit) := by
    have hconsistent := kept_consistent.collect s₁ exit hexit hbefore'.consistent
    rcases collect_cases s₁ exit with ⟨hnone, -⟩ | ⟨other, hother, hotherPid, heq⟩
    · rw [hbefore'.config_eq] at hnone
      exact absurd hpid (hnone module hmodule)
    · -- the record that has the pid is that of the module
      rw [hbefore'.config_eq] at hother
      have hid : module.id = other.id :=
        hbefore'.consistent.distinct _ _ (by rw [hpid]; exact hexit) (hpid.trans hotherPid.symm)
      rw [← hconfig.module_eq hmodule hother hid] at heq
      rw [heq] at hconsistent ⊢
      rcases handleExit_cases
          { s₁ with
            children := s₁.children.erase exit.pid, clockNs := s₁.clockNs + exit.elapsedNs }
          module (s₁.clockNs + exit.elapsedNs) with
        ⟨hnot, -⟩ | ⟨-, -, hchanged, hcritical⟩ | ⟨-, hlimit, -⟩
      · exact absurd (hdesired.symm.trans hnot) (by decide)
      · refine ⟨hconsistent, ?_, hcritical⟩
        rw [hchanged.self]
      · have hsub := SlidingWindow.recent_sublist_dropOld (hbefore'.budget module hmodule).recent hlater
        have hle := hsub.length_le
        rw [← hbefore'.config_eq] at hle hused
        have hlimit : ((SlidingWindow.dropOld (windowNs s₁.config) (s₁.clockNs + exit.elapsedNs)
            (s₁.processes module.id).restartTimes).length : Int) < module.restartLimit := hlimit
        omega
  unfold reapExited
  rw [collectAll_append hbefore hexit, hs]
  exact (keptByReaping_failed module).reapExited rest elapsedNs answers hcollected

/-- What `StopModule` may make of the record `p` of a module that has failed, while nobody starts it. -/
structure Resting (p q : ProcessRecord) : Prop where
  starts : q.starts = p.starts
  startCalls : q.startCalls = p.startCalls
  state : q.state = .failed ∨ q.state = .stopped
  calls : p.explicitCalls ≤ q.explicitCalls
  same : q.explicitCalls = p.explicitCalls → q = p

/-- The module has been started explicitly since. -/
def StartedSince (p q : ProcessRecord) : Prop :=
  p.startCalls < q.startCalls ∧ p.explicitCalls < q.explicitCalls

variable {q : ProcessRecord}

theorem Resting.stopped {q' : ProcessRecord} (h : Resting p q) (hstarts : q'.starts = q.starts)
    (hstartCalls : q'.startCalls = q.startCalls) (hstate : q'.state = q.state ∨ q'.state = .stopped)
    (hcalls : q'.explicitCalls = q.explicitCalls + 1) : Resting p q' where
  starts := hstarts.trans h.starts
  startCalls := hstartCalls.trans h.startCalls
  state := hstate.elim (fun heq => heq ▸ h.state) .inr
  calls := by
    have := h.calls
    omega
  same heq := by
    have := h.calls
    omega

theorem Resting.not_running (h : Resting p q) : q.state ≠ .running := by
  rcases h.state with heq | heq <;> rw [heq] <;> decide

theorem Resting.not_restarting (h : Resting p q) : q.state ≠ .restarting := by
  rcases h.state with heq | heq <;> rw [heq] <;> decide

/-- A step that is neither `StartModule` nor `StopModule` for `m`, and only changes modules that run or
    restart. -/
theorem resting_changed {n : ModuleId} (hchanged : Changed s n q s')
    (hn : (s.processes n).state = .running ∨ (s.processes n).state = .restarting)
    (hstartCalls : q.startCalls = (s.processes n).startCalls)
    (hcalls : q.explicitCalls = (s.processes n).explicitCalls)
    (h : Resting p (s.processes m) ∨ StartedSince p (s.processes m)) :
    Resting p (s'.processes m) ∨ StartedSince p (s'.processes m) := by
  by_cases hm : m = n
  · subst hm
    rw [hchanged.self]
    rcases h with h | h
    · exact absurd hn (not_or.mpr ⟨h.not_running, h.not_restarting⟩)
    · exact .inr ⟨hstartCalls ▸ h.1, hcalls ▸ h.2⟩
  · rw [hchanged.other hm]
    exact h

theorem kept_resting (p : ProcessRecord) (m : ModuleId) :
    Kept fun s => Consistent s ∧ (Resting p (s.processes m) ∨ StartedSince p (s.processes m)) where
  startModule a s n h := by
    refine ⟨kept_consistent.startModule a s n h.1, ?_⟩
    have hcalls : p.startCalls ≤ (s.processes m).startCalls ∧
        p.explicitCalls ≤ (s.processes m).explicitCalls :=
      h.2.elim (fun h => ⟨Nat.le_of_eq h.startCalls.symm, h.calls⟩) fun h =>
        ⟨Nat.le_of_lt h.1, Nat.le_of_lt h.2⟩
    rcases startModule_cases (m := n) a h.1.pid_eq_zero with
      ⟨-, -, heq⟩ | ⟨-, -, hchanged, -⟩ | ⟨-, -, pid, -, -, -, hchanged, -⟩ | ⟨-, -, hchanged, -⟩
    · rw [heq]
      exact h.2
    all_goals
      by_cases hn : m = n
      · subst hn
        rw [hchanged.self]
        exact .inr ⟨Nat.lt_succ_of_le hcalls.1, Nat.lt_succ_of_le hcalls.2⟩
      · rw [hchanged.other hn]
        exact h.2
  stopModule a s n h := by
    refine ⟨kept_consistent.stopModule a s n h.1, ?_⟩
    rcases stopModule_cases (m := n) (s := s) a with
      ⟨-, -, heq⟩ | ⟨-, hchanged, -⟩ | ⟨-, -, hchanged, -⟩ | ⟨-, hchanged, -⟩
    · rw [heq]
      exact h.2
    all_goals
      by_cases hn : m = n
      · subst hn
        rw [hchanged.self]
        refine h.2.imp (fun h => h.stopped rfl rfl ?_ rfl) fun h => ⟨h.1, Nat.lt_succ_of_lt h.2⟩
        first | exact .inl rfl | exact .inr rfl
      · rw [hchanged.other hn]
        exact h.2
  collect s exit hpid h := by
    refine ⟨kept_consistent.collect s exit hpid h.1, ?_⟩
    rcases collect_cases s exit with ⟨-, heq⟩ | ⟨module, -, hmodule, heq⟩
    · rw [heq]
      exact h.2
    · -- a module with a child to collect is running
      have hrunning : (s.processes module.id).state = .running :=
        (h.1.record module.id).running.1 (by rw [hmodule]; exact hpid)
      rw [heq]
      rcases handleExit_cases
          { s with
            children := s.children.erase exit.pid, clockNs := s.clockNs + exit.elapsedNs }
          module (s.clockNs + exit.elapsedNs) with
        ⟨-, hchanged⟩ | ⟨-, -, hchanged, -⟩ | ⟨-, -, hchanged⟩
      all_goals exact resting_changed hchanged (.inl hrunning) rfl rfl h.2
  restartIfDue answers s module hmodule h := by
    refine ⟨kept_consistent.restartIfDue answers s module hmodule h.1, ?_⟩
    rcases restartIfDue_cases answers s.clockNs module h.1.pid_eq_zero_of_pending with
      heq | ⟨hpending, pid, -, -, hchanged, -⟩ | ⟨hpending, hchanged, -⟩
    · rw [heq]
      exact h.2
    all_goals
      exact resting_changed hchanged (.inr ((h.1.record module.id).restarting.1 hpending)) rfl rfl h.2
  mode s _ _ h := ⟨kept_consistent.mode s _ _ h.1, h.2⟩
  clock s elapsedNs h := ⟨kept_consistent.clock s elapsedNs h.1, h.2⟩

theorem Consistent.rests (h : Consistent s) (hfailed : (s.processes m).state = .failed)
    (operations : List Operation) :
    Consistent (StepRun.run step s operations) ∧
      (Resting (s.processes m) ((StepRun.run step s operations).processes m) ∨
        StartedSince (s.processes m) ((StepRun.run step s operations).processes m)) :=
  StepRun.run_invariant (kept_resting (s.processes m) m).step
    ⟨h, .inl ⟨rfl, rfl, .inl hfailed, Nat.le_refl _, fun _ => rfl⟩⟩ operations

/-! ## All laws of the records -/

/-- What holds of the process records of a manager that can be reached. -/
structure RecordLaws (s : ProcessManager) : Prop where
  running : ∀ m, (s.processes m).pid ≠ 0 ↔ (s.processes m).state = .running
  restarting : ∀ m, (s.processes m).restartPending = true ↔ (s.processes m).state = .restarting
  wanted : ∀ m, (s.processes m).restartPending = true → (s.processes m).desired = true
  distinct : ∀ m n, (s.processes m).pid ≠ 0 → (s.processes m).pid = (s.processes n).pid → m = n
  /-- Of the restarts that were scheduled between two explicit calls, no closed window has more than
  `restart_limit`. -/
  budget : ∀ module ∈ s.config.modules, ∀ period start,
    (((s.processes module.id).restartsIn period).filter
      (SlidingWindow.inWindow (windowNs s.config) start)).length ≤ module.restartLimit
  /-- A wanted module exits when `restart_limit` restarts were scheduled since the last explicit call
  within the window that ends now: after `ReapExited` it has failed. -/
  exhausted : ∀ module ∈ s.config.modules, ∀ before exit rest elapsedNs answers,
    (∀ e ∈ before, e.pid ≠ 0) → exit.pid ≠ 0 →
    ((collectAll before s).processes module.id).pid = exit.pid →
    ((collectAll before s).processes module.id).desired = true →
    module.restartLimit ≤
      ((((collectAll before s).processes module.id).restartsIn
          ((collectAll before s).processes module.id).explicitCalls).filter
        (SlidingWindow.recent (windowNs s.config)
          ((collectAll before s).clockNs + exit.elapsedNs))).length →
    ((s.reapExited (before ++ exit :: rest) elapsedNs answers).processes module.id).state = .failed ∧
      (module.critical = true →
        (s.reapExited (before ++ exit :: rest) elapsedNs answers).criticalFailure = true)
  /-- Without an explicit call, a module that has failed stays so, and is not spawned again. -/
  stays : ∀ m, (s.processes m).state = .failed → ∀ operations,
    ((StepRun.run step s operations).processes m).explicitCalls = (s.processes m).explicitCalls →
    ((StepRun.run step s operations).processes m).state = .failed ∧
      ((StepRun.run step s operations).processes m).starts = (s.processes m).starts
  /-- Without an explicit start, it is not spawned again whatever else is called, `StopModule` too. -/
  unstarted : ∀ m, (s.processes m).state = .failed → ∀ operations,
    ((StepRun.run step s operations).processes m).startCalls = (s.processes m).startCalls →
    ((StepRun.run step s operations).processes m).pid = 0 ∧
      ((StepRun.run step s operations).processes m).starts = (s.processes m).starts

/-- **The process records, in every reachable state**: pid, state and pending restart agree, no two records
    share a child, and no module is restarted beyond its budget. -/
theorem record_laws {config : RunConfig} (hconfig : config.Validate) (operations : List Operation) :
    RecordLaws (after config operations) := by
  have h := budgets_after hconfig operations
  refine
    { running := fun m => (h.consistent.record m).running
      restarting := fun m => (h.consistent.record m).restarting
      wanted := fun m => (h.consistent.record m).wanted
      distinct := h.consistent.distinct
      budget := ?_, exhausted := ?_, stays := ?_, unstarted := ?_ }
  · rw [h.config_eq]
    exact fun module hmodule period start => (h.budget module hmodule).within period start
  · rw [h.config_eq]
    intro module hmodule before exit rest elapsedNs answers hbefore hexit hpid hdesired hused
    have hfailed : Failed module (reapExited (before ++ exit :: rest) elapsedNs answers _) :=
      h.failed hconfig hmodule hbefore hexit hpid hdesired hused elapsedNs answers
    exact ⟨hfailed.failed, hfailed.critical⟩
  · intro m hfailed operations' hcalls
    obtain ⟨-, hrests | hstarted⟩ := h.consistent.rests hfailed operations'
    · rw [hrests.same hcalls]
      exact ⟨hfailed, rfl⟩
    · exact absurd hcalls (Nat.ne_of_gt hstarted.2)
  · intro m hfailed operations' hcalls
    obtain ⟨hconsistent, hrests | hstarted⟩ := h.consistent.rests hfailed operations'
    · exact ⟨hconsistent.pid_eq_zero hrests.not_running, hrests.starts⟩
    · exact absurd hcalls (Nat.ne_of_gt hstarted.1)

theorem record_laws_crash :
    RecordLaws (after RunConfig.default
      [.switchMode {} .cloud, .reapExited [{ pid := 3, elapsedNs := 5 }] 0 fun _ => {}]) ∧
    ((after RunConfig.default
      [.switchMode {} .cloud, .reapExited [{ pid := 3, elapsedNs := 5 }] 0 fun _ => {}]).processes
        .carupload).state = .restarting :=
  ⟨record_laws RunConfig.default_validate _, by decide⟩

end ProcessManager

end Cockpit.Navigator
