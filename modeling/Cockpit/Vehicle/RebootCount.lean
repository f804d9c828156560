/-
  `ChassisHeartbeatMonitor` counts the restarts of its peer.

  The peer's uptime is a 32-bit counter that wraps, and both a wrap and a restart make it fall. A fall by at
  most 2^31 is a restart, a deeper one a wrap; so a restart from an uptime above 2^31 may be taken for a wrap.
-/
import Mathlib.Data.List.Chain
import Cockpit.Vehicle.FaultLaws

namespace Cockpit.Vehicle

open Cockpit.Can StepRun
open ChassisCanSafetyStateSource (heartbeatReport)

namespace ChassisHeartbeatMonitor

/-! ## Calls and accepted heartbeats -/

/-- `restarted` is a mark that the monitor does not see: the peer has restarted since the heartbeat accepted
    last. -/
inductive Call where
  | process (frame : CanFrame) (nowMs : Int) (restarted : Bool)
  | update (nowMs : Int)
  | getSnapshot (nowMs : Int)

/-- A call, with what `Process` returns. -/
def step (monitor : ChassisHeartbeatMonitor) : Call → ChassisHeartbeatMonitor × Option Bool
  | .process frame nowMs _ => let result := monitor.process frame nowMs; (result.1, some result.2)
  | .update nowMs => (monitor.update nowMs, none)
  | .getSnapshot _ => (monitor, none)

/-- An accepted heartbeat, with the peer's history. -/
structure Heard where
  heartbeat : ChassisHeartbeat
  restarted : Bool
  deriving DecidableEq

/-- The heartbeat that a call accepts. -/
def accepted : Call × Option Bool → Option Heard
  | (.process frame _ restarted, some true) =>
    (ChassisCanCodec.decodeHeartbeat frame).map fun heartbeat => ⟨heartbeat, restarted⟩
  | _ => none

/-- The heartbeats that a run of the monitor accepts. -/
def heard (calls : List Call) : List Heard := (trace step {} calls).filterMap accepted

/-! ## The peer's clock -/

/-- From one accepted heartbeat to the next the uptime advances by less than 2^31, modulo 2^32, or the
    peer restarts below the uptime it reported last. -/
def PeerClock (before after : Heard) : Prop :=
  if after.restarted then after.heartbeat.uptimeMs < before.heartbeat.uptimeMs
  else (after.heartbeat.uptimeMs - before.heartbeat.uptimeMs).toNat < 2 ^ 31

instance : DecidableRel PeerClock := fun before after => by
  unfold PeerClock
  infer_instance

/-- A restart that the counter shows: the uptime falls by at most half its range. -/
def VisibleRestart (before after : Heard) : Prop :=
  after.restarted = true
    ∧ before.heartbeat.uptimeMs.toNat - after.heartbeat.uptimeMs.toNat ≤ 2 ^ 31

instance : DecidableRel VisibleRestart := fun _ _ => inferInstanceAs (Decidable (_ ∧ _))

/-- The number of neighbours in a list that are related by `p`. -/
def countSteps (p : Heard → Heard → Prop) [DecidableRel p] : List Heard → Nat
  | before :: after :: rest => (if p before after then 1 else 0) + countSteps p (after :: rest)
  | _ => 0

theorem countSteps_concat (p : Heard → Heard → Prop) [DecidableRel p] (list : List Heard) (last next : Heard) :
    countSteps p (list ++ [last] ++ [next]) = countSteps p (list ++ [last]) + if p last next then 1 else 0 := by
  induction list with
  | nil =>
    show (if p last next then 1 else 0) + 0 = 0 + if p last next then 1 else 0
    omega
  | cons first rest ih =>
    cases rest with
    | nil =>
      show (if p first last then 1 else 0) + ((if p last next then 1 else 0) + 0)
        = ((if p first last then 1 else 0) + 0) + if p last next then 1 else 0
      omega
    | cons second rest =>
      have ih' : countSteps p (second :: (rest ++ [last] ++ [next]))
          = countSteps p (second :: (rest ++ [last])) + if p last next then 1 else 0 := ih
      show (if p first second then 1 else 0) + countSteps p (second :: (rest ++ [last] ++ [next]))
        = (if p first second then 1 else 0) + countSteps p (second :: (rest ++ [last]))
          + if p last next then 1 else 0
      omega

variable {monitor : ChassisHeartbeatMonitor}

/-- **The half-range test.**  Along the peer's clock the monitor sees a restart exactly when the uptime
    falls by at most half its range. -/
theorem rebooted_iff {before after : Heard} (hvalid : monitor.sequenceValid = true)
    (hlast : monitor.snapshot.heartbeat = before.heartbeat) (hclock : PeerClock before after) :
    monitor.rebooted after.heartbeat = true ↔ VisibleRestart before after := by
  have htest : monitor.rebooted after.heartbeat = true
      ↔ after.heartbeat.uptimeMs.toNat < before.heartbeat.uptimeMs.toNat
        ∧ 2 ^ 31 ≤ (after.heartbeat.uptimeMs - before.heartbeat.uptimeMs).toNat := by
    unfold rebooted
    rw [hvalid, hlast, Bool.true_and, Bool.and_eq_true, decide_eq_true_eq, decide_eq_true_eq,
      UInt32.lt_iff_toNat_lt, UInt32.le_iff_toNat_le]
    rfl
  have hbefore := before.heartbeat.uptimeMs.toNat_lt
  have hafter := after.heartbeat.uptimeMs.toNat_lt
  have hsub := UInt32.toNat_sub after.heartbeat.uptimeMs before.heartbeat.uptimeMs
  rw [htest]
  unfold PeerClock at hclock
  unfold VisibleRestart
  cases hrestarted : after.restarted with
  | true =>
    rw [hrestarted, if_pos rfl, UInt32.lt_iff_toNat_lt] at hclock
    constructor
    · rintro ⟨_, hhalf⟩
      exact ⟨rfl, by omega⟩
    · rintro ⟨_, hfall⟩
      omega
  | false =>
    rw [hrestarted, if_neg Bool.false_ne_true] at hclock
    constructor
    · rintro ⟨_, hhalf⟩
      omega
    · rintro ⟨hfalse, _⟩
      cases hfalse

/-! ## The monitor and the heartbeats it accepted -/

/-- The monitor remembers the last heartbeat and has counted the visible restarts. -/
structure Hears (list : List Heard) (monitor : ChassisHeartbeatMonitor) : Prop where
  fresh : list = [] → monitor.sequenceValid = false ∧ monitor.snapshot.peerRebootCount = 0
  last : ∀ before ∈ list.getLast?, monitor.sequenceValid = true
    ∧ monitor.lastSequence = before.heartbeat.sequence
    ∧ monitor.snapshot.heartbeat = before.heartbeat
  count : list.IsChain PeerClock →
    monitor.snapshot.peerRebootCount = UInt64.ofNat (countSteps VisibleRestart list)

variable {list : List Heard}

theorem Hears.update (h : Hears list monitor) (nowMs : Int) : Hears list (monitor.update nowMs) := by
  unfold ChassisHeartbeatMonitor.update
  split
  · exact ⟨h.fresh, h.last, h.count⟩
  · exact h

theorem accept_peerRebootCount (h : Hears list monitor) {next : Heard} (hclock : (list ++ [next]).IsChain PeerClock)
    (nowMs : Int) : (monitor.accept next.heartbeat nowMs).snapshot.peerRebootCount = monitor.snapshot.peerRebootCount
        + if ∃ before ∈ list.getLast?, VisibleRestart before next then 1 else 0 := by
  show (if monitor.rebooted next.heartbeat then _ else _) = _
  cases hlast : list.getLast? with
  | none =>
    have hinvalid := (h.fresh (List.getLast?_eq_none_iff.mp hlast)).1
    have hnot : monitor.rebooted next.heartbeat = false := by
      rw [rebooted, hinvalid, Bool.false_and, Bool.false_and]
    rw [hnot, if_neg Bool.false_ne_true, if_neg (by rintro ⟨_, hmem, _⟩; cases hmem), UInt64.add_zero]
  | some before =>
    obtain ⟨hvalid, _, hheartbeat⟩ := h.last before hlast
    have hpair : PeerClock before next :=
      (List.isChain_append.mp hclock).2.2 before hlast next rfl
    have htest := rebooted_iff hvalid hheartbeat hpair
    by_cases hrestart : VisibleRestart before next
    · rw [if_pos (htest.mpr hrestart), if_pos ⟨before, rfl, hrestart⟩]
    · rw [if_neg fun hrebooted => hrestart (htest.mp hrebooted), if_neg, UInt64.add_zero]
      rintro ⟨_, hmem, hvisible⟩
      rw [Option.mem_some_iff] at hmem
      rw [← hmem] at hvisible
      exact hrestart hvisible

theorem Hears.accept (h : Hears list monitor) (next : Heard) (nowMs : Int) :
    Hears (list ++ [next]) (monitor.accept next.heartbeat nowMs) := by
  constructor
  · intro hnil
    cases list <;> cases hnil
  · intro before hmem
    rw [List.getLast?_concat, Option.mem_some_iff] at hmem
    rw [← hmem]
    exact ⟨rfl, rfl, rfl⟩
  · intro hclock
    rw [accept_peerRebootCount h hclock, h.count (List.isChain_append.mp hclock).1]
    rcases List.eq_nil_or_concat list with rfl | ⟨earlier, last, rfl⟩
    · rfl
    · rw [List.concat_eq_append, countSteps_concat, List.getLast?_concat, UInt64.ofNat_add]
      by_cases hrestart : VisibleRestart last next
      · rw [if_pos hrestart, if_pos ⟨last, rfl, hrestart⟩]
        rfl
      · rw [if_neg hrestart, if_neg]
        · rfl
        · rintro ⟨_, hmem, hvisible⟩
          rw [Option.mem_some_iff] at hmem
          rw [← hmem] at hvisible
          exact hrestart hvisible

/-- A call accepts a heartbeat, or leaves what was heard. -/
theorem step_cases (monitor : ChassisHeartbeatMonitor) (call : Call) :
    (∃ next nowMs, accepted (call, (step monitor call).2) = some next
      ∧ (step monitor call).1 = monitor.accept next.heartbeat nowMs) ∨
    (accepted (call, (step monitor call).2) = none
      ∧ ((step monitor call).1 = monitor ∨ ∃ nowMs, (step monitor call).1 = monitor.update nowMs)) := by
  cases call with
  | process frame nowMs restarted =>
    dsimp only [step]
    rcases hprocess : monitor.process frame nowMs with ⟨monitor', result⟩
    cases result with
    | true =>
      obtain ⟨heartbeat, hdecode, _, rfl⟩ := process_eq_true hprocess
      refine .inl ⟨⟨heartbeat, restarted⟩, nowMs, ?_, rfl⟩
      rw [accepted, hdecode, Option.map_some]
    | false => exact .inr ⟨rfl, .inl (process_eq_false hprocess)⟩
  | update nowMs => exact .inr ⟨rfl, .inr ⟨nowMs, rfl⟩⟩
  | getSnapshot nowMs => exact .inr ⟨rfl, .inl rfl⟩

/-- A call adds the heartbeat that it accepts. -/
theorem Hears.step (h : Hears list monitor) (call : Call) :
    Hears (list ++ (accepted (call, (step monitor call).2)).toList) (step monitor call).1 := by
  rcases step_cases monitor call with ⟨next, nowMs, hacc, heq⟩ | ⟨hnone, hkeeps⟩
  · rw [hacc, heq]
    exact h.accept next nowMs
  · rw [hnone, Option.toList_none, List.append_nil]
    rcases hkeeps with heq | ⟨nowMs, heq⟩ <;> rw [heq]
    · exact h
    · exact h.update nowMs

theorem filterMap_concat (history : List (Call × Option Bool)) (event : Call × Option Bool) :
    (history ++ [event]).filterMap accepted = history.filterMap accepted ++ (accepted event).toList := by
  rw [List.filterMap_append, List.filterMap_cons, List.filterMap_nil]
  cases accepted event <;> rfl

theorem hears_run (calls : List Call) : Hears (heard calls) (run step {} calls) := by
  have hinit : Hears (([] : List (Call × Option Bool)).filterMap accepted) {} :=
    ⟨fun _ => ⟨rfl, rfl⟩, nofun, fun _ => rfl⟩
  refine trace_invariant (I := fun history monitor => Hears (history.filterMap accepted) monitor)
    ?_ hinit calls
  intro history monitor call h
  rw [filterMap_concat]
  exact h.step call

theorem process_stale (h : Hears list monitor) {before : Heard} (hlast : before ∈ list.getLast?) {frame : CanFrame}
    {heartbeat : ChassisHeartbeat} (hdecode : ChassisCanCodec.decodeHeartbeat frame = some heartbeat)
    (hstale : heartbeat.sequence = before.heartbeat.sequence ∨ (monitor.snapshot.status ≠ .timeout ∧ 128 ≤
      (heartbeat.sequence - before.heartbeat.sequence).toNat)) (nowMs : Int) :
    monitor.process frame nowMs = (monitor, false) := by
  obtain ⟨hvalid, hseq, _⟩ := h.last before hlast
  have hout : monitor.outOfSequence heartbeat = true := by
    unfold outOfSequence
    rw [hvalid, hseq, Bool.true_and, Bool.or_eq_true, beq_iff_eq, Bool.and_eq_true, bne_iff_ne,
      decide_eq_true_eq, UInt8.le_iff_toNat_le]
    rcases hstale with hrepeat | hold
    · exact .inl (by rw [hrepeat, UInt8.sub_self])
    · exact .inr hold
  unfold process
  split
  · rfl
  · rw [hdecode]
    dsimp only
    rw [if_pos hout]

/-! ## Runs -/

/-- **Restarts are counted exactly, where the counter shows them.**  Along the peer's clock, every call
    of a run adds one to `peerRebootCount` if it accepts the heartbeat of a visible restart and nothing
    otherwise, so the count is the number of visible restarts.  A heartbeat that repeats the last
    accepted one, or is older while the peer is not timed out, leaves the monitor as it was. -/
theorem reboots_counted (calls : List Call) (call : Call) :
    let monitor := run step {} calls
    ((heard (calls ++ [call])).IsChain PeerClock →
        (step monitor call).1.snapshot.peerRebootCount
            = monitor.snapshot.peerRebootCount
              + (if ∃ next ∈ accepted (call, (step monitor call).2),
                  ∃ before ∈ (heard calls).getLast?, VisibleRestart before next then 1 else 0)
          ∧ (step monitor call).1.snapshot.peerRebootCount
            = UInt64.ofNat (countSteps VisibleRestart (heard (calls ++ [call]))))
      ∧ (∀ before ∈ (heard calls).getLast?, ∀ frame nowMs heartbeat,
        ChassisCanCodec.decodeHeartbeat frame = some heartbeat →
        heartbeat.sequence = before.heartbeat.sequence
          ∨ (monitor.snapshot.status ≠ .timeout
            ∧ 128 ≤ (heartbeat.sequence - before.heartbeat.sequence).toNat) →
        monitor.process frame nowMs = (monitor, false)) := by
  intro monitor
  have hhears : Hears (heard calls) monitor := hears_run calls
  have hheard : heard (calls ++ [call])
      = heard calls ++ (accepted (call, (step monitor call).2)).toList := by
    unfold heard
    rw [trace_append]
    exact filterMap_concat _ _
  constructor
  · intro hclock
    rw [hheard] at hclock ⊢
    refine ⟨?_, (hhears.step call).count hclock⟩
    rcases step_cases monitor call with ⟨next, nowMs, hacc, heq⟩ | ⟨hnone, hkeeps⟩
    · rw [hacc] at hclock ⊢
      rw [heq, accept_peerRebootCount hhears hclock nowMs]
      by_cases hrestart : ∃ before ∈ (heard calls).getLast?, VisibleRestart before next
      · rw [if_pos hrestart, if_pos ⟨next, rfl, hrestart⟩]
      · rw [if_neg hrestart, if_neg]
        rintro ⟨_, hmem, hvisible⟩
        rw [Option.mem_some_iff] at hmem
        rw [← hmem] at hvisible
        exact hrestart hvisible
    · rw [hnone, if_neg (by rintro ⟨_, hmem, _⟩; cases hmem), UInt64.add_zero]
      rcases hkeeps with heq | ⟨nowMs, heq⟩
      · rw [heq]
      · rw [heq, update_peerRebootCount]
  · intro before hlast frame nowMs heartbeat hdecode hstale
    exact process_stale hhears hlast hdecode hstale nowMs

/-- A peer whose uptime wraps, and then stands at 16 ms. -/
def wrappingPeer : List Call :=
  [.process (heartbeatReport 40 0xFFFFFFF0) 2000 false, .process (heartbeatReport 41 0x10) 2100 false]

theorem reboots_counted_wrapping_peer :
    let monitor := run step {} wrappingPeer
    (step monitor (.process (heartbeatReport 42 3) 2200 true)).1.snapshot.peerRebootCount = 1
      ∧ monitor.process (heartbeatReport 41 0x20) 2200 = (monitor, false) := by
  obtain ⟨hcount, hstale⟩ :=
    reboots_counted wrappingPeer (.process (heartbeatReport 42 3) 2200 true)
  constructor
  · rw [(hcount (by decide +kernel)).2]
    decide +kernel
  · exact hstale ⟨{ nodeState := 1, sequence := 41, uptimeMs := 0x10 }, false⟩ (by decide +kernel) _ 2200
      { nodeState := 1, sequence := 41, uptimeMs := 0x20 } (by decide +kernel) (.inl rfl)

/-- A restart that is taken for a wrap. -/
theorem reboot_missed :
    let calls : List Call := [.process (heartbeatReport 1 0x80000001) 100 false,
      .process (heartbeatReport 2 0) 200 true]
    (heard calls).IsChain PeerClock
      ∧ (heard calls).map (·.restarted) = [false, true]
      ∧ (run step {} calls).snapshot.peerRebootCount = 0 := by
  decide +kernel

end ChassisHeartbeatMonitor

end Cockpit.Vehicle
