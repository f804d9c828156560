/-
  What `Disarm` keeps apart: an event whose `Submit` began before it triggers nothing in the next armed period,
  along the runs in which no period begins over such an event. That the triggers of one period are a cooldown
  apart holds along all runs.
-/
import Cockpit.Lib.ListUpdate
import Cockpit.Vanguard.Sentinel

namespace Cockpit.Sentinel

open StepRun ListUpdate List

/-- Two triggers, one after the other. -/
def Trigger.Apart (cooldownMs : Int) (t t' : Trigger) : Prop :=
  t.sequence < t'.sequence ∧ (t.period = t'.period → t.steadyMs + cooldownMs ≤ t'.steadyMs)

/-- The call has not returned. -/
def SubmitCall.inProgress (call : SubmitCall) : Bool :=
  match call.phase with
  | .returned _ => false
  | _ => true

namespace SentinelService

/-- The `Submit` of the event began before the last `Disarm`. -/
def isOld (s : SentinelService) (pending : Pending) : Bool := pending.mark < s.disarms

/-- An old event is on its way. -/
def carriesOld (s : SentinelService) : Bool :=
  s.submits.any (fun call => call.inProgress && s.isOld call.pending)
    || s.events.queue.any s.isOld || s.worker.pending.any s.isOld

/-- An armed period begins over an old event. -/
def rearmsOverOld (s : SentinelService) (event : Event) : Bool :=
  match event.action with
  | .arm => s.rearms && s.carriesOld
  | _ => false

/-- The event on whose behalf a step is taken. -/
def owner (s : SentinelService) : Action → Option Pending
  | .submitProceed i => (s.submits[i]?.filter (·.inProgress)).map (·.pending)
  | .worker _ _ _ => s.worker.pending
  | _ => none

/-- In an armed period, a step on behalf of an old event changes no status and no cooldown, and starts
    no action. -/
def Barrier (s : SentinelService) (event : Event) : Prop :=
  ∀ pending, s.owner event.action = some pending → s.isOld pending →
    s.status.state ≠ .disabled →
    (s.step event).1.status = s.status ∧
      (s.step event).1.cooldownUntilSteadyMs = s.cooldownUntilSteadyMs ∧ (s.step event).2 = none

/-! ## Old events -/

/-- In an armed period no event on its way is old. -/
structure Clean (s : SentinelService) : Prop where
  submits : ∀ call ∈ s.submits, call.inProgress → s.disarms ≤ call.pending.mark
  queue : ∀ pending ∈ s.events.queue, s.disarms ≤ pending.mark
  worker : ∀ pending, s.worker.pending = some pending → s.disarms ≤ pending.mark

theorem clean_of_carriesOld {s : SentinelService} (h : s.carriesOld = false) : s.Clean := by
  simp only [carriesOld, isOld, Bool.or_eq_false_iff, any_eq_false, Bool.and_eq_true,
    decide_eq_true_eq, not_and, Nat.not_lt] at h
  refine ⟨h.1.1, h.1.2, fun pending hpending => ?_⟩
  have hworker := h.2
  rw [hpending, Option.any_some] at hworker
  exact Nat.not_lt.1 (of_decide_eq_false hworker)

theorem Clean.barrier {s : SentinelService} (h : s.status.state ≠ .disabled → s.Clean)
    (event : Event) : s.Barrier event := by
  intro pending howner hold harmed
  have hclean := h harmed
  have hfresh : s.disarms ≤ pending.mark := by
    cases haction : event.action with
    | submitProceed i =>
      rw [haction] at howner
      obtain ⟨call, hcall, rfl⟩ := Option.map_eq_some_iff.1 howner
      obtain ⟨hcall, hprogress⟩ := Option.filter_eq_some_iff.1 hcall
      exact hclean.submits call (mem_of_getElem? hcall) hprogress
    | worker ok path error =>
      rw [haction] at howner
      exact hclean.worker pending howner
    | _ => rw [haction] at howner; cases howner
  have hold := of_decide_eq_true hold
  omega

theorem Clean.submitProceed {s : SentinelService} (h : s.Clean) {i : Nat} {call : SubmitCall}
    (hcall : s.submits[i]? = some call) : (s.submitProceed i call).Clean := by
  have hmem := mem_of_getElem? hcall
  -- a call at work stays as old as it is
  have hphase : ∀ phase, call.inProgress → (s.setPhase i phase).Clean := by
    intro phase hprogress
    refine ⟨fun other hother hother' => ?_, h.queue, h.worker⟩
    obtain hother | ⟨a, ha, rfl⟩ := mem_modify hother
    · exact h.submits other hother hother'
    · obtain rfl : call = a := Option.some.inj (hcall.symm.trans ha)
      exact h.submits call hmem hprogress
  unfold SentinelService.submitProceed
  split
  case h_1 hcalled =>
    have hprogress : call.inProgress := by rw [SubmitCall.inProgress, hcalled]
    split <;> exact hphase _ hprogress
  case h_2 hchecked =>
    have hprogress : call.inProgress := by rw [SubmitCall.inProgress, hchecked]
    have hqueue : ∀ pending ∈ (s.events.push call.pending).1.queue, s.disarms ≤ pending.mark := by
      intro pending hpending
      rcases Event.EventQueue.mem_push hpending with hold | rfl
      · exact h.queue pending hold
      · exact h.submits call hmem hprogress
    dsimp only
    split <;> exact ⟨(hphase _ hprogress).submits, hqueue, h.worker⟩
  case h_3 result hrefused =>
    have hprogress : call.inProgress := by rw [SubmitCall.inProgress, hrefused]
    have hclean := hphase (.returned false) hprogress
    exact ⟨hclean.submits, hclean.queue, hclean.worker⟩
  case h_4 => exact h

/-- What a step of the worker does to the events on their way: it takes the first of the queue, or hands
    on what it has. -/
structure HandsOn (s s' : SentinelService) : Prop where
  submits : s'.submits = s.submits
  disarms : s'.disarms = s.disarms
  queue : ∀ pending ∈ s'.events.queue, pending ∈ s.events.queue
  worker : ∀ pending, s'.worker.pending = some pending →
    s.worker.pending = some pending ∨ pending ∈ s.events.queue
  enabled : s'.status.state ≠ .disabled → s.status.state ≠ .disabled

/-- The cooldown ends, or nothing happens. -/
theorem updateCooldownLocked_cases (s : SentinelService) (steadyNowMs : Int) :
    s.updateCooldownLocked steadyNowMs = s ∨
      (s.status.state = .cooldown ∧ s.cooldownUntilSteadyMs ≤ steadyNowMs ∧
        s.updateCooldownLocked steadyNowMs =
          { s with
            status := { s.status with state := .armed, cooldownUntilMs := 0 }
            cooldownUntilSteadyMs := 0 }) := by
  unfold updateCooldownLocked
  split
  case isTrue hdue =>
    simp only [Bool.and_eq_true, decide_eq_true_eq] at hdue
    exact .inr ⟨hdue.1, hdue.2, rfl⟩
  case isFalse => exact .inl rfl

theorem enabled_of_updateCooldownLocked {s : SentinelService} {steadyNowMs : Int}
    (h : (s.updateCooldownLocked steadyNowMs).status.state ≠ .disabled) : s.status.state ≠ .disabled := by
  rcases s.updateCooldownLocked_cases steadyNowMs with hsame | ⟨hcooldown, -, -⟩
  · rwa [hsame] at h
  · rw [hcooldown]
    decide

theorem handsOn_updateCooldownLocked (s : SentinelService) (steadyNowMs : Int) :
    HandsOn s (s.updateCooldownLocked steadyNowMs) := by
  refine ⟨?_, ?_, ?_, ?_, enabled_of_updateCooldownLocked⟩ <;>
    rcases s.updateCooldownLocked_cases steadyNowMs with hsame | ⟨-, -, hsame⟩ <;>
    rw [hsame]
  · exact fun _ h => h
  · exact fun _ h => h
  · exact fun _ h => .inl h
  · exact fun _ h => .inl h

theorem HandsOn.trans {s s' s'' : SentinelService} (h : HandsOn s s') (h' : HandsOn s' s'') : HandsOn s s'' where
  submits := h'.submits.trans h.submits
  disarms := h'.disarms.trans h.disarms
  queue pending hpending := h.queue pending (h'.queue pending hpending)
  worker pending hpending := by
    rcases h'.worker pending hpending with hworker | hqueue
    · exact h.worker pending hworker
    · exact .inr (h.queue pending hqueue)
  enabled henabled := h.enabled (h'.enabled henabled)

theorem HandsOn.of_worker {s : SentinelService} {worker : Worker} {status : SentinelStatus}
    {cooldownUntilSteadyMs : Int} {triggers : List Trigger}
    (hworker : ∀ pending, worker.pending = some pending → s.worker.pending = some pending)
    (henabled : status.state ≠ .disabled → s.status.state ≠ .disabled) :
    HandsOn s { s with
      worker := worker, status := status, cooldownUntilSteadyMs := cooldownUntilSteadyMs
      triggers := triggers } where
  submits := rfl
  disarms := rfl
  queue _ h := h
  worker pending h := .inl (hworker pending h)
  enabled := henabled

theorem handsOn_decide {s : SentinelService} {pending : Pending}
    (h : s.worker.pending = some pending) (steadyNowMs wallNowMs : Int) :
    HandsOn s (s.decide_ pending steadyNowMs wallNowMs) := by
  unfold decide_
  dsimp only
  split
  case isTrue =>
    refine .of_worker (fun _ hnone => by cases hnone) fun henabled => ?_
    split at henabled <;> exact henabled
  case isFalse hacts =>
    refine .of_worker (fun other hother => h.trans hother) fun _ => ?_
    simp only [Bool.or_eq_true, not_or, decide_eq_true_eq, Decidable.not_not] at hacts
    rw [hacts.2]
    decide

theorem handsOn_finish (s : SentinelService) (ok : Bool) (path error : String) (steadyNowMs wallNowMs : Int) :
    HandsOn s (s.finish ok path error steadyNowMs wallNowMs) := by
  unfold finish
  split
  case isTrue => exact .of_worker (fun _ hnone => by cases hnone) id
  case isFalse hacts =>
    refine .of_worker (fun _ hnone => by cases hnone) fun _ => ?_
    simp only [Bool.or_eq_true, not_or, decide_eq_true_eq] at hacts
    exact hacts.2

theorem handsOn_workerProceed (s : SentinelService) (ok : Bool) (path error : String)
    (steadyMs wallMs : Int) : HandsOn s (s.workerProceed ok path error steadyMs wallMs).1 := by
  unfold workerProceed
  split
  case h_1 hworker =>
    refine .of_worker (fun _ hnone => ?_) id
    split at hnone <;> cases hnone
  case h_2 hworker =>
    refine ⟨rfl, rfl, fun _ h => mem_of_mem_tail h, fun pending h => .inr ?_, id⟩
    exact mem_of_head? h
  case h_3 pending hworker =>
    split
    case isTrue => exact .of_worker (fun _ hnone => by cases hnone) id
    case isFalse =>
      have hupdate := s.handsOn_updateCooldownLocked steadyMs
      dsimp only
      split
      case h_1 => exact hupdate.trans (.of_worker (fun _ hnone => by cases hnone) id)
      case h_2 pending =>
        have hpending : (s.updateCooldownLocked steadyMs).worker.pending = some pending := by
          rcases s.updateCooldownLocked_cases steadyMs with hsame | ⟨-, -, hsame⟩ <;>
            rw [hsame, hworker] <;> rfl
        exact hupdate.trans (handsOn_decide hpending steadyMs wallMs)
  case h_4 pending hworker =>
    refine .of_worker (fun other hother => ?_) id
    rw [hworker]
    cases ok <;> exact hother
  case h_5 pending hworker =>
    refine .of_worker (fun other hother => ?_) id
    rw [hworker]
    cases ok <;> exact hother
  case h_6 pending path hworker =>
    refine .of_worker (fun other hother => ?_) id
    rw [hworker]
    exact hother
  case h_7 => exact s.handsOn_finish ..
  case h_8 hworker => exact .of_worker (fun _ h => h) id

theorem Clean.handsOn {s s' : SentinelService} (h : s.Clean) (h' : HandsOn s s') : s'.Clean where
  submits := by
    rw [h'.submits, h'.disarms]
    exact h.submits
  queue pending hpending := by
    rw [h'.disarms]
    exact h.queue pending (h'.queue pending hpending)
  worker pending hpending := by
    rw [h'.disarms]
    rcases h'.worker pending hpending with hworker | hqueue
    · exact h.worker pending hworker
    · exact h.queue pending hqueue

theorem Clean.of_same {s s' : SentinelService} (h : s.Clean) (hsubmits : s'.submits = s.submits)
    (hqueue : s'.events.queue = s.events.queue ∨ s'.events.queue = [])
    (hworker : s'.worker = s.worker) (hdisarms : s'.disarms = s.disarms) : s'.Clean where
  submits := by
    rw [hsubmits, hdisarms]
    exact h.submits
  queue pending hpending := by
    rw [hdisarms]
    rcases hqueue with hsame | hnil
    · exact h.queue pending (hsame ▸ hpending)
    · rw [hnil] at hpending
      cases hpending
  worker := by
    rw [hworker, hdisarms]
    exact h.worker

theorem state_submitProceed (s : SentinelService) (i : Nat) (call : SubmitCall) :
    (s.submitProceed i call).status.state = s.status.state := by
  unfold submitProceed
  split
  case h_1 => split <;> rfl
  case h_2 =>
    dsimp only
    split <;> rfl
  case h_3 => rfl
  case h_4 => rfl

/-- **The step lemma.**  While the service is armed, nothing old is on its way. -/
theorem clean_step {s : SentinelService} (h : s.status.state ≠ .disabled → s.Clean) (event : Event)
    (hrearms : s.rearmsOverOld event = false) :
    (s.step event).1.status.state ≠ .disabled → (s.step event).1.Clean := by
  obtain ⟨action, steadyMs, wallMs⟩ := event
  cases action with
  | submit submitted =>
    intro henabled
    have hclean := h henabled
    refine ⟨fun call hcall hprogress => ?_, hclean.queue, hclean.worker⟩
    rcases mem_snoc.1 hcall with hcall | rfl
    · exact hclean.submits call hcall hprogress
    · exact Nat.le_refl s.disarms
  | submitProceed i =>
    simp only [step]
    split
    case h_1 call hcall =>
      intro henabled
      rw [state_submitProceed] at henabled
      exact (h henabled).submitProceed hcall
    case h_2 => exact h
  | arm =>
    simp only [step, arm]
    split
    case isTrue hbegins =>
      intro _
      have hold : s.carriesOld = false := by simpa [rearmsOverOld, hbegins] using hrearms
      exact (clean_of_carriesOld hold).of_same rfl (.inl rfl) rfl rfl
    case isFalse => exact h
  | disarm =>
    simp only [step, disarm]
    split
    case isTrue => exact h
    case isFalse => exact fun henabled => absurd rfl henabled
  | disarmProceed i =>
    simp only [step, disarmProceed]
    split
    case h_1 => exact fun henabled => (h henabled).of_same rfl (.inr rfl) rfl rfl
    case h_2 => exact fun henabled => (h henabled).of_same rfl (.inl rfl) rfl rfl
    case h_3 => exact h
  | stop =>
    simp only [step, stopProceed]
    split
    case h_1 =>
      split
      · exact fun henabled => (h henabled).of_same rfl (.inl rfl) rfl rfl
      · exact h
    case h_2 => exact fun henabled => (h henabled).of_same rfl (.inl rfl) rfl rfl
    case h_3 => exact fun henabled => (h henabled).of_same rfl (.inr rfl) rfl rfl
    case h_4 => exact fun henabled => (h henabled).of_same rfl (.inl rfl) rfl rfl
    case h_5 =>
      split
      · exact fun henabled => (h henabled).of_same rfl (.inl rfl) rfl rfl
      · exact h
    case h_6 => exact fun henabled => absurd rfl henabled
  | worker ok path error =>
    intro henabled
    have hhands := s.handsOn_workerProceed ok path error steadyMs wallMs
    exact (h (hhands.enabled henabled)).handsOn hhands

/-! ## Triggers -/

/-- The triggers so far, and what the state knows of them at the time `now`. -/
structure Spaced (policy : SentinelPolicy) (now : Int) (s : SentinelService) : Prop where
  samePolicy : s.policy = policy
  apart : s.triggers.Pairwise (Trigger.Apart policy.cooldownMs)
  seen : ∀ t ∈ s.triggers, t.sequence ≤ s.status.lastEventSequence ∧ t.period ≤ s.periods ∧
    t.steadyMs ≤ now
  armed : s.status.state = .armed →
    ∀ t ∈ s.triggers, t.period = s.periods → t.steadyMs + policy.cooldownMs ≤ now
  cooling : s.status.state = .cooldown →
    ∀ t ∈ s.triggers, t.period = s.periods →
      t.steadyMs + policy.cooldownMs ≤ s.cooldownUntilSteadyMs

theorem Spaced.start (policy : SentinelPolicy) (armed : Bool) (now : Int) :
    Spaced policy now (start policy armed) where
  samePolicy := rfl
  apart := .nil
  seen t ht := by cases ht
  armed _ t ht := by cases ht
  cooling _ t ht := by cases ht

variable {policy : SentinelPolicy} {now now' : Int} {s s' : SentinelService}

section

variable (h : Spaced policy now s)
include h

theorem Spaced.later (hnow : now ≤ now') : Spaced policy now' s where
  samePolicy := h.samePolicy
  apart := h.apart
  seen t ht := by
    obtain ⟨hseq, hperiod, hpast⟩ := h.seen t ht
    exact ⟨hseq, hperiod, Int.le_trans hpast hnow⟩
  armed harmed t ht hperiod := Int.le_trans (h.armed harmed t ht hperiod) hnow
  cooling := h.cooling

theorem Spaced.of_same (hpolicy : s'.policy = s.policy)
    (htriggers : s'.triggers = s.triggers) (hperiods : s'.periods = s.periods)
    (hseq : s'.status.lastEventSequence = s.status.lastEventSequence)
    (hstate : s'.status.state = .disabled ∨ (s'.status.state = s.status.state ∧
      s'.cooldownUntilSteadyMs = s.cooldownUntilSteadyMs)) : Spaced policy now s' where
  samePolicy := hpolicy.trans h.samePolicy
  apart := htriggers ▸ h.apart
  seen := by
    rw [htriggers, hperiods, hseq]
    exact h.seen
  armed := by
    rw [htriggers, hperiods]
    intro harmed
    rcases hstate with hdisabled | ⟨hsame, -⟩
    · exact absurd (hdisabled.symm.trans harmed) (by decide)
    · exact h.armed (hsame.symm.trans harmed)
  cooling := by
    rw [htriggers, hperiods]
    intro hcooling
    rcases hstate with hdisabled | ⟨hsame, hcooldown⟩
    · exact absurd (hdisabled.symm.trans hcooling) (by decide)
    · rw [hcooldown]
      exact h.cooling (hsame.symm.trans hcooling)

theorem Spaced.arm : Spaced policy now s.arm := by
  unfold SentinelService.arm
  split
  case isFalse => exact h
  case isTrue =>
    refine ⟨h.samePolicy, h.apart, fun t ht => ?_, fun _ t ht hperiod => ?_, fun hcooling => ?_⟩
    · obtain ⟨hseq, hperiod, hpast⟩ := h.seen t ht
      exact ⟨hseq, Nat.le_succ_of_le hperiod, hpast⟩
    · have hle := (h.seen t ht).2.1
      have hperiod : t.period = s.periods + 1 := hperiod
      omega
    · cases hcooling

theorem Spaced.updateCooldownLocked : Spaced policy now (s.updateCooldownLocked now) := by
  rcases s.updateCooldownLocked_cases now with hsame | ⟨hcooldown, hdue, hsame⟩ <;> rw [hsame]
  · exact h
  · refine ⟨h.samePolicy, h.apart, h.seen, fun _ t ht hperiod => ?_, ?_⟩
    · exact Int.le_trans (h.cooling hcooldown t ht hperiod) hdue
    · intro hcooling
      cases hcooling

theorem Spaced.decide_ (pending : Pending) (wallNowMs : Int) :
    Spaced policy now (s.decide_ pending now wallNowMs) := by
  unfold SentinelService.decide_
  dsimp only
  split
  case isTrue =>
    by_cases hduplicate : pending.event.sequence ≤ s.status.lastEventSequence
    · rw [if_pos hduplicate]
      exact h.of_same rfl rfl rfl rfl (.inr ⟨rfl, rfl⟩)
    · rw [if_neg hduplicate]
      refine ⟨h.samePolicy, h.apart, fun t ht => ?_, h.armed, h.cooling⟩
      obtain ⟨hseq, hrest⟩ := h.seen t ht
      exact ⟨by show t.sequence ≤ pending.event.sequence; omega, hrest⟩
  case isFalse hacts =>
    simp only [Bool.or_eq_true, not_or, decide_eq_true_eq, Decidable.not_not] at hacts
    obtain ⟨⟨hnew, -⟩, harmed⟩ := hacts
    rw [if_neg hnew]
    refine ⟨h.samePolicy, ?_, fun t ht => ?_, ?_, ?_⟩
    · rw [pairwise_append]
      refine ⟨h.apart, pairwise_singleton .., fun t ht t' ht' => ?_⟩
      obtain rfl := mem_singleton.1 ht'
      have hseq := (h.seen t ht).1
      refine ⟨by show t.sequence < pending.event.sequence; omega, fun hperiod => ?_⟩
      exact h.armed harmed t ht hperiod
    · rcases mem_snoc.1 ht with ht | rfl
      · obtain ⟨hseq, hrest⟩ := h.seen t ht
        exact ⟨by show t.sequence ≤ pending.event.sequence; omega, hrest⟩
      · exact ⟨Nat.le_refl pending.event.sequence, Nat.le_refl s.periods, Int.le_refl now⟩
    · intro hstate
      cases hstate
    · intro hstate
      cases hstate

theorem Spaced.finish (ok : Bool) (path error : String) (wallNowMs : Int) :
    Spaced policy now (s.finish ok path error now wallNowMs) := by
  unfold SentinelService.finish
  split
  case isTrue => exact h.of_same rfl rfl rfl rfl (.inr ⟨rfl, rfl⟩)
  case isFalse =>
    refine ⟨h.samePolicy, h.apart, fun t ht => ?_, ?_, fun _ t ht _ => ?_⟩
    · cases ok <;> exact h.seen t ht
    · intro hstate
      cases hstate
    · have hpast := (h.seen t ht).2.2
      show t.steadyMs + policy.cooldownMs ≤ now + s.policy.cooldownMs
      rw [h.samePolicy]
      omega

theorem Spaced.workerProceed (ok : Bool) (path error : String)
    (wallMs : Int) : Spaced policy now (s.workerProceed ok path error now wallMs).1 := by
  unfold SentinelService.workerProceed
  split
  case h_3 pending _ =>
    split
    case isTrue => exact h.of_same rfl rfl rfl rfl (.inr ⟨rfl, rfl⟩)
    case isFalse =>
      have hupdate := h.updateCooldownLocked
      dsimp only
      split
      case h_1 => exact hupdate.of_same rfl rfl rfl rfl (.inr ⟨rfl, rfl⟩)
      case h_2 => exact hupdate.decide_ _ wallMs
  case h_7 => exact h.finish ..
  all_goals exact h.of_same rfl rfl rfl rfl (.inr ⟨rfl, rfl⟩)

theorem Spaced.submitProceed (i : Nat) (call : SubmitCall) : Spaced policy now (s.submitProceed i call) := by
  unfold SentinelService.submitProceed
  split
  case h_1 => split <;> exact h.of_same rfl rfl rfl rfl (.inr ⟨rfl, rfl⟩)
  case h_2 =>
    dsimp only
    split <;> exact h.of_same rfl rfl rfl rfl (.inr ⟨rfl, rfl⟩)
  case h_3 => exact h.of_same rfl rfl rfl rfl (.inr ⟨rfl, rfl⟩)
  case h_4 => exact h

/-- **The step lemma** for triggers. -/
theorem Spaced.step (event : Event) (hnow : now ≤ event.steadyMs) :
    Spaced policy event.steadyMs (s.step event).1 := by
  have h := h.later hnow
  obtain ⟨action, steadyMs, wallMs⟩ := event
  cases action with
  | submit submitted => exact h.of_same rfl rfl rfl rfl (.inr ⟨rfl, rfl⟩)
  | submitProceed i =>
    simp only [SentinelService.step]
    split
    case h_1 call _ => exact h.submitProceed i call
    case h_2 => exact h
  | arm => exact h.arm
  | disarm =>
    simp only [SentinelService.step, disarm]
    split
    · exact h
    · exact h.of_same rfl rfl rfl rfl (.inl rfl)
  | disarmProceed i =>
    simp only [SentinelService.step, disarmProceed]
    split
    case h_3 => exact h
    all_goals exact h.of_same rfl rfl rfl rfl (.inr ⟨rfl, rfl⟩)
  | stop =>
    simp only [SentinelService.step, stopProceed]
    split
    case h_1 =>
      split
      · exact h.of_same rfl rfl rfl rfl (.inr ⟨rfl, rfl⟩)
      · exact h
    case h_5 =>
      split
      · exact h.of_same rfl rfl rfl rfl (.inr ⟨rfl, rfl⟩)
      · exact h
    case h_6 => exact h.of_same rfl rfl rfl rfl (.inl rfl)
    all_goals exact h.of_same rfl rfl rfl rfl (.inr ⟨rfl, rfl⟩)
  | worker ok path error => exact h.workerProceed ok path error wallMs

end

/-! ## The law -/

/-- The triggers of one period are a cooldown apart, along every run. -/
theorem spaced_run (policy : SentinelPolicy) (armed : Bool) (events : List Event)
    (hclock : (events.map (·.steadyMs)).Pairwise (· ≤ ·)) :
    ∃ last, Spaced policy last (run step (start policy armed) events) := by
  cases events with
  | nil => exact ⟨0, Spaced.start policy armed 0⟩
  | cons event events =>
    have hfirst : (event.steadyMs :: (event :: events).map (·.steadyMs)).Pairwise (· ≤ ·) := by
      refine pairwise_cons.2 ⟨fun time htime => ?_, hclock⟩
      rcases mem_cons.1 htime with rfl | htime
      · exact Int.le_refl _
      · exact (pairwise_cons.1 hclock).1 time htime
    obtain ⟨last, -, hlast⟩ := Along.clocked_invariant (P := fun _ _ => True)
      (I := fun now s => Spaced policy now s) (·.steadyMs) (fun _ _ event h hnow _ => h.step event hnow)
      (Spaced.start policy armed event.steadyMs) hfirst (along_of_forall (fun _ _ _ => trivial) _)
    exact ⟨last, hlast⟩

/-- **`Disarm` is a barrier** along every run in which no armed period begins over an event from
    before; and in every run the triggers come with rising sequences, those of one armed period at
    least a cooldown apart. -/
theorem disarm_barrier (policy : SentinelPolicy) (armed : Bool) (events : List Event)
    (hclock : (events.map (·.steadyMs)).Pairwise (· ≤ ·)) :
    (Along step (fun s event => s.rearmsOverOld event = false) (start policy armed) events →
      Along step Barrier (start policy armed) events) ∧
    (run step (start policy armed) events).triggers.Pairwise (Trigger.Apart policy.cooldownMs) := by
  constructor
  · intro hrearms
    have hstart : (start policy armed).status.state ≠ .disabled → (start policy armed).Clean := by
      intro _
      refine ⟨fun call hcall => ?_, fun pending hpending => ?_, fun pending hpending => ?_⟩
      · cases hcall
      · cases hpending
      · cases hpending
    exact Along.of_invariant (I := fun s => s.status.state ≠ .disabled → s.Clean)
      (fun _ event h hevent => clean_step h event hevent) (fun _ event h _ => Clean.barrier h event)
      hstart hrearms
  · obtain ⟨last, hlast⟩ := spaced_run policy armed events hclock
    exact hlast.apart

def motion (sequence : Nat) : ChassisEvent := { sequence := sequence, timestampMs := 1000 }

/-- An event at a reading of the steady clock. -/
def at_ (steadyMs : Int) (action : Action) : Event :=
  { action := action, steadyMs := steadyMs, wallMs := 1000 }

def workerAt (steadyMs : Int) : Event := at_ steadyMs (.worker true "photo" "")

/-- A trigger runs to its end; then the service is disarmed, armed again, and a second trigger
    starts. -/
def quietEvents : List Event :=
  [at_ 0 (.submit (motion 1)), at_ 0 (.submitProceed 0), at_ 0 (.submitProceed 0), workerAt 1,
   workerAt 1, workerAt 2, workerAt 3, workerAt 4, workerAt 5, workerAt 6, at_ 7 .disarm,
   at_ 7 (.disarmProceed 0), at_ 7 (.disarmProceed 0), at_ 8 .arm, at_ 9 (.submit (motion 2)),
   at_ 9 (.submitProceed 1), at_ 9 (.submitProceed 1), workerAt 9, workerAt 9, workerAt 10,
   workerAt 11]

theorem disarm_barrier_quiet :
    Along step Barrier (start {} true) quietEvents ∧
      (run step (start {} true) quietEvents).triggers.Pairwise (Trigger.Apart 30000) :=
  ⟨(disarm_barrier {} true quietEvents (by decide)).1 (by decide),
    (disarm_barrier {} true quietEvents (by decide)).2⟩

/-- The actions of a trigger are running when the service is disarmed and armed again. -/
def rearmEvents : List Event :=
  [at_ 0 (.submit (motion 1)), at_ 0 (.submitProceed 0), at_ 0 (.submitProceed 0), workerAt 1,
   workerAt 1, workerAt 2, workerAt 3, at_ 7 .disarm, at_ 7 (.disarmProceed 0),
   at_ 7 (.disarmProceed 0), at_ 8 .arm]

/-- **The trigger from before goes on in the new period**: its snapshot is taken there, and its end
    puts the new period into the cooldown. -/
theorem disarm_no_barrier :
    ¬ Along step Barrier (start {} true) (rearmEvents ++ [workerAt 9]) ∧
      (run step (start {} true) (rearmEvents ++ [workerAt 9, workerAt 10, workerAt 11])).status.state
        = .cooldown ∧
      (run step (start {} true) (rearmEvents ++ [workerAt 9, workerAt 10, workerAt 11])).status.acceptedEvents
        = 1 := by
  refine ⟨fun halong => ?_, by decide, by decide⟩
  have hbarrier : Barrier (run step (start {} true) rearmEvents) (workerAt 9) :=
    ((along_append ..).1 halong).2.1
  have hcall := (hbarrier { event := motion 1, mark := 0 } rfl (by decide) (by decide)).2.2
  cases hcall

end SentinelService

end Cockpit.Sentinel
