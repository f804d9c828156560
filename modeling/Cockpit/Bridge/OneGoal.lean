/-
  At most one live goal, along the runs in which no block overwrites the state where it is the only guard left.
-/
import Cockpit.Bridge.Nav2Guard

namespace Cockpit.Bridge

open StepRun

/-! ## The law -/

/-- The two blocks that overwrite the state without a look at the guard: an acknowledgement that timed out, and
    a server that is unavailable. -/
def Ros2Nav2Provider.overwritesGuard (p : Ros2Nav2Provider) : Caller → CallerEvent → Bool
  | .submitServer _, .server false | .submitTimedOut _ _, .proceed =>
    p.status.state.isActive && !(p.pendingAck || p.pendingCancel)
  | _, _ => false

namespace System

/-- Every goal requested so far. -/
def goals (s : System) : List Goal := s.provider.client.goals

/-- What the law says of one step. -/
structure OneLiveGoal (s : System) (event : Event) : Prop where
  /-- Two live goals are the same goal. -/
  single : ∀ (i j : Nat) (g h : Goal), (s.step event).1.goals[i]? = some g → (s.step event).1.goals[j]? = some h →
    g.Live → h.Live → i = j
  /-- A goal is sent while no earlier goal is live. -/
  sends : s.goals.length < (s.step event).1.goals.length → ∀ g ∈ s.goals, ¬ g.Live
  /-- A goal is accepted while no earlier goal is live. -/
  accepts : (s.step event).1.provider.generation ≠ s.provider.generation → ∀ g ∈ s.goals, ¬ g.Live
  /-- The report that the provider is idle is made while no goal is live. -/
  idle : ∀ status, (s.step event).2 = some status → status.state = .idle →
    ∀ g ∈ (s.step event).1.goals, ¬ g.Live
  /-- A goal whose acknowledgement timed out is guarded until its result or its rejection. -/
  guard : ∀ g ∈ (s.step event).1.goals, g.acknowledgementTimedOut = true → ¬ g.Settled →
    (s.step event).1.provider.refusesGoals = true

/-- The step overwrites the only guard. -/
def overwritesGuard (s : System) : Event → Bool
  | .caller event => s.provider.overwritesGuard s.caller event
  | _ => false

end System

/-! ## The invariant -/

/-- What the caller's place says about the guard. -/
def CallerInv (p : Ros2Nav2Provider) : Caller → Prop
  | .submitPending _ generation => Reserved p generation false
  | .submitSend _ generation => Reserved p generation true
  | .submitFuture generation i | .submitWait generation i | .submitTimedOut generation i
  | .submitReady generation i =>
    Guarding p ∧ p.generation = generation ∧ i + 1 = p.client.goals.length
  | _ => Guarding p

/-- Goals are numbered by generation, and the caller and the executor keep the guard. -/
structure System.Inv (s : System) : Prop where
  numbered : Numbered s.goals
  caller : CallerInv s.provider s.caller
  executor : ∀ i, s.executor = some i → Running s.goals i

/-! ## The steps -/

variable {p : Ros2Nav2Provider} {caller : Caller}

theorem CallerInv.mono {p' : Ros2Nav2Provider} (hguarding : Guarding p → Guarding p')
    (hreserved : ∀ generation ack, Reserved p generation ack → Reserved p' generation ack)
    (hgen : p'.generation = p.generation) (hlen : p'.client.goals.length = p.client.goals.length)
    (h : CallerInv p caller) : CallerInv p' caller := by
  cases caller
  case submitPending => exact hreserved _ _ h
  case submitSend => exact hreserved _ _ h
  case submitFuture | submitWait | submitTimedOut | submitReady =>
    exact ⟨hguarding h.1, hgen.trans h.2.1, h.2.2.trans hlen.symm⟩
  all_goals exact hguarding h

/-! ### The server -/

theorem serverStep_eq (client : ActionClient) (event : ServerEvent) :
    ∃ i source target, (source = .undecided ∨ source = .accepted) ∧
      serverStep client event = client.updateGoal i (·.moves source target) := by
  cases event with
  | accept i | reject i => exact ⟨i, _, _, .inl rfl, rfl⟩
  | finish i code => exact ⟨i, _, _, .inr rfl, rfl⟩

namespace System.Inv

variable {s : System}

theorem server (h : s.Inv) (event : ServerEvent) : (s.step (.server event)).1.Inv := by
  obtain ⟨i, source, target, hsource, heq⟩ := serverStep_eq s.provider.client event
  have hstep : (s.step (.server event)).1 = { s with provider := { s.provider with
      client := s.provider.client.updateGoal i (·.moves source target) } } := by
    rw [← heq]
    rfl
  rw [hstep]
  have hdone (g : Goal) (hserver : g.server = .rejected ∨ ∃ code, g.server = .finished code) :
      g.moves source target = g := by
    refine Goal.moves_of_ne fun hmoves => ?_
    rcases hserver with hrejected | ⟨code, hfinished⟩ <;> rcases hsource with rfl | rfl
    · exact nomatch hrejected.symm.trans hmoves
    · exact nomatch hrejected.symm.trans hmoves
    · exact nomatch hfinished.symm.trans hmoves
    · exact nomatch hfinished.symm.trans hmoves
  have hsettled (g : Goal) (hg : s.provider.client.goals[i]? = some g) (hsettled : g.Settled) :
      (g.moves source target).Settled := by
    have hserver : g.server = .rejected ∨ ∃ code, g.server = .finished code := by
      rcases hsettled with hresulted | ⟨hrejected, -⟩
      · exact .inr (h.numbered.finished i g hg hresulted)
      · exact .inl hrejected
    rw [hdone g hserver]
    exact hsettled
  constructor
  · refine h.numbered.update (fun g => g.generation_moves ..) fun g _ hfinished hresulted => ?_
    rw [Goal.client_moves] at hresulted
    rw [hdone g (.inr (hfinished hresulted))]
    exact hfinished hresulted
  · refine h.caller.mono (fun hguarding => ?_) (fun _ _ hreserved => hreserved.update hsettled) rfl
      (ActionClient.length_updateGoal ..)
    refine hguarding.update hsettled fun _ _ g _ hphase => ?_
    rw [Goal.client_moves]
    exact hphase
  · exact fun r hr => (h.executor r hr).update fun g => g.client_moves ..

end System.Inv

/-! ### The executor -/

/-- What a step of the executor does. -/
inductive ExecutorMove (p : Ros2Nav2Provider) : Option Nat → Ros2Nav2Provider → Option Nat → Prop where
  | stays (running : Option Nat) : ExecutorMove p running p running
  | answers {i : Nat} {g : Goal} (hg : p.client.goals[i]? = some g) (hwaiting : g.client = .waiting) :
    ExecutorMove p none { p with client := p.client.updateGoal i ({ · with client := .answered }) }
      (some i)
  | responds {i : Nat} {g : Goal} {handle : Option GoalHandle} (hg : p.client.goals[i]? = some g)
    (hfuture : p.client.goalFuture i = some handle) :
    ExecutorMove p (some i)
      { p.handleGoalResponseLocked g.generation handle with
        client := (p.handleGoalResponseLocked g.generation handle).client.updateGoal i
          ({ · with client := .responded }) } none
  | feedback (generation : UInt64) (pose : NavigationPose) :
    ExecutorMove p none (p.feedbackCallback generation pose) none
  | results {i : Nat} {g : Goal} {code : ResultCode} (hg : p.client.goals[i]? = some g)
    (hresponded : g.client = .responded) (hfinished : g.server = .finished code) :
    ExecutorMove p none
      { p.resultCallback g.generation code with
        client := (p.resultCallback g.generation code).client.updateGoal i
          ({ · with client := .resulted }) } none
  | cancels (cancels : List CancelRequest) :
    ExecutorMove p none { p with client := { p.client with cancels := cancels } } none

theorem executorStep_move (p : Ros2Nav2Provider) (running : Option Nat) (event : ExecutorEvent) :
    ExecutorMove p running (executorStep p running event).1 (executorStep p running event).2 := by
  unfold executorStep
  split
  case h_1 i =>
    split
    case h_1 g hg =>
      by_cases hwaiting : g.client = .waiting ∧ g.server ≠ .undecided
      · rw [if_pos hwaiting]
        exact .answers hg hwaiting.1
      · rw [if_neg hwaiting]
        exact .stays none
    case h_2 => exact .stays none
  case h_2 i =>
    split
    case h_1 g handle hg hfuture => exact .responds hg hfuture
    case h_2 => exact .stays (some i)
  case h_3 i pose =>
    split
    case h_1 g hg =>
      by_cases hserver : g.server = .undecided ∨ g.server = .rejected
      · rw [if_pos hserver]
        exact .stays none
      · rw [if_neg hserver]
        exact .feedback g.generation pose
    case h_2 => exact .stays none
  case h_4 i =>
    split
    case h_1 g hg =>
      split
      case h_1 code hresponded hfinished => exact .results hg hresponded hfinished
      case h_2 => exact .stays none
    case h_2 => exact .stays none
  case h_5 => exact .cancels _
  case h_6 => exact .stays running

namespace ExecutorMove

variable {p p' : Ros2Nav2Provider} {running running' : Option Nat}

section

variable (hm : ExecutorMove p running p' running')
include hm

theorem generation : p'.generation = p.generation := by
  cases hm with
  | stays | answers | cancels => rfl
  | responds => exact (p.sameGoals_handleGoalResponseLocked ..).generation
  | feedback => exact (p.sameGoals_feedbackCallback ..).generation
  | results => exact (p.sameGoals_resultCallback ..).generation

theorem length : p'.client.goals.length = p.client.goals.length := by
  cases hm with
  | stays | cancels => rfl
  | answers => exact ActionClient.length_updateGoal ..
  | responds =>
    refine (ActionClient.length_updateGoal ..).trans ?_
    rw [(p.sameGoals_handleGoalResponseLocked ..).goals]
  | feedback => rw [(p.sameGoals_feedbackCallback ..).goals]
  | results =>
    refine (ActionClient.length_updateGoal ..).trans ?_
    rw [(p.sameGoals_resultCallback ..).goals]

section

variable (hn : Numbered p.client.goals)
include hn

theorem numbered : Numbered p'.client.goals := by
  cases hm with
  | stays | cancels => exact hn
  | answers => exact hn.update (fun _ => rfl) fun _ _ _ => nofun
  | @responds i g handle =>
    rw [← (p.sameGoals_handleGoalResponseLocked g.generation handle).goals] at hn
    exact hn.update (fun _ => rfl) fun _ _ _ => nofun
  | feedback =>
    rw [(p.sameGoals_feedbackCallback ..).goals]
    exact hn
  | @results i g code hg _ hfinished =>
    rw [← (p.sameGoals_resultCallback g.generation code).goals] at hn hg
    refine hn.update (fun _ => rfl) fun g' hg' _ _ => ?_
    obtain rfl : g = g' := Option.some.inj (hg.symm.trans hg')
    exact ⟨code, hfinished⟩

theorem guarding (hr : ∀ i, running = some i → Running p.client.goals i) (h : Guarding p) : Guarding p' := by
  cases hm with
  | stays => exact h
  | @answers i g hg hwaiting =>
    refine h.update (fun g' hg' hsettled => ?_) fun _ _ _ _ _ => .inr rfl
    obtain rfl : g = g' := Option.some.inj (hg.symm.trans hg')
    rcases hsettled with hresulted | ⟨-, hphase⟩
    · exact nomatch hwaiting.symm.trans hresulted
    · exact absurd hwaiting hphase
  | responds hg hfuture => exact h.responded hn hg hfuture (hr _ rfl)
  | feedback => exact h.feedbackCallback ..
  | results hg hresponded hfinished => exact h.resulted hn hg hresponded hfinished
  | cancels => exact h.withCancels _

theorem reserved (hr : ∀ i, running = some i → Running p.client.goals i) {generation : UInt64} {ack : Bool}
    (h : Reserved p generation ack) : Reserved p' generation ack := by
  cases hm with
  | stays => exact h
  | @answers i g hg hwaiting =>
    -- a settled goal has been answered
    rcases h.settled i g hg with hresulted | ⟨-, hphase⟩
    · exact nomatch hwaiting.symm.trans hresulted
    · exact absurd hwaiting hphase
  | responds hg hfuture => exact h.responded hn _ hg (hr _ rfl)
  | feedback => exact h.feedbackCallback ..
  | @results i g code hg hresponded hfinished =>
    rcases h.settled i g hg with hresulted | ⟨hrejected, -⟩
    · exact nomatch hresponded.symm.trans hresulted
    · exact nomatch hfinished.symm.trans hrejected
  | cancels =>
    exact ⟨h.settled, h.active, h.current, h.next, h.pendingAck, h.pendingGeneration, h.cancel,
      h.future⟩

end

end

end ExecutorMove

theorem CallerInv.newest (h : CallerInv p caller) {i : Nat} {g : Goal} (hg : p.client.goals[i]? = some g)
    (hopen : ¬ g.Settled) : i + 1 = p.client.goals.length := by
  cases caller
  case submitPending => exact absurd (Reserved.settled h i g hg) hopen
  case submitSend => exact absurd (Reserved.settled h i g hg) hopen
  case submitFuture | submitWait | submitTimedOut | submitReady => exact h.1.newest i g hg hopen
  all_goals exact Guarding.newest h i g hg hopen

theorem System.Inv.executorStep {s : System} (h : s.Inv) (event : ExecutorEvent) :
    (s.step (.executor event)).1.Inv := by
  have hm := executorStep_move s.provider s.executor event
  refine ⟨hm.numbered h.numbered, ?_, ?_⟩
  · exact h.caller.mono (hm.guarding h.numbered h.executor)
      (fun _ _ => hm.reserved h.numbered h.executor) hm.generation hm.length
  · show ∀ i, (Bridge.executorStep s.provider s.executor event).2 = some i →
      Running (Bridge.executorStep s.provider s.executor event).1.client.goals i
    have hrunning := h.executor
    generalize Bridge.executorStep s.provider s.executor event = next at hm ⊢
    obtain ⟨p', running'⟩ := next
    generalize s.executor = running at hm hrunning
    intro i hi
    cases hm with
    | stays => exact hrunning i hi
    | @answers j g hg hwaiting =>
      cases hi
      have hopen : ¬ g.Settled := by
        rintro (hresulted | ⟨-, hphase⟩)
        · exact nomatch hwaiting.symm.trans hresulted
        · exact hphase hwaiting
      refine ⟨⟨{ g with client := .answered }, ?_, rfl⟩, .inl ?_⟩
      · show (s.provider.client.updateGoal i _).goals[i]? = _
        rw [ActionClient.updateGoal, List.getElem?_modify, hg]
        simp
      · exact (h.caller.newest hg hopen).trans (ActionClient.length_updateGoal ..).symm
    | responds | feedback | results | cancels => cases hi

/-! ### The caller -/

theorem callerStep_goals (p : Ros2Nav2Provider) (caller : Caller) (event : CallerEvent) :
    (callerStep p caller event).1.client.goals = p.client.goals ∨
      (∃ i, (callerStep p caller event).1.client.goals =
        (p.client.updateGoal i ({ · with acknowledgementTimedOut := true })).goals) ∨
      ∃ goal generation, caller = .submitSend goal generation ∧
        (callerStep p caller event).1 = p.sendGoal goal generation := by
  fun_cases callerStep p caller event
  all_goals first
    | exact .inl rfl
    | exact .inl (p.sameGoals_keepFuture ..).goals
    | exact .inl (p.sameGoals_acknowledgementReady ..).goals
    | exact .inl (p.sameGoals_getNavigationStatus ..).goals
    | exact .inr (.inl ⟨_, rfl⟩)
    | exact .inr (.inr ⟨_, _, rfl, rfl⟩)

theorem callerStep_generation (p : Ros2Nav2Provider) (caller : Caller) (event : CallerEvent) :
    (callerStep p caller event).1.generation = p.generation ∨
      ∃ goal, caller = .submitReserve goal ∧ p.refusesGoals = false := by
  fun_cases callerStep p caller event
  all_goals first
    | exact .inl rfl
    | exact .inl (p.sameGoals_keepFuture ..).generation
    | exact .inl (p.sameGoals_acknowledgementReady ..).generation
    | exact .inl (p.sameGoals_getNavigationStatus ..).generation
    | exact .inr ⟨_, rfl, Bool.eq_false_iff.2 ‹_›⟩

variable {event : CallerEvent}

theorem callerStep_report {status : NavigationStatus} (h : (callerStep p caller event).2.2 = some status) :
    (callerStep p caller event).2.1 = .idle ∧ status = (callerStep p caller event).1.status := by
  revert h
  fun_cases callerStep p caller event
  all_goals first
    | exact fun h => ⟨rfl, (Option.some.inj h).symm⟩
    | exact nofun

/-- **The step lemma of the caller.** -/
theorem callerStep_inv (h : CallerInv p caller) (hkeeps : p.overwritesGuard caller event = false) :
    CallerInv (callerStep p caller event).1 (callerStep p caller event).2.1 := by
  have hguarded {active : Bool}
      (hlast : (p.status.state.isActive && !(p.pendingAck || p.pendingCancel)) = false)
      (hactive : p.status.state.isActive = true) :
      p.pendingAck = true ∨ p.pendingCancel = true ∨ active = true := by
    rw [hactive] at hlast
    cases hack : p.pendingAck
    · cases hcancel : p.pendingCancel
      · rw [hack, hcancel] at hlast
        exact nomatch hlast
      · exact .inr (.inl rfl)
    · exact .inl rfl
  cases caller with
  | idle =>
    cases event
    all_goals exact h
  | submitServer goal =>
    cases event
    case server ready =>
      cases ready with
      | true => exact h
      | false =>
        exact Guarding.withStatus h (hguarded hkeeps) (fun _ => .inl rfl) nofun
    all_goals exact h
  | submitReserve goal =>
    cases event
    case proceed =>
      show CallerInv (if _ then _ else _ : _ × _ × _).1 (if _ then _ else _ : _ × _ × _).2.1
      by_cases hrefuses : p.refusesGoals = true
      · rw [if_pos hrefuses]
        exact Guarding.withText h rfl
      · rw [if_neg hrefuses]
        exact Reserved.of_guarding h (Bool.eq_false_iff.2 hrefuses) goal
    all_goals exact h
  | submitPending goal generation =>
    cases event
    case proceed => exact Reserved.awaitAcknowledgement h
    all_goals exact h
  | submitSend goal generation =>
    cases event
    case proceed =>
      have hreserved : Reserved p generation true := h
      exact ⟨hreserved.sendGoal goal, hreserved.current, (p.length_sendGoal goal generation).symm⟩
    all_goals exact h
  | submitFuture generation i =>
    cases event
    case proceed => exact h.1.keepFuture h.2.1 h.2.2
    all_goals exact h
  | submitWait generation i =>
    cases event
    case waited =>
      show CallerInv (if _ then _ else _ : _ × _ × _).1 (if _ then _ else _ : _ × _ × _).2.1
      split <;> exact h
    all_goals exact h
  | submitTimedOut generation i =>
    cases event
    case proceed =>
      obtain ⟨hguarding, -, -⟩ := h
      have htimedOut : Guarding p.acknowledgementTimedOut :=
        hguarding.withStatus (hguarded hkeeps) (fun _ => .inl rfl) nofun
      exact htimedOut.update (fun _ _ hsettled => hsettled) fun _ _ _ _ hphase => hphase
    all_goals exact h
  | submitReady generation i =>
    cases event
    case proceed =>
      cases hfuture : p.client.goalFuture i with
      | none =>
        have hstep : callerStep p (.submitReady generation i) .proceed
            = (p, .submitReady generation i, none) := by
          simp only [callerStep, hfuture]
        rw [hstep]
        exact h
      | some handle =>
        have hstep : callerStep p (.submitReady generation i) .proceed
            = (p.acknowledgementReady generation handle).returns := by
          simp only [callerStep, hfuture]
        rw [hstep]
        show Guarding (p.acknowledgementReady generation handle)
        unfold Ros2Nav2Provider.acknowledgementReady
        split
        · exact h.1.handleGoalResponseLocked hfuture h.2.2 generation
        · exact h.1
    all_goals exact h
  | cancelLock goalId =>
    cases event
    case proceed =>
      show CallerInv (if _ then _ else _ : _ × _ × _).1 (if _ then _ else _ : _ × _ × _).2.1
      split
      · exact h
      · split <;> exact h
    all_goals exact h
  | cancelSend handle =>
    cases event
    case proceed => exact Guarding.withCancels h _
    all_goals exact h
  | cancelWait k =>
    cases event
    case waited =>
      show CallerInv (if _ then _ else _ : _ × _ × _).1 (if _ then _ else _ : _ × _ × _).2.1
      split <;> exact h
    all_goals exact h
  | cancelTimedOut =>
    cases event
    case proceed => exact Guarding.withText h rfl
    all_goals exact h
  | cancelReady k =>
    cases event
    case proceed =>
      show CallerInv (if _ then _ else _ : _ × _ × _).1 (if _ then _ else _ : _ × _ × _).2.1
      split
      · exact Guarding.withText h rfl
      · split <;> exact Guarding.withText h rfl
    all_goals exact h
  | cancelResult =>
    cases event
    case waited =>
      show CallerInv (if _ then _ else _ : _ × _ × _).1 (if _ then _ else _ : _ × _ × _).2.1
      split
      · exact Guarding.withText h rfl
      · exact h
    all_goals exact h
  | statusServer =>
    cases event
    all_goals exact h
  | statusLock ready =>
    cases event
    case proceed => exact Guarding.getNavigationStatus h ready
    all_goals exact h

/-- A block of the caller keeps the invariant, unless it overwrites the only guard. -/
theorem System.Inv.caller_step {s : System} (h : s.Inv) (hkeeps : s.overwritesGuard (.caller event) = false) :
    (s.step (.caller event)).1.Inv := by
  have hcaller : CallerInv s.provider s.caller := h.caller
  refine ⟨?_, callerStep_inv hcaller hkeeps, ?_⟩
  · show Numbered (callerStep s.provider s.caller event).1.client.goals
    rcases callerStep_goals s.provider s.caller event with
      hsame | ⟨i, hmarked⟩ | ⟨goal, generation, hsend, hsent⟩
    · rw [hsame]
      exact h.numbered
    · rw [hmarked]
      exact Numbered.update h.numbered (fun _ => rfl) fun _ _ hfinished => hfinished
    · rw [hsend] at hcaller
      rw [hsent]
      exact Reserved.numbered hcaller h.numbered goal
  · show ∀ i, s.executor = some i → Running (callerStep s.provider s.caller event).1.client.goals i
    intro r hr
    rcases callerStep_goals s.provider s.caller event with
      hsame | ⟨i, hmarked⟩ | ⟨goal, generation, hsend, hsent⟩
    · rw [hsame]
      exact h.executor r hr
    · rw [hmarked]
      exact Running.update (h.executor r hr) fun _ => rfl
    · rw [hsend] at hcaller
      rw [hsent]
      exact Reserved.running hcaller goal (h.executor r hr)

/-! ## The law along a run -/

namespace System

theorem Inv.init : Inv {} := by
  have hnone (i : Nat) (g : Goal) (hg : ([] : List Goal)[i]? = some g) : False := by
    rw [List.getElem?_nil] at hg
    cases hg
  refine ⟨⟨fun i g hg => (hnone i g hg).elim, fun i g hg => (hnone i g hg).elim⟩, ?_, nofun⟩
  exact Guarding.of_settled rfl (fun i g hg => (hnone i g hg).elim) rfl rfl nofun

variable {s : System}

/-- **The step lemma.** -/
theorem Inv.step (h : s.Inv) (event : Event) (hkeeps : s.overwritesGuard event = false) : (s.step event).1.Inv := by
  cases event with
  | caller event => exact h.caller_step hkeeps
  | server event => exact h.server event
  | executor event => exact h.executorStep event

theorem Inv.guarding (h : s.Inv) {i : Nat} {g : Goal} (hg : s.goals[i]? = some g) (hopen : ¬ g.Settled) :
    s.provider.refusesGoals = true := by
  have hcaller : CallerInv s.provider s.caller := h.caller
  generalize s.caller = caller at hcaller
  cases caller
  case submitPending => exact absurd (Reserved.settled hcaller i g hg) hopen
  case submitSend => exact absurd (Reserved.settled hcaller i g hg) hopen
  case submitFuture | submitWait | submitTimedOut | submitReady =>
    exact hcaller.1.guard i g hg hopen
  all_goals exact Guarding.guard hcaller i g hg hopen

theorem Inv.not_live (h : s.Inv) (hsettled : ∀ (i : Nat) (g : Goal), s.goals[i]? = some g → g.Settled) {g : Goal}
    (hg : g ∈ s.goals) : ¬ g.Live := by
  obtain ⟨i, hi⟩ := List.getElem?_of_mem hg
  exact h.numbered.not_live hi (hsettled i g hi)

theorem sends_goal {event : Event} (h : s.goals.length < (s.step event).1.goals.length) :
    ∃ goal generation, s.caller = .submitSend goal generation := by
  cases event with
  | caller event =>
    rcases callerStep_goals s.provider s.caller event with
      hsame | ⟨i, hmarked⟩ | ⟨goal, generation, hsend, -⟩
    · exact absurd h (Nat.not_lt.2 (Nat.le_of_eq (congrArg List.length hsame)))
    · refine absurd h (Nat.not_lt.2 (Nat.le_of_eq ?_))
      exact (congrArg List.length hmarked).trans (ActionClient.length_updateGoal ..)
    · exact ⟨goal, generation, hsend⟩
  | server event =>
    obtain ⟨i, source, target, -, heq⟩ := serverStep_eq s.provider.client event
    refine absurd h (Nat.not_lt.2 (Nat.le_of_eq ?_))
    show (serverStep s.provider.client event).goals.length = _
    rw [heq]
    exact ActionClient.length_updateGoal ..
  | executor event =>
    exact absurd h (Nat.not_lt.2 (Nat.le_of_eq (executorStep_move ..).length))

theorem accepts_goal {event : Event} (h : (s.step event).1.provider.generation ≠ s.provider.generation) :
    ∃ goal, s.caller = .submitReserve goal ∧ s.provider.refusesGoals = false := by
  cases event with
  | caller event => exact (callerStep_generation s.provider s.caller event).resolve_left h
  | server event => exact absurd rfl h
  | executor event => exact absurd (executorStep_move ..).generation h

theorem oneLiveGoal {event : Event} (h : s.Inv) (h' : (s.step event).1.Inv) : s.OneLiveGoal event where
  single := by
    intro i j g g' hg hg' hlive hlive'
    have hi := h'.caller.newest hg fun hsettled => h'.numbered.not_live hg hsettled hlive
    have hj := h'.caller.newest hg' fun hsettled => h'.numbered.not_live hg' hsettled hlive'
    omega
  sends := by
    intro hsends g hg
    obtain ⟨goal, generation, hcaller⟩ := sends_goal hsends
    have hreserved := h.caller
    rw [hcaller] at hreserved
    exact h.not_live (Reserved.settled hreserved) hg
  accepts := by
    intro haccepts g hg
    obtain ⟨goal, hcaller, hrefuses⟩ := accepts_goal haccepts
    refine h.not_live (fun i g' hg' => Decidable.not_not.1 fun hopen => ?_) hg
    exact nomatch hrefuses.symm.trans (h.guarding hg' hopen)
  idle := by
    intro status hreport hidle g hg
    cases event with
    | caller event =>
      obtain ⟨hdone, rfl⟩ := callerStep_report hreport
      have hguarding : Guarding (s.step (.caller event)).1.provider := by
        have hcaller := h'.caller
        rw [show (s.step (.caller event)).1.caller = .idle from hdone] at hcaller
        exact hcaller
      refine h'.not_live (fun i g' hg' => hguarding.settled ?_ hg') hg
      obtain ⟨hack, hcancel⟩ := hguarding.idle hidle
      rw [Ros2Nav2Provider.refusesGoals, hack, hcancel]
      show NavigationState.isActive _ = false
      rw [show (s.step (.caller event)).1.provider.status.state = .idle from hidle]
      rfl
    | server event | executor event => cases hreport
  guard := by
    intro g hg _ hopen
    obtain ⟨i, hi⟩ := List.getElem?_of_mem hg
    exact h'.guarding hi hopen

/-- **At most one live goal.**  Along every run in which no block overwrites an active state that is
    the last guard, no goal is sent or accepted while another is live, the provider is not reported as
    idle then, and a goal whose acknowledgement timed out is guarded to its end. -/
theorem one_live_goal (events : List Event)
    (hkeeps : Along step (fun s event => s.overwritesGuard event = false) {} events) :
    Along step OneLiveGoal {} events :=
  Along.of_invariant (I := Inv) (fun _ event h hkeeps => h.step event hkeeps)
    (fun _ event h hkeeps => oneLiveGoal h (h.step event hkeeps)) Inv.init hkeeps

def goalTo (goalId : String) : NavigationGoal := { goalId := goalId, target := {} }

/-- A goal accepted behind its timeout is cancelled, and a second one waits for it. -/
def lateEvents : List Event :=
  [.caller (.submitNavigationGoal (goalTo "a")), .caller (.server true), .caller .proceed,
   .caller .proceed, .caller .proceed, .caller .proceed, .caller .waited, .caller .proceed,
   .server (.accept 0), .executor (.goalResponse 0), .executor .goalResponseCallback,
   .server (.finish 0 .canceled), .executor (.result 0), .caller .getNavigationStatus,
   .caller (.server true), .caller .proceed]

theorem one_live_goal_late : Along step OneLiveGoal {} lateEvents :=
  one_live_goal lateEvents (by decide)

/-- The future becomes ready behind the timeout, and the timeout overwrites the state. -/
def raceEvents : List Event :=
  [.caller (.submitNavigationGoal (goalTo "a")), .caller (.server true), .caller .proceed,
   .caller .proceed, .caller .proceed, .caller .proceed, .caller .waited,
   .server (.accept 0), .executor (.goalResponse 0), .executor .goalResponseCallback,
   .caller .proceed, .caller .getNavigationStatus, .caller (.server true)]

/-- Another goal, accepted too. -/
def secondGoal : List Event :=
  [.caller (.submitNavigationGoal (goalTo "b")), .caller (.server true), .caller .proceed,
   .caller .proceed, .caller .proceed, .server (.accept 1)]

/-- **The lost guard.**  The next status call reports that the provider is idle while the goal is
    live, and a second goal is sent and accepted. -/
theorem two_live_goals :
    ¬ Along step OneLiveGoal {} (raceEvents ++ .caller .proceed :: secondGoal) ∧
      (run step {} (raceEvents ++ .caller .proceed :: secondGoal)).goals.map Goal.server
        = [.accepted, .accepted] := by
  refine ⟨fun halong => ?_, by decide +kernel⟩
  have hlaw : OneLiveGoal (run step {} raceEvents) (.caller .proceed) :=
    ((along_append ..).1 halong).2.1
  have hlive : ∃ g ∈ ((run step {} raceEvents).step (.caller .proceed)).1.goals, g.Live := by
    decide +kernel
  obtain ⟨g, hg, hlive⟩ := hlive
  exact hlaw.idle _ rfl rfl g hg hlive

end System

end Cockpit.Bridge
