/-
  `BridgeService`: one navigation goal at a time, with a timeout guard. The provider answers as it likes; what
  it was asked and what it answered is part of what a call returns.
-/
import Cockpit.Lib.StepRun
import Cockpit.Bridge.Navigation

namespace Cockpit.Bridge

open Ieee754 StepRun List

/-- The provider says that the goal is over. -/
def NavigationState.isConfirmedTerminal : NavigationState → Bool
  | .cancelled | .failed | .succeeded => true
  | _ => false

theorem NavigationState.isActive_of_isConfirmedTerminal {state : NavigationState}
    (h : state.isConfirmedTerminal) : state.isActive = false := by
  cases state <;> first | rfl | cases h

/-! ## The service -/

/-- What one refresh reads: the two clocks, the answer to its status poll, and the answer to the
    cancellation, if it asks for one. -/
structure Refresh where
  steadyNowMs : Int
  wallNowMs : Int
  refreshed : NavigationStatus
  cancellation : NavigationStatus

/-- A request to the provider, with its answer.  The reading of the steady clock that follows a submit
    stands with it. -/
inductive Exchange where
  | getNavigationStatus (answer : NavigationStatus)
  | timeoutCancel (goalId : String) (answer : NavigationStatus)
  | cancelNavigationGoal (goalId : String) (answer : NavigationStatus)
  | submitNavigationGoal (goal : NavigationGoal) (answer : NavigationStatus) (steadyMs : Int)

/-- The status held, when its goal was accepted, and whether its timeout was cancelled. -/
structure BridgeService where
  hasProvider : Bool
  goalTimeoutMs : Int
  status : NavigationStatus
  acceptedAtSteadyMs : Int := 0
  timeoutCancelRequested : Bool := false

namespace BridgeService

def init (hasProvider : Bool) (goalTimeoutMs wallMs : Int) : BridgeService :=
  { hasProvider := hasProvider
    goalTimeoutMs := goalTimeoutMs
    status := { state := if hasProvider then .idle else .disabled, updatedAtMs := wallMs } }

/-- The goal ids that are taken. -/
def validateGoal (goal : NavigationGoal) : Except String Unit :=
  if goal.goalId = "" || 64 < goal.goalId.utf8ByteSize
      || !goal.goalId.toList.all fun c => c.isAlphanum || c = '_' || c = '-' || c = '.' then
    .error "goal_id must contain 1-64 allowlisted characters"
  else if goal.target.frameId ≠ "map" then .error "bridge target frame_id must be map"
  else if !goal.target.xM.isFinite || !goal.target.yM.isFinite || !goal.target.yawRad.isFinite then
    .error "bridge target coordinates must be finite"
  else .ok ()

/-! ### `RefreshLocked` -/

variable (service : BridgeService)

/-- A timed-out goal is not looked at again. -/
def polls : Bool :=
  service.hasProvider && service.status.state ≠ .timedOut

/-- The provider's answer can be about the goal that the service holds. -/
def adopts (refreshed : NavigationStatus) : Bool :=
  (service.status.goalId = "" || refreshed.goalId = "" || refreshed.goalId = service.status.goalId)
    && !(service.timeoutCancelRequested && !refreshed.state.isActive
      && !refreshed.state.isConfirmedTerminal)

def adopt (refreshed : NavigationStatus) : BridgeService :=
  if service.adopts refreshed then
    { service with
      status := { refreshed with
        acceptedAtMs := if refreshed.goalId = "" then 0 else service.status.acceptedAtMs }
      acceptedAtSteadyMs := if refreshed.state.isActive then service.acceptedAtSteadyMs else 0 }
  else service

/-- The goal has run for `goal_timeout_ms`. -/
def timeIsUp (steadyNowMs : Int) : Bool :=
  service.status.state.isActive && 0 < service.acceptedAtSteadyMs
    && service.goalTimeoutMs ≤ steadyNowMs - service.acceptedAtSteadyMs

def endStatus (status : NavigationStatus) (wallNowMs : Int) : NavigationStatus :=
  if status.state = .cancelled then
    { status with
      state := .timedOut
      message := "bridge goal timed out; cancellation confirmed"
      lastError := "bridge goal timed out; cancellation confirmed"
      updatedAtMs := wallNowMs }
  else { status with updatedAtMs := wallNowMs }

/-- The goal is over: nothing is timed any more. -/
def ended (status : NavigationStatus) (wallNowMs : Int) : BridgeService :=
  { service with acceptedAtSteadyMs := 0, status := endStatus status wallNowMs }

/-- The cancellation is not confirmed: the goal stays. -/
def retainGuard (wallNowMs : Int) : BridgeService :=
  { service with status := { service.status with
    message := "bridge goal timed out; retaining active guard"
    lastError := "goal timeout; cancellation not confirmed"
    updatedAtMs := wallNowMs } }

/-- A goal is cancelled for its timeout once. -/
def requestTimeoutCancel : BridgeService :=
  { service with timeoutCancelRequested := true }

/-- Every call first polls the provider. -/
def refreshLocked (r : Refresh) : BridgeService × List Exchange :=
  if !service.polls then (service, [])
  else
    let adopted := service.adopt r.refreshed
    let polled := Exchange.getNavigationStatus r.refreshed
    if adopted.timeoutCancelRequested && adopted.status.state.isConfirmedTerminal then
      (adopted.ended adopted.status r.wallNowMs, [polled])
    else if !adopted.timeIsUp r.steadyNowMs then
      ({ adopted with status := { adopted.status with updatedAtMs := r.wallNowMs } }, [polled])
    else if adopted.timeoutCancelRequested then (adopted.retainGuard r.wallNowMs, [polled])
    else
      let cancelled := Exchange.timeoutCancel adopted.status.goalId r.cancellation
      if r.cancellation.state.isConfirmedTerminal then
        (adopted.requestTimeoutCancel.ended
          { r.cancellation with acceptedAtMs := adopted.status.acceptedAtMs } r.wallNowMs,
          [polled, cancelled])
      else (adopted.requestTimeoutCancel.retainGuard r.wallNowMs, [polled, cancelled])

/-- A refresh polls or does not, ends the goal, or has it time out. -/
theorem refreshLocked_cases (r : Refresh) {P : BridgeService × List Exchange → Prop}
    (unpolled : service.polls = false → P (service, []))
    (ended : service.polls → (service.adopt r.refreshed).timeoutCancelRequested →
      (service.adopt r.refreshed).status.state.isConfirmedTerminal →
      P ((service.adopt r.refreshed).ended (service.adopt r.refreshed).status r.wallNowMs,
        [.getNavigationStatus r.refreshed]))
    (quiet : service.polls →
      ¬((service.adopt r.refreshed).timeoutCancelRequested ∧
        (service.adopt r.refreshed).status.state.isConfirmedTerminal) →
      (service.adopt r.refreshed).timeIsUp r.steadyNowMs = false →
      P ({ service.adopt r.refreshed with status :=
          { (service.adopt r.refreshed).status with updatedAtMs := r.wallNowMs } },
        [.getNavigationStatus r.refreshed]))
    (retained : service.polls → (service.adopt r.refreshed).timeIsUp r.steadyNowMs →
      (service.adopt r.refreshed).timeoutCancelRequested →
      P ((service.adopt r.refreshed).retainGuard r.wallNowMs, [.getNavigationStatus r.refreshed]))
    (confirmed : service.polls → (service.adopt r.refreshed).timeIsUp r.steadyNowMs →
      (service.adopt r.refreshed).timeoutCancelRequested = false →
      r.cancellation.state.isConfirmedTerminal →
      P ((service.adopt r.refreshed).requestTimeoutCancel.ended
          { r.cancellation with acceptedAtMs := (service.adopt r.refreshed).status.acceptedAtMs }
          r.wallNowMs,
        [.getNavigationStatus r.refreshed,
          .timeoutCancel (service.adopt r.refreshed).status.goalId r.cancellation]))
    (unconfirmed : service.polls → (service.adopt r.refreshed).timeIsUp r.steadyNowMs →
      (service.adopt r.refreshed).timeoutCancelRequested = false →
      P ((service.adopt r.refreshed).requestTimeoutCancel.retainGuard r.wallNowMs,
        [.getNavigationStatus r.refreshed,
          .timeoutCancel (service.adopt r.refreshed).status.goalId r.cancellation])) :
    P (service.refreshLocked r) := by
  unfold refreshLocked
  dsimp only
  split
  case isTrue hpolls => exact unpolled (by simpa using hpolls)
  case isFalse hpolls =>
    have hpolls : service.polls := by simpa using hpolls
    split
    case isTrue hended =>
      obtain ⟨hrequested, hterminal⟩ := Bool.and_eq_true_iff.1 hended
      exact ended hpolls hrequested hterminal
    case isFalse hended =>
      have hended : ¬((service.adopt r.refreshed).timeoutCancelRequested ∧
          (service.adopt r.refreshed).status.state.isConfirmedTerminal) :=
        fun h => hended (Bool.and_eq_true_iff.2 h)
      split
      case isTrue hup => exact quiet hpolls hended (by simpa using hup)
      case isFalse hup =>
        have hup : (service.adopt r.refreshed).timeIsUp r.steadyNowMs := by simpa using hup
        split
        case isTrue hrequested => exact retained hpolls hup hrequested
        case isFalse hrequested =>
          have hrequested := Bool.eq_false_iff.2 hrequested
          split
          case isTrue hterminal => exact confirmed hpolls hup hrequested hterminal
          case isFalse => exact unconfirmed hpolls hup hrequested

/-! ### The calls -/

/-- What a call returns (`status` is written unless the goal was refused unseen), and what it asked
    the provider. -/
structure Reply where
  ok : Bool
  error : String := ""
  status : Option NavigationStatus
  exchanges : List Exchange

def submitted (answer : NavigationStatus) (steadyMs acceptedMs updatedMs : Int) : BridgeService :=
  { service with
    status := { answer with
      acceptedAtMs := if answer.state.isActive then acceptedMs else 0
      updatedAtMs := updatedMs }
    acceptedAtSteadyMs := if answer.state.isActive then steadyMs else 0
    timeoutCancelRequested := false }

/-- Refused while a goal is active. -/
def submitNavigationGoal (service : BridgeService) (goal : NavigationGoal) (r : Refresh)
    (answer : NavigationStatus) (steadyMs acceptedMs updatedMs : Int) : BridgeService × Reply :=
  match validateGoal goal with
  | .error error => (service, { ok := false, error := error, status := none, exchanges := [] })
  | .ok () =>
    let (service, exchanges) := service.refreshLocked r
    if !service.hasProvider || service.status.state = .disabled
        || service.status.state = .disconnected then
      (service, { ok := false, error := "bridge provider is unavailable",
                  status := some service.status, exchanges := exchanges })
    else if service.status.state.isActive then
      (service, { ok := false, error := "a bridge goal is already active",
                  status := some service.status, exchanges := exchanges })
    else
      let service := service.submitted answer steadyMs acceptedMs updatedMs
      let exchanges := exchanges ++ [.submitNavigationGoal goal answer steadyMs]
      if answer.state = .rejected || answer.state = .disconnected || answer.state = .failed then
        (service, { ok := false
                    error := if answer.lastError = "" then answer.message else answer.lastError
                    status := some service.status
                    exchanges := exchanges })
      else (service, { ok := true, status := some service.status, exchanges := exchanges })

def cancelled (cancellation : NavigationStatus) (wallMs : Int) : BridgeService :=
  if cancellation.state.isConfirmedTerminal then
    { service with
      status := { cancellation with
        acceptedAtMs := service.status.acceptedAtMs
        updatedAtMs := wallMs }
      acceptedAtSteadyMs := 0
      timeoutCancelRequested := false }
  else
    { service with status := { service.status with
      lastError := if cancellation.lastError = "" then "bridge cancellation not confirmed"
        else cancellation.lastError
      updatedAtMs := wallMs } }

/-- A cancellation that the provider does not confirm leaves the goal active. -/
def cancelNavigationGoal (service : BridgeService) (goalId : String) (r : Refresh)
    (answer : NavigationStatus) (wallMs : Int) : BridgeService × Reply :=
  let (service, exchanges) := service.refreshLocked r
  if !service.status.state.isActive then
    (service, { ok := false, error := "no active bridge goal", status := some service.status,
                exchanges := exchanges })
  else if goalId = "" || goalId ≠ service.status.goalId then
    (service, { ok := false, error := "cancel goal_id does not match the active goal",
                status := some service.status, exchanges := exchanges })
  else
    let service := service.cancelled answer wallMs
    let exchanges := exchanges ++ [.cancelNavigationGoal goalId answer]
    if service.status.state ≠ .cancelled then
      (service, { ok := false
                  error := if service.status.lastError = "" then "bridge cancel failed"
                    else service.status.lastError
                  status := some service.status
                  exchanges := exchanges })
    else (service, { ok := true, status := some service.status, exchanges := exchanges })

def getNavigationStatus (r : Refresh) : BridgeService × Reply :=
  let (service, exchanges) := service.refreshLocked r
  (service, { ok := true, status := some service.status, exchanges := exchanges })

end BridgeService

/-! ## The service and its provider -/

/-- A call, with the answers and the readings that it meets.  The last reading of a submit and of a
    cancellation is that of the wall clock at its end. -/
inductive Call where
  | submit (goal : NavigationGoal) (r : Refresh) (answer : NavigationStatus)
      (steadyMs acceptedMs updatedMs : Int)
  | cancel (goalId : String) (r : Refresh) (answer : NavigationStatus) (wallMs : Int)
  | get (r : Refresh)

/-- What the provider answers to the poll; a goal that is not valid is refused before. -/
def Call.refresh : Call → Option Refresh
  | .submit goal r _ _ _ _ => if (BridgeService.validateGoal goal).isOk then some r else none
  | .cancel _ r _ _ => some r
  | .get r => some r

/-- The readings of the steady clock, in order. -/
def Call.steadyReadings : Call → List Int
  | .submit _ r _ steadyMs _ _ => [r.steadyNowMs, steadyMs]
  | .cancel _ r _ _ => [r.steadyNowMs]
  | .get r => [r.steadyNowMs]

def Call.answersTimedOut : Call → Bool
  | .submit _ _ answer _ _ _ => answer.state = .timedOut
  | _ => false

def BridgeService.call (service : BridgeService) : Call → BridgeService × BridgeService.Reply
  | .submit goal r answer steadyMs acceptedMs updatedMs =>
    service.submitNavigationGoal goal r answer steadyMs acceptedMs updatedMs
  | .cancel goalId r answer wallMs => service.cancelNavigationGoal goalId r answer wallMs
  | .get r => service.getNavigationStatus r

/-- The goal that was submitted last, seen from its exchanges with the provider. -/
structure Watch where
  goalId : String := ""
  acceptedAtMs : Int := 0
  timeoutCancels : Nat := 0
  cancellationConfirmed : Bool := false

namespace Watch

/-- What one exchange tells the watch. -/
def hear (watch : Watch) : Exchange → Watch
  | .getNavigationStatus answer =>
    { watch with cancellationConfirmed := watch.cancellationConfirmed
        || (answer.state = .cancelled && (answer.goalId = "" || answer.goalId = watch.goalId)) }
  | .timeoutCancel goalId answer =>
    { watch with
      timeoutCancels := watch.timeoutCancels + 1
      cancellationConfirmed := watch.cancellationConfirmed
        || (answer.state = .cancelled && goalId = watch.goalId) }
  | .cancelNavigationGoal goalId answer =>
    { watch with cancellationConfirmed := watch.cancellationConfirmed
        || (answer.state = .cancelled && goalId = watch.goalId) }
  | .submitNavigationGoal goal answer steadyMs =>
    { goalId := goal.goalId, acceptedAtMs := if answer.state.isActive then steadyMs else 0 }

end Watch

/-- The service, and a watch that reads the goal accepted last off the exchanges alone. -/
structure Watched where
  service : BridgeService
  watch : Watch := {}

namespace Watched

def step (s : Watched) (call : Call) : Watched × BridgeService.Reply :=
  let (service, reply) := s.service.call call
  ({ service := service, watch := reply.exchanges.foldl Watch.hear s.watch }, reply)

def refresh (s : Watched) (r : Refresh) : Watched :=
  { service := (s.service.refreshLocked r).1
    watch := (s.service.refreshLocked r).2.foldl Watch.hear s.watch }

def found (s : Watched) (r : Refresh) : BridgeService :=
  if s.service.polls then s.service.adopt r.refreshed else s.service

/-! ### What a provider can mislead the guard with -/

/-- The poll's answer replaces the status. -/
def taken (s : Watched) (r : Refresh) : Bool := s.service.polls && s.service.adopts r.refreshed

/-- An answer makes a goal active that was not. -/
def revives (s : Watched) (r : Refresh) : Bool :=
  s.taken r && r.refreshed.state.isActive && !s.service.status.state.isActive

/-- An answer ends a goal whose cancellation the provider has not confirmed. -/
def endsUnconfirmed (s : Watched) (r : Refresh) : Bool :=
  s.taken r && (r.refreshed.state = .timedOut ||
    (s.service.timeoutCancelRequested && r.refreshed.state = .cancelled
      && r.refreshed.goalId ≠ "" && r.refreshed.goalId ≠ s.watch.goalId))

/-- The goal whose time is up goes by another name than the one accepted. -/
def losesName (s : Watched) (r : Refresh) : Bool :=
  (s.found r).timeIsUp r.steadyNowMs && !(s.found r).timeoutCancelRequested
    && (s.found r).status.goalId ≠ s.watch.goalId

/-- The provider misleads the guard. -/
def misleads (s : Watched) (call : Call) : Bool :=
  call.answersTimedOut
    || call.refresh.any fun r => s.revives r || s.endsUnconfirmed r || s.losesName r

/-! ### The guard -/

/-- What the guard promises of one call. -/
structure TimeoutGuard (s : Watched) (call : Call) : Prop where
  /-- An active status is armed with the time at which its goal was accepted. -/
  armed : (s.step call).1.service.status.state.isActive →
    (s.step call).1.service.acceptedAtSteadyMs = (s.step call).1.watch.acceptedAtMs
      ∧ 0 < (s.step call).1.watch.acceptedAtMs
  /-- The first call that finds an active goal's time up cancels it. -/
  cancels : ∀ r, call.refresh = some r → (s.found r).status.state.isActive →
    s.service.goalTimeoutMs ≤ r.steadyNowMs - s.watch.acceptedAtMs → s.watch.timeoutCancels = 0 →
    ∃ answer, .timeoutCancel s.watch.goalId answer ∈ (s.step call).2.exchanges
  /-- Nothing else does, so that no earlier call has. -/
  due : ∀ goalId answer, .timeoutCancel goalId answer ∈ (s.step call).2.exchanges →
    goalId = s.watch.goalId ∧ ∃ r, call.refresh = some r ∧
      s.service.goalTimeoutMs ≤ r.steadyNowMs - s.watch.acceptedAtMs
  once : (s.step call).1.watch.timeoutCancels ≤ 1
  confirmed : (s.step call).1.service.status.state = .timedOut →
    (s.step call).1.watch.cancellationConfirmed
  /-- No goal is submitted beside an active one. -/
  alone : ∀ goal answer ms, .submitNavigationGoal goal answer ms ∈ (s.step call).2.exchanges →
    ∃ r, call.refresh = some r ∧ (s.refresh r).service.status.state.isActive = false

/-- The guard's hold on the goal that was submitted last. -/
structure Inv (s : Watched) : Prop where
  provided : s.service.status.state.isActive → s.service.hasProvider
  armed : s.service.status.state.isActive →
    s.service.acceptedAtSteadyMs = s.watch.acceptedAtMs ∧ 0 < s.watch.acceptedAtMs
  fresh : s.service.status.state.isActive → s.service.timeoutCancelRequested = false →
    s.watch.timeoutCancels = 0
  once : s.watch.timeoutCancels ≤ 1
  counted : s.service.timeoutCancelRequested → s.watch.timeoutCancels = 1
  /-- A confirmed timeout cancellation does not stay unnoticed. -/
  noticed : s.service.timeoutCancelRequested → s.service.status.state ≠ .cancelled
  confirmed : s.service.status.state = .timedOut → s.watch.cancellationConfirmed

theorem Inv.init (hasProvider : Bool) (goalTimeoutMs wallMs : Int) :
    Inv { service := .init hasProvider goalTimeoutMs wallMs } := by
  have hstate : (BridgeService.init hasProvider goalTimeoutMs wallMs).status.state.isActive = false ∧
      (BridgeService.init hasProvider goalTimeoutMs wallMs).status.state ≠ .timedOut := by
    cases hasProvider <;> exact ⟨rfl, by simp [BridgeService.init]⟩
  constructor
  · intro h
    exact absurd (hstate.1.symm.trans h) (by decide)
  · intro h
    exact absurd (hstate.1.symm.trans h) (by decide)
  · intro _ _
    rfl
  · exact Nat.zero_le 1
  · intro h
    cases h
  · intro h
    cases h
  · intro h
    exact absurd h hstate.2

/-! ### The refresh -/

variable {s : Watched} {r : Refresh}

theorem found_of_polls (h : s.service.polls) : s.found r = s.service.adopt r.refreshed := if_pos h

@[simp] theorem found_timeoutCancelRequested (s : Watched) (r : Refresh) :
    (s.found r).timeoutCancelRequested = s.service.timeoutCancelRequested := by
  unfold found BridgeService.adopt
  split
  · split <;> rfl
  · rfl

@[simp] theorem found_hasProvider (s : Watched) (r : Refresh) : (s.found r).hasProvider = s.service.hasProvider := by
  unfold found BridgeService.adopt
  split
  · split <;> rfl
  · rfl

@[simp] theorem found_goalTimeoutMs (s : Watched) (r : Refresh) :
    (s.found r).goalTimeoutMs = s.service.goalTimeoutMs := by
  unfold found BridgeService.adopt
  split
  · split <;> rfl
  · rfl

theorem found_cases (s : Watched) (r : Refresh) : (s.taken r ∧ (s.found r).status.state = r.refreshed.state
        ∧ (s.found r).status.goalId = r.refreshed.goalId
        ∧ (s.found r).acceptedAtSteadyMs =
          if r.refreshed.state.isActive then s.service.acceptedAtSteadyMs else 0)
      ∨ (s.taken r = false ∧ s.found r = s.service) := by
  unfold found taken BridgeService.adopt
  by_cases hpolls : s.service.polls
  · by_cases hadopts : s.service.adopts r.refreshed
    · left
      rw [if_pos hpolls, if_pos hadopts, hpolls, hadopts]
      exact ⟨rfl, rfl, rfl, rfl⟩
    · right
      rw [if_pos hpolls, if_neg hadopts, hpolls, Bool.eq_false_iff.2 hadopts]
      exact ⟨rfl, rfl⟩
  · right
    rw [if_neg hpolls, Bool.eq_false_iff.2 hpolls]
    exact ⟨rfl, rfl⟩

theorem found_active {s : Watched} {r : Refresh} (hrevives : s.revives r = false)
    (h : (s.found r).status.state.isActive) :
    s.service.status.state.isActive ∧
      (s.found r).acceptedAtSteadyMs = s.service.acceptedAtSteadyMs := by
  obtain ⟨htaken, hstate, -, hacc⟩ | ⟨-, hsame⟩ := found_cases s r
  · rw [hstate] at h
    rw [revives, htaken, h] at hrevives
    rw [hacc, if_pos h]
    exact ⟨by simpa using hrevives, rfl⟩
  · rw [hsame] at h ⊢
    exact ⟨h, rfl⟩

theorem found_not_timedOut (hpolls : s.service.polls) (hends : s.endsUnconfirmed r = false) :
    (s.found r).status.state ≠ .timedOut := by
  intro h
  obtain ⟨htaken, hstate, -, -⟩ | ⟨-, hsame⟩ := found_cases s r
  · rw [hstate] at h
    simp [endsUnconfirmed, htaken, h] at hends
  · rw [hsame] at h
    simp [BridgeService.polls, h] at hpolls

theorem found_cancelled (h : s.Inv) (hends : s.endsUnconfirmed r = false)
    (hrequested : s.service.timeoutCancelRequested) (hcancelled : (s.found r).status.state = .cancelled) :
    (s.watch.hear (.getNavigationStatus r.refreshed)).cancellationConfirmed := by
  obtain ⟨htaken, hstate, -, -⟩ | ⟨-, hsame⟩ := found_cases s r
  · rw [hstate] at hcancelled
    have hnames : r.refreshed.goalId = "" ∨ r.refreshed.goalId = s.watch.goalId := by
      by_cases hempty : r.refreshed.goalId = ""
      · exact .inl hempty
      · right
        simpa [endsUnconfirmed, htaken, hcancelled, hrequested, hempty] using hends
    simp [Watch.hear, hcancelled, hnames]
  · rw [hsame] at hcancelled
    exact absurd hcancelled (h.noticed hrequested)

theorem endStatus_state {status : NavigationStatus} (wallNowMs : Int) (h : status.state.isConfirmedTerminal) :
    (BridgeService.endStatus status wallNowMs).state.isActive = false ∧
      (BridgeService.endStatus status wallNowMs).state ≠ .cancelled ∧
      ((BridgeService.endStatus status wallNowMs).state = .timedOut → status.state = .cancelled) := by
  unfold BridgeService.endStatus
  by_cases hcancelled : status.state = .cancelled
  · rw [if_pos hcancelled]
    exact ⟨rfl, by simp, fun _ => hcancelled⟩
  · rw [if_neg hcancelled]
    refine ⟨NavigationState.isActive_of_isConfirmedTerminal h, hcancelled, fun htimedOut => ?_⟩
    rw [show status.state = .timedOut from htimedOut] at h
    cases h

variable {service : BridgeService}

theorem Inv.of_ended {watch : Watch} (hended : service.status.state.isActive = false)
    (hnoticed : service.timeoutCancelRequested → service.status.state ≠ .cancelled)
    (honce : watch.timeoutCancels ≤ 1) (hcounted : service.timeoutCancelRequested → watch.timeoutCancels = 1)
    (hconf : service.status.state = .timedOut → watch.cancellationConfirmed) :
    Inv { service := service, watch := watch } where
  provided h := absurd (hended.symm.trans h) (by decide)
  armed h := absurd (hended.symm.trans h) (by decide)
  fresh h := absurd (hended.symm.trans h) (by decide)
  once := honce
  counted := hcounted
  noticed := hnoticed
  confirmed := hconf

theorem Inv.of_retained {watch : Watch} (hactive : service.status.state.isActive) (hprovided : service.hasProvider)
    (harmed : service.acceptedAtSteadyMs = watch.acceptedAtMs ∧ 0 < watch.acceptedAtMs)
    (hrequested : service.timeoutCancelRequested) (hcounted : watch.timeoutCancels = 1) :
    Inv { service := service, watch := watch } where
  provided _ := hprovided
  armed _ := harmed
  fresh _ h := absurd (hrequested.symm.trans h) (by decide)
  once := Nat.le_of_eq hcounted
  counted _ := hcounted
  noticed _ h := by
    rw [show service.status.state = .cancelled from h] at hactive
    cases hactive
  confirmed h := by
    rw [show service.status.state = .timedOut from h] at hactive
    cases hactive

theorem active_of_timeIsUp {steadyNowMs : Int} (h : service.timeIsUp steadyNowMs) :
    service.status.state.isActive ∧
      service.goalTimeoutMs ≤ steadyNowMs - service.acceptedAtSteadyMs := by
  simp only [BridgeService.timeIsUp, Bool.and_eq_true, decide_eq_true_eq] at h
  exact ⟨h.1.1, h.2⟩

theorem names_of_timeIsUp (hname : s.losesName r = false) (hup : (s.found r).timeIsUp r.steadyNowMs)
    (hunrequested : s.service.timeoutCancelRequested = false) : (s.found r).status.goalId = s.watch.goalId := by
  simpa [losesName, hup, hunrequested] using hname

/-- **The refresh keeps the guard.** -/
theorem Inv.refresh (h : s.Inv) (hrevives : s.revives r = false) (hends : s.endsUnconfirmed r = false)
    (hname : s.losesName r = false) : (s.refresh r).Inv := by
  have hwas := @found_active s r hrevives
  rw [Watched.refresh]
  refine s.service.refreshLocked_cases r
    (P := fun o => Inv { service := o.1, watch := o.2.foldl Watch.hear s.watch })
    ?unpolled ?ended ?quiet ?retained ?confirmed ?unconfirmed
  case unpolled =>
    intro _
    exact h
  case ended =>
    intro hpolls hrequested hterminal
    rw [← found_of_polls hpolls] at hrequested hterminal ⊢
    obtain ⟨hactive, hnotCancelled, htimedOut⟩ := endStatus_state r.wallNowMs hterminal
    rw [found_timeoutCancelRequested] at hrequested
    refine .of_ended hactive (fun _ => hnotCancelled) h.once (fun _ => h.counted hrequested) ?_
    intro hup
    exact found_cancelled h hends hrequested (htimedOut hup)
  case quiet =>
    intro hpolls hended _
    rw [← found_of_polls hpolls] at hended ⊢
    rw [found_timeoutCancelRequested] at hended
    constructor
    · intro hactive
      simpa using h.provided (hwas hactive).1
    · intro hactive
      exact (hwas hactive).2.symm ▸ h.armed (hwas hactive).1
    · intro hactive hunrequested
      exact h.fresh (hwas hactive).1 (by simpa using hunrequested)
    · exact h.once
    · intro hrequested
      exact h.counted (by simpa using hrequested)
    · intro hrequested hcancelled
      refine hended ⟨by simpa using hrequested, ?_⟩
      rw [show (s.found r).status.state = .cancelled from hcancelled]
      rfl
    · intro htimedOut
      exact absurd htimedOut (found_not_timedOut hpolls hends)
  case retained =>
    intro hpolls hup hrequested
    rw [← found_of_polls hpolls] at hup hrequested ⊢
    obtain ⟨hactive, -⟩ := active_of_timeIsUp hup
    refine .of_retained hactive ?_ ?_ hrequested (h.counted (by simpa using hrequested))
    · simpa [BridgeService.retainGuard] using h.provided (hwas hactive).1
    · exact (hwas hactive).2.symm ▸ h.armed (hwas hactive).1
  case confirmed =>
    intro hpolls hup hunrequested hterminal
    rw [← found_of_polls hpolls] at hup hunrequested ⊢
    obtain ⟨hactive, -⟩ := active_of_timeIsUp hup
    rw [found_timeoutCancelRequested] at hunrequested
    have hfresh := h.fresh (hwas hactive).1 hunrequested
    have hterminal' : ({ r.cancellation with
        acceptedAtMs := (s.found r).status.acceptedAtMs } : NavigationStatus).state.isConfirmedTerminal :=
      hterminal
    obtain ⟨hinactive, hnotCancelled, htimedOut⟩ := endStatus_state r.wallNowMs hterminal'
    refine .of_ended hinactive (fun _ => hnotCancelled) ?_ ?_ fun h => ?_
    · simp [Watch.hear, hfresh]
    · simp [Watch.hear, hfresh]
    · have hcancelled : r.cancellation.state = .cancelled := htimedOut h
      have hgoal := names_of_timeIsUp hname hup hunrequested
      simp [Watch.hear, hcancelled, hgoal]
  case unconfirmed =>
    intro hpolls hup hunrequested
    rw [← found_of_polls hpolls] at hup hunrequested ⊢
    obtain ⟨hactive, -⟩ := active_of_timeIsUp hup
    rw [found_timeoutCancelRequested] at hunrequested
    have hfresh := h.fresh (hwas hactive).1 hunrequested
    refine .of_retained hactive ?_ ?_ rfl (by simp [Watch.hear, hfresh])
    · simpa [BridgeService.retainGuard, BridgeService.requestTimeoutCancel]
        using h.provided (hwas hactive).1
    · exact (hwas hactive).2.symm ▸ h.armed (hwas hactive).1

theorem refresh_cancels (h : s.Inv) (hrevives : s.revives r = false) (hname : s.losesName r = false)
    (hactive : (s.found r).status.state.isActive)
    (hdue : s.service.goalTimeoutMs ≤ r.steadyNowMs - s.watch.acceptedAtMs) (hfirst : s.watch.timeoutCancels = 0) :
    ∃ answer, .timeoutCancel s.watch.goalId answer ∈ (s.service.refreshLocked r).2 := by
  obtain ⟨hwas, hsteady⟩ := found_active hrevives hactive
  obtain ⟨harmed, hpos⟩ := h.armed hwas
  have hup : (s.found r).timeIsUp r.steadyNowMs := by
    simp only [BridgeService.timeIsUp, Bool.and_eq_true, decide_eq_true_eq, hsteady, harmed,
      found_goalTimeoutMs]
    exact ⟨⟨hactive, hpos⟩, hdue⟩
  have hunrequested : s.service.timeoutCancelRequested = false := by
    cases hrequested : s.service.timeoutCancelRequested
    · rfl
    · have := h.counted hrequested
      omega
  have hpolls : s.service.polls := by
    simp only [BridgeService.polls, h.provided hwas, Bool.true_and, decide_eq_true_eq]
    intro htimedOut
    rw [htimedOut] at hwas
    cases hwas
  have hgoal := names_of_timeIsUp hname hup hunrequested
  rw [← found_timeoutCancelRequested s r] at hunrequested
  rw [found_of_polls hpolls] at hup hgoal hunrequested
  simp only [BridgeService.refreshLocked, hpolls, hup, hunrequested, hgoal, Bool.not_true,
    Bool.false_and, Bool.false_eq_true, if_false]
  split <;> exact ⟨r.cancellation, List.mem_cons_of_mem _ List.mem_cons_self⟩

variable {answer : NavigationStatus}

theorem refresh_due (h : s.Inv) (hrevives : s.revives r = false) (hname : s.losesName r = false) {goalId : String}
    (hmem : .timeoutCancel goalId answer ∈ (s.service.refreshLocked r).2) :
    goalId = s.watch.goalId ∧ s.service.goalTimeoutMs ≤ r.steadyNowMs - s.watch.acceptedAtMs := by
  have hcancel : s.service.polls → (s.service.adopt r.refreshed).timeIsUp r.steadyNowMs →
      (s.service.adopt r.refreshed).timeoutCancelRequested = false →
      goalId = (s.service.adopt r.refreshed).status.goalId →
      goalId = s.watch.goalId ∧
        s.service.goalTimeoutMs ≤ r.steadyNowMs - s.watch.acceptedAtMs := by
    intro hpolls hup hunrequested hgoal
    rw [← found_of_polls hpolls] at hup hunrequested hgoal
    rw [found_timeoutCancelRequested] at hunrequested
    obtain ⟨hactive, hdue⟩ := active_of_timeIsUp hup
    obtain ⟨hwas, hsteady⟩ := found_active hrevives hactive
    rw [found_goalTimeoutMs, hsteady, (h.armed hwas).1] at hdue
    exact ⟨hgoal.trans (names_of_timeIsUp hname hup hunrequested), hdue⟩
  revert hmem
  refine s.service.refreshLocked_cases r (P := fun o => .timeoutCancel goalId answer ∈ o.2 → _)
    ?unpolled ?ended ?quiet ?retained ?confirmed ?unconfirmed
  case unpolled => intro _ hmem; simp at hmem
  case ended => intro _ _ _ hmem; simp at hmem
  case quiet => intro _ _ _ hmem; simp at hmem
  case retained => intro _ _ _ hmem; simp at hmem
  case confirmed =>
    intro hpolls hup hunrequested _ hmem
    simp only [List.mem_cons, reduceCtorEq, Exchange.timeoutCancel.injEq, List.not_mem_nil, or_false,
      false_or] at hmem
    exact hcancel hpolls hup hunrequested hmem.1
  case unconfirmed =>
    intro hpolls hup hunrequested hmem
    simp only [List.mem_cons, reduceCtorEq, Exchange.timeoutCancel.injEq, List.not_mem_nil, or_false,
      false_or] at hmem
    exact hcancel hpolls hup hunrequested hmem.1

theorem not_submits_of_refresh (service : BridgeService) (r : Refresh) (goal : NavigationGoal)
    (answer : NavigationStatus) (ms : Int) : .submitNavigationGoal goal answer ms ∉ (service.refreshLocked r).2 := by
  refine service.refreshLocked_cases r (P := fun o => .submitNavigationGoal goal answer ms ∉ o.2)
    ?_ ?_ ?_ ?_ ?_ ?_ <;> simp

/-! ### The calls -/

/-- A call refreshes, and then submits or cancels at most. -/
theorem step_cases (s : Watched) (call : Call) :
    (call.refresh = none ∧ (s.step call).1 = s ∧ (s.step call).2.exchanges = []) ∨
    ∃ r, call.refresh = some r ∧
      (((s.step call).1 = s.refresh r ∧
          (s.step call).2.exchanges = (s.service.refreshLocked r).2) ∨
       (∃ goal answer steadyMs acceptedMs updatedMs,
          call = .submit goal r answer steadyMs acceptedMs updatedMs ∧
          (s.refresh r).service.hasProvider ∧
          (s.refresh r).service.status.state.isActive = false ∧
          (s.step call).1 =
            { service := (s.refresh r).service.submitted answer steadyMs acceptedMs updatedMs
              watch := (s.refresh r).watch.hear (.submitNavigationGoal goal answer steadyMs) } ∧
          (s.step call).2.exchanges =
            (s.service.refreshLocked r).2 ++ [.submitNavigationGoal goal answer steadyMs]) ∨
       (∃ goalId answer wallMs, call = .cancel goalId r answer wallMs ∧
          (s.refresh r).service.status.state.isActive ∧
          (s.step call).1 =
            { service := (s.refresh r).service.cancelled answer wallMs
              watch := (s.refresh r).watch.hear (.cancelNavigationGoal goalId answer) } ∧
          (s.step call).2.exchanges =
            (s.service.refreshLocked r).2 ++ [.cancelNavigationGoal goalId answer])) := by
  cases call with
  | get r => exact .inr ⟨r, rfl, .inl ⟨rfl, rfl⟩⟩
  | cancel goalId r answer wallMs =>
    refine .inr ⟨r, rfl, ?_⟩
    simp only [step, BridgeService.call, BridgeService.cancelNavigationGoal]
    split
    case isTrue => exact .inl ⟨rfl, rfl⟩
    case isFalse hactive =>
      split
      case isTrue => exact .inl ⟨rfl, rfl⟩
      case isFalse =>
        refine .inr (.inr ⟨goalId, answer, wallMs, rfl, by simpa [refresh] using hactive, ?_⟩)
        split <;> simp [refresh]
  | submit goal r answer steadyMs acceptedMs updatedMs =>
    simp only [step, BridgeService.call, BridgeService.submitNavigationGoal, Call.refresh]
    cases hvalid : BridgeService.validateGoal goal with
    | error error => exact .inl ⟨rfl, rfl, rfl⟩
    | ok =>
      refine .inr ⟨r, rfl, ?_⟩
      dsimp only
      split
      case isTrue => exact .inl ⟨rfl, rfl⟩
      case isFalse hready =>
        split
        case isTrue => exact .inl ⟨rfl, rfl⟩
        case isFalse hactive =>
          have hprovider : (s.refresh r).service.hasProvider := by
            simp only [Bool.or_eq_true, Bool.not_eq_true', not_or, Bool.not_eq_false] at hready
            exact hready.1.1
          refine .inr (.inl ⟨goal, answer, steadyMs, acceptedMs, updatedMs, rfl, hprovider,
            Bool.eq_false_iff.2 hactive, ?_⟩)
          split <;> simp [refresh]

theorem Inv.submitted {goal : NavigationGoal} {steadyMs acceptedMs updatedMs : Int}
    (hprovider : s.service.hasProvider) (hpos : 0 < steadyMs) (htimedOut : answer.state ≠ .timedOut) :
    Inv { service := s.service.submitted answer steadyMs acceptedMs updatedMs
          watch := s.watch.hear (.submitNavigationGoal goal answer steadyMs) } where
  provided _ := hprovider
  armed h := by
    have hactive : answer.state.isActive := h
    simp [BridgeService.submitted, Watch.hear, hactive, hpos]
  fresh _ _ := rfl
  once := Nat.zero_le 1
  counted h := by cases h
  noticed h := by cases h
  confirmed h := absurd h htimedOut

theorem Inv.cancelled (h : s.Inv) {goalId : String} {answer : NavigationStatus} {wallMs : Int} :
    Inv { service := s.service.cancelled answer wallMs
          watch := s.watch.hear (.cancelNavigationGoal goalId answer) } := by
  unfold BridgeService.cancelled
  by_cases hterminal : answer.state.isConfirmedTerminal
  · rw [if_pos hterminal]
    refine .of_ended (NavigationState.isActive_of_isConfirmedTerminal hterminal) ?_ h.once ?_ ?_
    · intro hrequested
      cases hrequested
    · intro hrequested
      cases hrequested
    · intro htimedOut
      rw [show answer.state = .timedOut from htimedOut] at hterminal
      cases hterminal
  · rw [if_neg hterminal]
    exact { provided := h.provided, armed := h.armed, fresh := h.fresh, once := h.once,
            counted := h.counted, noticed := h.noticed,
            confirmed := fun htimedOut => by simp [Watch.hear, h.confirmed htimedOut] }

theorem refresh_of_misleads {call : Call} (hr : call.refresh = some r) (h : s.misleads call = false) :
    s.revives r = false ∧ s.endsUnconfirmed r = false ∧ s.losesName r = false := by
  simp only [misleads, hr, Option.any_some, Bool.or_eq_false_iff] at h
  exact ⟨h.2.1.1, h.2.1.2, h.2.2⟩

/-- **The step lemma.** -/
theorem Inv.step (h : s.Inv) (call : Call) (hleads : s.misleads call = false)
    (hclock : ∀ ms ∈ call.steadyReadings, 0 < ms) : (s.step call).1.Inv := by
  obtain ⟨-, hsame, -⟩ | ⟨r, hr, hcase⟩ := s.step_cases call
  · rw [hsame]
    exact h
  · obtain ⟨hrevives, hends, hname⟩ := refresh_of_misleads hr hleads
    have hrefresh := h.refresh hrevives hends hname
    obtain ⟨hsame, -⟩ | ⟨goal, answer, steadyMs, acceptedMs, updatedMs, rfl, hprovider, -, hsame, -⟩ |
      ⟨goalId, answer, wallMs, rfl, -, hsame, -⟩ := hcase
    · rw [hsame]
      exact hrefresh
    · rw [hsame]
      refine .submitted hprovider (hclock steadyMs (by simp [Call.steadyReadings])) ?_
      simp only [misleads, Bool.or_eq_false_iff, Call.answersTimedOut, decide_eq_false_iff_not]
        at hleads
      exact hleads.1
    · rw [hsame]
      exact hrefresh.cancelled

theorem Inv.timeoutGuard (h : s.Inv) {call : Call} (hleads : s.misleads call = false) (h' : (s.step call).1.Inv) :
    s.TimeoutGuard call where
  armed := h'.armed
  once := h'.once
  confirmed := h'.confirmed
  cancels r hr hactive hdue hfirst := by
    obtain ⟨hrevives, -, hname⟩ := refresh_of_misleads hr hleads
    obtain ⟨answer, hmem⟩ := refresh_cancels h hrevives hname hactive hdue hfirst
    refine ⟨answer, ?_⟩
    obtain ⟨hnone, -⟩ | ⟨r', hr', hcase⟩ := s.step_cases call
    · rw [hnone] at hr
      cases hr
    · obtain rfl : r = r' := Option.some.inj (hr.symm.trans hr')
      obtain ⟨-, hsame⟩ | ⟨_, _, _, _, _, -, -, -, -, hsame⟩ | ⟨_, _, _, -, -, -, hsame⟩ := hcase
      · exact hsame ▸ hmem
      · exact hsame ▸ mem_append_left _ hmem
      · exact hsame ▸ mem_append_left _ hmem
  due goalId answer hmem := by
    obtain ⟨-, -, hnone⟩ | ⟨r, hr, hcase⟩ := s.step_cases call
    · rw [hnone] at hmem
      cases hmem
    · obtain ⟨hrevives, -, hname⟩ := refresh_of_misleads hr hleads
      have hrefresh : .timeoutCancel goalId answer ∈ (s.service.refreshLocked r).2 := by
        obtain ⟨-, hsame⟩ | ⟨_, _, _, _, _, -, -, -, -, hsame⟩ | ⟨_, _, _, -, -, -, hsame⟩ := hcase
        · exact hsame ▸ hmem
        · simpa [hsame] using hmem
        · simpa [hsame] using hmem
      obtain ⟨hgoal, hdue⟩ := refresh_due h hrevives hname hrefresh
      exact ⟨hgoal, r, hr, hdue⟩
  alone goal answer ms hmem := by
    obtain ⟨-, -, hnone⟩ | ⟨r, hr, hcase⟩ := s.step_cases call
    · rw [hnone] at hmem
      cases hmem
    · refine ⟨r, hr, ?_⟩
      obtain ⟨-, hsame⟩ | ⟨_, _, _, _, _, -, -, hinactive, -, -⟩ | ⟨_, _, _, -, -, -, hsame⟩ := hcase
      · exact absurd (hsame ▸ hmem) (not_submits_of_refresh _ _ _ _ _)
      · exact hinactive
      · rw [hsame, mem_append, mem_singleton] at hmem
        exact absurd (hmem.resolve_right (by simp)) (not_submits_of_refresh _ _ _ _ _)

/-- **The timeout guard.**  Along every run in which the provider does not mislead it, an active goal
    is armed, cancelled once when its time is up, timed out only when that is confirmed, and alone. -/
theorem timeout_guard (hasProvider : Bool) (goalTimeoutMs wallMs : Int) (calls : List Call)
    (hclock : ∀ call ∈ calls, ∀ ms ∈ call.steadyReadings, 0 < ms)
    (hleads : Along step (fun s call => s.misleads call = false)
      { service := .init hasProvider goalTimeoutMs wallMs } calls) :
    Along step TimeoutGuard { service := .init hasProvider goalTimeoutMs wallMs } calls :=
  Along.of_invariant (I := Inv)
    (fun _ call h hcall => h.step call hcall.1 hcall.2)
    (fun _ call h hcall => h.timeoutGuard hcall.1 (h.step call hcall.1 hcall.2))
    (Inv.init ..) (hleads.and (along_of_forall (fun call hcall _ => hclock call hcall) _))

def reported (state : NavigationState) : NavigationStatus := { state := state, goalId := "a" }

def refreshAt (steadyNowMs : Int) (state : NavigationState) : Refresh :=
  { steadyNowMs := steadyNowMs, wallNowMs := steadyNowMs, refreshed := reported state
    cancellation := reported .executing }

def acceptCall : Call :=
  .submit { goalId := "a", target := {} } (refreshAt 1000 .idle) (reported .accepted) 1000 1000 1000

def start : Watched := { service := .init true 100 1000 }

/-- A goal that does not end is cancelled once, at its timeout. -/
def stalledCalls : List Call :=
  [acceptCall, .get (refreshAt 1050 .executing), .get (refreshAt 1100 .executing),
   .cancel "a" (refreshAt 1150 .executing) (reported .executing) 1150,
   .get (refreshAt 1200 .cancelled)]

theorem timeout_guard_stalled : Along step TimeoutGuard start stalledCalls :=
  timeout_guard true 100 1000 stalledCalls (by decide) (by decide +kernel)

/-- A goal, and an answer that says `disconnected`. -/
def transientCalls : List Call := [acceptCall, .get (refreshAt 1010 .disconnected)]

/-- The goal is executing again. -/
def backCall : Call := .get (refreshAt 1020 .executing)

/-- **The disarmed goal.**  It is active again, its timeout is not armed, and at a call that comes far
    too late the provider is asked one thing: the status. -/
theorem disarmed_by_disconnect :
    ¬ Along step TimeoutGuard start (transientCalls ++ [backCall]) ∧
      ((run step start transientCalls).step backCall).1.service.status.state = .executing ∧
      ((run step start transientCalls).step backCall).1.service.acceptedAtSteadyMs = 0 ∧
      (((run step start transientCalls).step backCall).1.step
        (.get (refreshAt 1000000 .executing))).2.exchanges.length = 1 := by
  have hstate : ((run step start transientCalls).step backCall).1.service.status.state
      = .executing := by decide +kernel
  have hzero : ((run step start transientCalls).step backCall).1.service.acceptedAtSteadyMs = 0 := by
    decide +kernel
  refine ⟨fun halong => ?_, hstate, hzero, by decide +kernel⟩
  have hguard : TimeoutGuard (run step start transientCalls) backCall :=
    ((along_append ..).1 halong).2.1
  have hactive : ((run step start transientCalls).step backCall).1.service.status.state.isActive := by
    rw [hstate]
    rfl
  obtain ⟨harmed, hpos⟩ := hguard.armed hactive
  have hunarmed := harmed.symm.trans hzero
  omega

end Watched

end Cockpit.Bridge
