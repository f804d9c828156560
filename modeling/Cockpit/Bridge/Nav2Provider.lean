/-
  `Ros2Nav2Provider`: the bridge's navigation provider over a Nav2 action client. One thread calls it, one call
  at a time; the executor's thread runs the action client's callbacks, one at a time.
-/
import Cockpit.Lib.StepRun
import Cockpit.Bridge.Navigation

namespace Cockpit.Bridge

/-! ## The action client -/

/-- `rclcpp_action::ResultCode`. -/
inductive ResultCode where
  | unknown
  | succeeded
  | canceled
  | aborted
  deriving DecidableEq

/-- What the action server has made of a goal. -/
inductive ServerPhase where
  | undecided
  | accepted
  | rejected
  | finished (code : ResultCode)
  deriving DecidableEq

/-- What the action client has heard of a goal: nothing yet, the response in the future, the response
    in the callback, the result. -/
inductive ClientPhase where
  | waiting
  | answered
  | responded
  | resulted
  deriving DecidableEq

/-- A goal that was sent, with the generation that its callbacks captured.  The last field is no
    part of the code: it marks a goal whose acknowledgement was recorded as timed out. -/
structure Goal where
  generation : UInt64
  target : NavigationPose
  server : ServerPhase := .undecided
  client : ClientPhase := .waiting
  acknowledgementTimedOut : Bool := false

/-- A goal handle is the place of its goal among those sent. -/
abbrev GoalHandle := Nat

/-- A cancel request; its response says if `goals_canceling` names a goal. -/
structure CancelRequest where
  handle : GoalHandle
  goalsCanceling : Option Bool := none

/-- All goals and cancellations that were ever requested, oldest first. -/
structure ActionClient where
  goals : List Goal := []
  cancels : List CancelRequest := []

namespace ActionClient

/-- Request a goal. -/
def asyncSendGoal (client : ActionClient) (target : NavigationPose) (generation : UInt64) : ActionClient :=
  { client with goals := client.goals ++ [{ generation := generation, target := target }] }

/-- Request the cancellation of one goal. -/
def asyncCancelGoal (client : ActionClient) (handle : GoalHandle) : ActionClient :=
  { client with cancels := client.cancels ++ [{ handle := handle }] }

def updateGoal (client : ActionClient) (i : Nat) (f : Goal → Goal) : ActionClient :=
  { client with goals := client.goals.modify i f }

@[simp] theorem length_updateGoal (client : ActionClient) (i : Nat) (f : Goal → Goal) :
    (client.updateGoal i f).goals.length = client.goals.length :=
  List.length_modify ..

variable {client : ActionClient}

theorem getElem?_asyncSendGoal {target : NavigationPose} {generation : UInt64} {i : Nat} {g : Goal}
    (h : (client.asyncSendGoal target generation).goals[i]? = some g) :
    client.goals[i]? = some g ∨
      (i = client.goals.length ∧ g = { generation := generation, target := target }) := by
  rw [asyncSendGoal] at h
  by_cases hi : i < client.goals.length
  · rw [List.getElem?_append_left hi] at h
    exact .inl h
  · obtain ⟨hlt, -⟩ := List.getElem?_eq_some_iff.1 h
    rw [List.length_append, List.length_singleton] at hlt
    obtain rfl : i = client.goals.length := by omega
    rw [List.getElem?_concat_length] at h
    exact .inr ⟨rfl, (Option.some.inj h).symm⟩

theorem getElem?_updateGoal {i j : Nat} {f : Goal → Goal} {g : Goal} (h : (client.updateGoal i f).goals[j]? = some g) :
    ∃ g₀, client.goals[j]? = some g₀ ∧ g = if i = j then f g₀ else g₀ := by
  rw [updateGoal, List.getElem?_modify] at h
  obtain ⟨g₀, hg₀, rfl⟩ := Option.map_eq_some_iff.1 h
  exact ⟨g₀, hg₀, rfl⟩

/-- What the future of a goal's response holds, when it is ready. -/
def goalFuture (client : ActionClient) (i : Nat) : Option (Option GoalHandle) :=
  match client.goals[i]? with
  | some goal =>
    if goal.client = .waiting then none
    else some (if goal.server = .rejected then none else some i)
  | none => none

theorem goalFuture_eq_some {i : Nat} {handle : Option GoalHandle} (h : client.goalFuture i = some handle) :
    ∃ g, client.goals[i]? = some g ∧ g.client ≠ .waiting ∧ (handle = none → g.server = .rejected) := by
  unfold goalFuture at h
  split at h
  case h_2 => cases h
  case h_1 g hg =>
    by_cases hwaiting : g.client = .waiting
    · rw [if_pos hwaiting] at h
      cases h
    · rw [if_neg hwaiting] at h
      refine ⟨g, hg, hwaiting, fun hnull => ?_⟩
      by_cases hrejected : g.server = .rejected
      · exact hrejected
      · rw [if_neg hrejected, hnull] at h
        cases h

/-- Whether a goal is being cancelled, when the answer is there. -/
def cancelFuture (client : ActionClient) (k : Nat) : Option Bool :=
  client.cancels[k]?.bind (·.goalsCanceling)

end ActionClient

/-! ## The provider -/

/-- The provider's fields, and the action client it owns. -/
structure Ros2Nav2Provider where
  client : ActionClient := {}
  status : NavigationStatus :=
    { state := .disconnected, message := "waiting for Nav2 action server" }
  goalHandle : Option GoalHandle := none
  generation : UInt64 := 0
  pendingGeneration : UInt64 := 0
  pendingAck : Bool := false
  pendingCancel : Bool := false
  pendingAckFuture : Option Nat := none
  pendingCancelFuture : Option Nat := none
  pendingCancelHandle : Option GoalHandle := none

namespace Ros2Nav2Provider

/-- The guard of `SubmitNavigationGoal`. -/
def refusesGoals (p : Ros2Nav2Provider) : Bool :=
  p.pendingAck || p.pendingCancel || p.status.state.isActive

def acknowledged (p : Ros2Nav2Provider) : Ros2Nav2Provider :=
  { p with pendingAck := false, pendingAckFuture := none }

/-- Ask for the end of a goal whose acceptance came too late. -/
def cancelUncertainGoal (p : Ros2Nav2Provider) (handle : GoalHandle) : Ros2Nav2Provider :=
  { p with
    goalHandle := some handle
    pendingCancel := true
    pendingCancelHandle := some handle
    status := { p.status with
      state := .disconnected
      message := "delayed Nav2 goal accepted; cancelling uncertain goal"
      lastError := "goal acknowledgement timed out; cancellation requested" }
    client := p.client.asyncCancelGoal handle
    pendingCancelFuture := some p.client.cancels.length }

def rejected (p : Ros2Nav2Provider) (error : String) : Ros2Nav2Provider :=
  { p with status := { p.status with state := .rejected, lastError := error } }

/-- The response to a goal, from the callback or from a call that finds the future ready. -/
def handleGoalResponseLocked (p : Ros2Nav2Provider) (generation : UInt64)
    (handle : Option GoalHandle) : Ros2Nav2Provider :=
  if generation ≠ p.generation then p
  else match handle with
    | none => p.acknowledged.rejected "Nav2 rejected navigation goal"
    | some handle =>
      if p.status.state = .disconnected then p.acknowledged.cancelUncertainGoal handle
      else if p.status.state.isActive then
        { p.acknowledged with
          goalHandle := some handle
          status := { p.status with message := "Nav2 accepted navigation goal" } }
      else { p.acknowledged with goalHandle := some handle }

/-- Look at the future of a goal whose acknowledgement timed out. -/
def resolvePendingAckLocked (p : Ros2Nav2Provider) : Ros2Nav2Provider :=
  if !p.pendingAck then p
  else match p.pendingAckFuture.bind p.client.goalFuture with
    | none => p
    | some handle =>
      if p.pendingGeneration ≠ p.generation then p.acknowledged
      else match handle with
        | none => p.acknowledged.rejected "Nav2 rejected delayed navigation goal"
        | some handle => p.acknowledged.cancelUncertainGoal handle

/-! ### The callbacks -/

def feedbackCallback (p : Ros2Nav2Provider) (generation : UInt64) (pose : NavigationPose) : Ros2Nav2Provider :=
  if generation ≠ p.generation || !p.status.state.isActive then p
  else
    { p with status := { p.status with
      state := .executing
      currentPose := pose
      currentPoseValid := true
      message := "Nav2 navigation executing" } }

/-- The status for a result. -/
def resultStatus (status : NavigationStatus) : ResultCode → NavigationStatus
  | .succeeded =>
    { status with state := .succeeded, message := "Nav2 navigation succeeded", lastError := "" }
  | .canceled => { status with state := .cancelled, message := "Nav2 navigation cancelled" }
  | .aborted => { status with state := .failed, lastError := "Nav2 navigation aborted" }
  | .unknown => { status with state := .failed, lastError := "Nav2 returned an unknown result" }

def resultCallback (p : Ros2Nav2Provider) (generation : UInt64) (code : ResultCode) : Ros2Nav2Provider :=
  if generation ≠ p.generation then p
  else
    { p with
      pendingCancel := false
      pendingCancelHandle := none
      pendingCancelFuture := none
      status := resultStatus p.status code
      goalHandle := none }

/-! ### The blocks of `SubmitNavigationGoal` -/

def serverUnavailable (p : Ros2Nav2Provider) (goal : NavigationGoal) : Ros2Nav2Provider :=
  { p with status := {
    state := .disconnected
    goalId := goal.goalId
    target := goal.target
    lastError := "Nav2 action server unavailable" } }

def refuseGoal (p : Ros2Nav2Provider) : Ros2Nav2Provider :=
  { p with status := { p.status with lastError := "Nav2 goal acknowledgement is still pending" } }

/-- Take a generation for the goal before it is requested. -/
def reserveGoal (p : Ros2Nav2Provider) (goal : NavigationGoal) : Ros2Nav2Provider :=
  { p with
    generation := p.generation + 1
    status := {
      state := .accepted
      goalId := goal.goalId
      target := goal.target
      message := "waiting for Nav2 goal acknowledgement" } }

def awaitAcknowledgement (p : Ros2Nav2Provider) (generation : UInt64) : Ros2Nav2Provider :=
  { p with pendingAck := true, pendingGeneration := generation }

def sendGoal (p : Ros2Nav2Provider) (goal : NavigationGoal) (generation : UInt64) : Ros2Nav2Provider :=
  { p with client := p.client.asyncSendGoal goal.target generation }

/-- The wait for the acknowledgement timed out: keep the future for later. -/
def keepFuture (p : Ros2Nav2Provider) (generation : UInt64) (i : Nat) : Ros2Nav2Provider :=
  if p.pendingAck && p.pendingGeneration = generation then { p with pendingAckFuture := some i }
  else p

def acknowledgementTimedOut (p : Ros2Nav2Provider) : Ros2Nav2Provider :=
  { p with status := { p.status with
    state := .disconnected
    message := "Nav2 goal acknowledgement pending; refusing new goals"
    lastError := "Nav2 goal acknowledgement timed out; cancellation will be attempted if accepted" } }

def acknowledgementReady (p : Ros2Nav2Provider) (generation : UInt64) (handle : Option GoalHandle) :
    Ros2Nav2Provider :=
  if p.pendingAck && p.pendingGeneration = generation then p.handleGoalResponseLocked generation handle
  else p

/-! ### The blocks of the other calls -/

def noteCancel (p : Ros2Nav2Provider) (error : String) : Ros2Nav2Provider :=
  { p with status := { p.status with lastError := error } }

def awaitCancellation (p : Ros2Nav2Provider) : Ros2Nav2Provider :=
  { p with status := { p.status with message := "waiting for Nav2 cancellation result" } }

/-- Look at the future of a cancellation. -/
def checkPendingCancel (p : Ros2Nav2Provider) : Ros2Nav2Provider :=
  if !p.pendingCancel then p
  else match p.pendingCancelFuture.bind p.client.cancelFuture with
    | none => p
    | some true => { p with pendingCancelFuture := none }
    | some false =>
      { p with
        pendingCancelFuture := none
        status := { p.status with
          state := .disconnected
          message := "Nav2 rejected cancellation of uncertain goal; retaining guard"
          lastError := "Nav2 rejected cancellation of uncertain goal; retaining guard" } }

/-- `idle` and `disconnected` follow the server's readiness. -/
def refreshConnection (p : Ros2Nav2Provider) (serverReady : Bool) : Ros2Nav2Provider :=
  if p.pendingAck || p.pendingCancel then p
  else if p.status.state = .idle && !serverReady then
    { p with status := { p.status with
      state := .disconnected
      message := "Nav2 action server unavailable"
      lastError := "Nav2 action server unavailable" } }
  else if p.status.state = .disconnected && serverReady then
    { p with status := { state := .idle, message := "Nav2 action server ready" } }
  else p

def getNavigationStatus (p : Ros2Nav2Provider) (serverReady : Bool) : Ros2Nav2Provider :=
  p.resolvePendingAckLocked.checkPendingCancel.refreshConnection serverReady

/-! ### What the blocks leave alone -/

/-- The goals that were sent and the generation are the same. -/
structure SameGoals (p p' : Ros2Nav2Provider) : Prop where
  goals : p'.client.goals = p.client.goals
  generation : p'.generation = p.generation

theorem SameGoals.refl (p : Ros2Nav2Provider) : SameGoals p p := ⟨rfl, rfl⟩

theorem SameGoals.trans {p p' p'' : Ros2Nav2Provider} (h : SameGoals p p') (h' : SameGoals p' p'') :
    SameGoals p p'' :=
  ⟨h'.goals.trans h.goals, h'.generation.trans h.generation⟩

variable (p : Ros2Nav2Provider)

theorem length_sendGoal (goal : NavigationGoal) (generation : UInt64) :
    (p.sendGoal goal generation).client.goals.length = p.client.goals.length + 1 :=
  List.length_append

theorem sameGoals_handleGoalResponseLocked (generation : UInt64) (handle : Option GoalHandle) :
    SameGoals p (p.handleGoalResponseLocked generation handle) := by
  unfold handleGoalResponseLocked
  split
  · exact .refl p
  · split
    · exact ⟨rfl, rfl⟩
    · split
      · exact ⟨rfl, rfl⟩
      · split <;> exact ⟨rfl, rfl⟩

theorem sameGoals_resolvePendingAckLocked : SameGoals p p.resolvePendingAckLocked := by
  unfold resolvePendingAckLocked
  split
  · exact .refl p
  · split
    · exact .refl p
    · split
      · exact ⟨rfl, rfl⟩
      · split <;> exact ⟨rfl, rfl⟩

theorem sameGoals_feedbackCallback (generation : UInt64) (pose : NavigationPose) :
    SameGoals p (p.feedbackCallback generation pose) := by
  unfold feedbackCallback
  split <;> exact ⟨rfl, rfl⟩

theorem sameGoals_resultCallback (generation : UInt64) (code : ResultCode) :
    SameGoals p (p.resultCallback generation code) := by
  unfold resultCallback
  split <;> exact ⟨rfl, rfl⟩

theorem sameGoals_keepFuture (generation : UInt64) (i : Nat) : SameGoals p (p.keepFuture generation i) := by
  unfold keepFuture
  split <;> exact ⟨rfl, rfl⟩

theorem sameGoals_acknowledgementReady (generation : UInt64) (handle : Option GoalHandle) :
    SameGoals p (p.acknowledgementReady generation handle) := by
  unfold acknowledgementReady
  split
  · exact p.sameGoals_handleGoalResponseLocked generation handle
  · exact .refl p

theorem sameGoals_checkPendingCancel : SameGoals p p.checkPendingCancel := by
  unfold checkPendingCancel
  split
  · exact .refl p
  · split <;> exact ⟨rfl, rfl⟩

theorem sameGoals_refreshConnection (serverReady : Bool) : SameGoals p (p.refreshConnection serverReady) := by
  unfold refreshConnection
  split
  · exact .refl p
  · split
    · exact ⟨rfl, rfl⟩
    · split <;> exact ⟨rfl, rfl⟩

theorem sameGoals_getNavigationStatus (serverReady : Bool) : SameGoals p (p.getNavigationStatus serverReady) :=
  (p.sameGoals_resolvePendingAckLocked.trans (sameGoals_checkPendingCancel _)).trans
    (sameGoals_refreshConnection _ serverReady)

end Ros2Nav2Provider

/-! ## The steps -/

/-- Where the calling thread is: in no call, or before the block or wait that it does next. -/
inductive Caller where
  | idle
  | submitServer (goal : NavigationGoal)
  | submitReserve (goal : NavigationGoal)
  | submitPending (goal : NavigationGoal) (generation : UInt64)
  | submitSend (goal : NavigationGoal) (generation : UInt64)
  | submitFuture (generation : UInt64) (i : Nat)
  | submitWait (generation : UInt64) (i : Nat)
  | submitTimedOut (generation : UInt64) (i : Nat)
  | submitReady (generation : UInt64) (i : Nat)
  | cancelLock (goalId : String)
  | cancelSend (handle : GoalHandle)
  | cancelWait (k : Nat)
  | cancelTimedOut
  | cancelReady (k : Nat)
  | cancelResult
  | statusServer
  | statusLock (serverReady : Bool)

def Ros2Nav2Provider.returns (p : Ros2Nav2Provider) : Ros2Nav2Provider × Caller × Option NavigationStatus :=
  (p, .idle, some p.status)

/-- A call, what it learns of the server, its next block, or the outcome of its wait. -/
inductive CallerEvent where
  | submitNavigationGoal (goal : NavigationGoal)
  | cancelNavigationGoal (goalId : String)
  | getNavigationStatus
  /-- The answer to the question whether the action server is there. -/
  | server (ready : Bool)
  /-- The next block or request. -/
  | proceed
  /-- The wait ends: with what it waits for if that is there, else by its timeout. -/
  | waited

/-- One block under `mutex_`, one request outside of it, or the outcome of one wait. -/
def callerStep (p : Ros2Nav2Provider) (caller : Caller) (event : CallerEvent) :
    Ros2Nav2Provider × Caller × Option NavigationStatus :=
  match caller, event with
  | .idle, .submitNavigationGoal goal => (p, .submitServer goal, none)
  | .idle, .cancelNavigationGoal goalId => (p, .cancelLock goalId, none)
  | .idle, .getNavigationStatus => (p, .statusServer, none)
  | .submitServer goal, .server true => (p, .submitReserve goal, none)
  | .submitServer goal, .server false => (p.serverUnavailable goal).returns
  | .submitReserve goal, .proceed =>
    if p.refusesGoals then p.refuseGoal.returns
    else (p.reserveGoal goal, .submitPending goal (p.generation + 1), none)
  | .submitPending goal generation, .proceed =>
    (p.awaitAcknowledgement generation, .submitSend goal generation, none)
  | .submitSend goal generation, .proceed =>
    (p.sendGoal goal generation, .submitFuture generation p.client.goals.length, none)
  | .submitFuture generation i, .proceed => (p.keepFuture generation i, .submitWait generation i, none)
  | .submitWait generation i, .waited =>
    if (p.client.goalFuture i).isSome then (p, .submitReady generation i, none)
    else (p, .submitTimedOut generation i, none)
  | .submitTimedOut _ i, .proceed =>
    { p.acknowledgementTimedOut with
      client := p.client.updateGoal i ({ · with acknowledgementTimedOut := true }) }.returns
  | .submitReady generation i, .proceed =>
    match p.client.goalFuture i with
    | none => (p, .submitReady generation i, none)
    | some handle => (p.acknowledgementReady generation handle).returns
  | .cancelLock goalId, .proceed =>
    if goalId ≠ p.status.goalId || !p.status.state.isActive then p.returns
    else match p.goalHandle with
      | none => (p, .statusServer, none)
      | some handle => (p, .cancelSend handle, none)
  | .cancelSend handle, .proceed =>
    ({ p with client := p.client.asyncCancelGoal handle }, .cancelWait p.client.cancels.length, none)
  | .cancelWait k, .waited =>
    if (p.client.cancelFuture k).isSome then (p, .cancelReady k, none) else (p, .cancelTimedOut, none)
  | .cancelTimedOut, .proceed => (p.noteCancel "Nav2 cancel acknowledgement timed out").returns
  | .cancelReady k, .proceed =>
    if p.client.cancelFuture k = some false then
      (p.noteCancel "Nav2 rejected navigation cancellation").returns
    else if p.status.state.isActive then (p.awaitCancellation, .cancelResult, none)
    else p.awaitCancellation.returns
  | .cancelResult, .waited =>
    if p.status.state.isActive then (p.noteCancel "Nav2 cancellation result timed out").returns
    else p.returns
  | .statusServer, .server ready => (p, .statusLock ready, none)
  | .statusLock ready, .proceed => (p.getNavigationStatus ready).returns
  | caller, _ => (p, caller, none)

/-- The action server decides and finishes goals on its own. -/
inductive ServerEvent where
  | accept (i : Nat)
  | reject (i : Nat)
  | finish (i : Nat) (code : ResultCode)

def Goal.moves (source target : ServerPhase) (goal : Goal) : Goal :=
  if goal.server = source then { goal with server := target } else goal

theorem Goal.generation_moves (source target : ServerPhase) (goal : Goal) :
    (goal.moves source target).generation = goal.generation := by
  unfold moves
  split <;> rfl

theorem Goal.client_moves (source target : ServerPhase) (goal : Goal) :
    (goal.moves source target).client = goal.client := by
  unfold moves
  split <;> rfl

theorem Goal.moves_of_ne {source target : ServerPhase} {goal : Goal} (h : goal.server ≠ source) :
    goal.moves source target = goal :=
  if_neg h

def serverStep (client : ActionClient) : ServerEvent → ActionClient
  | .accept i => client.updateGoal i (·.moves .undecided .accepted)
  | .reject i => client.updateGoal i (·.moves .undecided .rejected)
  | .finish i code => client.updateGoal i (·.moves .accepted (.finished code))

inductive ExecutorEvent where
  | goalResponse (i : Nat)
  | goalResponseCallback
  | feedback (i : Nat) (pose : NavigationPose)
  | result (i : Nat)
  | cancelResponse (k : Nat) (goalsCanceling : Bool)

/-- A response comes in two steps: the future becomes ready, then the callback takes the lock. -/
def executorStep (p : Ros2Nav2Provider) (running : Option Nat) (event : ExecutorEvent) :
    Ros2Nav2Provider × Option Nat :=
  match running, event with
  | none, .goalResponse i =>
    match p.client.goals[i]? with
    | some goal =>
      if goal.client = .waiting ∧ goal.server ≠ .undecided then
        ({ p with client := p.client.updateGoal i ({ · with client := .answered }) }, some i)
      else (p, none)
    | none => (p, none)
  | some i, .goalResponseCallback =>
    match p.client.goals[i]?, p.client.goalFuture i with
    | some goal, some handle =>
      let p := p.handleGoalResponseLocked goal.generation handle
      ({ p with client := p.client.updateGoal i ({ · with client := .responded }) }, none)
    | _, _ => (p, some i)
  | none, .feedback i pose =>
    match p.client.goals[i]? with
    | some goal =>
      if goal.server = .undecided ∨ goal.server = .rejected then (p, none)
      else (p.feedbackCallback goal.generation pose, none)
    | none => (p, none)
  | none, .result i =>
    match p.client.goals[i]? with
    | some goal =>
      match goal.client, goal.server with
      | .responded, .finished code =>
        let p := p.resultCallback goal.generation code
        ({ p with client := p.client.updateGoal i ({ · with client := .resulted }) }, none)
      | _, _ => (p, none)
    | none => (p, none)
  | none, .cancelResponse k goalsCanceling =>
    ({ p with client := { p.client with
      cancels := p.client.cancels.modify k fun request =>
        { request with goalsCanceling := request.goalsCanceling <|> some goalsCanceling } } }, none)
  | running, _ => (p, running)

/-- The provider, its caller, and the goal whose response callback is about to take the lock. -/
structure System where
  provider : Ros2Nav2Provider := {}
  caller : Caller := .idle
  executor : Option Nat := none

inductive Event where
  | caller (event : CallerEvent)
  | server (event : ServerEvent)
  | executor (event : ExecutorEvent)

def System.step (s : System) : Event → System × Option NavigationStatus
  | .caller event =>
    let (provider, caller, report) := callerStep s.provider s.caller event
    ({ s with provider := provider, caller := caller }, report)
  | .server event =>
    ({ s with provider := { s.provider with client := serverStep s.provider.client event } }, none)
  | .executor event =>
    let (provider, executor) := executorStep s.provider s.executor event
    ({ s with provider := provider, executor := executor }, none)

end Cockpit.Bridge
