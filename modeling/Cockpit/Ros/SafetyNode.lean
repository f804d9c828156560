/-
  `ChassisSafetyAdapterNode`: the ROS node around the chassis interlock.

  The node runs one callback at a time.  An interlock that is raised and lowered again between two ticks is
  never seen by an evaluation, so it has to cost the standing request at once.  A velocity message does that
  through `Submit`, a flag through `Reset`, a tick through `Evaluate`.  A heartbeat and a fault sample change
  the effective state too, and do not look at it.
-/
import Cockpit.Shield.Adapter

namespace Cockpit.ChassisSafety

open Cockpit.Vehicle Ieee754 StepRun

/-! ## Velocity messages -/

structure Vector3 where
  x : Binary64 := .ofInt 0
  y : Binary64 := .ofInt 0
  z : Binary64 := .ofInt 0

/-- `geometry_msgs/Twist`. -/
structure Twist where
  linear : Vector3 := {}
  angular : Vector3 := {}

/-- `ToDifferentialDriveRequest`: finite components, and none that the drive cannot follow. -/
def toDifferentialDriveRequest (message : Twist) : Except String ChassisVelocityRequest :=
  let components := [message.linear.x, message.linear.y, message.linear.z, message.angular.x,
    message.angular.y, message.angular.z]
  if components.any (!·.isFinite) then .error "Twist components must all be finite"
  else if !message.linear.y.isZero || !message.linear.z.isZero || !message.angular.x.isZero
      || !message.angular.y.isZero then
    .error "differential chassis only supports linear.x and angular.z"
  else .ok { linearVelocityMS := message.linear.x, angularVelocityRadS := message.angular.z }

/-! ## The node -/

/-- The adapter, the tracker, and the flags that the interlock topics set. -/
structure ChassisSafetyAdapterNode where
  adapter : ChassisSafetyAdapter
  stateTracker : ChassisSafetyStateTracker
  state : ChassisSafetyState := {}
  allowTestStateOverride : Bool := false
  testPeerAlive : Bool := false
  testChassisFault : Bool := true

namespace ChassisSafetyAdapterNode

/-- The constructor, given the node's parameters. -/
def init (policy : ChassisSafetyPolicy) (freshness : ChassisStateFreshnessPolicy)
    (state : ChassisSafetyState) (allowTestStateOverride testPeerAlive testChassisFault : Bool) :
    Except String ChassisSafetyAdapterNode :=
  if !policy.isValid then .error "invalid chassis safety parameters"
  else if !freshness.isValid then .error "invalid chassis state freshness parameters"
  else
    .ok { adapter := { policy := policy }, stateTracker := { policy := freshness }, state := state,
          allowTestStateOverride := allowTestStateOverride, testPeerAlive := testPeerAlive,
          testChassisFault := testChassisFault }

/-- `EffectiveState`: under test the two inputs of the tracker are overridden. -/
def effectiveState (node : ChassisSafetyAdapterNode) (steadyNowMs : Int) : ChassisSafetyState :=
  if node.allowTestStateOverride then
    { node.state with peerAlive := node.testPeerAlive, chassisFault := node.testChassisFault }
  else node.stateTracker.evaluate node.state steadyNowMs

/-- `SafetyReady`. -/
def safetyReady (node : ChassisSafetyAdapterNode) (steadyNowMs : Int) : Bool :=
  (node.effectiveState steadyNowMs).ready

end ChassisSafetyAdapterNode

/-- A callback of the node, with the steady time that it reads. -/
inductive Callback where
  | cmdVel (message : Twist) (nowMs : Int)
  | enable (data : Bool) (nowMs : Int)
  | authority (data : Bool) (nowMs : Int)
  | emergencyStop (data : Bool) (nowMs : Int)
  | testPeerAlive (data : Bool) (nowMs : Int)
  | testChassisFault (data : Bool) (nowMs : Int)
  | peerHeartbeat (nowMs : Int)
  | chassisFaultSample (data : Bool) (nowMs : Int)
  | timer (nowMs : Int)

/-- The steady time of the callback. -/
def Callback.nowMs : Callback → Int
  | .cmdVel _ nowMs | .enable _ nowMs | .authority _ nowMs | .emergencyStop _ nowMs
  | .testPeerAlive _ nowMs | .testChassisFault _ nowMs | .peerHeartbeat nowMs
  | .chassisFaultSample _ nowMs | .timer nowMs => nowMs

/-- What a callback does to the outside: it publishes a command, or logs why it refused. -/
inductive Reaction where
  | published (command : SafeChassisCommand)
  | accepted
  | rejected (error : String)
  | quiet

namespace ChassisSafetyAdapterNode

/-- A velocity message is submitted, or rejects what stands. -/
def cmdVel (node : ChassisSafetyAdapterNode) (message : Twist) (nowMs : Int) : ChassisSafetyAdapterNode × Reaction :=
  match toDifferentialDriveRequest message with
  | .error error =>
    ({ node with adapter := node.adapter.rejectInvalidCommand nowMs },
      .rejected ("rejected cmd_vel: " ++ error))
  | .ok request =>
    match node.adapter.submit request (node.effectiveState nowMs) nowMs with
    | (adapter, .error error) =>
      ({ node with adapter := adapter }, .rejected ("rejected cmd_vel: " ++ error))
    | (adapter, .ok ()) => ({ node with adapter := adapter }, .accepted)

/-- The end of a `BoolSubscription` callback: the flag is set, and an unsafe state resets. -/
def resetUnlessReady (node : ChassisSafetyAdapterNode) (nowMs : Int) : ChassisSafetyAdapterNode :=
  if !node.safetyReady nowMs then { node with adapter := node.adapter.reset nowMs } else node

/-- A heartbeat of the peer goes to the tracker. -/
def peerHeartbeat (node : ChassisSafetyAdapterNode) (nowMs : Int) : ChassisSafetyAdapterNode × Reaction :=
  let (stateTracker, updated) := node.stateTracker.updatePeerHeartbeat nowMs
  ({ node with stateTracker := stateTracker },
    if updated then .quiet else .rejected "rejected regressing peer heartbeat timestamp")

/-- So does a fault sample. -/
def chassisFaultSample (node : ChassisSafetyAdapterNode) (data : Bool) (nowMs : Int) :
    ChassisSafetyAdapterNode × Reaction :=
  let (stateTracker, updated) := node.stateTracker.updateChassisFault data nowMs
  ({ node with stateTracker := stateTracker },
    if updated then .quiet else .rejected "rejected regressing chassis fault timestamp")

/-- Evaluate the adapter and publish its command. -/
def timer (node : ChassisSafetyAdapterNode) (nowMs : Int) : ChassisSafetyAdapterNode × Reaction :=
  let (adapter, command) := node.adapter.evaluate (node.effectiveState nowMs) nowMs
  ({ node with adapter := adapter }, .published command)

/-- One callback.  The two test topics are subscribed only when the override is allowed, so a
    production node has none of theirs. -/
def call (node : ChassisSafetyAdapterNode) : Callback → ChassisSafetyAdapterNode × Reaction
  | .cmdVel message nowMs => node.cmdVel message nowMs
  | .enable data nowMs =>
    (resetUnlessReady { node with state := { node.state with enabled := data } } nowMs, .quiet)
  | .authority data nowMs =>
    (resetUnlessReady { node with state := { node.state with authorityGranted := data } } nowMs,
      .quiet)
  | .emergencyStop data nowMs =>
    (resetUnlessReady { node with state := { node.state with emergencyStop := data } } nowMs,
      .quiet)
  | .testPeerAlive data nowMs =>
    (resetUnlessReady { node with testPeerAlive := data } nowMs, .quiet)
  | .testChassisFault data nowMs =>
    (resetUnlessReady { node with testChassisFault := data } nowMs, .quiet)
  | .peerHeartbeat nowMs => node.peerHeartbeat nowMs
  | .chassisFaultSample data nowMs => node.chassisFaultSample data nowMs
  | .timer nowMs => node.timer nowMs

/-! ## What a callback does to the request on file -/

section Callbacks

variable {node : ChassisSafetyAdapterNode}

/-- A command is accepted while all is well, and else the request is gone. -/
theorem cmdVel_cases (message : Twist) (nowMs : Int) :
    ((node.cmdVel message nowMs).2 = .accepted ∧ node.safetyReady nowMs = true) ∨
    (node.cmdVel message nowMs).1.adapter.request = none := by
  unfold cmdVel
  cases toDifferentialDriveRequest message with
  | error error => exact .inr rfl
  | ok request =>
    have hcases := node.adapter.submit_cases request (node.effectiveState nowMs) nowMs
    rcases hsubmit : node.adapter.submit request (node.effectiveState nowMs) nowMs with
      ⟨adapter, result⟩
    rw [hsubmit] at hcases
    simp only [hsubmit]
    rcases hcases with ⟨hok, hready, _⟩ | ⟨error, herror, hnone⟩
    · cases hok
      exact .inl ⟨rfl, hready⟩
    · cases herror
      exact .inr hnone

theorem cmdVel_safetyReady (message : Twist) (nowMs steadyNowMs : Int) :
    (node.cmdVel message nowMs).1.safetyReady steadyNowMs = node.safetyReady steadyNowMs := by
  unfold cmdVel
  repeat' first | rfl | split

theorem resetUnlessReady_request (nowMs : Int) (h : (node.resetUnlessReady nowMs).safetyReady nowMs = false) :
    (node.resetUnlessReady nowMs).adapter.request = none := by
  unfold resetUnlessReady at h ⊢
  split
  · rfl
  · rename_i hready
    rw [if_neg hready] at h
    simp [h] at hready

theorem resetUnlessReady_request_of_none (nowMs : Int) (h : node.adapter.request = none) :
    (node.resetUnlessReady nowMs).adapter.request = none := by
  unfold resetUnlessReady
  split
  · rfl
  · exact h

theorem evaluate_enabled_of_none {adapter : ChassisSafetyAdapter}
    (h : adapter.request = none) (state : ChassisSafetyState) (nowMs : Int) :
    (adapter.evaluate state nowMs).2.enabled = false := by
  cases henabled : (adapter.evaluate state nowMs).2.enabled with
  | false => rfl
  | true =>
    have hsome := ChassisSafetyAdapter.request_isSome_of_enabled henabled
    rw [h] at hsome
    cases hsome

theorem timer_published (node : ChassisSafetyAdapterNode) (nowMs : Int) : (node.call (.timer nowMs)).2
      = .published (node.adapter.evaluate (node.effectiveState nowMs) nowMs).2 := rfl

theorem timer_request (nowMs : Int) (h : (node.timer nowMs).1.safetyReady nowMs = false) :
    (node.timer nowMs).1.adapter.request = none := by
  have hready : (node.effectiveState nowMs).ready = false := h
  refine (ChassisSafetyAdapter.evaluate_disabled ?_).1
  cases henabled : (node.adapter.evaluate (node.effectiveState nowMs) nowMs).2.enabled with
  | false => rfl
  | true =>
    rw [ChassisSafetyAdapter.ready_of_enabled henabled] at hready
    cases hready

end Callbacks

/-! ## The law -/

/-- A velocity message that `Submit` accepts. -/
def AcceptsCmdVel (node : ChassisSafetyAdapterNode) : Callback → Prop
  | .cmdVel message nowMs => (node.cmdVel message nowMs).2 = .accepted
  | _ => False

/-- A heartbeat or a fault sample that leaves an unsafe state and a request on file. -/
def KeepsRequestUnready (node : ChassisSafetyAdapterNode) : Callback → Prop
  | .peerHeartbeat nowMs =>
    (node.peerHeartbeat nowMs).1.safetyReady nowMs = false ∧ node.adapter.request.isSome = true
  | .chassisFaultSample data nowMs =>
    (node.chassisFaultSample data nowMs).1.safetyReady nowMs = false
      ∧ node.adapter.request.isSome = true
  | _ => False

instance (node : ChassisSafetyAdapterNode) :
    (callback : Callback) → Decidable (node.KeepsRequestUnready callback)
  | .peerHeartbeat _ | .chassisFaultSample _ _ => inferInstanceAs (Decidable (_ ∧ _))
  | .cmdVel _ _ | .enable _ _ | .authority _ _ | .emergencyStop _ _ | .testPeerAlive _ _
  | .testChassisFault _ _ | .timer _ => inferInstanceAs (Decidable False)

/-- After a callback that ends in an unsafe state no tick publishes an enabled command, until a
    later velocity message has been accepted. -/
def PulseLaw (node : ChassisSafetyAdapterNode) (callbacks : List Callback) : Prop :=
  ∀ earlier callback later nowMs rest,
    callbacks = earlier ++ callback :: (later ++ .timer nowMs :: rest) →
    let s₀ := run call node earlier
    let s₁ := (s₀.call callback).1
    let s₂ := run call s₁ later
    s₁.safetyReady callback.nowMs = false →
    Along call (fun s c => ¬ s.AcceptsCmdVel c) s₁ later →
    ∀ command, (s₂.call (.timer nowMs)).2 = .published command → command.enabled = false

variable {node : ChassisSafetyAdapterNode}

theorem call_request_of_unready {callback : Callback} (hkeeps : ¬ node.KeepsRequestUnready callback)
    (hunready : (node.call callback).1.safetyReady callback.nowMs = false) :
    (node.call callback).1.adapter.request = none := by
  have hnone : ∀ {request : Option ChassisVelocityRequest}, request.isSome ≠ true →
      request = none := fun h => Option.not_isSome_iff_eq_none.mp h
  cases callback with
  | cmdVel message nowMs =>
    rcases node.cmdVel_cases message nowMs with ⟨_, hready⟩ | hnone
    · have hsame : (node.cmdVel message nowMs).1.safetyReady nowMs = false := hunready
      rw [cmdVel_safetyReady, hready] at hsame
      cases hsame
    · exact hnone
  | enable data nowMs | authority data nowMs | emergencyStop data nowMs | testPeerAlive data nowMs
  | testChassisFault data nowMs => exact resetUnlessReady_request nowMs hunready
  | peerHeartbeat nowMs | chassisFaultSample data nowMs => exact hnone fun hsome => hkeeps ⟨hunready, hsome⟩
  | timer nowMs => exact timer_request nowMs hunready

theorem call_request_of_none {callback : Callback} (hnone : node.adapter.request = none)
    (haccepts : ¬ node.AcceptsCmdVel callback) : (node.call callback).1.adapter.request = none := by
  cases callback with
  | cmdVel message nowMs =>
    rcases node.cmdVel_cases message nowMs with ⟨hacc, _⟩ | hnone'
    · exact absurd hacc haccepts
    · exact hnone'
  | enable data nowMs | authority data nowMs | emergencyStop data nowMs | testPeerAlive data nowMs
  | testChassisFault data nowMs => exact resetUnlessReady_request_of_none nowMs hnone
  | peerHeartbeat nowMs | chassisFaultSample data nowMs => exact hnone
  | timer nowMs =>
    refine (ChassisSafetyAdapter.evaluate_disabled ?_).1
    exact evaluate_enabled_of_none hnone _ _

/-- The node as it comes up with `enabled` and `authority_granted` set. -/
def armedNode : ChassisSafetyAdapterNode where
  adapter := { policy := {} }
  stateTracker := { policy := {} }
  state := { enabled := true, authorityGranted := true }

/-- The peer reports, a request of 0.25 m/s is accepted, and between two ticks the fault is raised
    and cleared again; `more` comes in between. -/
def faultPulse (more : List Callback) : List Callback :=
  [.peerHeartbeat 1000, .chassisFaultSample false 1000,
    .cmdVel { linear := { x := .ofUnits false (2 ^ 1074) 2 } } 1001] ++ more
    ++ [.chassisFaultSample true 1005, .chassisFaultSample false 1010, .timer 1020]

/-- **No interlock pulse is missed** along a run in which no heartbeat and no fault sample ends in an
    unsafe state with a request on file. -/
theorem pulseLaw_of_along (node : ChassisSafetyAdapterNode) (callbacks : List Callback)
    (hkeeps : Along call (fun s c => ¬ s.KeepsRequestUnready c) node callbacks) :
    PulseLaw node callbacks := by
  rintro earlier callback later nowMs rest rfl
  intro s₀ s₁ s₂ hunready haccepts command hpub
  rw [along_append, along_cons] at hkeeps
  have hnone : s₁.adapter.request = none := call_request_of_unready hkeeps.2.1 hunready
  have hnone' : s₂.adapter.request = none :=
    Along.invariant (I := fun s => s.adapter.request = none)
      (fun _ _ hs hP => call_request_of_none hs hP) hnone haccepts
  cases hpub
  exact evaluate_enabled_of_none hnone' _ _

theorem pulseLaw_stopped_first :
    PulseLaw armedNode (faultPulse [.emergencyStop true 1002, .emergencyStop false 1003]) :=
  pulseLaw_of_along _ _ (by decide +kernel)

theorem pulseLaw_fails :
    init {} {} { enabled := true, authorityGranted := true } false false true = .ok armedNode
      ∧ ¬ PulseLaw armedNode (faultPulse []) := by
  refine ⟨rfl, fun hlaw => ?_⟩
  have hstop := hlaw [.peerHeartbeat 1000, .chassisFaultSample false 1000,
    .cmdVel { linear := { x := .ofUnits false (2 ^ 1074) 2 } } 1001]
    (.chassisFaultSample true 1005) [.chassisFaultSample false 1010] 1020 [] rfl
    (by decide +kernel) ⟨id, trivial⟩ _ (timer_published _ 1020)
  exact absurd hstop (by decide +kernel)

end ChassisSafetyAdapterNode

end Cockpit.ChassisSafety
