/-
  `SocketCanChassisSink`: from a safe command to the CAN frame on the wire.

  Encoding can fail, and a failure would silence a stop as well as a motion command.  So the interlock is stated
  here for the adapter and its sink together.
-/
import Cockpit.Shield.Adapter
import Cockpit.Vehicle.Codec

namespace Cockpit.Vehicle

open Cockpit.Can

namespace SocketCanChassisSink

/-- The velocity message of a command: a command that is not enabled travels with zero
    velocities. -/
def velocityCommand (command : SafeChassisCommand) : ChassisVelocityCommand where
  enabled := command.enabled
  sequence := command.sequence
  linearVelocityMmS := if command.enabled then command.linearVelocityMmS else 0
  angularVelocityMradS := if command.enabled then command.angularVelocityMradS else 0

/-- `Send`: encode the command and hand it to the socket, which is a parameter (`SocketCan::Send` is a system
    call). -/
def send (socketSend : SocketCanFrame → Except String Unit) (command : SafeChassisCommand) : Except String Unit :=
  match ChassisCanCodec.encodeVelocity (velocityCommand command) with
  | none => .error "safe chassis command could not be encoded as CAN 0x101"
  | some frame => socketSend (toSocketCanFrame frame)

end SocketCanChassisSink

open SocketCanChassisSink ChassisCanCodec

variable {command : SafeChassisCommand}

/-- Every command within the limits of the protocol is encodable. -/
theorem encodeVelocity_velocityCommand_isSome
    (h : command.enabled = true → (-2000 ≤ command.linearVelocityMmS.toInt ∧ command.linearVelocityMmS.toInt ≤
      2000) ∧ -10000 ≤ command.angularVelocityMradS.toInt ∧ command.angularVelocityMradS.toInt ≤ 10000) :
    (encodeVelocity (velocityCommand command)).isSome = true := by
  cases henabled : command.enabled with
  | true =>
    obtain ⟨hlinear, hangular⟩ := h henabled
    apply encodeVelocity_isSome
    · simpa [velocityCommand, henabled] using hlinear
    · simpa [velocityCommand, henabled] using hangular
    · simp [velocityCommand, henabled]
  | false => apply encodeVelocity_isSome <;> simp [velocityCommand, henabled]

theorem send_of_isSome (h : (encodeVelocity (velocityCommand command)).isSome = true) :
    ∃ frame, encodeVelocity (velocityCommand command) = some frame ∧ (toSocketCanFrame frame).isValidForSend = true
      ∧ ∀ socketSend, send socketSend command = socketSend (toSocketCanFrame frame) := by
  obtain ⟨frame, hframe⟩ := Option.isSome_iff_exists.mp h
  refine ⟨frame, hframe, ?_, fun socketSend => ?_⟩
  · rw [isValidForSend_toSocketCanFrame]
    exact encodeVelocity_isValid hframe
  · simp only [send, hframe]

/-- What the interlock promises of a command that an `Evaluate` answered, given the calls made on
    the adapter before it. -/
structure InterlockedCommand (policy : ChassisSafetyPolicy)
    (history : List (AdapterCall × AdapterAnswer)) (state : ChassisSafetyState) (steadyNowMs : Int)
    (command : SafeChassisCommand) : Prop where
  interlocks : command.enabled = true → state.enabled = true ∧ state.authorityGranted = true
    ∧ state.peerAlive = true ∧ state.emergencyStop = false ∧ state.chassisFault = false
  standing : command.enabled = true → ∃ submittedMs, StandingSubmit history submittedMs
    ∧ 0 ≤ steadyNowMs - submittedMs ∧ steadyNowMs - submittedMs ≤ policy.commandTimeoutMs
  limits : command.enabled = true →
    command.linearVelocityMmS.toInt.natAbs ≤ policy.maxLinearVelocityMmS
      ∧ command.angularVelocityMradS.toInt.natAbs ≤ policy.maxAngularVelocityMradS
  atRest : command.enabled = false →
    command.linearVelocityMmS = 0 ∧ command.angularVelocityMradS = 0
  encodes : ∃ frame, encodeVelocity (velocityCommand command) = some frame
    ∧ (toSocketCanFrame frame).isValidForSend = true
    ∧ ∀ socketSend, send socketSend command = socketSend (toSocketCanFrame frame)

/-- **The chassis interlock over whole runs.**  Whatever was called on an adapter with a valid
    policy, in any order and at any times, the next `Evaluate` answers an interlocked command. -/
theorem evaluate_interlocked (policy : ChassisSafetyPolicy) (hvalid : policy.isValid = true)
    (calls : List AdapterCall) (state : ChassisSafetyState) (steadyNowMs : Int) :
    InterlockedCommand policy
      (StepRun.trace ChassisSafetyAdapter.call { policy := policy } calls) state steadyNowMs
      ((StepRun.run ChassisSafetyAdapter.call { policy := policy } calls).evaluate state
        steadyNowMs).2 := by
  have hi := Interlock.run hvalid calls
  generalize StepRun.run ChassisSafetyAdapter.call { policy := policy } calls = adapter at hi ⊢
  obtain ⟨hlinear, hangular⟩ := Interlock.limits_pos hvalid
  rcases adapter.evaluate_cases state steadyNowMs with
    ⟨reason, hstop⟩ | ⟨request, targetLinear, targetAngular, hready, hreq, hclock, hfresh, hdrive⟩
  · rw [hstop]
    exact ⟨nofun, nofun, nofun, fun _ => ⟨rfl, rfl⟩,
      send_of_isSome (encodeVelocity_velocityCommand_isSome nofun)⟩
  · have hpolicy := hi.policy_eq
    have hmem := hi.command_mem hvalid targetLinear targetAngular steadyNowMs
    rw [ChassisSafetyState.ready_iff] at hready
    rw [hdrive]
    refine ⟨fun _ => ?_, fun _ => ?_, fun _ => ?_, nofun, ?_⟩
    · exact ⟨hready.1, hready.2.1, hready.2.2.2.1, hready.2.2.1, hready.2.2.2.2⟩
    · refine ⟨adapter.lastRequestMs, hi.standing (by rw [hreq]; rfl), by omega, ?_⟩
      rw [← hpolicy]
      exact hfresh
    · dsimp only at hmem
      omega
    · apply send_of_isSome
      apply encodeVelocity_velocityCommand_isSome
      intro _
      dsimp only at hmem
      omega

theorem evaluate_interlocked_default :
    let state : ChassisSafetyState := { enabled := true, authorityGranted := true, peerAlive := true }
    let calls : List AdapterCall :=
      [.submit { linearVelocityMS := (Ieee754.Binary64.ofUnits false (2 ^ 1074) 2) } state 1000]
    let adapter : ChassisSafetyAdapter := { policy := {} }
    let command := ((StepRun.run ChassisSafetyAdapter.call adapter calls).evaluate state 1020).2
    command.enabled = true ∧ command.linearVelocityMmS = 8
      ∧ InterlockedCommand {} (StepRun.trace ChassisSafetyAdapter.call adapter calls) state 1020
          command :=
  ⟨by decide +kernel, by decide +kernel, evaluate_interlocked {} (by decide) _ _ _⟩

end Cockpit.Vehicle
