/-
  What the bridge and its navigation providers speak of: goals, poses and the status of a goal.
-/
import Cockpit.Lib.Binary64

namespace Cockpit.Bridge

open Ieee754

/-- The status of a goal, or of a provider without one. -/
inductive NavigationState where
  | disabled
  | idle
  | accepted
  | executing
  | succeeded
  | cancelled
  | rejected
  | failed
  | timedOut
  | disconnected
  deriving DecidableEq

/-- The goal is under way. -/
def NavigationState.isActive : NavigationState → Bool
  | .accepted | .executing => true
  | _ => false

structure NavigationPose where
  xM : Binary64 := .ofInt 0
  yM : Binary64 := .ofInt 0
  yawRad : Binary64 := .ofInt 0
  frameId : String := "map"
  timestampMs : Int := 0

structure NavigationGoal where
  goalId : String
  target : NavigationPose

/-- What a provider says of its goal. -/
structure NavigationStatus where
  state : NavigationState := .disabled
  goalId : String := ""
  target : NavigationPose := {}
  currentPose : NavigationPose := {}
  currentPoseValid : Bool := false
  acceptedAtMs : Int := 0
  updatedAtMs : Int := 0
  message : String := ""
  lastError : String := ""

end Cockpit.Bridge
