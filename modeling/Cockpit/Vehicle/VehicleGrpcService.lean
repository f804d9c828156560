/-
  The chassis events of `VehicleGrpcService`: a window of the last `kEventCapacity` events, and any number of
  calls of `SubscribeChassisEvents` that follow it.

  A step is one section under `mutex_`, one look at `IsCancelled`, or the return of a `Write`. `wait_for` gives
  up after 100 ms whatever the versions are, so the section behind it may be entered at any time. Versions and
  counters are `Nat`.
-/
import Cockpit.Lib.StepRun
import Cockpit.Vehicle.Client

namespace Cockpit.Vehicle

/-! ## Events -/

inductive ChassisEventType where
  | motionDetected
  deriving DecidableEq

structure ChassisEvent where
  sequence : UInt64 := 0
  timestampMs : Int64 := 0
  type : ChassisEventType := .motionDetected
  source : String := ""
  sensorId : UInt32 := 0
  motionDetected : Bool := false
  deriving DecidableEq

namespace Proto

inductive ChassisEventType where
  | unspecified | motionDetected
  deriving DecidableEq

structure MotionEvent where
  sensorId : UInt32 := 0
  detected : Bool := false
  deriving DecidableEq

/-- `proto::vehicle::ChassisEvent`. -/
structure ChassisEvent where
  sequence : UInt64 := 0
  timestampMs : Int64 := 0
  source : String := ""
  type : ChassisEventType := .unspecified
  motion : Option MotionEvent := none
  deriving DecidableEq

end Proto

/-- `ToProto`. -/
def ChassisEvent.toProto (event : ChassisEvent) : Proto.ChassisEvent :=
  let message : Proto.ChassisEvent :=
    { sequence := event.sequence, timestampMs := event.timestampMs, source := event.source }
  match event.type with
  | .motionDetected =>
    { message with
      type := .motionDetected
      motion := some { sensorId := event.sensorId, detected := event.motionDetected } }

/-- An event with its version. -/
structure VersionedEvent where
  version : Nat := 0
  event : Proto.ChassisEvent := {}
  deriving DecidableEq

/-! ## The service -/

/-- The service under its mutex. -/
structure VehicleGrpcService where
  latestChassisState : ChassisState := {}
  chassisStateVersion : Nat := 0
  eventVersion : Nat := 0
  droppedEvents : Nat := 0
  eventSubscribers : Nat := 0
  events : List VersionedEvent := []
  stopping : Bool := false

namespace VehicleGrpcService

def kEventCapacity : Nat := 64

variable (s : VehicleGrpcService)

def publishChassisState (state : ChassisState) : VehicleGrpcService :=
  { s with latestChassisState := state, chassisStateVersion := s.chassisStateVersion + 1 }

/-- The oldest event goes when the window is full. -/
def evict : VehicleGrpcService :=
  if s.events.length = kEventCapacity then
    { s with events := s.events.tail, droppedEvents := s.droppedEvents + 1 }
  else s

/-- The oldest event is evicted when the window is full. -/
def publishEvent (event : ChassisEvent) : VehicleGrpcService :=
  { s.evict with
    eventVersion := s.eventVersion + 1
    events := s.evict.events ++ [{ version := s.eventVersion + 1, event := event.toProto }] }

/-- `Shutdown`. -/
def shutdown : VehicleGrpcService := { s with stopping := true }

/-! ## `SubscribeChassisEvents` -/

/-- What the section behind `wait_for` leads to. -/
inductive Found where
  | stop
  | again (observedVersion : Nat)
  | send (entry : VersionedEvent)
  deriving DecidableEq

/-- `observed_version`, moved up to the window if it is behind it. -/
def catchUp (observedVersion : Nat) : Nat :=
  match s.events.head? with
  | some front => if observedVersion + 1 < front.version then front.version - 1 else observedVersion
  | none => observedVersion

/-- What a section of the subscriber finds. -/
def findNext (observedVersion : Nat) : Found :=
  if s.stopping then .stop
  else if s.events.isEmpty || s.eventVersion ≤ observedVersion then .again observedVersion
  else
    match s.events.find? fun entry => s.catchUp observedVersion < entry.version with
    | none => .again (s.catchUp observedVersion)
    | some entry => .send entry

end VehicleGrpcService

/-- Where a call of `SubscribeChassisEvents` is. -/
inductive SubscriberPlace where
  | registering
  /-- At the head of the loop. -/
  | checking
  /-- In front of the section that waits and looks for an event. -/
  | waiting
  /-- In `Write`. -/
  | writing
  | leaving
  | returned
  deriving DecidableEq

/-- `registeredAt` and `sent` are no part of the code. -/
structure EventSubscriber where
  place : SubscriberPlace := .registering
  observedVersion : Nat := 0
  /-- The version at which it was registered. -/
  registeredAt : Option Nat := none
  /-- What it has handed to `Write`. -/
  sent : List VersionedEvent := []

namespace EventSubscriber

/-- The first section: the cursor is at the newest version. -/
def registered (subscriber : EventSubscriber) (service : VehicleGrpcService) : EventSubscriber :=
  { subscriber with
    place := .checking
    observedVersion := service.eventVersion
    registeredAt := some service.eventVersion }

/-- The section behind `wait_for`; an event is handed to `Write` where it leaves it. -/
def look (subscriber : EventSubscriber) (service : VehicleGrpcService) : EventSubscriber :=
  match service.findNext subscriber.observedVersion with
  | .stop => { subscriber with place := .leaving }
  | .again observedVersion => { subscriber with place := .checking, observedVersion := observedVersion }
  | .send entry =>
    { subscriber with
      place := .writing
      observedVersion := entry.version
      sent := subscriber.sent ++ [entry] }

/-- The next step of a call; `cancelled` is what `IsCancelled` says, where it is asked. -/
def step (subscriber : EventSubscriber) (service : VehicleGrpcService) (cancelled : Bool) :
    VehicleGrpcService × EventSubscriber :=
  match subscriber.place with
  | .registering =>
    ({ service with eventSubscribers := service.eventSubscribers + 1 }, subscriber.registered service)
  | .checking => (service, { subscriber with place := if cancelled then .leaving else .waiting })
  | .waiting => (service, subscriber.look service)
  | .writing => (service, { subscriber with place := .checking })
  | .leaving =>
    ({ service with eventSubscribers := service.eventSubscribers - 1 }, { subscriber with place := .returned })
  | .returned => (service, subscriber)

end EventSubscriber

/-! ## The service and its callers -/

inductive EventCall where
  | publishEvent (event : ChassisEvent)
  | publishChassisState (state : ChassisState)
  | shutdown
  | subscriber (i : Nat) (cancelled : Bool)

/-- The service, its subscribers, and all that was published. -/
structure EventSystem where
  service : VehicleGrpcService := {}
  subscribers : Nat → EventSubscriber := fun _ => {}
  /-- All events that were published, with their versions. -/
  published : List VersionedEvent := []

namespace EventSystem

def publish (s : EventSystem) (event : ChassisEvent) : EventSystem :=
  { s with
    service := s.service.publishEvent event
    published := s.published ++ [{ version := s.service.eventVersion + 1, event := event.toProto }] }

def moveSubscriber (s : EventSystem) (i : Nat) (cancelled : Bool) : EventSystem :=
  let moved := (s.subscribers i).step s.service cancelled
  { s with service := moved.1, subscribers := Function.update s.subscribers i moved.2 }

def step (s : EventSystem) (call : EventCall) : EventSystem × Unit :=
  match call with
  | .publishEvent event => (s.publish event, ())
  | .publishChassisState state => ({ s with service := s.service.publishChassisState state }, ())
  | .shutdown => ({ s with service := s.service.shutdown }, ())
  | .subscriber i cancelled => (s.moveSubscriber i cancelled, ())

/-- The state after the calls, from the start of the service. -/
def after (calls : List EventCall) : EventSystem := StepRun.run step {} calls

end EventSystem

end Cockpit.Vehicle
