/-
  The cancellation of a playback: `RequestPlaybackCancellation`, with everything that changes what it looks at.

  A step is one section under `state_mutex_`, one atomic access, or one end of a Cancel RPC, which is not under
  the mutex: it is **counted** in one step, **sent** in a later one, and **answered** in a third.

  What lies between the sections of `SubmitSingleSegment` is an input here. A thread whose playback is active
  may request its cancellation as often as it likes, where the source does so twice at most.
-/
import Mathlib.Algebra.Group.Nat.Defs
import Cockpit.Lib.StepRun

namespace Cockpit.Voice

/-- What `InitialPlaybackId` can return: some 64 bits, and never 0. -/
structure InitialPlaybackId where
  value : Nat
  positive : 0 < value
  lt : value < 2 ^ 64

/-- The arguments of a call of `RequestPlaybackCancellation`.  `Interrupt` has no request, and passes 0. -/
structure CancellationCall where
  requestId : Nat
  playbackId : Nat
  deriving DecidableEq

/-- Where a call is. -/
inductive FlightPlace where
  /-- About to look, at the head of the loop. -/
  | looking
  | asleep (notified : Bool)
  /-- The attempt is counted and the mutex released. -/
  | counted
  /-- In `transport_->Cancel`. -/
  | calling
  | answered (accepted : Bool)
  deriving DecidableEq

/-- The call owns the single flight. -/
def FlightPlace.flying : FlightPlace → Bool
  | counted | calling | answered _ => true
  | looking | asleep _ => false

/-- Where a thread is; one that is asleep is notified, or wakes up for no reason. -/
inductive FlightThread where
  | idle
  | stopped
  /-- In `Interrupt`. -/
  | interrupting
  /-- In `SubmitSingleSegment`. -/
  | registering (requestId generation : Nat)
  | registered (requestId generation : Nat)
  | committing (requestId generation playbackId : Nat)
  | playing (requestId playbackId : Nat)
  | cancelling (call : CancellationCall) (place : FlightPlace)
  deriving DecidableEq

/-- Which way a thread goes, where it has a choice. -/
inductive FlightAction where
  | interrupt
  | stop
  | submit (requestId : Nat)
  | number
  | cancel
  | clear

/-- The thread takes a step; `refused` is whether the token is requested, and `accepted` what the RPC answers. -/
structure FlightEvent where
  thread : Nat
  action : FlightAction := .cancel
  refused : Bool := false
  accepted : Bool := true

/-- What a step does that matters to the playbacks. -/
inductive FlightEffect where
  | none
  | numbered (playbackId : Nat)
  | committed (playbackId : Nat)
  | counted (playbackId : Nat)
  | sent (playbackId : Nat)
  | answered (playbackId : Nat) (accepted : Bool)
  | returned (playbackId : Nat) (result : Bool)
  | cleared (playbackId : Nat)
  deriving DecidableEq

/-- The client's fields, and its threads. -/
@[ext] structure CancellationFlight where
  activeRequestId : Nat := 0
  activePlaybackId : Nat := 0
  activeCancellationAttempts : Nat := 0
  activeCancellationInFlight : Bool := false
  activeCancellationConfirmed : Bool := false
  stopping : Bool := false
  interruptGeneration : Nat := 0
  nextPlaybackId : Nat
  threads : Nat → FlightThread := fun _ => .idle

/-- The thread is woken, if it sleeps. -/
def FlightThread.notify : FlightThread → FlightThread
  | cancelling call (.asleep _) => cancelling call (.asleep true)
  | thread => thread

/-- Where the caller goes on: `Interrupt` is done, a submission has its playback still. -/
def CancellationCall.behind (call : CancellationCall) : FlightThread :=
  if call.requestId = 0 then .idle else .playing call.requestId call.playbackId

namespace CancellationFlight

variable (s : CancellationFlight) (call : CancellationCall)

def goTo (i : Nat) (thread : FlightThread) : CancellationFlight :=
  { s with threads := Function.update s.threads i thread }

/-- `cancellation_changed_.notify_all()`. -/
def notifyAll : CancellationFlight :=
  { s with threads := fun j => (s.threads j).notify }

def resetCancellation : CancellationFlight :=
  { s with
    activeCancellationAttempts := 0, activeCancellationInFlight := false
    activeCancellationConfirmed := false }

/-- It wakes those who wait. -/
def clearActiveRequest (requestId : Nat) : CancellationFlight × FlightEffect :=
  if s.activeRequestId = requestId then
    ({ s.resetCancellation with activeRequestId := 0, activePlaybackId := 0 }.notifyAll,
      .cleared s.activePlaybackId)
  else (s, .none)

/-! ## `RequestPlaybackCancellation` -/

/-- The playback, or the request, is not the active one any more. -/
def isOver : Bool :=
  s.activePlaybackId ≠ call.playbackId ||
    (call.requestId ≠ 0 && s.activeRequestId ≠ call.requestId)

def leave (i : Nat) (call : CancellationCall) (result : Bool) : CancellationFlight × FlightEffect :=
  (s.goTo i call.behind, .returned call.playbackId result)

/-- The flight is taken by a caller that does not own it yet, the attempt counted, and the mutex released. -/
def count (i : Nat) (call : CancellationCall) (owns : Bool) : CancellationFlight × FlightEffect :=
  ({ s with
      activeCancellationInFlight := s.activeCancellationInFlight || !owns
      activeCancellationAttempts := s.activeCancellationAttempts + 1 }.goTo i (.cancelling call .counted),
    .counted call.playbackId)

/-- The head of the loop, for a caller that does not own the flight. -/
def look (i : Nat) (call : CancellationCall) : CancellationFlight × FlightEffect :=
  if s.isOver call then s.leave i call false
  else if s.activeCancellationConfirmed then s.leave i call true
  else if s.activeCancellationInFlight then (s.goTo i (.cancelling call (.asleep false)), .none)
  else if s.activeCancellationAttempts ≥ 2 then s.leave i call false
  else s.count i call false

/-- A caller that wakes up: its predicate is looked at first. -/
def wake (i : Nat) (call : CancellationCall) : CancellationFlight × FlightEffect :=
  if s.isOver call || !s.activeCancellationInFlight then s.look i call
  else (s.goTo i (.cancelling call (.asleep false)), .none)

/-- Behind the RPC: either the flight is over, or the next attempt is counted, still under the mutex. -/
def settle (i : Nat) (call : CancellationCall) (accepted : Bool) : CancellationFlight × FlightEffect :=
  if s.isOver call then s.notifyAll.leave i call false
  else if accepted then
    { s with activeCancellationConfirmed := true, activeCancellationInFlight := false }.notifyAll.leave i call true
  else if s.activeCancellationAttempts ≥ 2 then
    { s with activeCancellationInFlight := false }.notifyAll.leave i call false
  else if s.activeCancellationConfirmed then s.leave i call true
  else s.count i call true

def requestPlaybackCancellation (i : Nat) (call : CancellationCall) (accepted : Bool) :
    FlightPlace → CancellationFlight × FlightEffect
  | .looking => s.look i call
  | .asleep _ => s.wake i call
  | .counted => (s.goTo i (.cancelling call .calling), .sent call.playbackId)
  | .calling => (s.goTo i (.cancelling call (.answered accepted)), .answered call.playbackId accepted)
  | .answered accepted => s.settle i call accepted

/-! ## The other sections -/

/-- `Interrupt` behind the count of the generation: the active playback is read. -/
def interrupt (i : Nat) : CancellationFlight :=
  s.goTo i (if s.activePlaybackId = 0 then .idle else .cancelling ⟨0, s.activePlaybackId⟩ .looking)

/-- The first section of a segment. -/
def register (i requestId generation : Nat) (refused : Bool) : CancellationFlight :=
  if s.stopping || s.activeRequestId ≠ 0 || refused then s.goTo i .idle
  else { s.resetCancellation with activeRequestId := requestId }.goTo i (.registered requestId generation)

/-- `next_playback_id_.fetch_add(1U)`. -/
def number (i requestId generation : Nat) : CancellationFlight × FlightEffect :=
  ({ s with nextPlaybackId := (s.nextPlaybackId + 1) % 2 ^ 64 }.goTo i
      (.committing requestId generation s.nextPlaybackId), .numbered s.nextPlaybackId)

/-- The playback becomes active. -/
def commit (i requestId generation playbackId : Nat) (refused : Bool) : CancellationFlight × FlightEffect :=
  if s.stopping || generation ≠ s.interruptGeneration || refused then
    ({ s with activeRequestId := 0 }.goTo i .idle, .none)
  else
    ({ s.resetCancellation with activePlaybackId := playbackId }.goTo i (.playing requestId playbackId),
      .committed playbackId)

/-- `ClearActiveRequest`, and the end of the submission. -/
def clear (i requestId : Nat) : CancellationFlight × FlightEffect :=
  ((s.clearActiveRequest requestId).1.goTo i .idle, (s.clearActiveRequest requestId).2)

/-- `interrupt_generation_` wraps. -/
def countInterrupt (i : Nat) : CancellationFlight :=
  { s with interruptGeneration := (s.interruptGeneration + 1) % 2 ^ 64 }.goTo i .interrupting

def step (event : FlightEvent) : CancellationFlight × FlightEffect :=
  let i := event.thread
  match s.threads i with
  | .idle =>
    match event.action with
    | .interrupt => (s.countInterrupt i, .none)
    | .stop => ({ s with stopping := true }.goTo i .stopped, .none)
    | .submit requestId =>
      if requestId = 0 then (s, .none)
      else (s.goTo i (.registering requestId s.interruptGeneration), .none)
    | _ => (s, .none)
  | .stopped => (s.countInterrupt i, .none)
  | .interrupting => (s.interrupt i, .none)
  | .registering requestId generation => (s.register i requestId generation event.refused, .none)
  | .registered requestId generation =>
    match event.action with
    | .number => s.number i requestId generation
    | _ => s.clear i requestId
  | .committing requestId generation playbackId =>
    s.commit i requestId generation playbackId event.refused
  | .playing requestId playbackId =>
    match event.action with
    | .cancel => (s.goTo i (.cancelling ⟨requestId, playbackId⟩ .looking), .none)
    | _ => s.clear i requestId
  | .cancelling call place => s.requestPlaybackCancellation i call event.accepted place

/-- A client that nothing has been asked of; the constructor stores `InitialPlaybackId()`. -/
def initial (first : InitialPlaybackId) : CancellationFlight := { nextPlaybackId := first.value }

end CancellationFlight

end Cockpit.Voice
