/-
  The playback queue of the audio service (`driver/audio/runtime/playback/audio_playback.cc`). Each locked
  region is one step; the player is the environment.
-/
import Mathlib.Algebra.Group.Nat.Defs
import Mathlib.Data.List.Nodup
import Cockpit.Lib.ListUpdate
import Cockpit.Lib.StepRun

namespace Cockpit.Audio

open Function

inductive AudioPlaybackStatus
  | pending | completed | failed | cancelled | dropped
deriving DecidableEq

/-- What is known of a playback. -/
structure AudioPlaybackResult where
  playbackId : Nat
  status : AudioPlaybackStatus
  error : String
deriving DecidableEq

inductive AudioPlaybackWaitStatus
  | ready (result : AudioPlaybackResult)
  | timeout
  | notFound
deriving DecidableEq

structure PlaybackRequest where
  playbackId : Nat
  samples : List Int
  cancelled : Bool := false
deriving DecidableEq

/-- By playback id. -/
abbrev Results := Nat → Option AudioPlaybackResult

/-- Where `Run` is: `absent` before `Start` and after the `join`. -/
inductive Worker
  | absent | waiting | playing | exited
deriving DecidableEq

/-- Where a caller of `Stop` is: at the `join`, or between it and the last locked region. -/
inductive StopCaller
  | outside | joining | joined
deriving DecidableEq

/-- Queue, active request, results, and the bounded list of ids whose result is final. -/
structure AudioPlayback where
  device : String
  hasPlayer : Bool
  queue : List PlaybackRequest
  active : Option PlaybackRequest
  results : Results
  finalResultIds : List Nat
  running : Bool
  stopRequested : Bool
  nextPlaybackId : Nat
  worker : Worker
  stopCallers : Nat → StopCaller

def kQueueCapacity : Nat := 8

def kResultCapacity : Nat := 64

def kPlaybackIds : Nat := 2 ^ 64

inductive PlaybackEvent
  | start (threadStarted : Bool)
  | submit (samples : List Int) (playbackId : Nat)
  | cancel (playbackId : Nat)
  | waitForResult (playbackId : Nat) (expired : Bool)
  | stop (caller : Nat)
  | join (caller : Nat)
  | stopped (caller : Nat)
  | take
  | played (succeeded : Bool) (error : String)
deriving DecidableEq

/-- What a call returned, or the request that the worker gave to the player. -/
inductive Returned
  | nothing
  | started (ok : Bool)
  | submitted (playbackId : Option Nat)
  | cancelled (ok : Bool)
  | waited (status : AudioPlaybackWaitStatus)
  | playing (playbackId : Nat)
deriving DecidableEq

namespace AudioPlayback

def create (device : String) (hasPlayer : Bool) : AudioPlayback where
  device := device
  hasPlayer := hasPlayer
  queue := []
  active := none
  results := fun _ => none
  finalResultIds := []
  running := false
  stopRequested := false
  nextPlaybackId := 1
  worker := .absent
  stopCallers := fun _ => .outside

def status (s : AudioPlayback) (playbackId : Nat) : Option AudioPlaybackStatus :=
  (s.results playbackId).map AudioPlaybackResult.status

/-! ## The bounded list of final results -/

/-- As `results_.erase`. -/
def erase (results : Results) (playbackId : Nat) : Results := update results playbackId none

/-- Spare a pending one. -/
def eraseFinal (results : Results) (playbackId : Nat) : Results :=
  match results playbackId with
  | some result => if result.status = .pending then results else erase results playbackId
  | none => results

/-- Keep the list within its bound, oldest first. -/
def evict (erase : Results → Nat → Results) : List Nat → Results → List Nat × Results
  | [], results => ([], results)
  | oldest :: ids, results =>
    if kResultCapacity < ids.length + 1 then evict erase ids (erase results oldest)
    else (oldest :: ids, results)

/-- Store a final result. -/
def settle (erase : Results → Nat → Results) (s : AudioPlayback) (result : AudioPlaybackResult) : AudioPlayback :=
  let evicted := evict erase (s.finalResultIds ++ [result.playbackId])
    (update s.results result.playbackId (some result))
  { s with finalResultIds := evicted.1, results := evicted.2 }

variable (s : AudioPlayback)

/-- Only a pending result is made final. -/
def finalizeLocked (playbackId : Nat) (status : AudioPlaybackStatus) (error : String) : AudioPlayback :=
  match s.results playbackId with
  | none => s
  | some found =>
    if found.status ≠ .pending then s
    else s.settle eraseFinal { playbackId := playbackId, status := status, error := error }

/-! ## The calls -/

def start (threadStarted : Bool) : AudioPlayback × Returned :=
  if s.running then (s, .started true)
  else if s.device.isEmpty || !s.hasPlayer then (s, .started false)
  -- assigning to a `std::thread` that is still joinable ends the process
  else if s.worker ≠ .absent then (s, .nothing)
  else
    let s := { s with stopRequested := false }
    if !threadStarted then (s, .started false)
    else ({ s with running := true, worker := .waiting }, .started true)

/-- The next id that is neither zero nor taken. -/
def drawId (results : Results) : Nat → Nat → Nat × Nat
  | 0, next => (next, (next + 1) % kPlaybackIds)
  | tries + 1, next =>
    if next = 0 ∨ (results next).isSome then drawId results tries ((next + 1) % kPlaybackIds)
    else (next, (next + 1) % kPlaybackIds)

def enqueue (samples : List Int) (playbackId : Nat) : AudioPlayback × Returned :=
  ({ s with
      results := update s.results playbackId
        (some { playbackId := playbackId, status := .pending, error := "" })
      queue := s.queue ++ [{ playbackId := playbackId, samples := samples }] },
    .submitted (some playbackId))

/-- Refused when the queue is full. -/
def submit (samples : List Int) (playbackId : Nat) : AudioPlayback × Returned :=
  if !s.running || s.stopRequested || samples.isEmpty || kQueueCapacity ≤ s.queue.length then
    (s, .submitted none)
  else if playbackId = 0 then
    -- no more ids have a result than are queued, active or final
    let drawn := drawId s.results (s.queue.length + s.finalResultIds.length + 2) s.nextPlaybackId
    { s with nextPlaybackId := drawn.2 }.enqueue samples drawn.1
  else if (s.results playbackId).isSome then (s, .submitted none)
  else s.enqueue samples playbackId

/-- A queued request is dropped, the active one is told. -/
def cancel (playbackId : Nat) : AudioPlayback × Returned :=
  if playbackId = 0 then (s, .cancelled false)
  else
    match s.status playbackId with
    | some .completed | some .failed | some .dropped => (s, .cancelled false)
    | some .cancelled => (s, .cancelled true)
    | _ =>
      match s.active.filter fun request => request.playbackId = playbackId with
      | some request => ({ s with active := some { request with cancelled := true } }, .cancelled true)
      | none =>
        if s.queue.any fun request => request.playbackId = playbackId then
          let s := { s with queue := s.queue.eraseP fun request => request.playbackId = playbackId }
          (s.finalizeLocked playbackId .cancelled "audio playback cancelled before starting",
            .cancelled true)
        else
          (s.settle erase
            { playbackId := playbackId
              status := .cancelled
              error := "audio playback cancelled before submission" }, .cancelled true)

/-- What the wait finds when it ends. -/
def waitForResult (playbackId : Nat) (expired : Bool) : Returned :=
  if playbackId = 0 then .waited .notFound
  else
    match s.results playbackId with
    | none => .waited .notFound
    | some result =>
      if result.status ≠ .pending then .waited (.ready result)
      else if expired then .waited .timeout
      else .nothing

def dropQueued (s : AudioPlayback) : List PlaybackRequest → AudioPlayback
  | [] => s
  | request :: requests =>
    (s.finalizeLocked request.playbackId .dropped "audio playback stopped before starting").dropQueued
      requests

/-- Everything queued is dropped. -/
def stop (caller : Nat) : AudioPlayback :=
  if s.stopCallers caller ≠ .outside || !s.running then s
  else
    let s := { s with
      stopRequested := true
      stopCallers := update s.stopCallers caller .joining }
    { s.dropQueued s.queue with
      queue := []
      active := s.active.map fun request => { request with cancelled := true } }

def join (caller : Nat) : AudioPlayback :=
  if s.stopCallers caller = .joining ∧ (s.worker = .absent ∨ s.worker = .exited) then
    { s with worker := .absent, stopCallers := update s.stopCallers caller .joined }
  else s

def stopped (caller : Nat) : AudioPlayback :=
  if s.stopCallers caller = .joined then
    { s with running := false, stopCallers := update s.stopCallers caller .outside }
  else s

/-! ## The worker -/

/-- The worker takes the next request. -/
def take : AudioPlayback × Returned :=
  if s.worker ≠ .waiting then (s, .nothing)
  else
    match s.queue with
    | [] => if s.stopRequested then ({ s with worker := .exited }, .nothing) else (s, .nothing)
    | request :: queue =>
      ({ s with queue := queue, active := some request, worker := .playing },
        .playing request.playbackId)

/-- The player has returned. -/
def played (succeeded : Bool) (error : String) : AudioPlayback :=
  match s.active with
  | none => s
  | some request =>
    let s :=
      if request.cancelled then
        s.finalizeLocked request.playbackId .cancelled
          (if error.isEmpty then "audio playback cancelled" else error)
      else if succeeded then s.finalizeLocked request.playbackId .completed ""
      else
        s.finalizeLocked request.playbackId .failed
          (if error.isEmpty then "audio playback failed" else error)
    { s with active := none, worker := .waiting }

def step : PlaybackEvent → AudioPlayback × Returned
  | .start threadStarted => s.start threadStarted
  | .submit samples playbackId => s.submit samples playbackId
  | .cancel playbackId => s.cancel playbackId
  | .waitForResult playbackId expired => (s, s.waitForResult playbackId expired)
  | .stop caller => (s.stop caller, .nothing)
  | .join caller => (s.join caller, .nothing)
  | .stopped caller => (s.stopped caller, .nothing)
  | .take => s.take
  | .played succeeded error => (s.played succeeded error, .nothing)

end AudioPlayback

end Cockpit.Audio
