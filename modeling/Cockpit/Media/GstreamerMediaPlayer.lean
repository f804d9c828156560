/-
  The media player on GStreamer (`hmi/media/gstreamer_media_player.cc`). The commands run under one mutex, so
  each of them is one step. What GStreamer answers is an input; of the pipeline itself the model has the file
  whose URI was set last.
-/
import Cockpit.Lib.StepRun

namespace Cockpit.Media

/-! ## The data -/

inductive MediaPlaybackState where
  | unavailable | stopped | playing | paused | faulted
  deriving DecidableEq

/-- What a manifest says of a track. -/
structure MediaTrack where
  id : String := ""
  title : String := ""
  artist : String := ""
  durationMs : Nat := 0
  deriving DecidableEq

structure MediaManifestTrack where
  metadata : MediaTrack := {}
  file : String := ""
  deriving DecidableEq

/-- `MediaPlaybackStatus`. -/
structure MediaPlaybackStatus where
  state : MediaPlaybackState := .unavailable
  currentTrackId : String := ""
  title : String := ""
  artist : String := ""
  durationMs : Nat := 0
  positionMs : Nat := 0
  lastError : String := ""
  deriving DecidableEq

inductive GstState where
  | voidPending | null | ready | paused | playing
  deriving DecidableEq

inductive GstStateChangeReturn where
  | failure | success | async | noPreroll
  deriving DecidableEq

def GST_MSECOND : Int := 1000000

/-- What `gst_element_set_state` returns, and `gst_element_get_state` behind it. -/
structure StateChange where
  result : GstStateChangeReturn := .success
  waited : GstStateChangeReturn := .success
  current : GstState := .null
  deriving DecidableEq

/-- Whether the change of state ends well. -/
def setStateAndWait (target : GstState) (change : StateChange) : Bool :=
  match change.result with
  | .failure => false
  | .async => change.waited ≠ .failure && change.current = target
  | .success | .noPreroll => true

/-- What is waiting on the bus. -/
inductive BusMessage where
  | eos
  | error (message : Option String)
  deriving DecidableEq

/-- What GStreamer answers to one command, of which the command takes what it asks for. -/
structure GstreamerWorld where
  uri : Option String := some ""
  /-- The change to `GST_STATE_NULL` before a track is set. -/
  reset : StateChange := {}
  start : StateChange := {}
  /-- The change to `GST_STATE_NULL` of `Pause` and `Stop`. -/
  halt : StateChange := {}
  /-- `gst_element_query_position`. -/
  position : Option Int := none
  seek : Bool := true
  bus : List BusMessage := []
  deriving DecidableEq

/-- The player; `pauses` is no part of the code. -/
structure GstreamerMediaPlayer where
  /-- Whether the element was made. -/
  pipeline : Bool := true
  backendReady : Bool := true
  currentIndex : Nat := 0
  pausedPositionMs : Nat := 0
  status : MediaPlaybackStatus := {}
  /-- The file whose URI the pipeline has. -/
  source : Option String := none
  /-- The tracks that were paused with success, each with the position that was saved, the last one first; the code has
      no such field. -/
  pauses : List (String × Nat) := []
  deriving DecidableEq

/-- What a command returns; `seekMs` is where `Resume` has sought to, and `reported` what `status()` gives. -/
structure MediaAnswer where
  ok : Bool := true
  error : String := ""
  seekMs : Option Nat := none
  reported : Option MediaPlaybackStatus := none
  deriving DecidableEq

namespace GstreamerMediaPlayer

/-- The constructor. -/
def make (pipeline sink : Bool) : GstreamerMediaPlayer :=
  if pipeline && sink then { status := { state := .stopped } }
  else
    { pipeline, backendReady := false
      status := { state := .faulted, lastError := "GStreamer playbin3 or configured sink is unavailable" } }

/-- Nothing changes. -/
def refuse (s : GstreamerMediaPlayer) (error : String) : GstreamerMediaPlayer × MediaAnswer :=
  (s, { ok := false, error })

def fault (s : GstreamerMediaPlayer) (message : String) : GstreamerMediaPlayer :=
  { s with status := { s.status with state := .faulted, lastError := message } }

section Tracks

variable (tracks : List MediaManifestTrack)

/-- The index of a track, else the number of tracks. -/
def find (id : String) : Nat := tracks.findIdx fun track => track.metadata.id = id

def trackAt (index : Nat) : MediaManifestTrack := tracks.getD index {}

variable (s : GstreamerMediaPlayer) (world : GstreamerWorld)

def applyTrack (track : MediaTrack) : GstreamerMediaPlayer :=
  { s with status :=
    { s.status with
      currentTrackId := track.id, title := track.title, artist := track.artist, durationMs := track.durationMs } }

/-- `PlayUnlocked`. -/
def playUnlocked (id : String) (requestedState : MediaPlaybackState)
    (world : GstreamerWorld) : GstreamerMediaPlayer × MediaAnswer :=
  let found := find tracks id
  if found = tracks.length then s.refuse "media track id is not allowlisted"
  else
    match world.uri with
    | none => s.refuse "failed to convert media file to URI"
    | some _ =>
      if !setStateAndWait .null world.reset then s.refuse "GStreamer failed to reset media playback"
      else
        let s := { s with source := some (trackAt tracks found).file }
        let target := if requestedState = .paused then .null else .playing
        if !setStateAndWait target world.start then
          (s.fault "GStreamer failed to start media playback").refuse "GStreamer failed to start media playback"
        else
          ({ s with
              currentIndex := found, pausedPositionMs := 0
              status := { s.status with state := requestedState, positionMs := 0, lastError := "" } }.applyTrack
            (trackAt tracks found).metadata, {})

/-- `Play`. -/
def play (trackId : String) (world : GstreamerWorld) : GstreamerMediaPlayer × MediaAnswer :=
  if !s.backendReady || !s.pipeline then s.refuse "GStreamer media backend is unavailable"
  else
    let resolved := if trackId = "default_track" && !tracks.isEmpty then (trackAt tracks 0).metadata.id else trackId
    let found := find tracks resolved
    if found = tracks.length then s.refuse "media track id is not allowlisted"
    else s.playUnlocked tracks (trackAt tracks found).metadata.id .playing world

/-- The position that GStreamer reports. -/
def positionToSave : Nat :=
  match world.position with
  | some position => if 0 ≤ position then (position / GST_MSECOND).toNat else s.status.positionMs
  | none => s.status.positionMs

/-- `Pause`. -/
def pause (s : GstreamerMediaPlayer) (world : GstreamerWorld) : GstreamerMediaPlayer × MediaAnswer :=
  if s.status.state ≠ .playing then s.refuse "media is not playing"
  else
    let s := { s with pausedPositionMs := s.positionToSave world }
    if !setStateAndWait .null world.halt then s.refuse "GStreamer failed to pause media playback"
    else
      ({ s with
          status := { s.status with state := .paused, positionMs := s.pausedPositionMs }
          pauses := (s.status.currentTrackId, s.pausedPositionMs) :: s.pauses }, {})

/-- `Resume`. -/
def resume : GstreamerMediaPlayer × MediaAnswer :=
  if s.status.state ≠ .paused then s.refuse "media is not paused"
  else
    let resumePositionMs := s.pausedPositionMs
    let (s, answer) := s.playUnlocked tracks (trackAt tracks s.currentIndex).metadata.id .playing world
    if !answer.ok then (s, answer)
    else if 0 < resumePositionMs && !world.seek then
      -- the change to the null state behind it is not looked at
      (s.fault "GStreamer failed to seek while resuming media playback").refuse
        "GStreamer failed to seek while resuming media playback"
    else
      ({ s with
          pausedPositionMs := 0
          status := { s.status with state := .playing, positionMs := resumePositionMs } },
        { seekMs := if 0 < resumePositionMs then some resumePositionMs else none })

/-- `Stop`. -/
def stop (s : GstreamerMediaPlayer) (world : GstreamerWorld) : GstreamerMediaPlayer × MediaAnswer :=
  if s.pipeline && !setStateAndWait .null world.halt then s.refuse "GStreamer failed to stop media playback"
  else
    ({ s with
        pausedPositionMs := 0
        status := { s.status with state := .stopped, positionMs := 0, lastError := "" } }, {})

/-- `Next` moves the index before it plays. -/
def next (s : GstreamerMediaPlayer) (world : GstreamerWorld) : GstreamerMediaPlayer × MediaAnswer :=
  if s.status.state ≠ .playing && s.status.state ≠ .paused then
    s.refuse "media must be playing or paused to select next track"
  else if tracks.isEmpty then s.refuse "media manifest has no tracks"
  else
    let s := { s with currentIndex := (s.currentIndex + 1) % tracks.length }
    s.playUnlocked tracks (trackAt tracks s.currentIndex).metadata.id s.status.state world

/-- One message from the bus. -/
def drainMessage : BusMessage → GstreamerMediaPlayer
  | .eos =>
    { s with
      pausedPositionMs := 0
      status := { s.status with state := .stopped, positionMs := s.status.durationMs, lastError := "" } }
  | .error message => s.fault (message.getD "GStreamer media playback failed")

def drainBus (messages : List BusMessage) : GstreamerMediaPlayer :=
  if s.pipeline then messages.foldl drainMessage s else s

/-- `Status`. -/
def reportStatus : GstreamerMediaPlayer × MediaAnswer :=
  let s := s.drainBus world.bus
  let active := s.pipeline && (s.status.state = .playing || s.status.state = .paused)
  let positionMs :=
    match world.position with
    | some position => if active && 0 ≤ position then (position / GST_MSECOND).toNat else s.status.positionMs
    | none => s.status.positionMs
  (s, { reported := some { s.status with positionMs } })

end Tracks

end GstreamerMediaPlayer

inductive MediaCommand where
  | play (trackId : String) (world : GstreamerWorld)
  | pause (world : GstreamerWorld)
  | resume (world : GstreamerWorld)
  | stop (world : GstreamerWorld)
  | next (world : GstreamerWorld)
  | status (world : GstreamerWorld)
  deriving DecidableEq

namespace GstreamerMediaPlayer

def step (tracks : List MediaManifestTrack) (s : GstreamerMediaPlayer) :
    MediaCommand → GstreamerMediaPlayer × MediaAnswer
  | .play trackId world => s.play tracks trackId world
  | .pause world => s.pause world
  | .resume world => s.resume tracks world
  | .stop world => s.stop world
  | .next world => s.next tracks world
  | .status world => s.reportStatus world

def after (tracks : List MediaManifestTrack) (pipeline sink : Bool) (commands : List MediaCommand) :
    GstreamerMediaPlayer :=
  StepRun.run (step tracks) (make pipeline sink) commands

end GstreamerMediaPlayer

end Cockpit.Media
