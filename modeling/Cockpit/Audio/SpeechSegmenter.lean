/-
  `SpeechSegmenter`: the frames of the microphone are cut into segments of speech. Of what the detector says
  only the state is read; `reserve` has no effect here.
-/
import Cockpit.Audio.AudioFrame
import Cockpit.Lib.KeepLast

namespace Cockpit.Audio

open KeepLast

/-- What the detector says of a frame. -/
inductive VoiceActivityState where
  | silence
  | speech
  deriving DecidableEq

/-- Sequence numbers and times of its first and last frame, and the samples of all. -/
structure SpeechSegment where
  startSequence : UInt64 := 0
  endSequence : UInt64 := 0
  startTimeNs : Int64 := 0
  endTimeNs : Int64 := 0
  truncated : Bool := false
  discontinuous : Bool := false
  samples : List Int16 := []
  deriving DecidableEq

namespace SpeechSegment

/-- `FrameCount`. -/
def frameCount (segment : SpeechSegment) : Nat := segment.samples.length / kSampleCount

/-- The first frame also sets where the segment begins. -/
def appendFrame (segment : SpeechSegment) (frame : AudioFrame) : SpeechSegment :=
  let segment :=
    if segment.samples = [] then
      { segment with startSequence := frame.sequence, startTimeNs := frame.captureTimeNs }
    else segment
  { segment with
    endSequence := frame.sequence
    endTimeNs := frame.captureTimeNs
    samples := segment.samples ++ frame.samples }

end SpeechSegment

structure SpeechSegmenterConfig where
  preRollFrames : Nat := 5
  maxSegmentFrames : Nat := 750

/-- The pre-roll while nothing is spoken, a segment from the first spoken frame on. -/
structure SpeechSegmenter where
  config : SpeechSegmenterConfig
  preRoll : List AudioFrame := []
  activeSegment : Option SpeechSegment := none

namespace SpeechSegmenter

variable (s : SpeechSegmenter)

/-- The last frames before the first spoken one. -/
def pushPreRoll (frame : AudioFrame) : SpeechSegmenter :=
  if s.config.preRollFrames = 0 then s
  else { s with preRoll := keepLast s.config.preRollFrames (s.preRoll ++ [frame]) }

/-- The pre-roll, and the spoken frame behind it. -/
def startSegment (frame : AudioFrame) : SpeechSegmenter :=
  { s with
    activeSegment := some ((s.preRoll.foldl SpeechSegment.appendFrame {}).appendFrame frame)
    preRoll := [] }

/-- The segment in progress, with its two flags. -/
def finishSegment (truncated discontinuous : Bool) : SpeechSegmenter × Option SpeechSegment :=
  match s.activeSegment with
  | none => (s, none)
  | some segment =>
    ({ s with activeSegment := none },
      some { segment with truncated := truncated, discontinuous := discontinuous })

/-- A segment that gets too long is truncated. -/
def finishFull : SpeechSegmenter × Option SpeechSegment :=
  match s.activeSegment with
  | none => (s, none)
  | some segment =>
    if s.config.maxSegmentFrames ≤ segment.frameCount then s.finishSegment true false else (s, none)

/-- A frame that continues the one before it. -/
def continueWith (frame : AudioFrame) (activity : VoiceActivityState) : SpeechSegmenter × Option SpeechSegment :=
  match s.activeSegment with
  | none =>
    if activity = .silence then (s.pushPreRoll frame, none) else (s.startSegment frame).finishFull
  | some segment =>
    if activity = .speech then
      { s with activeSegment := some (segment.appendFrame frame) }.finishFull
    else
      let (s, completed) := s.finishSegment false false
      (s.pushPreRoll frame, completed)

/-- A discontinuity ends the segment in front of it, and empties the pre-roll. -/
def process (frame : AudioFrame) (activity : VoiceActivityState) : SpeechSegmenter × Option SpeechSegment :=
  if frame.hasFlag AudioFrameFlag.kDiscontinuity then
    let (s, interrupted) := s.finishSegment false true
    let s := { s with preRoll := [] }
    match interrupted with
    | some segment => (s.pushPreRoll frame, some segment)
    | none =>
      if activity = .silence then (s.pushPreRoll frame, none) else s.continueWith frame activity
  else s.continueWith frame activity

/-- `Flush`. -/
def flush : SpeechSegmenter × Option SpeechSegment := s.finishSegment false false

/-- What was gathered is lost. -/
def reset : SpeechSegmenter := { s with preRoll := [], activeSegment := none }

/-! ## Calls -/

/-- The calls. -/
inductive Call where
  | process (frame : AudioFrame) (activity : VoiceActivityState)
  | flush
  | reset

/-- What a call returns is the segment that it has finished. -/
def step : Call → SpeechSegmenter × Option SpeechSegment
  | .process frame activity => s.process frame activity
  | .flush => s.flush
  | .reset => (s.reset, none)

/-- The frame of the call. -/
def Call.frame? : Call → Option AudioFrame
  | .process frame _ => some frame
  | .flush | .reset => none

end SpeechSegmenter

end Cockpit.Audio
