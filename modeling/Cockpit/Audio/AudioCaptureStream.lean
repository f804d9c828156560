/-
  `AudioCaptureStream`: the samples of the microphone are made into frames, which go to a ring buffer. One
  variable has the flags of the next frame: an xrun adds to it, but a frame that is dropped overwrites it.

  A step is one round of the loop. The array is modelled by the samples in it that have been read.
-/
import Mathlib.Data.List.Chain
import Cockpit.Audio.AudioFrame
import Cockpit.Lib.Runs
import Cockpit.Lib.StepRun

namespace Cockpit.Audio

open Runs StepRun List Bool

inductive AudioCaptureState where
  | kStopped
  | kStarting
  | kRunning
  | kRecovering
  | kFaulted
  deriving DecidableEq

/-- `CaptureResult`; the samples of `kOk` are the `frames_read` that the source says it has read. -/
inductive CaptureResult where
  | kOk (samples : List Int16)
  | kTimeout
  | kXrunRecovered
  | kStopped
  | kDeviceError (message : String)
  deriving DecidableEq

/-- The stream and its counters. -/
structure AudioCaptureStream where
  state : AudioCaptureState := .kStarting
  stopRequested : Bool := false
  lastError : String := ""
  pcmFramesRead : UInt64 := 0
  audioFramesPublished : UInt64 := 0
  timeouts : UInt64 := 0
  xruns : UInt64 := 0
  deviceErrors : UInt64 := 0
  /-- The first `sample_count` samples of the array. -/
  samples : List Int16 := []
  sequence : UInt64 := 0
  pendingFlags : AudioFrameFlag := AudioFrameFlag.kNone

/-- What the loop is given. -/
inductive CaptureEvent where
  /-- One round: what `Read` returns, the time, and whether the buffer has room. -/
  | read (result : CaptureResult) (nowNs : Int64) (room : Bool)
  /-- `Stop` from outside. -/
  | stop

/-- What a round did. -/
inductive CaptureOutput where
  | nothing
  | recovered
  | took (samples : List Int16)
  | pushed (samples : List Int16) (frame : AudioFrame)
  | dropped (samples : List Int16) (frame : AudioFrame)
  deriving DecidableEq

namespace AudioCaptureStream

/-! ## The loop -/

def opened : Except String Unit → AudioCaptureStream
  | .ok () => { state := .kRunning }
  | .error message =>
    { state := .kFaulted, lastError := message, deviceErrors := 1, stopRequested := true }

variable (s : AudioCaptureStream)

/-- The loop ends. -/
def fault (message : String) : AudioCaptureStream :=
  { s with
    deviceErrors := s.deviceErrors + 1
    lastError := message
    state := .kFaulted
    stopRequested := true }

/-- Samples are read; a full array is a frame. -/
def take (read : List Int16) (nowNs : Int64) (room : Bool) : AudioCaptureStream × CaptureOutput :=
  if read.length = 0 ∨ kSampleCount - s.samples.length < read.length then
    (s.fault "audio source returned an invalid frame count", .nothing)
  else
    let s := { s with
      pcmFramesRead := s.pcmFramesRead + UInt64.ofNat read.length
      samples := s.samples ++ read }
    if hfull : s.samples.length = kSampleCount then
      let frame : AudioFrame := ⟨s.sequence, nowNs, s.pendingFlags, s.samples, hfull⟩
      if room then
        ({ s with
          audioFramesPublished := s.audioFramesPublished + 1
          pendingFlags := AudioFrameFlag.kNone
          sequence := s.sequence + 1
          samples := [] }, .pushed read frame)
      else
        ({ s with
          pendingFlags := AudioFrameFlag.kDiscontinuity ||| AudioFrameFlag.kDroppedBefore
          sequence := s.sequence + 1
          samples := [] }, .dropped read frame)
    else (s, .took read)

def finish : AudioCaptureStream :=
  { s with state := if s.state = .kFaulted then .kFaulted else .kStopped }

def step : CaptureEvent → AudioCaptureStream × CaptureOutput
  | .stop => ({ s with stopRequested := true }, .nothing)
  | .read result nowNs room =>
    if s.stopRequested then (s.finish, .nothing)
    else
      match result with
      | .kOk samples => s.take samples nowNs room
      | .kTimeout => ({ s with timeouts := s.timeouts + 1 }, .nothing)
      | .kXrunRecovered =>
        ({ s with
          xruns := s.xruns + 1
          samples := []
          pendingFlags :=
            s.pendingFlags ||| AudioFrameFlag.kDiscontinuity ||| AudioFrameFlag.kRecoveredFromXrun
          state := .kRunning }, .recovered)
      | .kStopped => ({ s with stopRequested := true }, .nothing)
      | .kDeviceError message =>
        (s.fault (if message = "" then "audio capture device failed" else message), .nothing)

end AudioCaptureStream

/-! ## What has happened -/

/-- A frame that was pushed, and what has happened since the one before. -/
structure PushedFrame where
  since : List CaptureOutput
  frame : AudioFrame

namespace CaptureOutput

def isRecovered : CaptureOutput → Bool
  | .recovered => true
  | _ => false

def isDropped : CaptureOutput → Bool
  | .dropped _ _ => true
  | _ => false

/-- The samples, and where they were thrown away. -/
def fed : CaptureOutput → List (Option Int16)
  | .nothing => []
  | .recovered => [none]
  | .took samples | .pushed samples _ | .dropped samples _ => samples.map some

def record (s : List PushedFrame × List CaptureOutput) : CaptureOutput → List PushedFrame × List CaptureOutput
  | .pushed _ frame => (s.1 ++ [⟨s.2, frame⟩], [])
  | output => (s.1, s.2 ++ [output])

/-- The frames in the buffer, each with what came before it. -/
def pushedFrames (log : List CaptureOutput) : List PushedFrame := (log.foldl record ([], [])).1

/-- What came since. -/
def sinceLast (log : List CaptureOutput) : List CaptureOutput := (log.foldl record ([], [])).2

def flags (recovered dropped : Bool) : AudioFrameFlag :=
  (if recovered then AudioFrameFlag.kDiscontinuity ||| AudioFrameFlag.kRecoveredFromXrun
    else AudioFrameFlag.kNone) |||
  (if dropped then AudioFrameFlag.kDiscontinuity ||| AudioFrameFlag.kDroppedBefore
    else AudioFrameFlag.kNone)

/-- An xrun behind the last dropped frame. -/
def recoveredLast (since : List CaptureOutput) : Bool :=
  (since.reverse.takeWhile fun output => !output.isDropped).any isRecovered

/-- The flags of the next frame. -/
def pending (since : List CaptureOutput) : AudioFrameFlag :=
  flags (recoveredLast since) (since.any isDropped)

variable {since : List CaptureOutput} {output : CaptureOutput}

theorem any_concat (f : CaptureOutput → Bool) (since : List CaptureOutput) (output : CaptureOutput) :
    (since ++ [output]).any f = (since.any f || f output) := by
  rw [List.any_append, List.any_cons, List.any_nil, Bool.or_false]

theorem recoveredLast_concat (since : List CaptureOutput) (output : CaptureOutput) :
    recoveredLast (since ++ [output]) = (!output.isDropped && (output.isRecovered || recoveredLast since)) := by
  unfold recoveredLast
  rw [reverse_append, reverse_singleton, singleton_append, takeWhile_cons]
  cases output.isDropped with
  | true | false => rfl

theorem recoveredLast_imp (h : recoveredLast since = true) : since.any isRecovered = true := by
  unfold recoveredLast at h
  obtain ⟨output, hmem, hrecovered⟩ := any_eq_true.mp h
  have hsince : output ∈ since := mem_reverse.mp ((takeWhile_sublist _).subset hmem)
  exact any_eq_true.mpr ⟨output, hsince, hrecovered⟩

theorem flags_inj {recovered recovered' dropped : Bool} (h : flags recovered dropped = flags recovered' dropped) :
    recovered = recovered' := by
  revert h
  cases recovered <;> cases recovered' <;> cases dropped <;> decide

/-- **The flags are right exactly when no frame was dropped behind the last xrun.** -/
theorem pending_eq_flags_iff (since : List CaptureOutput) :
    pending since = flags (since.any isRecovered) (since.any isDropped) ↔
      (since.any isRecovered = true → recoveredLast since = true) := by
  constructor
  · intro h hrecovered
    have hlast : recoveredLast since = since.any isRecovered := flags_inj h
    rw [hlast]
    exact hrecovered
  · intro h
    have hlast : recoveredLast since = since.any isRecovered := by
      cases hrecovered : since.any isRecovered with
      | true => exact h hrecovered
      | false =>
        by_contra hnot
        have himp := recoveredLast_imp ((not_eq_false _).mp hnot)
        rw [hrecovered] at himp
        cases himp
    unfold pending
    rw [hlast]

end CaptureOutput

open CaptureOutput

/-- Sequence numbers count the dropped frames too. -/
def Follows (previous next : PushedFrame) : Prop :=
  next.frame.sequence = previous.frame.sequence + 1 + UInt64.ofNat (next.since.countP isDropped)

namespace AudioCaptureStream

/-- The invariant, between the rounds. -/
structure Law (pushed : List PushedFrame) (since : List CaptureOutput) (source : List (Option Int16))
    (s : AudioCaptureStream) : Prop where
  pending : s.pendingFlags = pending since
  flags : ∀ p ∈ pushed, p.frame.flags = CaptureOutput.pending p.since
  sequence : ∀ last ∈ pushed.getLast?,
    s.sequence = last.frame.sequence + 1 + UInt64.ofNat (since.countP isDropped)
  follows : pushed.IsChain Follows
  samples : InTurn (pushed.map fun p => p.frame.samples.map some) (s.samples.map some) source

variable {pushed : List PushedFrame} {since : List CaptureOutput} {source : List (Option Int16)}
  {s : AudioCaptureStream}

section

variable (h : Law pushed since source s)
include h

theorem Law.idle {s' : AudioCaptureStream}
    (hflags : s'.pendingFlags = s.pendingFlags) (hseq : s'.sequence = s.sequence)
    (hsamples : s'.samples = s.samples) : Law pushed (since ++ [.nothing]) source s' := by
  refine ⟨?_, h.flags, ?_, h.follows, ?_⟩
  · have hpending : CaptureOutput.pending (since ++ [.nothing]) = CaptureOutput.pending since := by
      unfold CaptureOutput.pending
      rw [recoveredLast_concat, any_concat, show isDropped .nothing = false from rfl,
        show isRecovered .nothing = false from rfl, Bool.or_false, Bool.not_false, Bool.true_and, Bool.false_or]
    rw [hflags, h.pending, hpending]
  · intro last hlast
    rw [hseq, h.sequence last hlast, countP_append]
    rfl
  · rw [hsamples]
    exact h.samples

theorem Law.took (read : List Int16) (count : UInt64) :
    Law pushed (since ++ [.took read]) (source ++ fed (.took read))
      { s with pcmFramesRead := count, samples := s.samples ++ read } := by
  refine ⟨?_, h.flags, ?_, h.follows, ?_⟩
  · have hpending : CaptureOutput.pending (since ++ [.took read]) = CaptureOutput.pending since := by
      unfold CaptureOutput.pending
      rw [recoveredLast_concat, any_concat, show isDropped (.took read) = false from rfl,
        show isRecovered (.took read) = false from rfl, Bool.or_false, Bool.not_false, Bool.true_and,
        Bool.false_or]
    rw [hpending]
    exact h.pending
  · intro last hlast
    rw [countP_append]
    exact h.sequence last hlast
  · show InTurn _ ((s.samples ++ read).map some) _
    rw [map_append]
    exact h.samples.extend (read.map some)

theorem Law.recover (count : UInt64) (state : AudioCaptureState) :
    Law pushed (since ++ [.recovered]) (source ++ fed .recovered)
      { s with
        xruns := count
        samples := []
        pendingFlags :=
          s.pendingFlags ||| AudioFrameFlag.kDiscontinuity ||| AudioFrameFlag.kRecoveredFromXrun
        state := state } := by
  refine ⟨?_, h.flags, ?_, h.follows, ?_⟩
  · show s.pendingFlags ||| _ ||| _ = _
    rw [h.pending]
    unfold CaptureOutput.pending
    rw [recoveredLast_concat, any_concat]
    cases recoveredLast since <;> cases since.any isDropped <;> decide
  · intro last hlast
    rw [countP_append]
    exact h.sequence last hlast
  · exact (h.samples.extend [none]).drop

theorem Law.drop {s' : AudioCaptureStream} (read : List Int16)
    (frame : AudioFrame) (hflags : s'.pendingFlags = AudioFrameFlag.kDiscontinuity ||| AudioFrameFlag.kDroppedBefore)
    (hseq : s'.sequence = s.sequence + 1) (hsamples : s'.samples = []) :
    Law pushed (since ++ [.dropped read frame]) (source ++ fed (.dropped read frame)) s' := by
  refine ⟨?_, h.flags, ?_, h.follows, ?_⟩
  · rw [hflags]
    unfold CaptureOutput.pending
    rw [recoveredLast_concat, any_concat, show isDropped (.dropped read frame) = true from rfl, Bool.or_true,
      Bool.not_true, Bool.false_and]
    decide
  · intro last hlast
    rw [hseq, h.sequence last hlast, countP_append, UInt64.add_assoc]
    congr 1
    exact (UInt64.ofNat_add _ 1).symm
  · rw [hsamples]
    exact (h.samples.extend (read.map some)).drop

theorem Law.push {s' : AudioCaptureStream} (read : List Int16)
    {frame : AudioFrame} (hframe : frame.flags = s.pendingFlags) (hnum : frame.sequence = s.sequence)
    (hread : frame.samples = s.samples ++ read) (hflags : s'.pendingFlags = AudioFrameFlag.kNone)
    (hseq : s'.sequence = s.sequence + 1) (hsamples : s'.samples = []) :
    Law (pushed ++ [⟨since, frame⟩]) [] (source ++ fed (.pushed read frame)) s' := by
  refine ⟨hflags, ?_, ?_, ?_, ?_⟩
  · intro p hp
    rcases mem_append.mp hp with hold | hnew
    · exact h.flags p hold
    · rw [mem_singleton.mp hnew]
      exact hframe.trans h.pending
  · intro last hlast
    rw [List.getLast?_concat] at hlast
    rw [← Option.some.inj hlast, hseq, ← hnum]
    exact (UInt64.add_zero _).symm
  · rw [isChain_append]
    refine ⟨h.follows, isChain_singleton _, fun last hlast next hnext => ?_⟩
    obtain rfl : _ = next := Option.some.inj hnext
    exact hnum.trans (h.sequence last hlast)
  · have hclosed := (h.samples.extend (read.map some)).close
    rw [← map_append, ← hread] at hclosed
    rw [hsamples, map_append]
    exact hclosed

end

def Recorded (log : List CaptureOutput) (s : AudioCaptureStream) : Prop :=
  Law (pushedFrames log) (sinceLast log) (log.flatMap fed) s

theorem recorded_concat {log : List CaptureOutput} {output : CaptureOutput} {s' : AudioCaptureStream}
    (h : Law (record (pushedFrames log, sinceLast log) output).1 (record (pushedFrames log, sinceLast log) output).2
      (log.flatMap fed ++ fed output) s') : Recorded (log ++ [output]) s' := by
  unfold Recorded pushedFrames sinceLast
  rw [foldl_append, flatMap_append, flatMap_singleton]
  exact h

theorem Recorded.idle {log : List CaptureOutput} (h : Recorded log s) {s' : AudioCaptureStream}
    (hflags : s'.pendingFlags = s.pendingFlags) (hseq : s'.sequence = s.sequence)
    (hsamples : s'.samples = s.samples) : Recorded (log ++ [.nothing]) s' := by
  refine recorded_concat ?_
  rw [show fed .nothing = [] from rfl, append_nil]
  exact Law.idle h hflags hseq hsamples

theorem Recorded.take {log : List CaptureOutput} (h : Recorded log s) (read : List Int16) (nowNs : Int64)
    (room : Bool) : Recorded (log ++ [(s.take read nowNs room).2]) (s.take read nowNs room).1 := by
  unfold AudioCaptureStream.take
  split
  case isTrue => exact h.idle rfl rfl rfl
  case isFalse =>
    dsimp only
    split
    case isTrue hfull =>
      split
      case isTrue => exact recorded_concat (Law.push h read rfl rfl rfl rfl rfl rfl)
      case isFalse => exact recorded_concat (Law.drop h read _ rfl rfl rfl)
    case isFalse => exact recorded_concat (Law.took h read _)

/-- **Every round keeps the law.** -/
theorem Recorded.step {log : List CaptureOutput} (h : Recorded log s) (event : CaptureEvent) :
    Recorded (log ++ [(s.step event).2]) (s.step event).1 := by
  cases event with
  | stop => exact h.idle rfl rfl rfl
  | read result nowNs room =>
    unfold AudioCaptureStream.step
    dsimp only
    split
    case isTrue => exact h.idle rfl rfl rfl
    case isFalse =>
      cases result with
      | kOk samples => exact h.take samples nowNs room
      | kTimeout => exact h.idle rfl rfl rfl
      | kXrunRecovered => exact recorded_concat (Law.recover h _ _)
      | kStopped | kDeviceError message => exact h.idle rfl rfl rfl

def log (result : Except String Unit) (events : List CaptureEvent) : List CaptureOutput :=
  (trace step (opened result) events).map Prod.snd

/-- Samples and flags are accounted for at every time. -/
theorem recorded_run (result : Except String Unit) (events : List CaptureEvent) :
    Recorded (log result events) (run step (opened result) events) := by
  have hstart : Recorded [] (opened result) := by
    have hnil : Law [] [] [] (opened result) := by
      cases result with
      | ok => exact ⟨rfl, fun _ hmem => (nomatch hmem), fun _ hmem => (nomatch hmem), isChain_nil, .nil [] []⟩
      | error message =>
        exact ⟨rfl, fun _ hmem => (nomatch hmem), fun _ hmem => (nomatch hmem), isChain_nil, .nil [] []⟩
    exact hnil
  refine @trace_invariant _ _ _ _ (fun history s => Recorded (history.map Prod.snd) s) ?_ [] _ hstart events
  intro history s event h
  rw [map_append]
  exact h.step event

/-- What the frames are to say: an xrun since the frame before, and frames that were dropped since then.
    Their numbers have a gap for each of these, and their samples are parts of what the source gave, in
    its order, with no xrun in them. -/
structure Reports (source : List (Option Int16)) (pushed : List PushedFrame) : Prop where
  flags : ∀ p ∈ pushed, p.frame.flags = flags (p.since.any isRecovered) (p.since.any isDropped)
  follows : pushed.IsChain Follows
  samples : InTurn (pushed.map fun p => p.frame.samples.map some) [] source

/-- **The frames report every interruption, if and only if no frame is dropped behind the last xrun** that is
    recovered between two frames that are pushed. -/
theorem interruptions_reported_iff (result : Except String Unit) (events : List CaptureEvent) :
    Reports ((log result events).flatMap fed) (pushedFrames (log result events)) ↔
      ∀ p ∈ pushedFrames (log result events), p.since.any isRecovered = true →
        recoveredLast p.since = true := by
  have hlaw := recorded_run result events
  constructor
  · intro hreports p hp
    have hflags : pending p.since = _ := (hlaw.flags p hp).symm.trans (hreports.flags p hp)
    exact (pending_eq_flags_iff p.since).mp hflags
  · intro hlast
    refine ⟨fun p hp => ?_, hlaw.follows, hlaw.samples.drop⟩
    rw [hlaw.flags p hp]
    exact (pending_eq_flags_iff p.since).mpr (hlast p hp)

def readFrame (room : Bool) : CaptureEvent := .read (.kOk (List.replicate kSampleCount 0)) 0 room

theorem frame_behind_xrun_dropped :
    ¬ ∀ (result : Except String Unit) (events : List CaptureEvent),
      Reports ((log result events).flatMap fed) (pushedFrames (log result events)) := by
  intro hall
  have hflags := (hall (.ok ()) [.read .kXrunRecovered 0 true, readFrame false, readFrame true]).flags
  exact absurd (forall_mem_iff_forall_getElem.mp hflags 0) (by decide +kernel)

end AudioCaptureStream

end Cockpit.Audio
