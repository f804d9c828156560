/-
  What a `SpeechSegmenter` does with the frames, without their samples.
-/
import Cockpit.Audio.SpeechSegmenter
import Cockpit.Lib.Runs
import Cockpit.Lib.StepRun

namespace Cockpit.Audio

open KeepLast Runs StepRun List

/-- A frame, and what the detector says of it. -/
abbrev HeardFrame := AudioFrame × VoiceActivityState

namespace HeardFrame

/-- It does not continue the frame before it. -/
def cutOff (frame : HeardFrame) : Bool := frame.1.hasFlag AudioFrameFlag.kDiscontinuity

def spoken (frame : HeardFrame) : Bool := frame.2 = .speech

end HeardFrame

/-- Why a run is over. -/
inductive Ending where
  | truncated
  | interrupted
  | completed
  deriving DecidableEq

/-- The pre-roll, or a run of frames of which the last was spoken. -/
inductive Gathered where
  | waiting (preRoll : List HeardFrame)
  | speaking (run : List HeardFrame)

namespace Gathered

open SpeechSegmenter (Call)

/-- A run that is long enough ends. -/
def gather (config : SpeechSegmenterConfig) (run : List HeardFrame) : Gathered × Option (List HeardFrame × Ending) :=
  if config.maxSegmentFrames ≤ run.length then (.waiting [], some (run, .truncated))
  else (.speaking run, none)

/-- A frame that is cut off ends the run, or empties the pre-roll; a spoken one continues the run, or begins one
    with the pre-roll; a silent one ends it. -/
def take (config : SpeechSegmenterConfig) (g : Gathered) (frame : HeardFrame) :
    Gathered × Option (List HeardFrame × Ending) :=
  match g with
  | .waiting preRoll =>
    let preRoll := if frame.cutOff then [] else preRoll
    if frame.spoken then gather config (preRoll ++ [frame])
    else (.waiting (keepLast config.preRollFrames (preRoll ++ [frame])), none)
  | .speaking run =>
    if frame.cutOff then (.waiting (keepLast config.preRollFrames [frame]), some (run, .interrupted))
    else if frame.spoken then gather config (run ++ [frame])
    else (.waiting (keepLast config.preRollFrames [frame]), some (run, .completed))

def flush (g : Gathered) : Gathered × Option (List HeardFrame × Ending) :=
  match g with
  | .waiting _ => (g, none)
  | .speaking run => (.waiting [], some (run, .completed))

def step (config : SpeechSegmenterConfig) (g : Gathered) : Call → Gathered × Option (List HeardFrame × Ending)
  | .process frame activity => g.take config (frame, activity)
  | .flush => g.flush
  | .reset => (.waiting [], none)

def frames : Gathered → List HeardFrame
  | .waiting preRoll => preRoll
  | .speaking run => run

/-! ## The segmenter refines it -/

/-- The segment of a run. -/
def segmentOf (run : List HeardFrame) : SpeechSegment :=
  (run.map Prod.fst).foldl SpeechSegment.appendFrame {}

def finished (ended : List HeardFrame × Ending) : SpeechSegment :=
  { segmentOf ended.1 with
    truncated := ended.2 = .truncated, discontinuous := ended.2 = .interrupted }

/-- The segmenter with these frames. -/
def segmenter (config : SpeechSegmenterConfig) : Gathered → SpeechSegmenter
  | .waiting preRoll => { config := config, preRoll := preRoll.map Prod.fst }
  | .speaking run => { config := config, activeSegment := some (segmentOf run) }

/-- The pre-roll is within its bound. -/
def Fits (config : SpeechSegmenterConfig) : Gathered → Prop
  | .waiting preRoll => preRoll.length ≤ config.preRollFrames
  | .speaking _ => True

variable {config : SpeechSegmenterConfig} {g : Gathered} {run preRoll : List HeardFrame} {frame : HeardFrame}

theorem segmentOf_concat (run : List HeardFrame) (frame : HeardFrame) :
    segmentOf (run ++ [frame]) = (segmentOf run).appendFrame frame.1 := by
  unfold segmentOf
  rw [map_append, foldl_append]
  rfl

theorem samples_segmentOf (run : List HeardFrame) :
    (segmentOf run).samples = (run.map Prod.fst).flatMap AudioFrame.samples := by
  induction run using List.reverseRecOn with
  | nil => rfl
  | append_singleton run frame ih =>
    rw [segmentOf_concat, map_append, flatMap_append, ← ih]
    unfold SpeechSegment.appendFrame
    dsimp only
    rw [map_singleton, flatMap_singleton]
    split <;> rfl

theorem frameCount_segmentOf (run : List HeardFrame) : (segmentOf run).frameCount = run.length := by
  unfold SpeechSegment.frameCount
  rw [samples_segmentOf, AudioFrame.length_flatMap_samples, length_map]
  exact Nat.mul_div_cancel _ (by decide)

theorem finishFull_segmenter (config : SpeechSegmenterConfig) (run : List HeardFrame) :
    (segmenter config (.speaking run)).finishFull =
      (segmenter config (gather config run).1, (gather config run).2.map finished) := by
  unfold SpeechSegmenter.finishFull gather segmenter
  dsimp only
  rw [frameCount_segmentOf]
  split <;> rfl

theorem pushPreRoll_segmenter (hfits : preRoll.length ≤ config.preRollFrames) (frame : HeardFrame) :
    (segmenter config (.waiting preRoll)).pushPreRoll frame.1 =
      segmenter config (.waiting (keepLast config.preRollFrames (preRoll ++ [frame]))) := by
  unfold SpeechSegmenter.pushPreRoll segmenter
  dsimp only
  split
  case isTrue hzero =>
    rw [hzero] at hfits ⊢
    have hnil : preRoll = [] := eq_nil_of_length_eq_zero (by omega)
    rw [hnil]
    rfl
  case isFalse =>
    unfold keepLast
    rw [map_drop, map_append, length_append, length_append, length_map]
    rfl

theorem startSegment_segmenter (config : SpeechSegmenterConfig) (preRoll : List HeardFrame) (frame : HeardFrame) :
    (segmenter config (.waiting preRoll)).startSegment frame.1 =
      segmenter config (.speaking (preRoll ++ [frame])) := by
  unfold SpeechSegmenter.startSegment segmenter
  dsimp only
  rw [segmentOf_concat]
  rfl

theorem continueWith_speech (config : SpeechSegmenterConfig) (preRoll : List HeardFrame) (frame : AudioFrame) :
    (segmenter config (.waiting preRoll)).continueWith frame .speech =
      (segmenter config (gather config (preRoll ++ [(frame, .speech)])).1,
        (gather config (preRoll ++ [(frame, .speech)])).2.map finished) := by
  rw [← finishFull_segmenter, ← startSegment_segmenter]
  rfl

section Take

variable (config : SpeechSegmenterConfig) (preRoll run : List HeardFrame)

theorem take_silence (hcut : frame.cutOff = false) (hsilent : frame.spoken = false) :
    (waiting preRoll).take config frame = (.waiting (keepLast config.preRollFrames (preRoll ++ [frame])), none) := by
  simp [take, hcut, hsilent]

theorem take_cut_silence (hcut : frame.cutOff = true) (hsilent : frame.spoken = false) :
    (waiting preRoll).take config frame = (.waiting (keepLast config.preRollFrames [frame]), none) := by
  simp [take, hcut, hsilent]

theorem take_speech (hcut : frame.cutOff = false) (hspoken : frame.spoken = true) :
    (waiting preRoll).take config frame = gather config (preRoll ++ [frame]) := by
  simp [take, hcut, hspoken]

theorem take_cut_speech (hcut : frame.cutOff = true) (hspoken : frame.spoken = true) :
    (waiting preRoll).take config frame = gather config [frame] := by
  simp [take, hcut, hspoken]

theorem take_more (hcut : frame.cutOff = false) (hspoken : frame.spoken = true) :
    (speaking run).take config frame = gather config (run ++ [frame]) := by
  simp [take, hcut, hspoken]

theorem take_end (hcut : frame.cutOff = false) (hsilent : frame.spoken = false) :
    (speaking run).take config frame =
      (.waiting (keepLast config.preRollFrames [frame]), some (run, .completed)) := by
  simp [take, hcut, hsilent]

theorem take_interrupt (hcut : frame.cutOff = true) :
    (speaking run).take config frame =
      (.waiting (keepLast config.preRollFrames [frame]), some (run, .interrupted)) := by
  simp [take, hcut]

end Take

variable {activity : VoiceActivityState}

theorem process_continues (hfits : g.Fits config) {frame : AudioFrame}
    (hcut : HeardFrame.cutOff (frame, activity) = false) :
    (segmenter config g).process frame activity = (segmenter config (g.take config (frame, activity)).1,
        (g.take config (frame, activity)).2.map finished) := by
  have hempty : ([] : List HeardFrame).length ≤ config.preRollFrames := Nat.zero_le _
  have hflag : frame.hasFlag AudioFrameFlag.kDiscontinuity = false := hcut
  unfold SpeechSegmenter.process
  rw [if_neg (by rw [hflag]; decide)]
  cases g with
  | waiting preRoll =>
    cases activity with
    | silence =>
      rw [take_silence config preRoll hcut rfl]
      show (SpeechSegmenter.pushPreRoll _ frame, none) = _
      rw [pushPreRoll_segmenter hfits (frame, .silence)]
      rfl
    | speech =>
      rw [take_speech config preRoll hcut rfl]
      exact continueWith_speech config preRoll frame
  | speaking run =>
    cases activity with
    | silence =>
      rw [take_end config run hcut rfl]
      show (SpeechSegmenter.pushPreRoll (segmenter config (.waiting [])) frame, some _) = _
      rw [pushPreRoll_segmenter hempty (frame, .silence)]
      rfl
    | speech =>
      rw [take_more config run hcut rfl, ← finishFull_segmenter]
      have hactive : (segmentOf run).appendFrame frame = segmentOf (run ++ [(frame, .speech)]) :=
        (segmentOf_concat run (frame, .speech)).symm
      show SpeechSegmenter.finishFull { config := config, activeSegment := some _ } = _
      rw [hactive]
      rfl

theorem process_cutOff {frame : AudioFrame} (hcut : HeardFrame.cutOff (frame, activity) = true) (g : Gathered) :
    (segmenter config g).process frame activity = (segmenter config (g.take config (frame, activity)).1,
        (g.take config (frame, activity)).2.map finished) := by
  have hempty : ([] : List HeardFrame).length ≤ config.preRollFrames := Nat.zero_le _
  have hflag : frame.hasFlag AudioFrameFlag.kDiscontinuity = true := hcut
  unfold SpeechSegmenter.process
  rw [if_pos hflag]
  cases g with
  | waiting preRoll =>
    cases activity with
    | silence =>
      rw [take_cut_silence config preRoll hcut rfl]
      show (SpeechSegmenter.pushPreRoll (segmenter config (.waiting [])) frame, none) = _
      rw [pushPreRoll_segmenter hempty (frame, .silence)]
      rfl
    | speech =>
      rw [take_cut_speech config preRoll hcut rfl]
      exact continueWith_speech config [] frame
  | speaking run =>
    rw [take_interrupt config run hcut]
    show (SpeechSegmenter.pushPreRoll (segmenter config (.waiting [])) frame, some _) = _
    rw [pushPreRoll_segmenter hempty (frame, activity)]
    rfl

/-- The segmenter has just these frames. -/
def Refines (config : SpeechSegmenterConfig) (s : SpeechSegmenter) (g : Gathered) : Prop :=
  s = segmenter config g ∧ g.Fits config

theorem fits_gather (config : SpeechSegmenterConfig) (run : List HeardFrame) : (gather config run).1.Fits config := by
  unfold gather
  split
  case isTrue => exact Nat.zero_le _
  case isFalse => trivial

theorem fits_take (g : Gathered) (frame : HeardFrame) : (g.take config frame).1.Fits config := by
  unfold take
  cases g with
  | waiting preRoll =>
    dsimp only
    split
    case isTrue => exact fits_gather config _
    case isFalse => exact length_keepLast_le _ _
  | speaking run =>
    dsimp only
    split
    case isTrue => exact length_keepLast_le _ _
    case isFalse =>
      split
      case isTrue => exact fits_gather config _
      case isFalse => exact length_keepLast_le _ _

/-- **The segmenter does what is said here of the frames**, and returns the segments of the runs. -/
theorem step_refines (s : SpeechSegmenter) (g : Gathered) (call : Call) (h : Refines config s g) :
    Refines config (s.step call).1 (g.step config call).1 ∧
      (s.step call).2 = (g.step config call).2.map finished := by
  obtain ⟨rfl, hfits⟩ := h
  cases call with
  | process frame activity =>
    have hprocess : (segmenter config g).step (.process frame activity) =
        (segmenter config (g.take config (frame, activity)).1,
          (g.take config (frame, activity)).2.map finished) := by
      cases hcut : HeardFrame.cutOff (frame, activity) with
      | true => exact process_cutOff hcut g
      | false => exact process_continues hfits hcut
    rw [hprocess]
    exact ⟨⟨rfl, fits_take g _⟩, rfl⟩
  | flush =>
    cases g with
    | waiting preRoll => exact ⟨⟨rfl, hfits⟩, rfl⟩
    | speaking run => exact ⟨⟨rfl, Nat.zero_le _⟩, rfl⟩
  | reset =>
    cases g with
    | waiting preRoll | speaking run => exact ⟨⟨rfl, Nat.zero_le _⟩, rfl⟩

/-! ## Runs of frames -/

/-- No frame behind the first is cut off. -/
def Unbroken (run : List HeardFrame) : Prop := ∀ frame ∈ run.tail, frame.cutOff = false

/-- A run that is returned. -/
structure IsRun (config : SpeechSegmenterConfig) (run : List HeardFrame) : Prop where
  ne_nil : run ≠ []
  unbroken : Unbroken run
  length_le : run.length ≤ max config.maxSegmentFrames (config.preRollFrames + 1)

/-- What is gathered is a run, or may begin one. -/
def Kept (config : SpeechSegmenterConfig) : Gathered → Prop
  | .waiting preRoll => Unbroken preRoll ∧ preRoll.length ≤ config.preRollFrames
  | .speaking run => IsRun config run ∧ run.length < config.maxSegmentFrames

/-- What has been made of the frames so far. -/
structure Gathering (config : SpeechSegmenterConfig) (runs : List (List HeardFrame))
    (inputs : List HeardFrame) (g : Gathered) : Prop where
  inTurn : InTurn runs g.frames inputs
  runs : ∀ run ∈ runs, IsRun config run
  kept : Kept config g

variable {runs : List (List HeardFrame)} {inputs : List HeardFrame}

theorem unbroken_singleton (frame : HeardFrame) : Unbroken [frame] := fun _ hmem => nomatch hmem

theorem Unbroken.concat (h : Unbroken run) (hcut : frame.cutOff = false) : Unbroken (run ++ [frame]) := by
  intro other hmem
  cases run with
  | nil => cases hmem
  | cons first run =>
    rcases mem_append.mp hmem with hmem | hmem
    · exact h other hmem
    · rw [mem_singleton.mp hmem]
      exact hcut

theorem Unbroken.keepLast (h : Unbroken run) (n : Nat) : Unbroken (keepLast n run) := by
  intro other hmem
  refine h other ?_
  unfold KeepLast.keepLast at hmem
  rw [tail_drop] at hmem
  rw [← drop_one]
  exact mem_of_mem_drop (i := run.length - n) (by rwa [drop_drop, Nat.add_comm])

theorem Gathering.gather (hin : InTurn runs run inputs) (hruns : ∀ run ∈ runs, IsRun config run)
    (hne : run ≠ []) (hunbroken : Unbroken run)
    (hlen : run.length ≤ max config.maxSegmentFrames (config.preRollFrames + 1)) :
    Gathering config (runs ++ ((gather config run).2.map Prod.fst).toList) inputs (gather config run).1 := by
  unfold Gathered.gather
  split
  case isTrue =>
    refine ⟨hin.close, ?_, fun _ hmem => (nomatch hmem), Nat.zero_le _⟩
    intro other hmem
    rcases mem_append.mp hmem with hmem | hmem
    · exact hruns other hmem
    · rw [mem_singleton.mp hmem]
      exact ⟨hne, hunbroken, hlen⟩
  case isFalse hshort =>
    rw [show runs ++ ((none : Option (List HeardFrame × Ending)).map Prod.fst).toList = runs from
      append_nil runs]
    exact ⟨hin, hruns, ⟨hne, hunbroken, hlen⟩, by omega⟩

theorem Gathering.wait (hin : InTurn runs preRoll inputs) (hruns : ∀ run ∈ runs, IsRun config run)
    (hunbroken : Unbroken preRoll) :
    Gathering config runs inputs (.waiting (keepLast config.preRollFrames preRoll)) where
  inTurn := hin.shrink (keepLast_suffix _ _)
  runs := hruns
  kept := ⟨hunbroken.keepLast _, length_keepLast_le _ _⟩

theorem Gathering.finish (h : Gathering config runs inputs (.speaking run)) (frame : HeardFrame) :
    Gathering config (runs ++ [run]) (inputs ++ [frame]) (.waiting (keepLast config.preRollFrames [frame])) := by
  refine Gathering.wait (h.inTurn.close.extend [frame]) ?_ (unbroken_singleton frame)
  intro other hmem
  rcases mem_append.mp hmem with hmem | hmem
  · exact h.runs other hmem
  · rw [mem_singleton.mp hmem]
    exact h.kept.1

theorem Gathering.take (h : Gathering config runs inputs g) (frame : HeardFrame) :
    Gathering config (runs ++ ((g.take config frame).2.map Prod.fst).toList) (inputs ++ [frame])
      (g.take config frame).1 := by
  have hlone : InTurn runs [frame] (inputs ++ [frame]) := h.inTurn.drop.extend [frame]
  have hmore : InTurn runs (g.frames ++ [frame]) (inputs ++ [frame]) := h.inTurn.extend [frame]
  cases g with
  | waiting preRoll =>
    obtain ⟨hunbroken, hlen⟩ := h.kept
    cases hcut : frame.cutOff with
    | true =>
      cases hspoken : frame.spoken with
      | true =>
        rw [take_cut_speech config preRoll hcut hspoken]
        exact .gather hlone h.runs (cons_ne_nil _ _) (unbroken_singleton frame)
          (by rw [length_singleton]; omega)
      | false =>
        rw [take_cut_silence config preRoll hcut hspoken]
        show Gathering config (runs ++ []) _ _
        rw [append_nil]
        exact .wait hlone h.runs (unbroken_singleton frame)
    | false =>
      cases hspoken : frame.spoken with
      | true =>
        rw [take_speech config preRoll hcut hspoken]
        exact .gather hmore h.runs (by simp) (hunbroken.concat hcut)
          (by rw [length_append, length_singleton]; omega)
      | false =>
        rw [take_silence config preRoll hcut hspoken]
        show Gathering config (runs ++ []) _ _
        rw [append_nil]
        exact .wait hmore h.runs (hunbroken.concat hcut)
  | speaking run =>
    obtain ⟨hrun, hlen⟩ := h.kept
    cases hcut : frame.cutOff with
    | true =>
      rw [take_interrupt config run hcut]
      exact h.finish frame
    | false =>
      cases hspoken : frame.spoken with
      | true =>
        rw [take_more config run hcut hspoken]
        exact .gather hmore h.runs (by simp) (hrun.unbroken.concat hcut)
          (by rw [length_append, length_singleton]; omega)
      | false =>
        rw [take_end config run hcut hspoken]
        exact h.finish frame

def heard? : Call → Option HeardFrame
  | .process frame activity => some (frame, activity)
  | .flush | .reset => none

theorem Gathering.step (h : Gathering config runs inputs g) (call : Call) :
    Gathering config (runs ++ ((g.step config call).2.map Prod.fst).toList)
      (inputs ++ (heard? call).toList) (g.step config call).1 := by
  have hempty : Kept config (.waiting []) := ⟨fun _ hmem => (nomatch hmem), Nat.zero_le _⟩
  cases call with
  | process frame activity => exact h.take (frame, activity)
  | flush =>
    rw [show inputs ++ (heard? .flush).toList = inputs from append_nil inputs]
    cases g with
    | waiting preRoll =>
      show Gathering config (runs ++ []) inputs (.waiting preRoll)
      rwa [append_nil]
    | speaking run =>
      refine ⟨h.inTurn.close, ?_, hempty⟩
      intro other hmem
      rcases mem_append.mp hmem with hmem | hmem
      · exact h.runs other hmem
      · rw [mem_singleton.mp hmem]
        exact h.kept.1
  | reset =>
    show Gathering config (runs ++ []) (inputs ++ []) (.waiting [])
    rw [append_nil, append_nil]
    exact ⟨h.inTurn.drop, h.runs, hempty⟩

/-- The runs that ended. -/
def returned (history : List (Call × Option (List HeardFrame × Ending))) : List (List HeardFrame) :=
  (history.filterMap Prod.snd).map Prod.fst

/-- The frames given so far. -/
def heard (history : List (Call × Option (List HeardFrame × Ending))) : List HeardFrame :=
  history.filterMap fun call => heard? call.1

/-- What ended are runs of the frames heard. -/
theorem gathering_run (config : SpeechSegmenterConfig) (calls : List Call) :
    Gathering config (returned (trace (step config) (.waiting []) calls))
      (heard (trace (step config) (.waiting []) calls)) (StepRun.run (step config) (.waiting []) calls) := by
  have hstart : Gathering config (returned []) (heard []) (.waiting []) :=
    ⟨.nil [] [], fun _ hmem => (nomatch hmem), fun _ hmem => (nomatch hmem), Nat.zero_le _⟩
  refine trace_invariant (I := fun history => Gathering config (returned history) (heard history))
    ?_ hstart calls
  intro history g call h
  have hstep := h.step call
  unfold returned heard
  rw [filterMap_snoc, filterMap_snoc, map_append]
  cases hanswer : (g.step config call).2 with
  | none | some ended => rwa [hanswer] at hstep

end Gathered

namespace SpeechSegmenter

open Gathered

/-- The segments that the calls return. -/
def segmentsOf (config : SpeechSegmenterConfig) (calls : List Call) : List SpeechSegment :=
  (trace step { config := config } calls).filterMap Prod.snd

def after (config : SpeechSegmenterConfig) (calls : List Call) : SpeechSegmenter :=
  StepRun.run step { config := config } calls

/-- The segmenter does the same along any calls. -/
theorem refines_run (config : SpeechSegmenterConfig) (calls : List Call) :
    Refines config (after config calls) (StepRun.run (Gathered.step config) (.waiting []) calls) ∧
      segmentsOf config calls =
        ((trace (Gathered.step config) (.waiting []) calls).filterMap Prod.snd).map finished := by
  have hstart : Refines config { config := config } (.waiting []) := ⟨rfl, Nat.zero_le _⟩
  obtain ⟨hrun, htrace⟩ :=
    trace_refines (f := Option.map finished) (fun s g call h => step_refines s g call h) hstart calls
  refine ⟨hrun, ?_⟩
  calc segmentsOf config calls
      = ((trace step { config := config } calls).map Prod.snd).filterMap id := by
        rw [filterMap_map]
        rfl
    _ = (trace (Gathered.step config) (.waiting []) calls).filterMap fun call => call.2.map finished := by
        rw [htrace, filterMap_map]
        rfl
    _ = _ := map_filterMap.symm

/-- The segment is that of a run of frames: its samples are theirs, its beginning is the first one and its
    end the last one.  Only the first frame may be cut off from those before it. -/
structure IsSegmentOf (config : SpeechSegmenterConfig) (run : List AudioFrame) (segment : SpeechSegment) :
    Prop where
  samples : segment.samples = run.flatMap AudioFrame.samples
  first : ∃ frame, run.head? = some frame ∧ segment.startSequence = frame.sequence ∧
    segment.startTimeNs = frame.captureTimeNs
  last : ∃ frame, run.getLast? = some frame ∧ segment.endSequence = frame.sequence ∧
    segment.endTimeNs = frame.captureTimeNs
  unbroken : ∀ frame ∈ run.tail, frame.hasFlag AudioFrameFlag.kDiscontinuity = false
  length_le : run.length ≤ max config.maxSegmentFrames (config.preRollFrames + 1)

theorem first_segmentOf (frame : HeardFrame) (run : List HeardFrame) :
    (segmentOf (frame :: run)).startSequence = frame.1.sequence ∧
      (segmentOf (frame :: run)).startTimeNs = frame.1.captureTimeNs := by
  induction run using List.reverseRecOn with
  | nil => exact ⟨rfl, rfl⟩
  | append_singleton run last ih =>
    have hne : (segmentOf (frame :: run)).samples ≠ [] := by
      rw [samples_segmentOf, map_cons, flatMap_cons]
      intro hnil
      exact frame.1.samples_ne_nil (append_eq_nil_iff.mp hnil).1
    rw [← cons_append, segmentOf_concat]
    unfold SpeechSegment.appendFrame
    rw [if_neg hne]
    exact ih

theorem isSegmentOf_finished {config : SpeechSegmenterConfig} {ended : List HeardFrame × Ending}
    (h : IsRun config ended.1) : IsSegmentOf config (ended.1.map Prod.fst) (finished ended) where
  samples := samples_segmentOf ended.1
  first := by
    obtain ⟨frame, run, hcons⟩ := exists_cons_of_ne_nil h.ne_nil
    have hfirst := first_segmentOf frame run
    rw [← hcons] at hfirst
    refine ⟨frame.1, ?_, hfirst.1, hfirst.2⟩
    rw [hcons]
    rfl
  last := by
    obtain ⟨run, frame, hconcat⟩ : ∃ run frame, ended.1 = run ++ [frame] :=
      ⟨_, _, (dropLast_append_getLast h.ne_nil).symm⟩
    have hsegment : finished ended = { (segmentOf run).appendFrame frame.1 with
        truncated := ended.2 = .truncated, discontinuous := ended.2 = .interrupted } := by
      unfold finished
      rw [hconcat, segmentOf_concat]
    rw [hsegment, hconcat]
    refine ⟨frame.1, ?_, rfl, rfl⟩
    rw [map_append, map_singleton, List.getLast?_concat]
  unbroken := by
    intro frame hmem
    rw [← map_tail] at hmem
    obtain ⟨heard, hheard, rfl⟩ := mem_map.mp hmem
    exact h.unbroken heard hheard
  length_le := by
    rw [length_map]
    exact h.length_le

/-- **The segments are runs of the frames**: contiguous and disjoint, in the order of the input, none with a
    gap in it, and none longer than the longest one there may be. -/
theorem segments_are_runs (config : SpeechSegmenterConfig) (calls : List Call) :
    ∃ runs : List (List AudioFrame), InTurn runs [] (calls.filterMap Call.frame?) ∧
      List.Forall₂ (IsSegmentOf config) runs (segmentsOf config calls) := by
  obtain ⟨hin, hruns, -⟩ := gathering_run config calls
  generalize htrace : trace (Gathered.step config) (.waiting []) calls = history at hin hruns
  have hinputs : (heard history).map Prod.fst = calls.filterMap Call.frame? := by
    have hcalls : (trace (Gathered.step config) (.waiting []) calls).map Prod.fst = calls :=
      map_fst_trace _ calls
    rw [htrace] at hcalls
    unfold heard
    rw [← hcalls, map_filterMap, filterMap_map]
    congr 1
    funext ⟨call, answer⟩
    cases call <;> rfl
  refine ⟨(returned history).map (List.map Prod.fst), ?_, ?_⟩
  · rw [← hinputs]
    exact hin.drop.map Prod.fst
  · rw [(refines_run config calls).2, htrace]
    unfold returned at hruns ⊢
    rw [map_map, forall₂_map_left_iff, forall₂_map_right_iff, forall₂_same]
    intro ended hended
    exact isSegmentOf_finished (hruns ended.1 (mem_map_of_mem hended))

end SpeechSegmenter

end Cockpit.Audio
