/-
  Which spoken frames are in a segment: a frame that is cut off from those before it goes to the pre-roll,
  whatever the detector says of it, and may be pushed out of it.
-/
import Cockpit.Audio.SpeechRuns

namespace Cockpit.Audio

open KeepLast Runs StepRun List

namespace Gathered

open SpeechSegmenter (Call)

variable {config : SpeechSegmenterConfig} {g : Gathered} {run preRoll before after : List HeardFrame}
  {frame : HeardFrame}

/-- A spoken frame comes before it is pushed out of the pre-roll, or that is cleared. -/
def rejoins : Nat → List HeardFrame → Bool
  | 0, _ => false
  | _, [] => false
  | n + 1, frame :: frames => !frame.cutOff && (frame.spoken || rejoins n frames)

/-- The runs of these frames, the last one flushed. -/
def runsOf (config : SpeechSegmenterConfig) (g : Gathered) : List HeardFrame → List (List HeardFrame)
  | [] => (g.flush.2.map Prod.fst).toList
  | frame :: frames =>
    ((g.take config frame).2.map Prod.fst).toList ++ runsOf config (g.take config frame).1 frames

def afterFrames (config : SpeechSegmenterConfig) (g : Gathered) (frames : List HeardFrame) : Gathered :=
  frames.foldl (fun g frame => (g.take config frame).1) g

def InRuns (frame : HeardFrame) (runs : List (List HeardFrame)) : Prop := frame ∈ runs.flatten

variable {runs : List (List HeardFrame)}

theorem inTurn_runsOf {inputs : List HeardFrame} (h : Gathering config runs inputs g) (frames : List HeardFrame) :
    InTurn (runs ++ runsOf config g frames) [] (inputs ++ frames) := by
  induction frames generalizing g runs inputs with
  | nil =>
    have hflush := (h.step .flush).inTurn.drop
    exact hflush
  | cons frame frames ih =>
    have hnext := ih (h.take frame)
    rw [append_assoc, append_assoc] at hnext
    exact hnext

theorem Kept.gathering (h : Kept config g) : Gathering config [] g.frames g :=
  ⟨.nil [] g.frames, fun _ hmem => (nomatch hmem), h⟩

theorem Kept.take (h : Kept config g) (frame : HeardFrame) : Kept config (g.take config frame).1 :=
  (h.gathering.take frame).kept

theorem Kept.mem_take (h : Kept config g) {other : HeardFrame}
    (hmem : other ∈ (((g.take config frame).2.map Prod.fst).toList).flatten ++ (g.take config frame).1.frames) :
    other ∈ g.frames ∨ other = frame := by
  have hsub := (h.gathering.take frame).inTurn.sublist.subset hmem
  exact (mem_append.mp hsub).imp id mem_singleton.mp

variable {frames : List HeardFrame}

theorem Kept.not_inRuns (h : Kept config g) (hg : frame ∉ g.frames) (hframes : frame ∉ frames) :
    ¬ InRuns frame (runsOf config g frames) := by
  intro hin
  have hsub := (inTurn_runsOf h.gathering frames).sublist.subset (mem_append_left [] hin)
  exact (mem_append.mp hsub).elim hg hframes

/-! ## The fate of one frame -/

theorem inRuns_append {runs' : List (List HeardFrame)} :
    InRuns frame (runs ++ runs') ↔ InRuns frame runs ∨ InRuns frame runs' := by
  unfold InRuns
  rw [flatten_append, mem_append]

theorem inRuns_speaking (hmem : frame ∈ run) (frames : List HeardFrame) :
    InRuns frame (runsOf config (.speaking run) frames) := by
  induction frames generalizing run with
  | nil => exact mem_flatten_of_mem mem_cons_self hmem
  | cons next frames ih =>
    have hmore : frame ∈ run ++ [next] := mem_append_left _ hmem
    unfold runsOf
    rw [inRuns_append]
    cases hcut : next.cutOff with
    | true =>
      rw [take_interrupt config run hcut]
      exact .inl (mem_flatten_of_mem mem_cons_self hmem)
    | false =>
      cases hspoken : next.spoken with
      | false =>
        rw [take_end config run hcut hspoken]
        exact .inl (mem_flatten_of_mem mem_cons_self hmem)
      | true =>
        rw [take_more config run hcut hspoken]
        unfold gather
        split
        case isTrue => exact .inl (mem_flatten_of_mem mem_cons_self hmore)
        case isFalse => exact .inr (ih hmore)

theorem inRuns_gather (hmem : frame ∈ run) (frames : List HeardFrame) :
    InRuns frame (((gather config run).2.map Prod.fst).toList ++ runsOf config (gather config run).1 frames) := by
  rw [inRuns_append]
  unfold gather
  split
  case isTrue => exact .inl (mem_flatten_of_mem mem_cons_self hmem)
  case isFalse => exact .inr (inRuns_speaking hmem frames)

theorem not_inRuns_gather (hkept : Kept config (gather config run).1) (hrun : frame ∉ run) (hframes : frame ∉ frames) :
    ¬ InRuns frame ((gather config run).2.map Prod.fst).toList ∧
      ¬ InRuns frame (runsOf config (gather config run).1 frames) := by
  unfold gather at hkept ⊢
  by_cases hlong : config.maxSegmentFrames ≤ run.length
  · rw [if_pos hlong] at hkept ⊢
    have hlone : ¬ InRuns frame [run] := by
      unfold InRuns
      rw [flatten_cons, flatten_nil, append_nil]
      exact hrun
    exact ⟨hlone, hkept.not_inRuns not_mem_nil hframes⟩
  · rw [if_neg hlong] at hkept ⊢
    exact ⟨not_mem_nil, hkept.not_inRuns hrun hframes⟩

variable {silent : List HeardFrame}

theorem inRuns_waiting (hlen : silent.length < config.preRollFrames)
    (h : rejoins (config.preRollFrames - silent.length) frames = true) :
    InRuns frame (runsOf config (.waiting (frame :: silent)) frames) := by
  induction frames generalizing silent with
  | nil =>
    obtain ⟨n, hn⟩ : ∃ n, config.preRollFrames - silent.length = n + 1 :=
      ⟨config.preRollFrames - silent.length - 1, by omega⟩
    rw [hn] at h
    cases h
  | cons next frames ih =>
    obtain ⟨n, hn⟩ : ∃ n, config.preRollFrames - silent.length = n + 1 :=
      ⟨config.preRollFrames - silent.length - 1, by omega⟩
    rw [hn, rejoins, Bool.and_eq_true, Bool.not_eq_true', Bool.or_eq_true] at h
    obtain ⟨hcut, hnext⟩ := h
    unfold runsOf
    cases hspoken : next.spoken with
    | true =>
      rw [take_speech config _ hcut hspoken]
      exact inRuns_gather mem_cons_self frames
    | false =>
      rw [hspoken] at hnext
      have hrest : rejoins n frames = true := hnext.resolve_left (by decide)
      -- there is room for the silent frame, or nothing could be rejoined behind it
      have hroom : silent.length + 1 < config.preRollFrames := by
        rcases Nat.eq_zero_or_pos n with rfl | hpos
        · rw [rejoins] at hrest
          cases hrest
        · omega
      rw [take_silence config _ hcut hspoken, keepLast_of_length_le (by simp; omega)]
      have hsilent : (silent ++ [next]).length = silent.length + 1 := by
        rw [length_append, length_singleton]
      have hin : InRuns frame (runsOf config (.waiting (frame :: (silent ++ [next]))) frames) := by
        refine ih (by omega) ?_
        rwa [hsilent, show config.preRollFrames - (silent.length + 1) = n by omega]
      exact inRuns_append.mpr (.inr hin)

theorem not_inRuns_waiting (hkept : Kept config (.waiting (frame :: silent))) (hsilent : frame ∉ silent)
    (hframes : frame ∉ frames) (h : rejoins (config.preRollFrames - silent.length) frames = false) :
    ¬ InRuns frame (runsOf config (.waiting (frame :: silent)) frames) := by
  induction frames generalizing silent with
  | nil =>
    intro hin
    cases hin
  | cons next frames ih =>
    have hnext : frame ≠ next := fun heq => hframes (heq ▸ mem_cons_self)
    have hrest : frame ∉ frames := fun hmem => hframes (mem_cons_of_mem next hmem)
    have hlen : silent.length + 1 ≤ config.preRollFrames := hkept.2
    have hkept' := hkept.take next
    have hlone : frame ∉ [next] := fun hmem => hnext (mem_singleton.mp hmem)
    obtain ⟨n, hn⟩ : ∃ n, config.preRollFrames - silent.length = n + 1 :=
      ⟨config.preRollFrames - silent.length - 1, by omega⟩
    rw [hn, rejoins] at h
    unfold runsOf
    rw [inRuns_append, not_or]
    cases hcut : next.cutOff with
    | true =>
      cases hspoken : next.spoken with
      | true =>
        rw [take_cut_speech config _ hcut hspoken] at hkept' ⊢
        exact not_inRuns_gather hkept' hlone hrest
      | false =>
        rw [take_cut_silence config _ hcut hspoken] at hkept' ⊢
        refine ⟨not_mem_nil, hkept'.not_inRuns (fun hmem => ?_) hrest⟩
        exact hlone ((keepLast_suffix _ _).subset hmem)
    | false =>
      rw [hcut] at h
      cases hspoken : next.spoken with
      | true =>
        rw [hspoken] at h
        cases h
      | false =>
        rw [hspoken] at h
        rw [take_silence config _ hcut hspoken] at hkept' ⊢
        refine ⟨not_mem_nil, ?_⟩
        rcases Nat.lt_or_ge (silent.length + 1) config.preRollFrames with hroom | hfull
        · rw [keepLast_of_length_le (by simp; omega)] at hkept' ⊢
          have hmore : (silent ++ [next]).length = silent.length + 1 := by
            rw [length_append, length_singleton]
          have hnot : frame ∉ silent ++ [next] := fun hmem =>
            (mem_append.mp hmem).elim hsilent hlone
          refine @ih (silent ++ [next]) hkept' hnot hrest ?_
          rwa [hmore, show config.preRollFrames - (silent.length + 1) = n by omega]
        · -- the pre-roll is full, and the frame is the first one in it
          rw [cons_append, keepLast_cons (by simp; omega)] at hkept' ⊢
          refine hkept'.not_inRuns (fun hmem => ?_) hrest
          rcases mem_append.mp ((keepLast_suffix _ _).subset hmem) with hmem | hmem
          · exact hsilent hmem
          · exact hlone hmem

theorem inRuns_skip (hkept : Kept config g) (hg : frame ∉ g.frames) (hbefore : frame ∉ before)
    (frames : List HeardFrame) :
    InRuns frame (runsOf config g (before ++ frames)) ↔
      InRuns frame (runsOf config (afterFrames config g before) frames) := by
  induction before generalizing g with
  | nil => rfl
  | cons first before ih =>
    have hfirst : frame ≠ first := fun heq => hbefore (heq ▸ mem_cons_self)
    have hrest : frame ∉ before := fun hmem => hbefore (mem_cons_of_mem first hmem)
    have hnot : frame ∉ (((g.take config first).2.map Prod.fst).toList).flatten ++
        (g.take config first).1.frames := fun hmem => (hkept.mem_take hmem).elim hg hfirst
    rw [mem_append, not_or] at hnot
    rw [cons_append, runsOf, inRuns_append, ih (hkept.take first) hnot.2 hrest]
    exact ⟨fun hin => hin.resolve_left hnot.1, .inr⟩

theorem kept_afterFrames (hkept : Kept config g) (frames : List HeardFrame) :
    Kept config (afterFrames config g frames) ∧
      ∀ other ∈ (afterFrames config g frames).frames, other ∈ g.frames ∨ other ∈ frames := by
  induction frames generalizing g with
  | nil => exact ⟨hkept, fun _ => .inl⟩
  | cons first frames ih =>
    obtain ⟨hafter, hmem⟩ := ih (hkept.take first)
    refine ⟨hafter, fun other hother => ?_⟩
    rcases hmem other hother with hin | hin
    · rcases hkept.mem_take (mem_append_right _ hin) with hin | rfl
      · exact .inl hin
      · exact .inr mem_cons_self
    · exact .inr (mem_cons_of_mem first hin)

/-- **A spoken frame is in a segment, unless it is cut off while there is an active one**, and then if and
    only if the next spoken frame rejoins it. -/
theorem inRuns_iff (hspoken : frame.spoken = true) (hbefore : frame ∉ before) (hafter : frame ∉ after) :
    InRuns frame (runsOf config (.waiting []) (before ++ frame :: after)) ↔
      (frame.cutOff = true → (∃ run, afterFrames config (.waiting []) before = .speaking run) →
        rejoins config.preRollFrames after = true) := by
  have hstart : Kept config (.waiting []) := ⟨fun _ hmem => (nomatch hmem), Nat.zero_le _⟩
  rw [inRuns_skip hstart not_mem_nil hbefore]
  obtain ⟨hkept, hframes⟩ := kept_afterFrames hstart before
  generalize afterFrames config (.waiting []) before = g at hkept hframes
  have hnot : frame ∉ g.frames := fun hmem =>
    (hframes frame hmem).elim (fun hmem => (nomatch hmem)) hbefore
  have hkept' := hkept.take frame
  unfold runsOf
  cases g with
  | waiting preRoll =>
    have hin : InRuns frame ((((waiting preRoll).take config frame).2.map Prod.fst).toList ++
        runsOf config ((waiting preRoll).take config frame).1 after) := by
      cases hcut : frame.cutOff with
      | true =>
        rw [take_cut_speech config preRoll hcut hspoken]
        exact inRuns_gather mem_cons_self after
      | false =>
        rw [take_speech config preRoll hcut hspoken]
        exact inRuns_gather (mem_append_right _ mem_cons_self) after
    exact ⟨fun _ _ ⟨run, hrun⟩ => (nomatch hrun), fun _ => hin⟩
  | speaking run =>
    cases hcut : frame.cutOff with
    | false =>
      rw [take_more config run hcut hspoken]
      exact ⟨fun _ habsurd => (nomatch habsurd),
        fun _ => inRuns_gather (mem_append_right _ mem_cons_self) after⟩
    | true =>
      rw [take_interrupt config run hcut] at hkept' ⊢
      have hrun : ¬ InRuns frame [run] := by
        unfold InRuns
        rw [flatten_cons, flatten_nil, append_nil]
        exact hnot
      have hskip : InRuns frame ([run] ++ runsOf config (.waiting (keepLast config.preRollFrames [frame])) after)
          ↔ InRuns frame (runsOf config (.waiting (keepLast config.preRollFrames [frame])) after) := by
        rw [inRuns_append]
        exact ⟨fun hin => hin.resolve_left hrun, .inr⟩
      refine Iff.trans hskip (Iff.trans ?_ ⟨fun h _ _ => h, fun h => h rfl ⟨run, rfl⟩⟩)
      rcases Nat.eq_zero_or_pos config.preRollFrames with hzero | hpos
      · -- nothing is kept
        rw [hzero] at hkept' ⊢
        refine ⟨fun hin => absurd hin (hkept'.not_inRuns not_mem_nil hafter), fun h => ?_⟩
        rw [rejoins] at h
        cases h
      · rw [keepLast_of_length_le (by rw [length_singleton]; exact hpos)] at hkept' ⊢
        constructor
        · intro hin
          cases hrejoins : rejoins config.preRollFrames after with
          | true => rfl
          | false => exact absurd hin (not_inRuns_waiting hkept' not_mem_nil hafter hrejoins)
        · intro h
          have hnil : ([] : List HeardFrame).length < config.preRollFrames := hpos
          exact inRuns_waiting hnil h

end Gathered

namespace SpeechSegmenter

open Gathered

def processes (frames : List HeardFrame) : List Call :=
  frames.map fun frame => .process frame.1 frame.2

/-- The segment spans the frame's sequence number. -/
def covers (frame : AudioFrame) (segment : SpeechSegment) : Bool :=
  segment.startSequence ≤ frame.sequence && frame.sequence ≤ segment.endSequence

/-- Exactly one segment covers the frame, and has its samples. -/
def KeptOnce (frame : AudioFrame) (segments : List SpeechSegment) : Prop :=
  segments.countP (covers frame) = 1 ∧
    ∃ segment ∈ segments, covers frame segment = true ∧ frame.samples <:+: segment.samples

variable {config : SpeechSegmenterConfig} {frames before : List HeardFrame} {frame : HeardFrame}

theorem returned_processes (config : SpeechSegmenterConfig) (g : Gathered) (frames : List HeardFrame) :
    returned (trace (Gathered.step config) g (processes frames ++ [.flush])) = runsOf config g frames := by
  induction frames generalizing g with
  | nil =>
    cases g with
    | waiting preRoll | speaking run => rfl
  | cons frame frames ih =>
    rw [runsOf, ← ih]
    unfold returned
    show ((trace _ g (Call.process frame.1 frame.2 :: _)).filterMap Prod.snd).map Prod.fst = _
    rw [trace, filterMap_cons]
    show _ = ((g.take config frame).2.map Prod.fst).toList ++ _
    have hanswer : (g.step config (.process frame.1 frame.2)).2 = (g.take config frame).2 := rfl
    dsimp only
    rw [hanswer]
    cases (g.take config frame).2 with
    | none | some ended => rfl

theorem run_processes (g : Gathered) (frames : List HeardFrame) :
    StepRun.run (Gathered.step config) g (processes frames) = afterFrames config g frames := by
  induction frames generalizing g with
  | nil => rfl
  | cons frame frames ih => exact ih _

theorem isSome_activeSegment_after (config : SpeechSegmenterConfig) (before : List HeardFrame) :
    (after config (processes before)).activeSegment.isSome = true ↔
      ∃ run, afterFrames config (.waiting []) before = .speaking run := by
  have hrefines := (refines_run config (processes before)).1
  rw [run_processes] at hrefines
  rw [hrefines.1]
  cases afterFrames config (.waiting []) before with
  | waiting preRoll => exact ⟨fun h => (nomatch h), fun ⟨run, hrun⟩ => (nomatch hrun)⟩
  | speaking run => exact ⟨fun _ => ⟨run, rfl⟩, fun _ => rfl⟩

theorem covers_eq_spans {run : List HeardFrame} {segment : SpeechSegment}
    (h : IsSegmentOf config (run.map Prod.fst) segment) (frame : HeardFrame) :
    covers frame.1 segment = spans (fun frame => frame.1.sequence.toNat) frame run := by
  obtain ⟨first, hfirst, hstart, -⟩ := h.first
  obtain ⟨last, hlast, hend, -⟩ := h.last
  rw [List.head?_map, Option.map_eq_some_iff] at hfirst
  obtain ⟨first, hfirst, rfl⟩ := hfirst
  rw [List.getLast?_map, Option.map_eq_some_iff] at hlast
  obtain ⟨last, hlast, rfl⟩ := hlast
  unfold covers spans
  rw [hfirst, hlast, hstart, hend, Option.any_some, Option.any_some]
  exact congrArg₂ and (decide_eq_decide.mpr UInt64.le_iff_toNat_le)
    (decide_eq_decide.mpr UInt64.le_iff_toNat_le)

/-- A frame is in one segment if it is in one run. -/
theorem keptOnce_iff (hincreasing : frames.Pairwise fun a b => a.1.sequence < b.1.sequence) (hmem : frame ∈ frames) :
    KeptOnce frame.1 (segmentsOf config (processes frames ++ [.flush])) ↔
      InRuns frame (runsOf config (.waiting []) frames) := by
  obtain ⟨-, hruns, -⟩ := gathering_run config (processes frames ++ [.flush])
  have hret := returned_processes config (.waiting []) frames
  have hsegments := (refines_run config (processes frames ++ [Call.flush])).2
  rw [hsegments]
  unfold returned at hruns hret
  generalize (trace (Gathered.step config) (.waiting []) (processes frames ++ [.flush])).filterMap Prod.snd
    = ended at hruns hret
  have hsegment : ∀ run ∈ ended, IsSegmentOf config (run.1.map Prod.fst) (finished run) :=
    fun run hrun => isSegmentOf_finished (hruns run.1 (mem_map_of_mem hrun))
  -- as many segments cover the frame as there are runs that span it
  have hcount : (ended.map finished).countP (covers frame.1) =
      (runsOf config (.waiting []) frames).countP (spans (fun frame => frame.1.sequence.toNat) frame) := by
    rw [← hret, countP_map, countP_map]
    refine countP_congr fun run hrun => ?_
    rw [Function.comp_apply, Function.comp_apply, covers_eq_spans (hsegment run hrun)]
  have hstart : Kept config (.waiting []) := ⟨fun _ hmem => (nomatch hmem), Nat.zero_le _⟩
  have hinTurn := inTurn_runsOf hstart.gathering frames
  rw [nil_append] at hinTurn
  have hsorted : frames.Pairwise fun a b => a.1.sequence.toNat < b.1.sequence.toNat :=
    hincreasing.imp fun h => UInt64.lt_iff_toNat_lt.mp h
  have hspans := countP_spans hinTurn hsorted hmem
  unfold KeptOnce InRuns
  rw [hcount, hspans]
  constructor
  · rintro ⟨hone, -⟩
    by_contra hnot
    rw [if_neg hnot] at hone
    cases hone
  · intro hin
    refine ⟨if_pos hin, ?_⟩
    obtain ⟨run, hrun, hframe⟩ := mem_flatten.mp hin
    rw [← hret] at hrun
    obtain ⟨run, hended, rfl⟩ := mem_map.mp hrun
    have hrunsorted : run.1.Pairwise fun a b => a.1.sequence.toNat < b.1.sequence.toNat := by
      refine hsorted.sublist (List.Sublist.trans ?_ hinTurn.sublist)
      rw [append_nil, ← hret]
      exact sublist_flatten_of_mem (mem_map_of_mem hended)
    refine ⟨finished run, mem_map_of_mem hended, ?_, ?_⟩
    · rw [covers_eq_spans (hsegment run hended)]
      exact spans_of_mem hrunsorted hframe
    · rw [(hsegment run hended).samples]
      obtain ⟨front, behind, hsplit⟩ := append_of_mem hframe
      refine ⟨(front.map Prod.fst).flatMap AudioFrame.samples,
        (behind.map Prod.fst).flatMap AudioFrame.samples, ?_⟩
      rw [hsplit, map_append, map_cons, flatMap_append, flatMap_cons, append_assoc]

/-- **Every spoken frame is in exactly one segment, if and only if each that is cut off while a segment is
    active is rejoined by the next spoken frame**, before it is pushed out of the pre-roll. -/
theorem spoken_frames_kept_iff (config : SpeechSegmenterConfig) (frames : List HeardFrame)
    (hincreasing : frames.Pairwise fun a b => a.1.sequence < b.1.sequence) :
    (∀ frame ∈ frames, frame.spoken = true →
        KeptOnce frame.1 (segmentsOf config (processes frames ++ [.flush]))) ↔
      ∀ before frame behind, frames = before ++ frame :: behind → frame.spoken = true →
        frame.cutOff = true → (after config (processes before)).activeSegment.isSome = true →
        rejoins config.preRollFrames behind = true := by
  -- each frame stands once in the list
  have hdistinct : ∀ before frame behind, frames = before ++ frame :: behind →
      frame ∉ before ∧ frame ∉ behind := by
    rintro before frame behind rfl
    obtain ⟨-, hbehind, hcross⟩ := pairwise_append.mp hincreasing
    have hirrefl : ¬ frame.1.sequence < frame.1.sequence := UInt64.lt_irrefl _
    exact ⟨fun hmem => hirrefl (hcross frame hmem frame mem_cons_self),
      fun hmem => hirrefl ((pairwise_cons.mp hbehind).1 frame hmem)⟩
  constructor
  · rintro hall before frame behind hsplit hspoken hcut hactive
    obtain ⟨hbefore, hbehind⟩ := hdistinct before frame behind hsplit
    have hmem : frame ∈ frames := by rw [hsplit]; exact mem_append_right _ mem_cons_self
    have hin := (keptOnce_iff hincreasing hmem).mp (hall frame hmem hspoken)
    rw [hsplit] at hin
    exact (inRuns_iff hspoken hbefore hbehind).mp hin hcut
      ((isSome_activeSegment_after config before).mp hactive)
  · intro hrejoins frame hmem hspoken
    obtain ⟨before, behind, hsplit⟩ := append_of_mem hmem
    obtain ⟨hbefore, hbehind⟩ := hdistinct before frame behind hsplit
    refine (keptOnce_iff hincreasing hmem).mpr ?_
    rw [hsplit]
    refine (inRuns_iff hspoken hbefore hbehind).mpr fun hcut hrun => ?_
    exact hrejoins before frame behind hsplit hspoken hcut
      ((isSome_activeSegment_after config before).mpr hrun)

def silentFrame (sequence : UInt64) (flags : AudioFrameFlag) : AudioFrame where
  sequence := sequence
  captureTimeNs := 0
  flags := flags
  samples := List.replicate kSampleCount 0
  samples_length := length_replicate

/-- Speech behind a gap. -/
def aroundGap (last : VoiceActivityState) : List HeardFrame :=
  [(silentFrame 0 AudioFrameFlag.kNone, .speech), (silentFrame 2 AudioFrameFlag.kDiscontinuity, .speech),
    (silentFrame 3 AudioFrameFlag.kNone, last)]

theorem frame_behind_gap_lost :
    ¬ ∀ (config : SpeechSegmenterConfig) (frames : List HeardFrame), 0 < config.maxSegmentFrames →
      (frames.Pairwise fun a b => a.1.sequence < b.1.sequence) → ∀ frame ∈ frames, frame.spoken = true →
        KeptOnce frame.1 (segmentsOf config (processes frames ++ [.flush])) := by
  intro hall
  have hincreasing : (aroundGap .silence).Pairwise fun a b => a.1.sequence < b.1.sequence := by decide
  have hmem : (silentFrame 2 AudioFrameFlag.kDiscontinuity, VoiceActivityState.speech) ∈ aroundGap .silence :=
    mem_cons_of_mem _ mem_cons_self
  have hkept := hall {} (aroundGap .silence) (by decide) hincreasing _ hmem rfl
  have hin := (keptOnce_iff hincreasing hmem).mp hkept
  have hother : ∀ {sequence flags activity}, 2 ≠ sequence →
      (silentFrame 2 AudioFrameFlag.kDiscontinuity, VoiceActivityState.speech) ∉
        [(silentFrame sequence flags, activity)] := by
    intro sequence flags activity hne hmem
    have heq := congrArg (fun frame : HeardFrame => frame.1.sequence) (mem_singleton.mp hmem)
    exact hne heq
  have hrejoins := (inRuns_iff rfl (hother (by decide)) (hother (by decide))).mp hin rfl ⟨_, rfl⟩
  exact absurd hrejoins (by decide)

theorem frame_behind_gap_kept :
    KeptOnce (silentFrame 2 AudioFrameFlag.kDiscontinuity)
      (segmentsOf {} (processes (aroundGap .speech) ++ [.flush])) := by
  have hmem : (silentFrame 2 AudioFrameFlag.kDiscontinuity, VoiceActivityState.speech) ∈ aroundGap .speech :=
    mem_cons_of_mem _ mem_cons_self
  have hincreasing : (aroundGap .speech).Pairwise fun a b => a.1.sequence < b.1.sequence := by decide
  refine (spoken_frames_kept_iff {} (aroundGap .speech) hincreasing).mpr ?_
    (silentFrame 2 AudioFrameFlag.kDiscontinuity, .speech) hmem rfl
  rintro before frame behind hsplit - hcut -
  match before, hsplit with
  | [], hsplit =>
    obtain ⟨rfl, -⟩ := cons_eq_cons.mp hsplit
    exact absurd hcut (by decide)
  | [_], hsplit =>
    obtain ⟨-, hsplit⟩ := cons_eq_cons.mp hsplit
    obtain ⟨-, rfl⟩ := cons_eq_cons.mp hsplit
    rfl
  | [_, _], hsplit =>
    obtain ⟨-, hsplit⟩ := cons_eq_cons.mp hsplit
    obtain ⟨-, hsplit⟩ := cons_eq_cons.mp hsplit
    obtain ⟨rfl, -⟩ := cons_eq_cons.mp hsplit
    exact absurd hcut (by decide)
  | _ :: _ :: _ :: before, hsplit =>
    have hlen : 3 = _ := congrArg List.length hsplit
    rw [length_append, length_cons, length_cons, length_cons, length_cons] at hlen
    omega

end SpeechSegmenter

end Cockpit.Audio
