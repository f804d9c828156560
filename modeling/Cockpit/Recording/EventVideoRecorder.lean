/-
  The event video recorder (`spider/recording/video/`): a ring of whole GOPs, and the clips cut from it.
  Timestamps are integers; `std::int64_t` overflow is not modelled.
-/
import Cockpit.Lib.ListUpdate
import Cockpit.Lib.StepRun

namespace Cockpit.Recording

open List

structure EncodedVideoPacket where
  data : List UInt8
  pts : Int
  keyframe : Bool
deriving DecidableEq

/-! ## `H264GopRing` -/

/-- The packets of the last seconds, by groups of pictures. -/
structure H264GopRing where
  maxDurationPts : Int
  gops : List (List EncodedVideoPacket)
  current : List EncodedVideoPacket
deriving DecidableEq

namespace H264GopRing

def create (maxDurationMs : Int) (fps : Nat) : H264GopRing where
  maxDurationPts := max 1 maxDurationMs * (max 1 fps : Nat) / 1000
  gops := []
  current := []

/-- All packets, oldest first. -/
def snapshot (ring : H264GopRing) : List EncodedVideoPacket := ring.gops.flatten ++ ring.current

/-- The group begins before the window that ends at the newest packet. -/
def isOld (newest maxDurationPts : Int) : List EncodedVideoPacket → Bool
  | [] => false
  | first :: _ => maxDurationPts < newest - first.pts

/-- Old groups go, a whole one at a time. -/
def trim (ring : H264GopRing) : H264GopRing :=
  match ring.snapshot.getLast? with
  | none => ring
  | some newest => { ring with gops := ring.gops.dropWhile (isOld newest.pts ring.maxDurationPts) }

/-- Before the first keyframe nothing is accepted. -/
def append (ring : H264GopRing) (packet : EncodedVideoPacket) : H264GopRing × Bool :=
  if packet.data.isEmpty then (ring, false)
  else
    let ring :=
      if packet.keyframe && !ring.current.isEmpty then
        { ring with gops := ring.gops ++ [ring.current], current := [] }
      else ring
    if ring.current.isEmpty && !packet.keyframe then (ring, false)
    else ({ ring with current := ring.current ++ [packet] }.trim, true)

end H264GopRing

/-! ## `Mp4Muxer` -/

/-- What the muxer's calls returned during one call of the recorder: `writeFails` is the number of the
    first `Write` that failed, if one did. -/
structure MuxerResults where
  opened : Bool := true
  writeFails : Option Nat := none
  closed : Bool := true
deriving DecidableEq

def MuxerResults.Succeed (results : MuxerResults) : Prop :=
  results.opened = true ∧ results.writeFails = none ∧ results.closed = true

instance (results : MuxerResults) : Decidable results.Succeed := by
  unfold MuxerResults.Succeed
  infer_instance

/-- The packets of the files that are closed, and of the one that is open. -/
structure Mp4Muxer where
  finished : List (List EncodedVideoPacket)
  opened : Option (List EncodedVideoPacket)
deriving DecidableEq

namespace Mp4Muxer

def close (muxer : Mp4Muxer) : Mp4Muxer where
  finished := muxer.finished ++ muxer.opened.toList
  opened := none

def «open» (muxer : Mp4Muxer) : Mp4Muxer := { muxer.close with opened := some [] }

def write (muxer : Mp4Muxer) (packets : List EncodedVideoPacket) : Mp4Muxer :=
  { muxer with opened := muxer.opened.map (· ++ packets) }

def clips (muxer : Mp4Muxer) : List (List EncodedVideoPacket) := muxer.finished ++ muxer.opened.toList

end Mp4Muxer

/-! ## `EventVideoRecorder` -/

structure EventVideoRecorderConfig where
  outputDirectory : List UInt8
  preEventMs : Int := 10000
  postEventMs : Int := 20000
  fps : Nat := 30
deriving DecidableEq

def isAlnum (character : UInt8) : Bool :=
  48 ≤ character && character ≤ 57 || 65 ≤ character && character ≤ 90 || 97 ≤ character && character ≤ 122

def safeEventId (eventId : List UInt8) : List UInt8 :=
  eventId.map fun character =>
    if isAlnum character || character = 45 || character = 95 then character else 95

def outputPath (directory eventId : List UInt8) : List UInt8 :=
  (if directory.getLast? = some 47 then directory else directory ++ [47]) ++
    safeEventId eventId ++ [46, 109, 112, 52]

/-- While a clip is open, each packet that the ring accepts is written to it. -/
structure EventVideoRecorder where
  config : EventVideoRecorderConfig
  ring : H264GopRing
  muxer : Mp4Muxer
  active : Bool
  finishPts : Int
  outputPath : List UInt8
deriving DecidableEq

inductive RecorderCall
  | append (packet : EncodedVideoPacket) (muxer : MuxerResults)
  | trigger (eventId : List UInt8) (timestampPts : Int) (muxer : MuxerResults)
  | finish (muxer : MuxerResults)
deriving DecidableEq

def RecorderCall.muxer : RecorderCall → MuxerResults
  | .append _ muxer => muxer
  | .trigger _ _ muxer => muxer
  | .finish muxer => muxer

namespace EventVideoRecorder

def create (config : EventVideoRecorderConfig) : EventVideoRecorder where
  config := config
  ring := H264GopRing.create config.preEventMs config.fps
  muxer := { finished := [], opened := none }
  active := false
  finishPts := 0
  outputPath := []

def finishLocked (s : EventVideoRecorder) (results : MuxerResults) : EventVideoRecorder × Bool :=
  if !s.active then (s, true)
  else ({ s with active := false, muxer := s.muxer.close }, results.closed)

/-- The clip ends with the packet that reaches its time. -/
def append (s : EventVideoRecorder) (packet : EncodedVideoPacket) (results : MuxerResults) :
    EventVideoRecorder × Bool :=
  let appended := s.ring.append packet
  let s := { s with ring := appended.1 }
  if !appended.2 then (s, !packet.data.isEmpty)
  else if !s.active then (s, true)
  else if results.writeFails.isSome then (s, false)
  else
    let s := { s with muxer := s.muxer.write [packet] }
    if s.finishPts ≤ packet.pts then s.finishLocked results else (s, true)

def isTrigger (config : EventVideoRecorderConfig) (eventId : List UInt8) (timestampPts : Int) : Bool :=
  !(eventId.isEmpty || timestampPts < 0 || config.outputDirectory.isEmpty || config.fps == 0)

def finishOf (config : EventVideoRecorderConfig) (timestampPts : Int) : Int :=
  timestampPts + max 1 config.postEventMs * config.fps / 1000

/-- A new clip begins with the ring. -/
def trigger (s : EventVideoRecorder) (eventId : List UInt8) (timestampPts : Int) (results : MuxerResults) :
    EventVideoRecorder × Bool :=
  if !isTrigger s.config eventId timestampPts then (s, false)
  else
    let finished := if s.active then s.finishLocked results else (s, true)
    if !finished.2 then (finished.1, false)
    else
      let s := { finished.1 with outputPath := Recording.outputPath s.config.outputDirectory eventId }
      if !results.opened then (s, false)
      else
        let s := { s with muxer := s.muxer.open }
        match results.writeFails.filter (· < s.ring.snapshot.length) with
        | some written => ({ s with muxer := (s.muxer.write (s.ring.snapshot.take written)).close }, false)
        | none =>
          ({ s with
              muxer := s.muxer.write s.ring.snapshot
              finishPts := finishOf s.config timestampPts
              active := true }, true)

def step (s : EventVideoRecorder) : RecorderCall → EventVideoRecorder × Bool
  | .append packet results => s.append packet results
  | .trigger eventId timestampPts results => s.trigger eventId timestampPts results
  | .finish results => s.finishLocked results

end EventVideoRecorder

/-! ## What the ring keeps -/

namespace H264GopRing

/-- A keyframe, and packets that are none. -/
def IsGop : List EncodedVideoPacket → Prop
  | [] => False
  | first :: rest => first.keyframe = true ∧ ∀ packet ∈ rest, packet.keyframe = false

/-- The ring holds the last of the accepted packets `log`, by whole GOPs, and its oldest GOP is the
    current one or not older than the limit. -/
structure Keeps (log : List EncodedVideoPacket) (ring : H264GopRing) : Prop where
  suffix : ring.snapshot <:+ log
  gops : ∀ gop ∈ ring.gops, IsGop gop
  current : ring.current = [] ∧ ring.gops = [] ∨ IsGop ring.current
  recent : ∀ gop gops, ring.gops = gop :: gops → ∀ newest, ring.snapshot.getLast? = some newest →
    isOld newest.pts ring.maxDurationPts gop = false

variable {ring : H264GopRing} {log : List EncodedVideoPacket} {packet : EncodedVideoPacket}

@[simp] theorem trim_current (ring : H264GopRing) : ring.trim.current = ring.current := by
  unfold trim
  split <;> rfl

@[simp] theorem trim_maxDurationPts (ring : H264GopRing) : ring.trim.maxDurationPts = ring.maxDurationPts := by
  unfold trim
  split <;> rfl

variable {newest : EncodedVideoPacket}

theorem getLast?_snapshot (h : ring.current.getLast? = some newest) : ring.snapshot.getLast? = some newest := by
  unfold snapshot
  rw [List.getLast?_append, h]
  rfl

theorem trim_gops (h : ring.current.getLast? = some newest) :
    ring.trim.gops = ring.gops.dropWhile (isOld newest.pts ring.maxDurationPts) := by
  unfold trim
  rw [getLast?_snapshot h]

theorem keeps_create (maxDurationMs : Int) (fps : Nat) : (create maxDurationMs fps).Keeps [] where
  suffix := suffix_refl []
  gops := fun _ h => nomatch h
  current := .inl ⟨rfl, rfl⟩
  recent := fun _ _ h => nomatch h

theorem Keeps.trim (newest : EncodedVideoPacket) (hlast : ring.current.getLast? = some newest)
    (hsuffix : ring.snapshot <:+ log) (hgops : ∀ gop ∈ ring.gops, IsGop gop)
    (hcur : IsGop ring.current) : ring.trim.Keeps log where
  suffix := by
    obtain ⟨dropped, hdropped⟩ :=
      dropWhile_suffix (isOld newest.pts ring.maxDurationPts) (l := ring.gops)
    refine List.IsSuffix.trans ⟨dropped.flatten, ?_⟩ hsuffix
    unfold snapshot
    rw [trim_gops hlast, trim_current, ← append_assoc, ← flatten_append, hdropped]
  gops := by
    intro gop hgop
    rw [trim_gops hlast] at hgop
    exact hgops gop ((dropWhile_suffix _).subset hgop)
  current := .inr (by rw [trim_current]; exact hcur)
  recent := by
    intro gop gops hgop newest' hnewest
    have hlast' : ring.trim.current.getLast? = some newest := by rw [trim_current, hlast]
    rw [getLast?_snapshot hlast'] at hnewest
    obtain rfl := Option.some.inj hnewest
    rw [trim_gops hlast] at hgop
    rw [trim_maxDurationPts]
    have hhead := List.head?_dropWhile_not (isOld newest.pts ring.maxDurationPts) ring.gops
    rw [hgop] at hhead
    simpa using hhead

theorem append_of_refused (h : (ring.append packet).2 = false) : (ring.append packet).1 = ring := by
  unfold append at h ⊢
  by_cases hempty : packet.data.isEmpty = true
  · rw [if_pos hempty]
  · rw [if_neg hempty] at h ⊢
    by_cases hkey : (packet.keyframe && !ring.current.isEmpty) = true
    · obtain ⟨hkeyframe, _⟩ := Bool.and_eq_true_iff.mp hkey
      simp [hkeyframe] at h
    · simp only [hkey, if_false, Bool.false_eq_true] at h ⊢
      by_cases hfirst : (ring.current.isEmpty && !packet.keyframe) = true
      · rw [if_pos hfirst]
      · rw [if_neg hfirst] at h
        cases h

/-- **What an accepted packet does**: it opens a GOP or joins the current one, and the ring is trimmed. -/
theorem append_of_accepted (h : (ring.append packet).2 = true) :
    (ring.append packet).1 =
        ({ ring with gops := ring.gops ++ [ring.current], current := [packet] } : H264GopRing).trim ∧
        packet.keyframe = true ∧ ring.current ≠ [] ∨
      (ring.append packet).1 = ({ ring with current := [packet] } : H264GopRing).trim ∧
        packet.keyframe = true ∧ ring.current = [] ∨
      (ring.append packet).1 = ({ ring with current := ring.current ++ [packet] } : H264GopRing).trim ∧
        packet.keyframe = false ∧ ring.current ≠ [] := by
  unfold append at h ⊢
  by_cases hempty : packet.data.isEmpty = true
  · rw [if_pos hempty] at h
    cases h
  · rw [if_neg hempty] at h ⊢
    cases hkeyframe : packet.keyframe <;> cases hcur : ring.current <;>
      simp [hkeyframe, hcur] at h ⊢

theorem Keeps.append (h : ring.Keeps log) (hacc : (ring.append packet).2 = true) :
    (ring.append packet).1.Keeps (log ++ [packet]) := by
  obtain ⟨dropped, hdropped⟩ := h.suffix
  obtain ⟨hring, hkey, hcur⟩ | ⟨hring, hkey, hcur⟩ | ⟨hring, hkey, hcur⟩ :=
    append_of_accepted hacc
  · -- a keyframe closes the current GOP
    rw [hring]
    refine Keeps.trim packet rfl ⟨dropped, ?_⟩ ?_ ⟨hkey, fun _ hp => nomatch hp⟩
    · rw [← hdropped]
      simp [snapshot]
    · intro gop hgop
      obtain hgop | rfl := ListUpdate.mem_snoc.mp hgop
      · exact h.gops gop hgop
      · exact h.current.resolve_left fun hc => hcur hc.1
  · -- the first keyframe of all
    rw [hring]
    refine Keeps.trim packet rfl ⟨dropped, ?_⟩ h.gops ⟨hkey, fun _ hp => nomatch hp⟩
    rw [← hdropped]
    simp [snapshot, hcur]
  · rw [hring]
    refine Keeps.trim packet List.getLast?_concat ⟨dropped, ?_⟩ h.gops ?_
    · rw [← hdropped]
      simp [snapshot]
    · have hgop := h.current.resolve_left fun hc => hcur hc.1
      cases hlist : ring.current with
      | nil => exact absurd hlist hcur
      | cons first rest =>
        rw [hlist] at hgop
        refine ⟨hgop.1, fun p hp => ?_⟩
        obtain hp | rfl := ListUpdate.mem_snoc.mp hp
        · exact hgop.2 p hp
        · exact hkey

/-- Empty, or from a keyframe on, and then one group or within the window. -/
def StartsAtKeyframe (limit : Int) (lead : List EncodedVideoPacket) : Prop :=
  lead = [] ∨ ∃ first rest, lead = first :: rest ∧ first.keyframe = true ∧
    ((∀ packet ∈ rest, packet.keyframe = false) ∨
      ∀ newest, lead.getLast? = some newest → newest.pts - first.pts ≤ limit)

theorem Keeps.startsAtKeyframe (h : ring.Keeps log) : StartsAtKeyframe ring.maxDurationPts ring.snapshot := by
  cases hgops : ring.gops with
  | nil =>
    have hsnapshot : ring.snapshot = ring.current := by
      unfold snapshot
      rw [hgops, flatten_nil, nil_append]
    rw [hsnapshot]
    obtain ⟨hcur, _⟩ | hgop := h.current
    · exact .inl hcur
    · cases hlist : ring.current with
      | nil => exact .inl rfl
      | cons first rest =>
        rw [hlist] at hgop
        exact .inr ⟨first, rest, rfl, hgop.1, .inl hgop.2⟩
  | cons gop gops =>
    have hgop := h.gops gop (by rw [hgops]; exact mem_cons_self)
    cases gop with
    | nil => exact hgop.elim
    | cons first rest =>
      refine .inr ⟨first, rest ++ gops.flatten ++ ring.current, ?_, hgop.1, .inr fun newest hnewest => ?_⟩
      · unfold snapshot
        rw [hgops]
        simp
      · have hrecent := h.recent _ _ hgops newest hnewest
        unfold isOld at hrecent
        rw [decide_eq_false_iff_not] at hrecent
        omega

end H264GopRing

/-! ## The clips

  What the calls `calls` make of a ring: the packets accepted, the ring after them, and, for a clip that
  ends at `finishPts`, the packets that belong to it. -/

/-- The packets that the ring takes. -/
def accepted (ring : H264GopRing) : List RecorderCall → List EncodedVideoPacket
  | [] => []
  | .append packet _ :: calls =>
    if (ring.append packet).2 then packet :: accepted (ring.append packet).1 calls
    else accepted (ring.append packet).1 calls
  | .trigger .. :: calls => accepted ring calls
  | .finish _ :: calls => accepted ring calls

def ringAfter (ring : H264GopRing) : List RecorderCall → H264GopRing
  | [] => ring
  | .append packet _ :: calls => ringAfter (ring.append packet).1 calls
  | .trigger .. :: calls => ringAfter ring calls
  | .finish _ :: calls => ringAfter ring calls

/-- The packets that go to the open clip. -/
def live (config : EventVideoRecorderConfig) (finishPts : Int) (ring : H264GopRing) :
    List RecorderCall → List EncodedVideoPacket
  | [] => []
  | .append packet _ :: calls =>
    if (ring.append packet).2 then
      if finishPts ≤ packet.pts then [packet]
      else packet :: live config finishPts (ring.append packet).1 calls
    else live config finishPts (ring.append packet).1 calls
  | .trigger eventId timestampPts _ :: calls =>
    if EventVideoRecorder.isTrigger config eventId timestampPts then []
    else live config finishPts ring calls
  | .finish _ :: _ => []

/-- The clips that are opened later. -/
def opened (config : EventVideoRecorderConfig) (ring : H264GopRing) :
    List RecorderCall → List (List EncodedVideoPacket)
  | [] => []
  | .append packet _ :: calls => opened config (ring.append packet).1 calls
  | .trigger eventId timestampPts _ :: calls =>
    if EventVideoRecorder.isTrigger config eventId timestampPts then
      (ring.snapshot ++ live config (EventVideoRecorder.finishOf config timestampPts) ring calls) ::
        opened config ring calls
    else opened config ring calls
  | .finish _ :: calls => opened config ring calls

variable {ring : H264GopRing}

variable {log : List EncodedVideoPacket} {calls : List RecorderCall}

theorem H264GopRing.Keeps.head_keyframe {packets : List EncodedVideoPacket} {first : EncodedVideoPacket}
    (h : ring.Keeps log) (hpackets : packets <+: accepted ring calls)
    (hfirst : (ring.snapshot ++ packets).head? = some first) : first.keyframe = true := by
  obtain hsnapshot | ⟨head, rest, hsnapshot, hkey, _⟩ := h.startsAtKeyframe
  · rw [hsnapshot, nil_append] at hfirst
    obtain ⟨rest, hrest⟩ := hpackets
    have hhead : (accepted ring calls).head? = some first := by
      rw [← hrest, List.head?_append, hfirst]
      rfl
    have hempty : ring.current = [] := (append_eq_nil_iff.mp hsnapshot).2
    clear hrest hfirst hsnapshot h
    induction calls with
    | nil => cases hhead
    | cons call calls ih =>
      cases call with
      | append packet results =>
        unfold accepted at hhead
        by_cases hacc : (ring.append packet).2 = true
        · rw [if_pos hacc] at hhead
          obtain rfl := Option.some.inj hhead
          obtain ⟨_, hkey, _⟩ | ⟨_, hkey, _⟩ | ⟨_, _, hcur⟩ := append_of_accepted hacc
          · exact hkey
          · exact hkey
          · exact absurd hempty hcur
        · rw [if_neg hacc, append_of_refused (by simpa using hacc)] at hhead
          exact ih hhead
      | trigger | finish => exact ih hhead
  · rw [hsnapshot] at hfirst
    obtain rfl := Option.some.inj hfirst
    exact hkey

theorem keeps_ringAfter (h : ring.Keeps log) (calls : List RecorderCall) :
    (ringAfter ring calls).Keeps (log ++ accepted ring calls) := by
  induction calls generalizing ring log with
  | nil =>
    unfold accepted
    rw [append_nil]
    exact h
  | cons call calls ih =>
    cases call with
    | append packet results =>
      unfold ringAfter accepted
      by_cases hacc : (ring.append packet).2 = true
      · rw [if_pos hacc, append_cons]
        exact ih (h.append hacc)
      · rw [if_neg hacc, H264GopRing.append_of_refused (by simpa using hacc)]
        exact ih h
    | trigger | finish => exact ih h

theorem accepted_append (ring : H264GopRing) (before after : List RecorderCall) :
    accepted ring (before ++ after) = accepted ring before ++ accepted (ringAfter ring before) after := by
  induction before generalizing ring with
  | nil => rfl
  | cons call before ih =>
    cases call with
    | append packet results =>
      simp only [cons_append, accepted, ringAfter]
      split
      · rw [ih, cons_append]
      · exact ih _
    | trigger | finish => exact ih ring

theorem live_prefix (config : EventVideoRecorderConfig) (finishPts : Int) (ring : H264GopRing)
    (calls : List RecorderCall) : live config finishPts ring calls <+: accepted ring calls := by
  induction calls generalizing ring with
  | nil => exact prefix_refl []
  | cons call calls ih =>
    cases call with
    | append packet results =>
      unfold live accepted
      split
      · split
        · exact prefix_cons_inj _ |>.mpr nil_prefix
        · exact (prefix_cons_inj packet).mpr (ih _)
      · exact ih _
    | trigger eventId timestampPts results =>
      unfold live accepted
      split
      · exact nil_prefix
      · exact ih ring
    | finish => exact nil_prefix

theorem exists_trigger_of_mem_opened {config : EventVideoRecorderConfig} {clip : List EncodedVideoPacket}
    (h : clip ∈ opened config ring calls) : ∃ before eventId timestampPts results after,
      calls = before ++ .trigger eventId timestampPts results :: after ∧
      EventVideoRecorder.isTrigger config eventId timestampPts = true ∧
      clip = (ringAfter ring before).snapshot ++
        live config (EventVideoRecorder.finishOf config timestampPts) (ringAfter ring before) after := by
  induction calls generalizing ring with
  | nil => cases h
  | cons call calls ih =>
    cases call with
    | append packet results =>
      obtain ⟨before, eventId, timestampPts, results', after, hcalls, hclip⟩ := ih h
      exact ⟨.append packet results :: before, eventId, timestampPts, results', after,
        by rw [hcalls, cons_append], hclip⟩
    | trigger eventId timestampPts results =>
      unfold opened at h
      split at h
      · rename_i htrigger
        obtain rfl | h := mem_cons.mp h
        · exact ⟨[], eventId, timestampPts, results, calls, rfl, htrigger, rfl⟩
        · obtain ⟨before, eventId', timestampPts', results', after, hcalls, hclip⟩ := ih h
          exact ⟨.trigger eventId timestampPts results :: before, eventId', timestampPts', results', after,
            by rw [hcalls, cons_append], hclip⟩
      · obtain ⟨before, eventId', timestampPts', results', after, hcalls, hclip⟩ := ih h
        exact ⟨.trigger eventId timestampPts results :: before, eventId', timestampPts', results', after,
          by rw [hcalls, cons_append], hclip⟩
    | finish results =>
      obtain ⟨before, eventId, timestampPts, results', after, hcalls, hclip⟩ := ih h
      exact ⟨.finish results :: before, eventId, timestampPts, results', after,
        by rw [hcalls, cons_append], hclip⟩

namespace EventVideoRecorder

def InStep (s : EventVideoRecorder) : Prop := s.active = s.muxer.opened.isSome

/-- All clips, finished or not. -/
def clipsAfter (s : EventVideoRecorder) (calls : List RecorderCall) : List (List EncodedVideoPacket) :=
  s.muxer.finished ++
    (s.muxer.opened.map (· ++ live s.config s.finishPts s.ring calls)).toList ++
    opened s.config s.ring calls

variable {s : EventVideoRecorder}

theorem inStep_idle (h : s.InStep) (hactive : s.active = false) : s.muxer.opened = none := by
  unfold InStep at h
  rw [hactive] at h
  exact Option.isNone_iff_eq_none.mp (by simpa using h)

theorem inStep_active (h : s.InStep) (hactive : s.active = true) : ∃ clip, s.muxer.opened = some clip := by
  unfold InStep at h
  rw [hactive] at h
  exact Option.isSome_iff_exists.mp h.symm

theorem finishLocked_muxer (h : s.InStep) (results : MuxerResults) :
    (s.finishLocked results).1.muxer.finished = s.muxer.finished ++ s.muxer.opened.toList ∧
      (s.finishLocked results).1.muxer.opened = none ∧ (s.finishLocked results).1.active = false := by
  unfold finishLocked
  by_cases hactive : s.active = true
  · rw [hactive]
    exact ⟨rfl, rfl, rfl⟩
  · have hidle := Bool.not_eq_true _ ▸ hactive
    rw [hidle]
    have hopened := inStep_idle h hidle
    exact ⟨by simp [hopened], hopened, hidle⟩

variable {results : MuxerResults}

theorem finishLocked_succeeds (h : results.closed = true) : (s.finishLocked results).2 = true := by
  unfold finishLocked
  split
  · rfl
  · exact h

@[simp] theorem finishLocked_config (results : MuxerResults) : (s.finishLocked results).1.config = s.config := by
  unfold finishLocked
  split <;> rfl

@[simp] theorem finishLocked_ring (results : MuxerResults) : (s.finishLocked results).1.ring = s.ring := by
  unfold finishLocked
  split <;> rfl

/-- **One call** with a muxer that works: the recorder stays in step, and the clips that are to come do
    not change. -/
def Advances (s s' : EventVideoRecorder) (call : RecorderCall) : Prop :=
  s'.InStep ∧ s'.config = s.config ∧
    ∀ calls, s'.clipsAfter calls = s.clipsAfter (call :: calls)

variable {packet : EncodedVideoPacket}

theorem append_refused (results : MuxerResults) (h : (s.ring.append packet).2 = false) :
    (s.append packet results).1 = { s with ring := (s.ring.append packet).1 } := by
  unfold append
  simp only [h, Bool.not_false, if_true]

theorem append_idle (results : MuxerResults) (hactive : s.active = false) :
    (s.append packet results).1 = { s with ring := (s.ring.append packet).1 } := by
  unfold append
  simp only [hactive, Bool.not_false, if_true]
  split <;> rfl

theorem append_active (h : (s.ring.append packet).2 = true) (hactive : s.active = true)
    (hwritten : results.writeFails = none) :
    (s.append packet results).1 =
      if s.finishPts ≤ packet.pts then
        { s with
          ring := (s.ring.append packet).1, muxer := (s.muxer.write [packet]).close, active := false }
      else { s with ring := (s.ring.append packet).1, muxer := s.muxer.write [packet] } := by
  unfold append finishLocked
  simp only [h, hactive, hwritten, Bool.not_true, Bool.false_eq_true, if_false, Option.isSome_none]
  split <;> rfl

theorem advances_append (h : s.InStep) (packet : EncodedVideoPacket) (hwritten : results.writeFails = none) :
    Advances s (s.append packet results).1 (.append packet results) := by
  cases hacc : (s.ring.append packet).2 with
  | false =>
    rw [append_refused results hacc]
    exact ⟨h, rfl, fun calls => by simp [clipsAfter, live, opened, hacc]⟩
  | true =>
    cases hactive : s.active with
    | false =>
      rw [append_idle results hactive]
      have hopened := inStep_idle h hactive
      exact ⟨h, rfl, fun calls => by simp [clipsAfter, opened, hopened]⟩
    | true =>
      obtain ⟨clip, hclip⟩ := inStep_active h hactive
      rw [append_active hacc hactive hwritten]
      by_cases hend : s.finishPts ≤ packet.pts
      · rw [if_pos hend]
        exact ⟨rfl, rfl, fun calls => by
          simp [clipsAfter, live, opened, hacc, hend, Mp4Muxer.close, Mp4Muxer.write, hclip]⟩
      · rw [if_neg hend]
        exact ⟨by simp [InStep, hactive, Mp4Muxer.write, hclip], rfl, fun calls => by
          simp [clipsAfter, live, opened, hacc, hend, Mp4Muxer.write, hclip]⟩

theorem advances_finish (h : s.InStep) (results : MuxerResults) :
    Advances s (s.finishLocked results).1 (.finish results) := by
  obtain ⟨hfinished, hopened, hactive⟩ := finishLocked_muxer h results
  refine ⟨by simp [InStep, hactive, hopened], finishLocked_config results, fun calls => ?_⟩
  cases hclip : s.muxer.opened <;>
    simp [clipsAfter, live, opened, hfinished, hopened, hclip]

theorem advances_trigger (h : s.InStep) (eventId : List UInt8) (timestampPts : Int) (hmuxer : results.Succeed) :
    Advances s (s.trigger eventId timestampPts results).1 (.trigger eventId timestampPts results) := by
  obtain ⟨hopen, hwritten, hclosed⟩ := hmuxer
  unfold trigger
  cases htrigger : isTrigger s.config eventId timestampPts with
  | false => exact ⟨h, rfl, fun calls => by simp [clipsAfter, live, opened, htrigger]⟩
  | true =>
    -- `if (active_ && !FinishLocked(error))`: with nothing active, `FinishLocked` changes nothing
    have hfinish : (if s.active = true then s.finishLocked results else (s, true)) =
        ((s.finishLocked results).1, true) := by
      split
      · exact Prod.ext rfl (finishLocked_succeeds hclosed)
      · unfold finishLocked
        rw [Bool.not_eq_true] at *
        simp [*]
    obtain ⟨hfinished, hopened, hactive⟩ := finishLocked_muxer h results
    simp only [hfinish, hopen, hwritten]
    refine ⟨rfl, finishLocked_config results, fun calls => ?_⟩
    cases hclip : s.muxer.opened <;>
      simp [clipsAfter, live, opened, htrigger, Mp4Muxer.write, Mp4Muxer.open, Mp4Muxer.close, hfinished,
        hopened, hclip]

/-- A call changes ring and clips as it should. -/
theorem advances_step (h : s.InStep) (call : RecorderCall) (hmuxer : call.muxer.Succeed) :
    Advances s (step s call).1 call := by
  cases call with
  | append packet results => exact advances_append h packet hmuxer.2.1
  | trigger eventId timestampPts results => exact advances_trigger h eventId timestampPts hmuxer
  | finish results => exact advances_finish h results

/-- **The clips of a run**, with a muxer that works. -/
theorem run_clips (h : s.InStep) (calls : List RecorderCall) (hmuxer : ∀ call ∈ calls, call.muxer.Succeed) :
    (StepRun.run step s calls).muxer.clips = s.clipsAfter calls := by
  induction calls generalizing s with
  | nil => cases hclip : s.muxer.opened <;> simp [Mp4Muxer.clips, clipsAfter, live, opened, hclip]
  | cons call calls ih =>
    obtain ⟨hstep, _, hclips⟩ := advances_step h call (hmuxer call mem_cons_self)
    rw [StepRun.run_cons, ih hstep fun call' hcall => hmuxer call' (mem_cons_of_mem call hcall)]
    exact hclips calls

/-- The clip is the ring at its trigger, and what was accepted until its time was over. -/
def IsCut (config : EventVideoRecorderConfig) (limit : Int) (calls : List RecorderCall)
    (clip : List EncodedVideoPacket) : Prop :=
  let ring := H264GopRing.create config.preEventMs config.fps
  ∃ before eventId timestampPts results after,
    calls = before ++ .trigger eventId timestampPts results :: after ∧
    isTrigger config eventId timestampPts = true ∧
    ∃ dropped lead rest,
      accepted ring before = dropped ++ lead ∧
      accepted ring calls = dropped ++ clip ++ rest ∧
      clip = lead ++ live config (finishOf config timestampPts) (ringAfter ring before) after ∧
      H264GopRing.StartsAtKeyframe limit lead ∧ ∀ first, clip.head? = some first → first.keyframe = true

theorem ringAfter_maxDurationPts (ring : H264GopRing) (calls : List RecorderCall) :
    (ringAfter ring calls).maxDurationPts = ring.maxDurationPts := by
  induction calls generalizing ring with
  | nil => rfl
  | cons call calls ih =>
    cases call with
    | append packet results =>
      rw [ringAfter, ih]
      cases hacc : (ring.append packet).2 with
      | false => rw [H264GopRing.append_of_refused hacc]
      | true =>
        obtain ⟨hring, _⟩ | ⟨hring, _⟩ | ⟨hring, _⟩ := H264GopRing.append_of_accepted hacc <;>
          rw [hring, H264GopRing.trim_maxDurationPts]
    | trigger | finish => exact ih ring

def noLead : EventVideoRecorderConfig := { outputDirectory := [47], preEventMs := 0, fps := 1000 }

def keyframeAt (pts : Int) : EncodedVideoPacket := { data := [0], pts := pts, keyframe := true }

/-- **Clips are gap-free.** -/
theorem clips_gap_free (config : EventVideoRecorderConfig) (calls : List RecorderCall)
    (hmuxer : ∀ call ∈ calls, call.muxer.Succeed) :
    ∀ clip ∈ (StepRun.run step (create config) calls).muxer.clips,
      IsCut config (max 1 config.preEventMs * config.fps / 1000) calls clip := by
  intro clip hclip
  have hinStep : (create config).InStep := rfl
  rw [run_clips hinStep calls hmuxer] at hclip
  obtain ⟨before, eventId, timestampPts, results, after, hcalls, htrigger, hclip⟩ :=
    exists_trigger_of_mem_opened (by simpa [clipsAfter, create] using hclip)
  refine ⟨before, eventId, timestampPts, results, after, hcalls, htrigger, ?_⟩
  have hkeeps := keeps_ringAfter (H264GopRing.keeps_create config.preEventMs config.fps) before
  rw [nil_append] at hkeeps
  obtain ⟨dropped, hdropped⟩ := hkeeps.suffix
  obtain ⟨rest, hrest⟩ := live_prefix config (finishOf config timestampPts)
    (ringAfter (H264GopRing.create config.preEventMs config.fps) before) after
  refine ⟨dropped, _, rest, hdropped.symm, ?_, hclip, ?_, ?_⟩
  · rw [hcalls, accepted_append, accepted, ← hrest, ← hdropped, hclip]
    simp
  · have hstarts := hkeeps.startsAtKeyframe
    rw [ringAfter_maxDurationPts] at hstarts
    -- an accepted `Trigger` has `fps != 0`
    have hfps : max 1 config.fps = config.fps := by
      unfold isTrigger at htrigger
      simp at htrigger
      omega
    have hlimit : (H264GopRing.create config.preEventMs config.fps).maxDurationPts =
        max 1 config.preEventMs * config.fps / 1000 := by
      unfold H264GopRing.create
      rw [hfps]
    rwa [hlimit] at hstarts
  · intro first hfirst
    rw [hclip] at hfirst
    exact hkeeps.head_keyframe ( live_prefix _ _ _ after) hfirst

theorem clips_gap_free_keyframes :
    IsCut noLead (max 1 noLead.preEventMs * noLead.fps / 1000)
      [.append (keyframeAt 0) {}, .trigger [65] 0 {}, .append (keyframeAt 20) {}]
      [keyframeAt 0, keyframeAt 20] :=
  clips_gap_free noLead _ (by decide) _ (by decide)

theorem clip_before_window :
    let calls := [.append (keyframeAt 0) {}, .append (keyframeAt 1) {}, .trigger [65] 1 {}]
    [keyframeAt 0, keyframeAt 1] ∈ (StepRun.run step (create noLead) calls).muxer.clips ∧
      (∀ call ∈ calls, call.muxer.Succeed) ∧
      ¬IsCut noLead (noLead.preEventMs * noLead.fps / 1000) calls [keyframeAt 0, keyframeAt 1] := by
  refine ⟨by decide, by decide, ?_⟩
  rintro ⟨before, eventId, timestampPts, results, after, hcalls, _, dropped, lead, rest, _, _, hclip, hstart, _⟩
  obtain ⟨rfl, rfl⟩ : before = [.append (keyframeAt 0) {}, .append (keyframeAt 1) {}] ∧ after = [] := by
    rcases before with _ | ⟨a, _ | ⟨b, _ | ⟨c, before⟩⟩⟩ <;> simp at hcalls
    exact ⟨by rw [hcalls.1, hcalls.2.1], hcalls.2.2.2⟩
  rw [live, append_nil] at hclip
  subst hclip
  obtain h | ⟨first, rest', h, _, hrest | hnewest⟩ := hstart
  · cases h
  · cases h
    exact absurd (hrest _ mem_cons_self) (by decide)
  · cases h
    exact absurd (hnewest _ rfl) (by decide)

end EventVideoRecorder

end Cockpit.Recording
