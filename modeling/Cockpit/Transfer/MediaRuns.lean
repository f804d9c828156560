/-
  What the medias of the clients are given, along the runs in which a parked keyframe is the last packet
  received when it is used, and a media that starts without one gets a keyframe first.
-/
import Cockpit.Lib.StepRun
import Cockpit.Transfer.RtspServer

namespace Cockpit.Transfer

open Cockpit.Camera StepRun List

/-- A packet is received, or a client's media comes or goes. -/
inductive MediaEvent where
  | push (packet : H264Packet)
  | mediaConfigure (source : Bool)
  | mediaUnprepared (source : Option Nat)

/-- The samples of a media: packets without a gap, from a keyframe on, and each as it was received. -/
structure Whole (received : List H264Packet) (samples : List Sample) : Prop where
  contiguous : ∃ start, samples.map (·.number) = List.range' start samples.length
  keyframe : ∀ sample, samples.head? = some sample →
    ∃ packet, received[sample.number]? = some packet ∧ packet.keyframe
  faithful : ∀ sample ∈ samples,
    ∃ packet, received[sample.number]? = some packet ∧ sample.buffer.data = avcc packet.data

/-! ## Samples -/

theorem whole_nil (received : List H264Packet) : Whole received [] where
  contiguous := ⟨0, rfl⟩
  keyframe sample h := by cases h
  faithful sample h := by cases h

variable {received : List H264Packet}

theorem whole_singleton {sample : Sample} {packet : H264Packet} (hpacket : received[sample.number]? = some packet)
    (hkeyframe : packet.keyframe) (hdata : sample.buffer.data = avcc packet.data) : Whole received [sample] where
  contiguous := ⟨sample.number, rfl⟩
  keyframe first h := by
    obtain rfl : sample = first := Option.some.inj h
    exact ⟨packet, hpacket, hkeyframe⟩
  faithful other h := by
    obtain rfl := mem_singleton.1 h
    exact ⟨packet, hpacket, hdata⟩

theorem Whole.append {samples : List Sample} (h : Whole received samples) (packet : H264Packet) :
    Whole (received ++ [packet]) samples := by
  have hkeeps : ∀ (n : Nat) (p : H264Packet), received[n]? = some p →
      (received ++ [packet])[n]? = some p := by
    intro n p hp
    rw [List.getElem?_append_left (List.getElem?_eq_some_iff.1 hp).1, hp]
  refine ⟨h.contiguous, fun sample hsample => ?_, fun sample hsample => ?_⟩
  · obtain ⟨p, hp, hkeyframe⟩ := h.keyframe sample hsample
    exact ⟨p, hkeeps _ _ hp, hkeyframe⟩
  · obtain ⟨p, hp, hdata⟩ := h.faithful sample hsample
    exact ⟨p, hkeeps _ _ hp, hdata⟩

theorem Whole.snoc {samples : List Sample} (h : Whole received samples) {packet : H264Packet} {sample : Sample}
    (hnum : sample.number = received.length) (hdata : sample.buffer.data = avcc packet.data)
    (hlast : ∀ last, samples.getLast? = some last → last.number + 1 = received.length)
    (hfirst : samples = [] → packet.keyframe) : Whole (received ++ [packet]) (samples ++ [sample]) := by
  have hreceived : (received ++ [packet])[sample.number]? = some packet := by
    rw [hnum, List.getElem?_concat_length]
  rcases eq_nil_or_concat samples with rfl | ⟨before, last, rfl⟩
  · exact whole_singleton hreceived (hfirst rfl) hdata
  · rw [concat_eq_append] at h hlast ⊢
    have hmore := h.append packet
    refine ⟨?_, ?_, ?_⟩
    · obtain ⟨start, hstart⟩ := h.contiguous
      have hend : last.number = start + before.length := by
        rw [length_append, length_singleton, range'_1_concat, map_append] at hstart
        exact head_eq_of_cons_eq (append_inj_right' hstart rfl)
      have hnext := hlast last (by simp)
      refine ⟨start, ?_⟩
      have hlen : (before ++ [last] ++ [sample]).length = (before ++ [last]).length + 1 := by simp
      rw [map_append, hstart, hlen, range'_1_concat]
      simp only [length_append, length_singleton, map_cons, map_nil]
      rw [show sample.number = start + (before.length + 1) by omega]
    · intro first hhead
      refine hmore.keyframe first ?_
      simpa using hhead
    · intro other hother
      rcases mem_append.1 hother with hother | hother
      · exact hmore.faithful other hother
      · obtain rfl := mem_singleton.1 hother
        exact ⟨packet, hreceived, hdata⟩

namespace Medias

def step (s : Medias) : MediaEvent → Medias × Unit
  | .push packet => (s.push packet, ())
  | .mediaConfigure source => (s.mediaConfigure source, ())
  | .mediaUnprepared source => (s.mediaUnprepared source, ())

/-- A media is configured with a keyframe that packets have come after; or a media that was configured
    without one gets another packet first. -/
def breaks (s : Medias) : MediaEvent → Bool
  | .mediaConfigure source =>
    source && s.pendingPacket ≠ [] && s.pendingKeyframe && s.pendingNumber + 1 ≠ s.received.length
  | .push packet =>
    packet.data ≠ [] && !packet.keyframe
      && (s.appsrc.bind (s.sources[·]?)).any (·.isEmpty)
  | .mediaUnprepared _ => false

/-- The live media goes on where its last sample ends. -/
structure Inv (s : Medias) : Prop where
  whole : ∀ samples ∈ s.sources, Whole s.received samples
  live : ∀ a, s.appsrc = some a → ∃ samples, s.sources[a]? = some samples ∧
    ∀ sample, samples.getLast? = some sample → sample.number + 1 = s.received.length
  pending : s.pendingPacket ≠ [] → s.pendingKeyframe →
    ∃ packet, s.received[s.pendingNumber]? = some packet ∧ packet.keyframe ∧
      packet.data = s.pendingPacket

theorem Inv.init (fps : UInt32) : Inv { fps := fps } where
  whole samples h := by cases h
  live a h := by cases h
  pending h := absurd rfl h

variable {s : Medias}

theorem step_push (h : s.Inv) {packet : H264Packet} (hbreaks : s.breaks (.push packet) = false) :
    (s.push packet).Inv := by
  unfold push
  by_cases hempty : packet.data = []
  · rw [if_pos hempty]
    exact h
  rw [if_neg hempty]
  dsimp only
  have hwhole : ∀ samples ∈ s.sources, Whole (s.received ++ [packet]) samples :=
    fun samples hsamples => (h.whole samples hsamples).append packet
  have hpending : s.pendingPacket ≠ [] → s.pendingKeyframe →
      ∃ p, (s.received ++ [packet])[s.pendingNumber]? = some p ∧ p.keyframe ∧
        p.data = s.pendingPacket := by
    intro hparked hkeyframe
    obtain ⟨p, hp, hrest⟩ := h.pending hparked hkeyframe
    exact ⟨p, by rw [List.getElem?_append_left (List.getElem?_eq_some_iff.1 hp).1, hp], hrest⟩
  split
  case h_1 hnone =>
    split
    case isTrue hkeyframe =>
      constructor
      · exact hwhole
      · intro a ha
        exact absurd (hnone.symm.trans ha) (by simp)
      · intro _ _
        exact ⟨packet, List.getElem?_concat_length, hkeyframe, rfl⟩
    case isFalse =>
      constructor
      · exact hwhole
      · intro a ha
        exact absurd (hnone.symm.trans ha) (by simp)
      · exact hpending
  case h_2 a ha =>
    obtain ⟨samples, hsamples, hlast⟩ := h.live a ha
    have hfirst : samples = [] → packet.keyframe := by
      intro hnil
      simpa [breaks, hempty, ha, hsamples, hnil] using hbreaks
    constructor
    · intro other hother
      obtain ⟨b, hb⟩ := List.getElem?_of_mem hother
      rw [List.getElem?_modify] at hb
      by_cases hab : a = b
      · subst hab
        rw [hsamples] at hb
        obtain rfl := Option.some.inj hb
        simp only [if_true]
        exact (h.whole samples (mem_of_getElem? hsamples)).snoc rfl rfl hlast hfirst
      · obtain ⟨same, hsame, rfl⟩ := Option.map_eq_some_iff.1 hb
        rw [if_neg hab]
        exact hwhole same (mem_of_getElem? hsame)
    · intro b hb
      obtain rfl : a = b := Option.some.inj (ha.symm.trans hb)
      refine ⟨_, by rw [List.getElem?_modify, hsamples]; rfl, fun last hlast => ?_⟩
      simp only [if_true, List.getLast?_concat, Option.some.injEq] at hlast
      obtain rfl := hlast
      show s.received.length + 1 = (s.received ++ [packet]).length
      rw [length_append, length_singleton]
    · exact hpending

theorem Inv.without_appsrc (h : s.Inv) : Inv { s with appsrc := none } where
  whole := h.whole
  live a ha := by cases ha
  pending := h.pending

theorem step_mediaConfigure (h : s.Inv) {source : Bool} (hbreaks : s.breaks (.mediaConfigure source) = false) :
    (s.mediaConfigure source).Inv := by
  unfold mediaConfigure
  cases source
  · exact h.without_appsrc
  rw [if_neg (by decide)]
  split
  case isTrue hparked =>
    obtain ⟨hdata, hkeyframe⟩ := Bool.and_eq_true_iff.1 hparked
    obtain ⟨packet, hpacket, hkey, hpending⟩ := h.pending (of_decide_eq_true hdata) hkeyframe
    have hlast : s.pendingNumber + 1 = s.received.length := by
      simpa [breaks, of_decide_eq_true hdata, hkeyframe] using hbreaks
    constructor
    · intro samples hsamples
      rcases mem_append.1 hsamples with hsamples | hsamples
      · exact h.whole samples hsamples
      · obtain rfl := mem_singleton.1 hsamples
        exact whole_singleton hpacket hkey (congrArg avcc hpending.symm)
    · intro a ha
      obtain rfl : s.sources.length = a := Option.some.inj ha
      refine ⟨_, List.getElem?_concat_length, fun last hlast' => ?_⟩
      obtain rfl := Option.some.inj hlast'
      exact hlast
    · exact fun hnone => absurd rfl hnone
  case isFalse =>
    constructor
    · intro samples hsamples
      rcases mem_append.1 hsamples with hsamples | hsamples
      · exact h.whole samples hsamples
      · obtain rfl := mem_singleton.1 hsamples
        exact whole_nil _
    · intro a ha
      obtain rfl : s.sources.length = a := Option.some.inj ha
      exact ⟨[], List.getElem?_concat_length, fun last hlast => by cases hlast⟩
    · exact h.pending

theorem step_mediaUnprepared (h : s.Inv) (source : Option Nat) : (s.mediaUnprepared source).Inv := by
  unfold mediaUnprepared
  split
  · exact h.without_appsrc
  · exact h

/-- **The step lemma.** -/
theorem Inv.step (h : s.Inv) (event : MediaEvent) (hbreaks : s.breaks event = false) : (s.step event).1.Inv := by
  cases event with
  | push packet => exact step_push h hbreaks
  | mediaConfigure source => exact step_mediaConfigure h hbreaks
  | mediaUnprepared source => exact step_mediaUnprepared h source

/-- **The medias are whole** in every state of a run in which none is started with a keyframe that
    packets have come after, or with a packet that is no keyframe. -/
theorem medias_whole (fps : UInt32) (events : List MediaEvent)
    (hbreaks : Along step (fun s event => s.breaks event = false) { fps := fps } events) :
    ∀ samples ∈ (run step { fps := fps } events).sources,
      Whole (run step { fps := fps } events).received samples :=
  (Along.invariant (I := Inv) (fun _ event h hevent => h.step event hevent) (Inv.init fps)
    hbreaks).whole

/-- A packet of one NAL unit. -/
def packetOf (byte : UInt8) (pts : Int64) (keyframe : Bool) : MediaEvent :=
  .push { data := [0, 0, 0, 1, byte], pts := pts, keyframe := keyframe }

/-- A client comes right after a keyframe, leaves, and comes back before the next one. -/
def joinEvents : List MediaEvent :=
  [packetOf 1 0 false, packetOf 2 1 true, .mediaConfigure true, packetOf 3 2 false,
   .mediaUnprepared (some 0), packetOf 4 3 false, .mediaConfigure true, packetOf 5 4 true,
   packetOf 6 5 false]

theorem medias_whole_join :
    (∀ samples ∈ (run step {} joinEvents).sources,
      Whole (run step {} joinEvents).received samples) ∧
      (run step {} joinEvents).sources.map (·.map (·.number)) = [[1, 2], [4, 5]] :=
  ⟨medias_whole 30 joinEvents (by decide), by decide⟩

/-- A keyframe and two delta frames come before the client does. -/
def staleEvents : List MediaEvent :=
  [packetOf 1 0 true, packetOf 2 1 false, packetOf 3 2 false, .mediaConfigure true,
   packetOf 4 3 false]

/-- A client comes, with no keyframe parked, in the middle of a group of pictures. -/
def deltaEvents : List MediaEvent :=
  [.mediaConfigure true, packetOf 1 0 false]

/-- **A hole**, and a media that starts with a delta frame. -/
theorem medias_broken :
    ¬ (∀ samples ∈ (run step {} staleEvents).sources,
        Whole (run step {} staleEvents).received samples) ∧
      (run step {} staleEvents).sources.map (·.map (·.number)) = [[0, 3]] ∧
      ¬ (∀ samples ∈ (run step {} deltaEvents).sources,
        Whole (run step {} deltaEvents).received samples) ∧
      (run step {} deltaEvents).received.map (·.keyframe) = [false] := by
  have hhole : (run step {} staleEvents).sources.map (·.map (·.number)) = [[0, 3]] := by decide
  have hfirst : (run step {} deltaEvents).sources.map (·.map (·.number)) = [[0]] := by decide
  have hdelta : (run step {} deltaEvents).received.map (·.keyframe) = [false] := by decide
  refine ⟨fun hall => ?_, hhole, fun hall => ?_, hdelta⟩
  · obtain ⟨samples, hsamples, hnumbers⟩ := mem_map.1 (hhole ▸ mem_singleton_self [0, 3])
    obtain ⟨start, hstart⟩ := (hall samples hsamples).contiguous
    have hlen : samples.length = 2 := by simpa using congrArg List.length hnumbers
    rw [hnumbers, hlen] at hstart
    simp only [List.range', List.cons.injEq] at hstart
    omega
  · obtain ⟨samples, hsamples, hnumbers⟩ := mem_map.1 (hfirst ▸ mem_singleton_self [0])
    obtain ⟨sample, rfl, hzero⟩ : ∃ sample, samples = [sample] ∧ sample.number = 0 := by
      simpa [map_eq_cons_iff] using hnumbers
    obtain ⟨packet, hpacket, hkeyframe⟩ := (hall _ hsamples).keyframe sample rfl
    have hflag := congrArg (·[0]?) hdelta
    rw [hzero] at hpacket
    simp [hpacket, hkeyframe] at hflag

end Medias

end Cockpit.Transfer
