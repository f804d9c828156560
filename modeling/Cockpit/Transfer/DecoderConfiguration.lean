/-
  The decoder configuration of the RTSP server: `UpdateParameterSets` writes a record into the launch
  description of the factory, in hex, and `MediaConfigure` puts one into the caps of the appsrc. The two never
  agree: the record of the caps has a byte more, and `Start` leaves the factory null.
-/
import Cockpit.Lib.ByteText
import Cockpit.Transfer.AnnexB

namespace Cockpit.Transfer

open ByteText Cockpit.Camera LengthPrefix StepRun List

/-! ## The records -/

/-- `static constexpr char hex[]`. -/
def hexDigit (n : Nat) : UInt8 := if n < 10 then UInt8.ofNat (0x30 + n) else UInt8.ofNat (0x57 + n)

/-- `EncodeHex`. -/
def encodeHex (bytes : List UInt8) : List UInt8 :=
  bytes.flatMap fun byte => [hexDigit (byte.toNat / 16), hexDigit (byte.toNat % 16)]

/-- The record in `UpdateParameterSets`, for an SPS of at least four bytes. -/
def launchRecord (sps pps : List UInt8) : List UInt8 :=
  [1, sps[1]?.getD 0, sps[2]?.getD 0, sps[3]?.getD 0, 0xFF, 0xE1, UInt8.ofNat (sps.length / 256),
    UInt8.ofNat sps.length] ++ sps ++
  [1, UInt8.ofNat (pps.length / 256), UInt8.ofNat pps.length] ++ pps

/-- The record in `MediaConfigure`. -/
def capsRecord (sps pps : List UInt8) : List UInt8 :=
  [1, sps[1]?.getD 0, sps[2]?.getD 0, sps[3]?.getD 0, 0xFF, 0xE1, UInt8.ofNat (sps.length / 256),
    UInt8.ofNat sps.length, 0] ++ sps ++
  [1, UInt8.ofNat (pps.length / 256), UInt8.ofNat pps.length] ++ pps

/-- A launch description: the framerate of its caps, and the digits of their `codec_data`, if there are any. -/
structure Launch where
  fps : UInt32
  codecData : Option (List UInt8) := none

/-- The launch description. -/
def Launch.text (launch : Launch) : List UInt8 :=
  ascii "( appsrc name=src is-live=true do-timestamp=true format=time block=false caps=video/" ++
  ascii "x-h264,stream-format=(string)avc,alignment=(string)au,framerate=(fraction)" ++
  natNumeral launch.fps.toNat ++
  match launch.codecData with
  | none => ascii "/1 ! rtph264pay name=pay0 pt=96 config-interval=1 )"
  | some encoded =>
    ascii "/1,codec_data=(buffer)" ++ encoded ++
    ascii " ! h264parse ! rtph264pay name=pay0 pt=96 config-interval=1 )"

/-! ## The server -/

/-- The parameter sets, and the launch description of the factory that is mounted.  `factory` is whether the
    member of that name is set. -/
structure ParameterSets where
  factory : Bool
  launch : Launch
  sps : List UInt8 := []
  pps : List UInt8 := []

/-- `nal[0] & 0x1f`. -/
def nalType (nal : List UInt8) : Option UInt8 := nal.head?.map (· &&& 0x1F)

namespace ParameterSets

/-- `Start`: the factory goes to the mount points, and the member stays as it is. -/
def start (fps : UInt32) : ParameterSets where
  factory := false
  launch := { fps := fps }

/-- The last SPS and the last PPS. -/
def take (s : ParameterSets) (nal : List UInt8) : ParameterSets :=
  { s with
    sps := if nalType nal = some 7 then nal else s.sps
    pps := if nalType nal = some 8 then nal else s.pps }

/-- Only with a factory. -/
def updateParameterSets (s : ParameterSets) (data : List UInt8) : ParameterSets :=
  let s := (nals data).foldl take s
  if s.factory ∧ 4 ≤ s.sps.length ∧ s.pps ≠ [] then
    { s with launch := { s.launch with codecData := some (encodeHex (launchRecord s.sps s.pps)) } }
  else s

/-- The part of `Push` that the parameter sets see. -/
def push (s : ParameterSets) (packet : H264Packet) : ParameterSets :=
  if packet.data = [] then s else s.updateParameterSets packet.data

/-- The `codec_data` that `MediaConfigure` puts into the caps of a media with an appsrc. -/
def capsCodecData (s : ParameterSets) : Option (List UInt8) :=
  if 4 ≤ s.sps.length ∧ s.pps ≠ [] then some (capsRecord s.sps s.pps) else none

end ParameterSets

/-! ## Reading a record -/

/-- What an `AVCDecoderConfigurationRecord` says that has lengths of four bytes, one SPS and one PPS. -/
structure DecoderConfiguration where
  profile : UInt8
  compatibility : UInt8
  level : UInt8
  sps : List UInt8
  pps : List UInt8

/-- The PPS of a record, behind its SPS, and nothing else. -/
def parsePps : List UInt8 → Option (List UInt8)
  | count :: rest =>
    if count = 1 then (readFrame 2 rest).bind fun (pps, rest) => if rest = [] then some pps else none
    else none
  | [] => none

/-- Whatever the reserved bits are. -/
def parseRecord : List UInt8 → Option DecoderConfiguration
  | version :: profile :: compatibility :: level :: lengthSize :: count :: rest =>
    if version = 1 ∧ lengthSize &&& 0x03 = 3 ∧ count &&& 0x1F = 1 then
      (readFrame 2 rest).bind fun (sps, rest) => (parsePps rest).map fun pps =>
        { profile := profile, compatibility := compatibility, level := level, sps := sps, pps := pps }
    else none
  | _ => none

variable {sps pps : List UInt8}

/-! ## The last sets -/

/-- The last unit of a type in the packets; empty when there is none. -/
def latest (type : UInt8) (packets : List H264Packet) : List UInt8 :=
  (((packets.flatMap fun packet => nals packet.data).filter (nalType · = some type)).getLast?).getD []

namespace ParameterSets

variable {s : ParameterSets}

theorem take_nals (s : ParameterSets) (units : List (List UInt8)) :
    (units.foldl take s).sps = ((units.filter (nalType · = some 7)).getLast?).getD s.sps ∧
      (units.foldl take s).pps = ((units.filter (nalType · = some 8)).getLast?).getD s.pps ∧
      (units.foldl take s).factory = s.factory ∧ (units.foldl take s).launch = s.launch := by
  induction units generalizing s with
  | nil => exact ⟨rfl, rfl, rfl, rfl⟩
  | cons nal units ih =>
    obtain ⟨hsps, hpps, hfactory, hlaunch⟩ := ih (s.take nal)
    have hlast : ∀ (type : UInt8) (kept : List UInt8),
        (((nal :: units).filter (nalType · = some type)).getLast?).getD kept =
          ((units.filter (nalType · = some type)).getLast?).getD (if nalType nal = some type then nal else kept) := by
      intro type kept
      by_cases htype : nalType nal = some type
      · rw [filter_cons_of_pos (by simpa using htype), if_pos htype, List.getLast?_cons]
        cases (units.filter (nalType · = some type)).getLast? <;> rfl
      · rw [filter_cons_of_neg (by simpa using htype), if_neg htype]
    rw [foldl_cons, hlast, hlast]
    exact ⟨hsps, hpps, hfactory, hlaunch⟩

theorem push_sets (s : ParameterSets) (packet : H264Packet) :
    (s.push packet).sps = (((nals packet.data).filter (nalType · = some 7)).getLast?).getD s.sps ∧
      (s.push packet).pps = (((nals packet.data).filter (nalType · = some 8)).getLast?).getD s.pps ∧
      (s.push packet).factory = s.factory := by
  unfold push
  split
  · rename_i hempty
    rw [hempty]
    exact ⟨rfl, rfl, rfl⟩
  · obtain ⟨hsps, hpps, hfactory, hlaunch⟩ := take_nals s (nals packet.data)
    unfold updateParameterSets
    dsimp only
    split <;> exact ⟨hsps, hpps, hfactory⟩

/-- With the member `factory` set, the launch description has the record of the sets as soon as there are both. -/
def Recorded (s : ParameterSets) : Prop :=
  s.factory = true → 4 ≤ s.sps.length → s.pps ≠ [] →
    s.launch.codecData = some (encodeHex (launchRecord s.sps s.pps))

/-- Without it, the launch description is that of `Start`. -/
def Bare (s : ParameterSets) : Prop := s.factory = false → s.launch.codecData = none

theorem Recorded.push (h : s.Recorded) (packet : H264Packet) : (s.push packet).Recorded := by
  unfold ParameterSets.push
  split
  · exact h
  · unfold updateParameterSets
    dsimp only
    split
    · exact fun _ _ _ => rfl
    · rename_i hnot
      exact fun hfactory hsps hpps => absurd ⟨hfactory, hsps, hpps⟩ hnot

theorem Bare.push (h : s.Bare) (packet : H264Packet) : (s.push packet).Bare := by
  unfold ParameterSets.push
  split
  · exact h
  · obtain ⟨-, -, hfactory, hlaunch⟩ := take_nals s (nals packet.data)
    unfold updateParameterSets
    dsimp only
    split
    · rename_i hall
      exact fun hnot => absurd hall.1 (by rw [show _ = false from hnot]; decide)
    · intro hnot
      rw [hlaunch]
      exact h (hfactory ▸ hnot)

end ParameterSets

/-! ## The two places -/

/-- Both places have the same bytes, and they are a record of the last sets. -/
def Agree (packets : List H264Packet) (s : ParameterSets) : Prop :=
  ∃ record configuration, s.launch.codecData = some (encodeHex record) ∧ s.capsCodecData = some record ∧
    parseRecord record = some configuration ∧ configuration.sps = latest 7 packets ∧
    configuration.pps = latest 8 packets

/-- The server after the packets, with the member `factory` set or not. -/
def received (fps : UInt32) (factory : Bool) (packets : List H264Packet) : ParameterSets :=
  packets.foldl ParameterSets.push { ParameterSets.start fps with factory := factory }

section

variable {fps : UInt32} {factory : Bool} {packets : List H264Packet}

theorem received_invariant {I : ParameterSets → Prop} (hstart : I { ParameterSets.start fps with factory := factory })
    (hpush : ∀ (s : ParameterSets) (packet : H264Packet), I s → I (s.push packet)) :
    I (received fps factory packets) :=
  List.foldlRecOn packets ParameterSets.push hstart fun s hs packet _ => hpush s packet hs

theorem received_factory : (received fps factory packets).factory = factory :=
  received_invariant (I := fun s => s.factory = factory) rfl fun s packet hs => (s.push_sets packet).2.2.trans hs

theorem received_recorded : (received fps factory packets).Recorded := by
  refine received_invariant ?_ fun s packet hs => hs.push packet
  intro _ _ hpps
  exact absurd rfl hpps

theorem received_bare : (received fps factory packets).Bare :=
  received_invariant (fun _ => rfl) fun _ packet hs => hs.push packet

end

theorem length_encodeHex (bytes : List UInt8) : (encodeHex bytes).length = 2 * bytes.length := by
  induction bytes with
  | nil => rfl
  | cons byte bytes ih =>
    have hcons : encodeHex (byte :: bytes) = _ :: _ :: encodeHex bytes := rfl
    rw [hcons, length_cons, length_cons, length_cons, ih]
    omega

/-- The record of the caps has a byte more. -/
theorem length_capsRecord (sps pps : List UInt8) :
    (capsRecord sps pps).length = (launchRecord sps pps).length + 1 := by
  unfold capsRecord launchRecord
  rw [length_append, length_append, length_append, length_append, length_append, length_append]
  show 9 + _ + _ + _ = 8 + _ + _ + _ + 1
  omega

/-- **The two places never agree**, after no packets and whether the member `factory` is set or not. -/
theorem configurations_disagree (fps : UInt32) (factory : Bool) (packets : List H264Packet) :
    ¬ Agree packets (received fps factory packets) := by
  rintro ⟨record, configuration, hlaunch, hcaps, -⟩
  cases factory with
  | false =>
    -- Nothing is written into the launch description.
    rw [received_bare received_factory] at hlaunch
    cases hlaunch
  | true =>
    unfold ParameterSets.capsCodecData at hcaps
    split at hcaps
    · rename_i hboth
      rw [received_recorded received_factory hboth.1 hboth.2] at hlaunch
      have hdigits := congrArg List.length (Option.some.inj hlaunch)
      rw [length_encodeHex, length_encodeHex, ← Option.some.inj hcaps, length_capsRecord] at hdigits
      omega
    · cases hcaps

/-- A keyframe with an SPS of four bytes and a PPS of two. -/
def keyframe : H264Packet where
  data := [0, 0, 0, 1, 0x67, 0x42, 0x00, 0x1E, 0, 0, 0, 1, 0x68, 0xCE]
  pts := 0
  keyframe := true

theorem keyframe_disagrees :
    latest 7 [keyframe] = [0x67, 0x42, 0x00, 0x1E] ∧ latest 8 [keyframe] = [0x68, 0xCE] ∧
    (received 30 true [keyframe]).launch.codecData =
      some (encodeHex [1, 0x42, 0, 0x1E, 0xFF, 0xE1, 0, 4, 0x67, 0x42, 0, 0x1E, 1, 0, 2, 0x68, 0xCE]) ∧
    (received 30 true [keyframe]).capsCodecData =
      some [1, 0x42, 0, 0x1E, 0xFF, 0xE1, 0, 4, 0, 0x67, 0x42, 0, 0x1E, 1, 0, 2, 0x68, 0xCE] ∧
    ([keyframe].foldl ParameterSets.push (ParameterSets.start 30)).launch.codecData = none ∧
    ¬ Agree [keyframe] (received 30 true [keyframe]) ∧
    ¬ Agree [keyframe] ([keyframe].foldl ParameterSets.push (ParameterSets.start 30)) := by
  have hlaunch : (received 30 true [keyframe]).launch.codecData =
      some (encodeHex [1, 0x42, 0, 0x1E, 0xFF, 0xE1, 0, 4, 0x67, 0x42, 0, 0x1E, 1, 0, 2, 0x68, 0xCE]) := by decide
  have hcaps : (received 30 true [keyframe]).capsCodecData =
      some [1, 0x42, 0, 0x1E, 0xFF, 0xE1, 0, 4, 0, 0x67, 0x42, 0, 0x1E, 1, 0, 2, 0x68, 0xCE] := by decide
  have hbare : ([keyframe].foldl ParameterSets.push (ParameterSets.start 30)).launch.codecData = none := by decide
  refine ⟨by decide, by decide, hlaunch, hcaps, hbare, ?_, ?_⟩
  · rintro ⟨record, _, hlaunch', hcaps', -⟩
    rw [hcaps] at hcaps'
    rw [hlaunch, ← Option.some.inj hcaps'] at hlaunch'
    exact absurd hlaunch' (by decide)
  · rintro ⟨_, _, hlaunch', -⟩
    rw [hbare] at hlaunch'
    cases hlaunch'

end Cockpit.Transfer
