/-
  What the chassis frames say, and how well they are protected on the way. A layout of the bytes is stated once
  for each message; it determines its message, and the message the bytes.

  The decoder does not look at the error state indicator of a frame, and the encoder never sets it.
-/
import Cockpit.Vehicle.FaultLaws
import Cockpit.Vehicle.FrameChecksum

namespace Cockpit.Vehicle

open Cockpit.Can List
open ChassisCanSafetyStateSource (heartbeatReport faultReport)

namespace ChassisCanCodec

/-! ## Fields and bytes as numbers -/

theorem or_shiftLeft {low amount : Nat} (h : low < 2 ^ amount) (high : Nat) :
    low ||| high <<< amount = low + high * 2 ^ amount := by
  rw [Nat.or_comm, ← Nat.shiftLeft_add_eq_or_of_lt h, Nat.shiftLeft_eq, Nat.add_comm]

/-- A field is the sum of its bytes, weighted by their place. -/
theorem toNat_getU16 (data : FrameData) (at_ : Nat) (h : at_ + 1 < 64) :
    (getU16 data at_ h).toNat = (getElem data at_ (inFrame_of_next h)).toNat + data[at_ + 1].toNat * 2 ^ 8 := by
  have hlow := data[at_].toNat_lt
  have hhigh := data[at_ + 1].toNat_lt
  have hshift : (data[at_ + 1].toUInt16 <<< 8).toNat = data[at_ + 1].toNat <<< 8 := by
    rw [UInt16.toNat_shiftLeft, UInt8.toNat_toUInt16]
    show data[at_ + 1].toNat <<< 8 % 2 ^ 16 = data[at_ + 1].toNat <<< 8
    rw [Nat.shiftLeft_eq]
    omega
  rw [getU16, UInt16.toNat_or, hshift, UInt8.toNat_toUInt16, or_shiftLeft (by omega)]

theorem toNat_getU32 (data : FrameData) (at_ : Nat) (h : at_ + 3 < 64) :
    (getU32 data at_ h).toNat = (getElem data at_ (inFrame_of_next (inFrame_of_next (inFrame_of_next h)))).toNat + (getElem data (at_ + 1) (inFrame_of_next (inFrame_of_next h))).toNat * 2 ^ 8
      + (getElem data (at_ + 2) (inFrame_of_next h)).toNat * 2 ^ 16 + data[at_ + 3].toNat * 2 ^ 24 := by
  have h₀ := data[at_].toNat_lt
  have h₁ := data[at_ + 1].toNat_lt
  have h₂ := data[at_ + 2].toNat_lt
  have h₃ := data[at_ + 3].toNat_lt
  have hshift : ∀ (byte : UInt8) (amount : UInt32), amount.toNat ≤ 24 →
      (byte.toUInt32 <<< amount).toNat = byte.toNat <<< amount.toNat := by
    intro byte amount hamount
    have hbyte := byte.toNat_lt
    rw [UInt32.toNat_shiftLeft, UInt8.toNat_toUInt32,
      Nat.mod_eq_of_lt (by omega : amount.toNat < 32), Nat.shiftLeft_eq, Nat.mod_eq_of_lt]
    calc byte.toNat * 2 ^ amount.toNat < 2 ^ 8 * 2 ^ amount.toNat :=
          Nat.mul_lt_mul_of_pos_right hbyte (Nat.two_pow_pos _)
      _ ≤ 2 ^ 8 * 2 ^ 24 := Nat.mul_le_mul_left _ (Nat.pow_le_pow_right (by decide) hamount)
  have hword : (getU32 data at_ h).toNat = ((data[at_].toNat ||| data[at_ + 1].toNat <<< 8)
      ||| data[at_ + 2].toNat <<< 16) ||| data[at_ + 3].toNat <<< 24 := by
    rw [getU32, UInt32.toNat_or, UInt32.toNat_or, UInt32.toNat_or, hshift _ 8 (by decide),
      hshift _ 16 (by decide), hshift _ 24 (by decide), UInt8.toNat_toUInt32]
    rfl
  have htwo : data[at_].toNat + data[at_ + 1].toNat * 2 ^ 8 < 2 ^ 16 := by omega
  have hthree : data[at_].toNat + data[at_ + 1].toNat * 2 ^ 8 + data[at_ + 2].toNat * 2 ^ 16
      < 2 ^ 24 := by omega
  rw [hword, or_shiftLeft h₀, or_shiftLeft htwo, or_shiftLeft hthree]

theorem toNat_byte16 (value : UInt16) : (value &&& 0xFF).toUInt8.toNat = value.toNat % 2 ^ 8
      ∧ (value >>> 8).toUInt8.toNat = value.toNat / 2 ^ 8 := by
  have h := value.toNat_lt
  constructor
  · rw [UInt16.toNat_toUInt8, UInt16.toNat_and]
    show (value.toNat &&& 2 ^ 8 - 1) % 2 ^ 8 = value.toNat % 2 ^ 8
    rw [Nat.and_two_pow_sub_one_eq_mod, Nat.mod_mod]
  · rw [UInt16.toNat_toUInt8, UInt16.toNat_shiftRight]
    show (value.toNat >>> 8) % 2 ^ 8 = value.toNat / 2 ^ 8
    rw [Nat.shiftRight_eq_div_pow]
    omega

/-- A byte of a field is a quotient and a remainder. -/
theorem toNat_byte32 (value amount : UInt32) (hamount : amount.toNat < 32) :
    ((value >>> amount) &&& 0xFF).toUInt8.toNat = value.toNat / 2 ^ amount.toNat % 2 ^ 8 := by
  rw [UInt32.toNat_toUInt8, UInt32.toNat_and, UInt32.toNat_shiftRight, Nat.mod_eq_of_lt hamount]
  show (value.toNat >>> amount.toNat &&& 2 ^ 8 - 1) % 2 ^ 8 = value.toNat / 2 ^ amount.toNat % 2 ^ 8
  rw [Nat.and_two_pow_sub_one_eq_mod, Nat.mod_mod, Nat.shiftRight_eq_div_pow]

/-! ## Writing and reading back -/

theorem getElem_putU16 (data : FrameData) (at_ : Nat) (value : UInt16) (h : at_ + 1 < 64) (i : Nat) (hi : i < 64) :
    (putU16 data at_ value h)[i] = if at_ + 1 = i then (value >>> 8).toUInt8
      else if at_ = i then (value &&& 0xFF).toUInt8 else data[i] := by
  rw [putU16, Vector.getElem_set, Vector.getElem_set]

theorem getElem_putU32 (data : FrameData) (at_ : Nat) (value : UInt32) (h : at_ + 3 < 64) (i : Nat) (hi : i < 64) :
    (putU32 data at_ value h)[i] = if at_ + 3 = i then (value >>> 24).toUInt8
      else if at_ + 2 = i then ((value >>> 16) &&& 0xFF).toUInt8
      else if at_ + 1 = i then ((value >>> 8) &&& 0xFF).toUInt8
      else if at_ = i then (value &&& 0xFF).toUInt8 else data[i] := by
  rw [putU32, Vector.getElem_set, Vector.getElem_set, Vector.getElem_set, Vector.getElem_set]

theorem getU16_putU16 (data : FrameData) (at_ : Nat) (value : UInt16) (h : at_ + 1 < 64) :
    getU16 (putU16 data at_ value h) at_ h = value := by
  obtain ⟨hlow, hhigh⟩ := toNat_byte16 value
  have hvalue := value.toNat_lt
  apply UInt16.toNat_inj.mp
  rw [toNat_getU16, getElem_putU16, getElem_putU16, if_neg (by omega), if_pos rfl, if_pos rfl, hlow, hhigh]
  omega

theorem getU32_putU32 (data : FrameData) (at_ : Nat) (value : UInt32) (h : at_ + 3 < 64) :
    getU32 (putU32 data at_ value h) at_ h = value := by
  have hvalue := value.toNat_lt
  have h₀ : (putU32 data at_ value h)[at_].toNat = value.toNat % 2 ^ 8 := by
    have hbyte := toNat_byte32 value 0 (by decide)
    rw [UInt32.shiftRight_zero] at hbyte
    rw [getElem_putU32, if_neg (by omega), if_neg (by omega), if_neg (by omega), if_pos rfl, hbyte]
    show value.toNat / 1 % 2 ^ 8 = value.toNat % 2 ^ 8
    rw [Nat.div_one]
  have h₁ : (putU32 data at_ value h)[at_ + 1].toNat = value.toNat / 2 ^ 8 % 2 ^ 8 := by
    rw [getElem_putU32, if_neg (by omega), if_neg (by omega), if_pos rfl]
    exact toNat_byte32 value 8 (by decide)
  have h₂ : (putU32 data at_ value h)[at_ + 2].toNat = value.toNat / 2 ^ 16 % 2 ^ 8 := by
    rw [getElem_putU32, if_neg (by omega), if_pos rfl]
    exact toNat_byte32 value 16 (by decide)
  have h₃ : (putU32 data at_ value h)[at_ + 3].toNat = value.toNat / 2 ^ 24 := by
    rw [getElem_putU32, if_pos rfl, UInt32.toNat_toUInt8, UInt32.toNat_shiftRight]
    show value.toNat >>> 24 % 2 ^ 8 = value.toNat / 2 ^ 24
    rw [Nat.shiftRight_eq_div_pow]
    omega
  apply UInt32.toNat_inj.mp
  rw [toNat_getU32, h₀, h₁, h₂, h₃]
  omega

variable {data data' : FrameData} {at_ : Nat}

theorem getU16_congr (h : at_ + 1 < 64)
    (h₀ : (getElem data at_ (inFrame_of_next h)) = (getElem data' at_ (inFrame_of_next h)))
    (h₁ : data[at_ + 1] = data'[at_ + 1]) : getU16 data at_ h = getU16 data' at_ h := by
  rw [getU16, getU16, h₀, h₁]

theorem getU32_congr (h : at_ + 3 < 64) (hbytes : ∀ i (hi : i < 64), at_ ≤ i → i ≤ at_ + 3 → data[i] = data'[i]) :
    getU32 data at_ h = getU32 data' at_ h := by
  rw [getU32, getU32, hbytes at_ (by omega) (by omega) (by omega),
    hbytes (at_ + 1) (by omega) (by omega) (by omega),
    hbytes (at_ + 2) (by omega) (by omega) (by omega),
    hbytes (at_ + 3) (by omega) (by omega) (by omega)]

theorem bytes_of_getU16 (h : at_ + 1 < 64) (heq : getU16 data at_ h = getU16 data' at_ h) :
    (getElem data at_ (inFrame_of_next h)) = (getElem data' at_ (inFrame_of_next h)) ∧ data[at_ + 1] = data'[at_ + 1] := by
  have hnat := congrArg UInt16.toNat heq
  rw [toNat_getU16, toNat_getU16] at hnat
  have h₀ := data[at_].toNat_lt
  have h₀' := data'[at_].toNat_lt
  constructor
  all_goals
    apply UInt8.toNat_inj.mp
    omega

theorem bytes_of_getU32 (h : at_ + 3 < 64) (heq : getU32 data at_ h = getU32 data' at_ h) :
    (getElem data at_ (inFrame_of_next (inFrame_of_next (inFrame_of_next h)))) = (getElem data' at_ (inFrame_of_next (inFrame_of_next (inFrame_of_next h)))) ∧ (getElem data (at_ + 1) (inFrame_of_next (inFrame_of_next h))) = (getElem data' (at_ + 1) (inFrame_of_next (inFrame_of_next h)))
      ∧ (getElem data (at_ + 2) (inFrame_of_next h)) = (getElem data' (at_ + 2) (inFrame_of_next h)) ∧ data[at_ + 3] = data'[at_ + 3] := by
  have hnat := congrArg UInt32.toNat heq
  rw [toNat_getU32, toNat_getU32] at hnat
  have h₀ := data[at_].toNat_lt
  have h₀' := data'[at_].toNat_lt
  have h₁ := data[at_ + 1].toNat_lt
  have h₁' := data'[at_ + 1].toNat_lt
  have h₂ := data[at_ + 2].toNat_lt
  have h₂' := data'[at_ + 2].toNat_lt
  refine ⟨?_, ?_, ?_, ?_⟩
  all_goals
    apply UInt8.toNat_inj.mp
    omega

theorem frameCrc_congr (id : UInt32) {length : Nat} (hbytes : ∀ i (hi : i < 64), i < length → data[i] = data'[i]) :
    frameCrc id data length = frameCrc id data' length := by
  have htake : data.toList.take length = data'.toList.take length := by
    refine ext_getElem (by simp) fun i hi hi' => ?_
    rw [length_take, Vector.length_toList] at hi
    rw [getElem_take, getElem_take, Vector.getElem_toList, Vector.getElem_toList]
    exact hbytes i (by omega) (by omega)
  rw [frameCrc, frameCrc, htake]

theorem getElem_putU16_of_ne {i : Nat} {value : UInt16} (h : at_ + 1 < 64) (hi : i < 64)
    (hout : i < at_ ∨ at_ + 1 < i) : (putU16 data at_ value h)[i] = data[i] := by
  rw [getElem_putU16, if_neg (by omega), if_neg (by omega)]

theorem getU16_frameCrc (id : UInt32) (data : FrameData) (length : Nat) (h : length + 1 < 64) :
    let sealed := putU16 data length (frameCrc id data length) h
    getU16 sealed length h = frameCrc id sealed length := by
  intro sealed
  rw [getU16_putU16]
  refine frameCrc_congr id fun i hi hlt => ?_
  rw [getElem_putU16_of_ne h hi (.inl hlt)]

/-! ## Heartbeats -/

/-- The bytes of a heartbeat. -/
structure HeartbeatLayout (data : FrameData) (heartbeat : ChassisHeartbeat) : Prop where
  schema : getElem data 0 (inFrame rfl) = kSchemaVersion
  nodeState : getElem data 1 (inFrame rfl) = heartbeat.nodeState
  sequence : getElem data 2 (inFrame rfl) = heartbeat.sequence
  flags : getElem data 3 (inFrame rfl) = heartbeat.flags
  uptimeMs : getU32 data 4 = heartbeat.uptimeMs
  faultSummary : getU16 data 8 = heartbeat.faultSummary
  checksum : getU16 data 10 = frameCrc kHeartbeatId data 10

variable {heartbeat : ChassisHeartbeat}

/-- A layout determines its message. -/
theorem HeartbeatLayout.unique (h : HeartbeatLayout data heartbeat) (h' : HeartbeatLayout data' heartbeat) (i : Nat)
    (hi : i < 12) : data[i] = data'[i] := by
  obtain ⟨h₄, h₅, h₆, h₇⟩ := bytes_of_getU32 (by decide) (h.uptimeMs.trans h'.uptimeMs.symm)
  obtain ⟨h₈, h₉⟩ := bytes_of_getU16 (by decide) (h.faultSummary.trans h'.faultSummary.symm)
  have hcovered : ∀ i (hi : i < 64), i < 10 → data[i] = data'[i] := by
    intro i hi hlt
    match i, hlt with
    | 0, _ => exact h.schema.trans h'.schema.symm
    | 1, _ => exact h.nodeState.trans h'.nodeState.symm
    | 2, _ => exact h.sequence.trans h'.sequence.symm
    | 3, _ => exact h.flags.trans h'.flags.symm
    | 4, _ => exact h₄
    | 5, _ => exact h₅
    | 6, _ => exact h₆
    | 7, _ => exact h₇
    | 8, _ => exact h₈
    | 9, _ => exact h₉
  have hchecksum : getU16 data 10 = getU16 data' 10 := by
    rw [h.checksum, h'.checksum, frameCrc_congr kHeartbeatId hcovered]
  obtain ⟨h₁₀, h₁₁⟩ := bytes_of_getU16 (by decide) hchecksum
  by_cases hlt : i < 10
  · exact hcovered i (by omega) hlt
  · match i, hi, hlt with
    | 10, _, _ => exact h₁₀
    | 11, _, _ => exact h₁₁

variable {frame : CanFrame}

/-- The decoder accepts exactly the frames of the layout with the right header. -/
theorem decodeHeartbeat_eq_some_iff : decodeHeartbeat frame = some heartbeat ↔ isFrame frame kHeartbeatId 12 = true
      ∧ heartbeat.nodeState ≤ 5 ∧ heartbeat.flags &&& 0xFE = 0 ∧ HeartbeatLayout frame.data heartbeat := by
  constructor
  · intro h
    obtain ⟨hframe, hstate, hflags, hchecksum, rfl⟩ := decodeHeartbeat_eq_some h
    have hschema : frame.data[0] = kSchemaVersion := by
      simp only [isFrame, Bool.and_eq_true, beq_iff_eq] at hframe
      exact hframe.2
    exact ⟨hframe, hstate, hflags, hschema, rfl, rfl, rfl, rfl, rfl, hchecksum⟩
  · rintro ⟨hframe, hstate, hflags, hlayout⟩
    have hguard : (!isFrame frame kHeartbeatId 12 || decide ((5 : UInt8) < frame.data[1])
        || decide (frame.data[3] &&& 0xFE ≠ 0)
        || decide (getU16 frame.data 10 ≠ frameCrc kHeartbeatId frame.data 10)) = false := by
      rw [hframe, hlayout.nodeState, hlayout.flags, hlayout.checksum, hflags,
        decide_eq_false (UInt8.not_lt.mpr hstate)]
      simp
    unfold decodeHeartbeat
    dsimp only
    rw [if_neg (by rw [hguard]; exact Bool.false_ne_true), hlayout.nodeState, hlayout.sequence,
      hlayout.flags, hlayout.uptimeMs, hlayout.faultSummary]

theorem heartbeat_fields (header : FrameData) (heartbeat : ChassisHeartbeat) :
    let stamped := putU32 header 4 heartbeat.uptimeMs
    let written := putU16 stamped 8 heartbeat.faultSummary
    let sealed := putU16 written 10 (frameCrc kHeartbeatId written 10)
    getU32 sealed 4 = heartbeat.uptimeMs ∧ getU16 sealed 8 = heartbeat.faultSummary
      ∧ getU16 sealed 10 = frameCrc kHeartbeatId sealed 10
      ∧ ∀ i (hi : i < 64), i < 4 ∨ 12 ≤ i → sealed[i] = header[i] := by
  intro stamped written sealed
  have hwritten : ∀ i (hi : i < 64), i < 10 ∨ 11 < i → sealed[i] = written[i] :=
    fun i hi hout => getElem_putU16_of_ne _ hi hout
  have hstamped : ∀ i (hi : i < 64), i < 8 ∨ 9 < i → written[i] = stamped[i] :=
    fun i hi hout => getElem_putU16_of_ne _ hi hout
  refine ⟨?_, ?_, getU16_frameCrc kHeartbeatId written 10 _, ?_⟩
  · rw [← getU32_putU32 header 4 heartbeat.uptimeMs (by decide)]
    refine getU32_congr _ fun i hi hlow hhigh => ?_
    rw [hwritten i hi (by omega), hstamped i hi (by omega)]
  · rw [← getU16_putU16 stamped 8 heartbeat.faultSummary (by decide)]
    exact getU16_congr _ (hwritten 8 _ (by decide)) (hwritten 9 _ (by decide))
  · intro i hi hout
    rw [hwritten i hi (by omega), hstamped i hi (by omega), getElem_putU32, if_neg (by omega),
      if_neg (by omega), if_neg (by omega), if_neg (by omega)]

theorem encodeHeartbeat_eq_some (h : encodeHeartbeat heartbeat = some frame) :
    heartbeat.nodeState ≤ 5 ∧ heartbeat.flags &&& 0xFE = 0 ∧ HeartbeatLayout frame.data heartbeat
      ∧ frame = { id := kHeartbeatId, data := frame.data, dataLength := 12, fd := true, brs := true }
      ∧ ∀ i (hi : i < 64), 12 ≤ i → frame.data[i] = 0 := by
  let header : FrameData := (((emptyData.set 0 kSchemaVersion).set 1 heartbeat.nodeState).set 2
    heartbeat.sequence).set 3 heartbeat.flags
  obtain ⟨huptime, hsummary, hchecksum, hheader⟩ := heartbeat_fields header heartbeat
  unfold encodeHeartbeat at h
  split at h
  · cases h
  · rename_i hguard
    simp only [Bool.or_eq_true, not_or, decide_eq_true_eq, UInt8.not_lt, ne_eq, Decidable.not_not] at hguard
    cases h
    refine ⟨hguard.1, hguard.2, ⟨?_, ?_, ?_, ?_, huptime, hsummary, hchecksum⟩, rfl, ?_⟩
    · exact hheader 0 (by decide) (by decide)
    · exact hheader 1 (by decide) (by decide)
    · exact hheader 2 (by decide) (by decide)
    · exact hheader 3 (by decide) (by decide)
    · intro i hi hbeyond
      refine (hheader i hi (.inr hbeyond)).trans ?_
      rw [Vector.getElem_set_ne _ _ (by omega), Vector.getElem_set_ne _ _ (by omega),
        Vector.getElem_set_ne _ _ (by omega), Vector.getElem_set_ne _ _ (by omega)]
      exact Vector.getElem_replicate hi

theorem encodeHeartbeat_isSome (hstate : heartbeat.nodeState ≤ 5) (hflags : heartbeat.flags &&& 0xFE = 0) :
    (encodeHeartbeat heartbeat).isSome := by
  have hguard : (decide ((5 : UInt8) < heartbeat.nodeState)
      || decide (heartbeat.flags &&& 0xFE ≠ 0)) = false := by
    rw [hflags, decide_eq_false (UInt8.not_lt.mpr hstate)]
    rfl
  unfold encodeHeartbeat
  rw [if_neg (by rw [hguard]; exact Bool.false_ne_true)]
  rfl

theorem decode_encodeHeartbeat (h : encodeHeartbeat heartbeat = some frame) :
    decodeHeartbeat frame = some heartbeat := by
  obtain ⟨hstate, hflags, hlayout, hframe, _⟩ := encodeHeartbeat_eq_some h
  refine decodeHeartbeat_eq_some_iff.mpr ⟨?_, hstate, hflags, hlayout⟩
  have hschema := hlayout.schema
  rw [hframe]
  unfold isFrame
  rw [hschema]
  rfl

theorem fromSocketCanFrame_toSocketCanFrame (hvalid : frame.isValid = true)
    (hzero : ∀ i (hi : i < 64), frame.dataLength.toNat ≤ i → frame.data[i] = 0) :
    fromSocketCanFrame (toSocketCanFrame frame) = .ok frame := by
  have hcopy : copyBytes frame.data frame.dataLength = frame.data := by
    refine Vector.ext fun i hi => ?_
    unfold copyBytes
    rw [Vector.getElem_mapFinIdx]
    by_cases hlt : i < frame.dataLength.toNat
    · rw [if_pos hlt]
    · rw [if_neg hlt, hzero i hi (by omega)]
  have hframe : toSocketCanFrame frame
      = { id := frame.id, data := frame.data, length := frame.dataLength, extended := frame.extended,
          remote := frame.remote, fd := frame.fd, brs := frame.brs, esi := frame.esi } := by
    unfold toSocketCanFrame
    rw [hcopy]
  rw [hframe]
  unfold fromSocketCanFrame
  dsimp only
  rw [if_neg Bool.false_ne_true, hvalid]
  rfl

theorem encode_decodeHeartbeat (h : decodeHeartbeat frame = some heartbeat) :
    ∃ frame', encodeHeartbeat heartbeat = some frame' ∧ frame'.id = frame.id
      ∧ frame'.dataLength = frame.dataLength ∧ frame'.extended = frame.extended
      ∧ frame'.remote = frame.remote ∧ frame'.fd = frame.fd ∧ frame'.brs = frame.brs
      ∧ frame'.esi = false ∧ ∀ i (hi : i < 12), frame'.data[i] = frame.data[i] := by
  obtain ⟨hheader, hstate, hflags, hlayout⟩ := decodeHeartbeat_eq_some_iff.mp h
  obtain ⟨frame', hencode⟩ := Option.isSome_iff_exists.mp (encodeHeartbeat_isSome hstate hflags)
  obtain ⟨_, _, hlayout', hframe', _⟩ := encodeHeartbeat_eq_some hencode
  simp only [isFrame, Bool.and_eq_true, beq_iff_eq, Bool.not_eq_true'] at hheader
  obtain ⟨⟨⟨⟨⟨⟨hid, hextended⟩, hremote⟩, hfd⟩, hbrs⟩, hlen⟩, _⟩ := hheader
  refine ⟨frame', hencode, ?_, ?_, ?_, ?_, ?_, ?_, ?_, hlayout'.unique hlayout⟩
  · rw [hframe', hid]
  · rw [hframe', hlen]
  · rw [hframe', hextended]
  · rw [hframe', hremote]
  · rw [hframe', hfd]
  · rw [hframe', hbrs]
  · rw [hframe']

/-! ## Velocity commands -/

/-- The bytes of a velocity command. -/
structure VelocityLayout (data : FrameData) (command : ChassisVelocityCommand) : Prop where
  schema : getElem data 0 (inFrame rfl) = kSchemaVersion
  enabled : getElem data 1 (inFrame rfl) = if command.enabled then 1 else 0
  sequence : getElem data 2 (inFrame rfl) = command.sequence
  linear : getI16 data 4 = command.linearVelocityMmS
  angular : getI16 data 6 = command.angularVelocityMradS
  checksum : getU16 data 10 = frameCrc kVelocityCommandId data 10

theorem getI16_putI16 (data : FrameData) (at_ : Nat) (value : Int16) (h : at_ + 1 < 64) :
    getI16 (putI16 data at_ value h) at_ h = value := by
  rw [getI16, putI16, getU16_putU16, Int16.toInt16_toUInt16]

theorem velocity_fields (header : FrameData) (command : ChassisVelocityCommand) :
    let linear := putI16 header 4 command.linearVelocityMmS
    let written := putI16 linear 6 command.angularVelocityMradS
    let sealed := putU16 written 10 (frameCrc kVelocityCommandId written 10)
    getI16 sealed 4 = command.linearVelocityMmS ∧ getI16 sealed 6 = command.angularVelocityMradS
      ∧ getU16 sealed 10 = frameCrc kVelocityCommandId sealed 10
      ∧ ∀ i (hi : i < 64), i < 4 → sealed[i] = header[i] := by
  intro linear written sealed
  have hwritten : ∀ i (hi : i < 64), i < 10 ∨ 11 < i → sealed[i] = written[i] :=
    fun i hi hout => getElem_putU16_of_ne _ hi hout
  have hlinear : ∀ i (hi : i < 64), i < 6 ∨ 7 < i → written[i] = linear[i] :=
    fun i hi hout => getElem_putU16_of_ne _ hi hout
  refine ⟨?_, ?_, getU16_frameCrc kVelocityCommandId written 10 _, ?_⟩
  · rw [← getI16_putI16 header 4 command.linearVelocityMmS (by decide), getI16, getI16]
    refine congrArg UInt16.toInt16 (getU16_congr _ ?_ ?_)
    · rw [hwritten 4 _ (by decide), hlinear 4 _ (by decide)]
    · rw [hwritten (4 + 1) _ (by decide), hlinear (4 + 1) _ (by decide)]
  · rw [← getI16_putI16 linear 6 command.angularVelocityMradS (by decide), getI16, getI16]
    refine congrArg UInt16.toInt16 (getU16_congr _ ?_ ?_)
    · exact hwritten 6 _ (by decide)
    · exact hwritten (6 + 1) _ (by decide)
  · intro i hi hlt
    rw [hwritten i hi (by omega), hlinear i hi (by omega)]
    exact getElem_putU16_of_ne _ hi (.inl hlt)

variable {command : ChassisVelocityCommand}

theorem encodeVelocity_eq_some (h : encodeVelocity command = some frame) : VelocityLayout frame.data command := by
  let header : FrameData := ((emptyData.set 0 kSchemaVersion).set 1
    (if command.enabled then 1 else 0)).set 2 command.sequence
  obtain ⟨hlinear, hangular, hchecksum, hheader⟩ := velocity_fields header command
  unfold encodeVelocity at h
  split at h
  · cases h
  · cases h
    refine ⟨?_, ?_, ?_, hlinear, hangular, hchecksum⟩
    · exact hheader 0 (by decide) (by decide)
    · exact hheader 1 (by decide) (by decide)
    · exact hheader 2 (by decide) (by decide)

theorem VelocityLayout.unique {command' : ChassisVelocityCommand} (h : VelocityLayout data command)
    (h' : VelocityLayout data command') : command = command' := by
  have henabled : command.enabled = command'.enabled := by
    have hbyte := h.enabled.symm.trans h'.enabled
    cases hc : command.enabled <;> cases hc' : command'.enabled
    · rfl
    · rw [hc, hc'] at hbyte
      exact absurd hbyte (by decide)
    · rw [hc, hc'] at hbyte
      exact absurd hbyte (by decide)
    · rfl
  cases command
  cases command'
  have hseq := h.sequence.symm.trans h'.sequence
  have hlinear := h.linear.symm.trans h'.linear
  have hangular := h.angular.symm.trans h'.angular
  simp only at henabled hseq hlinear hangular
  rw [henabled, hseq, hlinear, hangular]

/-! ## What the checksum covers -/

/-- **Every byte counts**: changing one of the bytes that are summed up changes the checksum. -/
theorem frameCrc_set_ne (id : UInt32) (data : FrameData) {length i : Nat} (hlen : length ≤ 64)
    (hi : i < length) {value : UInt8} (hvalue : value ≠ data[i]) :
    frameCrc id (data.set i value) length ≠ frameCrc id data length := by
  intro hsame
  let covered := data.toList.take length
  have hcovered : i < covered.length := by
    rw [length_take, Vector.length_toList]
    omega
  have hbyte : covered[i] = data[i] := by
    rw [getElem_take, Vector.getElem_toList]
  have hset : (data.set i value).toList.take length = covered.take i ++ value :: covered.drop (i + 1) := by
    rw [Vector.toList_set, take_set, set_eq_take_append_cons_drop, if_pos hcovered]
  have hold : covered = covered.take i ++ data[i] :: covered.drop (i + 1) := by
    rw [← hbyte, cons_getElem_drop_succ, take_append_drop]
  have hfeed := congrArg UInt16.toBitVec hsame
  rw [toBitVec_frameCrc, toBitVec_frameCrc, hset] at hfeed
  have hwire : ∀ byte, wireBits (covered.take i ++ byte :: covered.drop (i + 1))
      = wireBits (covered.take i) ++ (byteBits byte ++ wireBits (covered.drop (i + 1))) := by
    intro byte
    rw [wireBits, wireBits, flatMap_append, flatMap_cons]
    rfl
  have hright : wireBits (data.toList.take length)
      = wireBits (covered.take i) ++ (byteBits data[i] ++ wireBits (covered.drop (i + 1))) := by
    rw [← hwire, ← hold]
  rw [hwire, hright, Crc.feed_append, Crc.feed_append, Crc.feed_append, Crc.feed_append] at hfeed
  have hbits := Crc.feed_injective sound_polynomial.constant hfeed
  have hbyteBits := Crc.eq_of_feed_eq sound_polynomial.constant _
    (by rw [length_byteBits, length_byteBits]) (by rw [length_byteBits]; decide) hbits
  exact hvalue (UInt8.toBitVec_inj.mp (Crc.msbFirst_injective hbyteBits))

/-! ## On the wire -/

/-- **Nothing is lost on the wire.**  An encoded heartbeat is decoded to itself, with or without a trip
    through the socket; an accepted heartbeat frame is written again with the same identifier, the same
    flags but the error state indicator, and the same payload; and a velocity command can be read
    from its frame, whose checksum depends on every byte before it. -/
theorem wire_formats_lossless :
    (∀ heartbeat frame, encodeHeartbeat heartbeat = some frame →
      decodeHeartbeat frame = some heartbeat
        ∧ ∃ frame', fromSocketCanFrame (toSocketCanFrame frame) = .ok frame'
          ∧ decodeHeartbeat frame' = some heartbeat)
    ∧ (∀ frame heartbeat, decodeHeartbeat frame = some heartbeat →
      ∃ frame', encodeHeartbeat heartbeat = some frame' ∧ frame'.id = frame.id
        ∧ frame'.dataLength = frame.dataLength ∧ frame'.extended = frame.extended
        ∧ frame'.remote = frame.remote ∧ frame'.fd = frame.fd ∧ frame'.brs = frame.brs
        ∧ ∀ i (hi : i < 12), frame'.data[i] = frame.data[i])
    ∧ (∀ command command' frame, encodeVelocity command = some frame →
      encodeVelocity command' = some frame → command = command')
    ∧ (∀ command frame, encodeVelocity command = some frame →
      getElem frame.data 2 (inFrame rfl) = command.sequence ∧ getI16 frame.data 4 = command.linearVelocityMmS
        ∧ getI16 frame.data 6 = command.angularVelocityMradS
        ∧ getU16 frame.data 10 = frameCrc kVelocityCommandId frame.data 10
        ∧ ∀ i (hi : i < 10) (value : UInt8), value ≠ frame.data[i] →
          frameCrc kVelocityCommandId (frame.data.set i value) 10
            ≠ frameCrc kVelocityCommandId frame.data 10) := by
  refine ⟨?_, ?_, ?_, ?_⟩
  · intro heartbeat frame h
    have hdecode := decode_encodeHeartbeat h
    obtain ⟨_, _, _, hframe, hzero⟩ := encodeHeartbeat_eq_some h
    have hvalid : frame.isValid = true := by
      have hid : kHeartbeatId &&& ~~~kStandardIdMask = 0 := by decide
      rw [hframe]
      simp [CanFrame.isValid, hid, kMaxDataLength]
    have hlen : frame.dataLength = 12 := by rw [hframe]
    refine ⟨hdecode, frame, fromSocketCanFrame_toSocketCanFrame hvalid ?_, hdecode⟩
    intro i hi hbeyond
    rw [hlen] at hbeyond
    exact hzero i hi hbeyond
  · intro frame heartbeat h
    obtain ⟨frame', hencode, hid, hlen, hextended, hremote, hfd, hbrs, _, hdata⟩ :=
      encode_decodeHeartbeat h
    exact ⟨frame', hencode, hid, hlen, hextended, hremote, hfd, hbrs, hdata⟩
  · intro command command' frame h h'
    exact (encodeVelocity_eq_some h).unique (encodeVelocity_eq_some h')
  · intro command frame h
    have hlayout := encodeVelocity_eq_some h
    exact ⟨hlayout.sequence, hlayout.linear, hlayout.angular, hlayout.checksum,
      fun i hi value hvalue => frameCrc_set_ne kVelocityCommandId frame.data (by decide) hi hvalue⟩

theorem wire_formats_lossless_heartbeat :
    let heartbeat : ChassisHeartbeat :=
      { nodeState := 2, sequence := 7, flags := 1, uptimeMs := 0xFEDCBA98, faultSummary := 0x1234 }
    let command : ChassisVelocityCommand :=
      { enabled := true, sequence := 9, linearVelocityMmS := -250, angularVelocityMradS := 1000 }
    (encodeHeartbeat heartbeat).bind decodeHeartbeat = some heartbeat
      ∧ (∃ frame', encodeHeartbeat heartbeat = some frame' ∧ frame'.id = 0x200)
      ∧ ∃ frame, encodeVelocity command = some frame ∧ getI16 frame.data 4 = -250
        ∧ ∀ command', encodeVelocity command' = some frame → command' = command := by
  intro heartbeat command
  obtain ⟨hencoded, hdecoded, hinjective, hvelocity⟩ := wire_formats_lossless
  obtain ⟨frame, hframe⟩ := Option.isSome_iff_exists.mp
    (show (encodeHeartbeat heartbeat).isSome = true by decide +kernel)
  obtain ⟨sent, hsent⟩ := Option.isSome_iff_exists.mp
    (show (encodeVelocity command).isSome = true by decide +kernel)
  refine ⟨?_, ?_, sent, hsent, (hvelocity command sent hsent).2.1, ?_⟩
  · rw [hframe]
    exact (hencoded heartbeat frame hframe).1
  · obtain ⟨frame', hencode, hid, _⟩ := hdecoded frame heartbeat (hencoded heartbeat frame hframe).1
    exact ⟨frame', hencode, hid.trans (decodeHeartbeat_id (hencoded heartbeat frame hframe).1)⟩
  · intro command' hsent'
    exact hinjective command' command sent hsent' hsent

/-- The error state indicator is not reproduced. -/
theorem indicator_lost :
    let frame : CanFrame := { heartbeatReport 1 1000 with esi := true }
    (decodeHeartbeat frame).isSome = true
      ∧ ((decodeHeartbeat frame).bind encodeHeartbeat).map (·.esi) = some false := by
  decide +kernel

/-- **Corrupted safety frames are rejected**: no accepted heartbeat or fault frame stays acceptable when
    one to three of its payload bits are flipped, or any within 16 consecutive bits of its data. -/
theorem corrupted_rejected (frame : CanFrame) (errors : FrameData) :
    (∀ heartbeat, decodeHeartbeat frame = some heartbeat → Corruption errors 12 →
      decodeHeartbeat (corrupt frame errors) = none)
    ∧ (∀ status, decodeFault frame = some status → Corruption errors 16 →
      decodeFault (corrupt frame errors) = none) := by
  constructor
  · intro heartbeat hdecode hcorruption
    cases hcorrupt : decodeHeartbeat (corrupt frame errors) with
    | none => rfl
    | some heartbeat' =>
      have hchecksum := (decodeHeartbeat_eq_some hdecode).2.2.2.1
      have hchecksum' := (decodeHeartbeat_eq_some hcorrupt).2.2.2.1
      have hdetected := Corruption.detected 10 (by decide) (by decide) hcorruption
      exact absurd (corrupt_matches (by decide) hchecksum hchecksum') hdetected
  · intro status hdecode hcorruption
    cases hcorrupt : decodeFault (corrupt frame errors) with
    | none => rfl
    | some status' =>
      have hchecksum := (decodeFault_eq_some hdecode).2.2.2.1
      have hchecksum' := (decodeFault_eq_some hcorrupt).2.2.2.1
      have hdetected := Corruption.detected 14 (by decide) (by decide) hcorruption
      exact absurd (corrupt_matches (by decide) hchecksum hchecksum') hdetected

theorem corrupted_rejected_three_bits :
    decodeHeartbeat (corrupt (heartbeatReport 1 1000) ((emptyData.set 4 0x81).set 11 0x40)) = none
      ∧ decodeFault (corrupt (faultReport 5 2) ((emptyData.set 12 0xA5).set 13 0x5A)) = none := by
  obtain ⟨heartbeat, hheartbeat⟩ := Option.isSome_iff_exists.mp
    (show (decodeHeartbeat (heartbeatReport 1 1000)).isSome = true by decide +kernel)
  obtain ⟨status, hstatus⟩ := Option.isSome_iff_exists.mp
    (show (decodeFault (faultReport 5 2)).isSome = true by decide +kernel)
  constructor
  · exact (corrupted_rejected _ _).1 heartbeat hheartbeat
      (.flips (by decide +kernel) (by decide +kernel))
  · refine (corrupted_rejected _ _).2 status hstatus
      (.burst 96 0 (byteBits 0xA5 ++ byteBits 0x5A) (by decide +kernel) (by decide) (by decide) ?_)
    intro i hi hlow hhigh
    have hchecksum : i = 14 ∨ i = 15 := by omega
    rcases hchecksum with rfl | rfl <;> rfl

end ChassisCanCodec

end Cockpit.Vehicle
