/-
  What the checksums of the chassis frames protect against. `ChassisCanCodec.crc16` is the register of `Crc`
  with 16 bits and the polynomial 0x1021, started at 0xFFFF and fed the identifier first.

  The order of the two checksum bytes does not matter to the number of errors, but it does to bursts: they are
  seen within the data, where the order of transmission is that of the register.
-/
import Cockpit.Lib.Crc
import Cockpit.Vehicle.Codec

namespace Cockpit.Vehicle

open Cockpit.Can List Bool

namespace ChassisCanCodec

/-! ## The codec's checksum is the register's -/

/-- x^16 + x^12 + x^5 + 1. -/
def kPolynomial : BitVec 16 := 0x1021#16

theorem toBitVec_crcBit (crc : UInt16) : (crcBit crc).toBitVec = Crc.shift kPolynomial crc.toBitVec := by
  have hmask : (crc &&& 0x8000).toBitVec
      = if crc.toBitVec.msb then BitVec.twoPow 16 15 else 0#16 := by
    rw [BitVec.msb_eq_getLsbD_last, ← BitVec.and_twoPow]
    rfl
  have htest : crc &&& 0x8000 ≠ 0 ↔ crc.toBitVec.msb = true := by
    rw [ne_eq, ← UInt16.toBitVec_inj, hmask]
    cases crc.toBitVec.msb <;> decide
  unfold crcBit Crc.shift
  by_cases h : crc.toBitVec.msb = true
  · rw [if_pos (htest.mpr h), if_pos h]
    rfl
  · rw [if_neg fun hne => h (htest.mp hne), if_neg h]
    rfl

theorem toBitVec_crcBits (bits : Nat) (crc : UInt16) :
    (crcBits bits crc).toBitVec = Crc.shifts kPolynomial bits crc.toBitVec := by
  induction bits generalizing crc with
  | zero => rfl
  | succ bits ih => rw [crcBits, Crc.shifts, ih, toBitVec_crcBit]

/-- The bits of a byte in the order of transmission. -/
def byteBits (value : UInt8) : List Bool := Crc.msbFirst value.toBitVec

@[simp] theorem length_byteBits (value : UInt8) : (byteBits value).length = 8 :=
  Crc.length_msbFirst _

/-- The bits in the order in which the register takes them. -/
def wireBits (bytes : List UInt8) : List Bool := bytes.flatMap byteBits

theorem toBitVec_crcByte (crc : UInt16) (value : UInt8) :
    (crcByte crc value).toBitVec = Crc.feed kPolynomial crc.toBitVec (byteBits value) := by
  have hload : (value.toUInt16 <<< 8).toBitVec = Crc.load 16 (byteBits value) := by
    rw [byteBits, Crc.load_msbFirst (by decide)]
    rfl
  rw [crcByte, toBitVec_crcBits, Crc.feed_eq_shifts _ _ (by rw [length_byteBits]; decide),
    length_byteBits, UInt16.toBitVec_xor, hload]

theorem toBitVec_foldl_crcByte (crc : UInt16) (bytes : List UInt8) :
    (bytes.foldl crcByte crc).toBitVec = Crc.feed kPolynomial crc.toBitVec (wireBits bytes) := by
  induction bytes generalizing crc with
  | nil => rfl
  | cons value bytes ih =>
    rw [foldl_cons, ih, toBitVec_crcByte, wireBits, wireBits, flatMap_cons, Crc.feed_append]

/-- The register after the identifier. -/
def identifierSeed (id : UInt32) : BitVec 16 :=
  Crc.feed kPolynomial 0xFFFF#16
    (wireBits [(id.toUInt16 &&& 0xFF).toUInt8, (id.toUInt16 >>> 8).toUInt8])

theorem toBitVec_frameCrc (id : UInt32) (data : FrameData) (length : Nat) : (frameCrc id data length).toBitVec
      = Crc.feed kPolynomial (identifierSeed id) (wireBits (data.toList.take length)) := by
  rw [frameCrc, crc16, toBitVec_foldl_crcByte, identifierSeed, ← Crc.feed_append, wireBits, wireBits,
    wireBits, ← flatMap_append]
  rfl

/-! ## Frames as messages -/

theorem toBitVec_getU16 (data : FrameData) (at_ : Nat) (h : at_ + 1 < 64) :
    (getU16 data at_ h).toBitVec = data[at_ + 1].toBitVec ++ (getElem data at_ (inFrame_of_next h)).toBitVec := by
  apply BitVec.eq_of_getLsbD_eq
  intro i hi
  have hwords : (getU16 data at_ h).toBitVec
      = data[at_].toBitVec.setWidth 16 ||| data[at_ + 1].toBitVec.setWidth 16 <<< 8 := rfl
  rw [hwords, BitVec.getLsbD_append, BitVec.getLsbD_or, BitVec.getLsbD_shiftLeft,
    BitVec.getLsbD_setWidth, BitVec.getLsbD_setWidth, decide_eq_true hi]
  by_cases hlow : i < 8
  · rw [if_pos hlow, decide_eq_true hlow, Bool.true_and, Bool.not_true, Bool.and_false,
      Bool.false_and, Bool.or_false]
  · have hbeyond : data[at_].toBitVec.getLsbD i = false := BitVec.getLsbD_of_ge _ _ (by omega)
    rw [if_neg hlow, decide_eq_false hlow, hbeyond, decide_eq_true (by omega : i - 8 < 16),
      Bool.and_false, Bool.false_or, Bool.not_false, Bool.true_and, Bool.true_and, Bool.true_and]

theorem take_add_two (data : FrameData) (length : Nat) (h : length + 1 < 64) :
    data.toList.take (length + 2) = data.toList.take length ++ [getElem data length (inFrame_of_next h), data[length + 1]] := by
  have hread : ∀ i (hi : i < 64), data.toList[i]? = some data[i] := by
    intro i hi
    rw [List.getElem?_eq_getElem (by rw [Vector.length_toList]; exact hi), Vector.getElem_toList]
  rw [take_add_one, take_add_one, hread length (by omega), hread (length + 1) h, append_assoc]
  rfl

/-- The bits of a frame in the order of the register: `length` bytes of data, then the checksum. -/
def codeword (data : FrameData) (length : Nat) (h : length + 1 < 64) : List Bool :=
  wireBits (data.toList.take length) ++ (byteBits data[length + 1] ++ byteBits (getElem data length (inFrame_of_next h)))

/-- **A frame carries its checksum exactly when it leaves nothing in the register.** -/
theorem matches_iff (id : UInt32) (data : FrameData) (length : Nat) (h : length + 1 < 64) :
    getU16 data length h = frameCrc id data length
      ↔ Crc.feed kPolynomial (identifierSeed id) (codeword data length h) = 0#16 := by
  have hfield : byteBits data[length + 1] ++ byteBits data[length]
      = Crc.msbFirst (getU16 data length h).toBitVec := by
    rw [toBitVec_getU16, Crc.msbFirst_append]
    rfl
  rw [codeword, hfield, Crc.feed_checksum (by decide), ← toBitVec_frameCrc, UInt16.toBitVec_inj]
  exact eq_comm

/-! ## Errors -/

/-- The frame with the bits of its data flipped that are set in `errors`. -/
def corrupt (frame : CanFrame) (errors : FrameData) : CanFrame :=
  { frame with data := frame.data.zipWith (· ^^^ ·) errors }

theorem byteBits_xor (a b : UInt8) : byteBits (a ^^^ b) = List.zipWith xor (byteBits a) (byteBits b) := by
  rw [byteBits, UInt8.toBitVec_xor, Crc.msbFirst_xor]
  rfl

theorem wireBits_xor (bytes errors : List UInt8) : wireBits (List.zipWith (· ^^^ ·) bytes errors)
      = List.zipWith xor (wireBits bytes) (wireBits errors) := by
  induction bytes generalizing errors with
  | nil => rfl
  | cons value bytes ih =>
    cases errors with
    | nil =>
      show [] = List.zipWith xor (wireBits (value :: bytes)) []
      rw [zipWith_nil_right]
    | cons error errors =>
      show byteBits (value ^^^ error) ++ wireBits (List.zipWith (· ^^^ ·) bytes errors)
        = List.zipWith xor (byteBits value ++ wireBits bytes) (byteBits error ++ wireBits errors)
      rw [zipWith_append (by rw [length_byteBits, length_byteBits]), byteBits_xor, ih]

theorem length_wireBits (bytes : List UInt8) : (wireBits bytes).length = 8 * bytes.length := by
  induction bytes with
  | nil => rfl
  | cons value bytes ih =>
    have hcons : wireBits (value :: bytes) = byteBits value ++ wireBits bytes := rfl
    rw [hcons, length_append, length_byteBits, ih, length_cons]
    omega

theorem length_take_data (data : FrameData) {length : Nat} (h : length < 64) :
    (data.toList.take length).length = length := by
  rw [length_take, Vector.length_toList]
  omega

theorem length_codeword (data : FrameData) (length : Nat) (h : length + 1 < 64) :
    (codeword data length h).length = 8 * (length + 2) := by
  rw [codeword, length_append, length_wireBits, length_take_data data (by omega),
    length_append, length_byteBits, length_byteBits]
  omega

theorem codeword_corrupt (frame : CanFrame) (errors : FrameData) (length : Nat) (h : length + 1 < 64) :
    codeword (corrupt frame errors).data length h
      = List.zipWith xor (codeword frame.data length h) (codeword errors length h) := by
  have hread : ∀ i (hi : i < 64), (corrupt frame errors).data[i] = frame.data[i] ^^^ errors[i] := by
    intro i hi
    exact Vector.getElem_zipWith hi
  have hdata : (corrupt frame errors).data.toList.take length
      = List.zipWith (· ^^^ ·) (frame.data.toList.take length) (errors.toList.take length) := by
    rw [← take_zipWith, ← Vector.toList_zipWith]
    rfl
  unfold codeword
  rw [hdata, wireBits_xor, hread, hread, byteBits_xor, byteBits_xor,
    zipWith_append (by rw [length_wireBits, length_wireBits, length_take_data _ (by omega),
      length_take_data _ (by omega)]),
    zipWith_append (by rw [length_byteBits, length_byteBits])]

/-- **A corruption is accepted only if the errors leave nothing by themselves.** -/
theorem corrupt_matches {id : UInt32} {frame : CanFrame} {errors : FrameData} {length : Nat}
    (h : length + 1 < 64) (hframe : getU16 frame.data length h = frameCrc id frame.data length)
    (hcorrupt : getU16 (corrupt frame errors).data length h = frameCrc id (corrupt frame errors).data length) :
    Crc.feed kPolynomial 0#16 (codeword errors length h) = 0#16 := by
  rw [matches_iff] at hframe hcorrupt
  rw [codeword_corrupt, Crc.feed_flip _ (by rw [length_codeword, length_codeword]) hframe] at hcorrupt
  exact hcorrupt

/-- The errors that a transmission may add to the first `length` bytes: up to three wrong bits anywhere, or
    any number of them within 16 consecutive bits of the data before the checksum. -/
inductive Corruption (errors : FrameData) (length : Nat) : Prop
  | flips (hsome : 1 ≤ (wireBits (errors.toList.take length)).count true)
      (hfew : (wireBits (errors.toList.take length)).count true ≤ 3)
  | burst (before after : Nat) (burst : List Bool)
      (hdata : wireBits (errors.toList.take (length - 2))
        = List.replicate before false ++ burst ++ List.replicate after false)
      (hshort : burst.length ≤ 16) (herror : true ∈ burst)
      (hchecksum : ∀ i (hi : i < 64), length - 2 ≤ i → i < length → errors[i] = 0)

theorem sound_polynomial : Crc.Sound kPolynomial 128 where
  constant := by decide
  even := by decide +kernel
  period := by
    have hall : ∀ n < 128, 0 < n → Crc.shifts kPolynomial n kPolynomial ≠ kPolynomial := by
      decide +kernel
    exact fun n hpos hn => hall n hn hpos

theorem count_codeword (errors : FrameData) (length : Nat) (h : length + 1 < 64) :
    (codeword errors length h).count true = (wireBits (errors.toList.take (length + 2))).count true := by
  have hwire : wireBits (errors.toList.take (length + 2))
      = wireBits (errors.toList.take length) ++ (byteBits errors[length] ++ byteBits errors[length + 1]) := by
    rw [take_add_two errors length h, wireBits, wireBits, flatMap_append, flatMap_cons,
      flatMap_cons, flatMap_nil, append_nil]
  rw [hwire, codeword, count_append, count_append, count_append, count_append]
  omega

/-- **No such corruption goes unseen** in frames of up to 16 bytes. -/
theorem Corruption.detected {errors : FrameData} (length : Nat) (h : length + 1 < 64)
    (hlen : length ≤ 14) (hcorruption : Corruption errors (length + 2)) :
    Crc.feed kPolynomial 0#16 (codeword errors length h) ≠ 0#16 := by
  cases hcorruption with
  | flips hsome hfew =>
    rw [← count_codeword errors length h] at hsome hfew
    refine Crc.flips_detected sound_polynomial hsome hfew ?_
    rw [length_codeword]
    omega
  | burst before after burst hdata hshort herror hchecksum =>
    rw [Nat.add_sub_cancel] at hdata hchecksum
    have hclean : byteBits errors[length + 1] ++ byteBits errors[length] = List.replicate 16 false := by
      rw [hchecksum length (by omega) (by omega) (by omega), hchecksum (length + 1) h (by omega) (by omega)]
      rfl
    rw [codeword, hclean, hdata, append_assoc _ (List.replicate after false), replicate_append_replicate]
    exact Crc.burst_detected sound_polynomial.constant before (after + 16) hshort herror

end ChassisCanCodec

end Cockpit.Vehicle
