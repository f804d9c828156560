/-
  Cyclic redundancy checks.

  A checksum of `w` bits is a shift register that takes a message bit by bit, most significant first. All of it
  is linear in exclusive or: an error is detected exactly when the error alone, fed to an empty register, leaves
  something there. Three kinds of patterns are: bursts of `w` bits, an odd number of errors, and two errors
  within the period.
-/
import Mathlib.Algebra.BigOperators.Fin
import Mathlib.Algebra.Field.ZMod

namespace Crc

open List Bool

variable {w : Nat}

/-! ## The register -/

/-- A bit that falls out adds the polynomial. -/
def shift (poly c : BitVec w) : BitVec w :=
  if c.msb then (c <<< 1) ^^^ poly else c <<< 1

def shifts (poly : BitVec w) : Nat → BitVec w → BitVec w
  | 0, c => c
  | n + 1, c => shifts poly n (shift poly c)

def top (w : Nat) (bit : Bool) : BitVec w := if bit then BitVec.twoPow w (w - 1) else 0

/-- The bit goes into the top of the register. -/
def absorb (poly c : BitVec w) (bit : Bool) : BitVec w := shift poly (c ^^^ top w bit)

/-- Bit by bit. -/
def feed (poly c : BitVec w) (bits : List Bool) : BitVec w := bits.foldl (absorb poly) c

def msbFirst {n : Nat} (word : BitVec n) : List Bool := (List.range n).map word.getMsbD

variable {n : Nat}

@[simp] theorem length_msbFirst (word : BitVec n) : (msbFirst word).length = n := by
  rw [msbFirst, length_map, length_range]

theorem getElem_msbFirst (word : BitVec n) (i : Nat) (hi : i < (msbFirst word).length) :
    (msbFirst word)[i] = word.getMsbD i := by
  simp only [msbFirst, getElem_map, getElem_range]

theorem msbFirst_xor (a b : BitVec n) : msbFirst (a ^^^ b) = List.zipWith xor (msbFirst a) (msbFirst b) := by
  refine ext_getElem (by simp) fun i _ _ => ?_
  rw [getElem_zipWith, getElem_msbFirst, getElem_msbFirst, getElem_msbFirst, BitVec.getMsbD_xor]

theorem msbFirst_append {m : Nat} (high : BitVec m) (low : BitVec n) :
    msbFirst (high ++ low) = msbFirst high ++ msbFirst low := by
  refine ext_getElem (by simp) fun i _ _ => ?_
  rw [getElem_msbFirst, BitVec.getMsbD_append, getElem_append]
  by_cases hi : m ≤ i
  · have hnot : ¬ i < (msbFirst high).length := by
      rw [length_msbFirst]
      omega
    rw [if_pos hi, dif_neg hnot, getElem_msbFirst, length_msbFirst]
  · have hlt : i < (msbFirst high).length := by
      rw [length_msbFirst]
      omega
    rw [if_neg hi, dif_pos hlt, getElem_msbFirst]

section Linear

variable (poly : BitVec w)

@[simp] theorem feed_nil (c : BitVec w) : feed poly c [] = c := rfl

@[simp] theorem feed_cons (c : BitVec w) (bit : Bool) (bits : List Bool) :
    feed poly c (bit :: bits) = feed poly (absorb poly c bit) bits := rfl

theorem feed_append (c : BitVec w) (bits bits' : List Bool) :
    feed poly c (bits ++ bits') = feed poly (feed poly c bits) bits' := foldl_append

theorem xor_xor_xor_comm (a b c d : BitVec w) : a ^^^ b ^^^ (c ^^^ d) = a ^^^ c ^^^ (b ^^^ d) := by
  rw [BitVec.xor_assoc, BitVec.xor_assoc, ← BitVec.xor_assoc b, BitVec.xor_comm b c, BitVec.xor_assoc c]

theorem eq_of_xor_eq_zero {a b : BitVec w} (h : a ^^^ b = 0#w) : a = b := by
  have hxor : a ^^^ b ^^^ b = 0#w ^^^ b := by rw [h]
  rw [BitVec.xor_assoc, BitVec.xor_self, BitVec.xor_zero, BitVec.zero_xor] at hxor
  exact hxor

/-- **The register is linear.** -/
theorem shift_xor (a b : BitVec w) : shift poly (a ^^^ b) = shift poly a ^^^ shift poly b := by
  unfold shift
  rw [BitVec.msb_xor, BitVec.shiftLeft_xor_distrib]
  cases a.msb with
  | false =>
    cases b.msb with
    | false => rfl
    | true =>
      show (a <<< 1 ^^^ b <<< 1) ^^^ poly = a <<< 1 ^^^ (b <<< 1 ^^^ poly)
      rw [BitVec.xor_assoc]
  | true =>
    cases b.msb with
    | false =>
      show (a <<< 1 ^^^ b <<< 1) ^^^ poly = (a <<< 1 ^^^ poly) ^^^ b <<< 1
      rw [BitVec.xor_assoc, BitVec.xor_assoc, BitVec.xor_comm poly]
    | true =>
      show a <<< 1 ^^^ b <<< 1 = (a <<< 1 ^^^ poly) ^^^ (b <<< 1 ^^^ poly)
      rw [xor_xor_xor_comm, BitVec.xor_self, BitVec.xor_zero]

@[simp] theorem shift_zero : shift poly 0#w = 0#w := by
  have h := shift_xor poly 0#w 0#w
  rw [BitVec.xor_self, BitVec.xor_self] at h
  exact h

theorem shifts_xor (n : Nat) (a b : BitVec w) : shifts poly n (a ^^^ b) = shifts poly n a ^^^ shifts poly n b := by
  induction n generalizing a b with
  | zero => rfl
  | succ n ih => rw [shifts, shifts, shifts, shift_xor, ih]

@[simp] theorem shifts_zero (n : Nat) : shifts poly n 0#w = 0#w := by
  induction n with
  | zero => rfl
  | succ n ih => rw [shifts, shift_zero, ih]

theorem shifts_succ' (n : Nat) (c : BitVec w) : shifts poly (n + 1) c = shift poly (shifts poly n c) := by
  induction n generalizing c with
  | zero => rfl
  | succ n ih => exact ih (shift poly c)

theorem top_xor (a b : Bool) : top w (a ^^ b) = top w a ^^^ top w b := by
  cases a <;> cases b <;> simp [top]

theorem absorb_xor (c d : BitVec w) (a b : Bool) :
    absorb poly (c ^^^ d) (a ^^ b) = absorb poly c a ^^^ absorb poly d b := by
  unfold absorb
  rw [top_xor, xor_xor_xor_comm, shift_xor]

/-- **A checksum is linear in the message**, so an error changes it by its own checksum. -/
theorem feed_xor (c d : BitVec w) {bits errors : List Bool} (h : errors.length = bits.length) :
    feed poly (c ^^^ d) (List.zipWith xor bits errors) = feed poly c bits ^^^ feed poly d errors := by
  induction bits generalizing c d errors with
  | nil =>
    rw [length_nil, length_eq_zero_iff] at h
    rw [h]
    rfl
  | cons bit bits ih =>
    cases errors with
    | nil => cases h
    | cons error errors =>
      have hlen : errors.length = bits.length := Nat.succ.inj h
      show feed poly (absorb poly (c ^^^ d) (bit ^^ error)) (List.zipWith xor bits errors) = _
      rw [absorb_xor, ih _ _ hlen]
      rfl

theorem feed_flip {seed : BitVec w} {bits errors : List Bool} (h : errors.length = bits.length)
    (hbits : feed poly seed bits = 0#w) : feed poly seed (List.zipWith xor bits errors) = feed poly 0#w errors := by
  have hxor := feed_xor poly seed 0#w h
  rw [BitVec.xor_zero, hbits, BitVec.zero_xor] at hxor
  exact hxor

end Linear

/-! ## Whole words at the top of the register -/

/-- The first `w` bits, at the top of an empty register. -/
def load (w : Nat) : List Bool → BitVec w
  | [] => 0#w
  | bit :: bits => top w bit ^^^ (load w bits >>> 1)

theorem getLsbD_top (bit : Bool) (i : Nat) (hi : i < w) : (top w bit).getLsbD i = (bit && decide (i = w - 1)) := by
  cases bit with
  | false => simp [top]
  | true =>
    rw [top, if_pos rfl, BitVec.getLsbD_twoPow]
    have hw : w - 1 < w := by omega
    simp [hw, eq_comm]

theorem getLsbD_load (bits : List Bool) (i : Nat) (hi : i < w) :
    (load w bits).getLsbD i = bits[w - 1 - i]?.getD false := by
  induction bits generalizing i with
  | nil => simp [load]
  | cons bit bits ih =>
    rw [load, BitVec.getLsbD_xor, BitVec.getLsbD_ushiftRight, getLsbD_top bit i hi]
    by_cases hlast : i = w - 1
    · have hout : (load w bits).getLsbD (1 + i) = false := BitVec.getLsbD_of_ge _ _ (by omega)
      have hindex : w - 1 - i = 0 := by omega
      rw [hout, hindex, decide_eq_true hlast, Bool.and_true, Bool.xor_false]
      rfl
    · have hindex : w - 1 - i = (w - 1 - (1 + i)) + 1 := by omega
      rw [ih (1 + i) (by omega), hindex, List.getElem?_cons_succ]
      simp [hlast]

theorem load_msbFirst (hn : n ≤ w) (word : BitVec n) : load w (msbFirst word) = word.setWidth w <<< (w - n) := by
  apply BitVec.eq_of_getLsbD_eq
  intro i hi
  rw [getLsbD_load _ i hi, BitVec.getLsbD_shiftLeft, BitVec.getLsbD_setWidth, msbFirst]
  by_cases hin : i < w - n
  · have hindex : n ≤ w - 1 - i := by omega
    rw [List.getElem?_eq_none (by rw [length_map, length_range]; exact hindex),
      decide_eq_true hin, Bool.not_true, Bool.and_false, Bool.false_and]
    rfl
  · have hindex : w - 1 - i < n := by omega
    have hbit : n - 1 - (w - 1 - i) = i - (w - n) := by omega
    have hin' : i - (w - n) < w := by omega
    rw [List.getElem?_map, List.getElem?_range hindex, Option.map_some, Option.getD_some,
      BitVec.getMsbD, hbit, decide_eq_true hindex, decide_eq_true hi, decide_eq_false hin,
      decide_eq_true hin', Bool.not_false, Bool.true_and, Bool.true_and, Bool.true_and]

theorem load_msbFirst_self (word : BitVec w) : load w (msbFirst word) = word := by
  rw [load_msbFirst (Nat.le_refl w), Nat.sub_self, BitVec.setWidth_eq, BitVec.shiftLeft_zero]

theorem msbFirst_injective {a b : BitVec w} (h : msbFirst a = msbFirst b) : a = b := by
  rw [← load_msbFirst_self a, h, load_msbFirst_self]

variable {bits : List Bool}

theorem shift_load (poly : BitVec w) (h : bits.length < w) : shift poly (load w bits >>> 1) = load w bits := by
  have hmsb : (load w bits >>> 1).msb = false := by
    rw [BitVec.msb_eq_getLsbD_last, BitVec.getLsbD_ushiftRight]
    exact BitVec.getLsbD_of_ge _ _ (by omega)
  rw [shift, hmsb, if_neg Bool.false_ne_true]
  apply BitVec.eq_of_getLsbD_eq
  intro i hi
  rw [BitVec.getLsbD_shiftLeft, BitVec.getLsbD_ushiftRight, decide_eq_true hi, Bool.true_and]
  cases i with
  | zero =>
    rw [getLsbD_load bits 0 hi, List.getElem?_eq_none (by omega)]
    rfl
  | succ i =>
    rw [Nat.add_sub_cancel, Nat.add_comm 1 i, decide_eq_false (by omega), Bool.not_false, Bool.true_and]

/-- **Bits one by one, or a word at once**: up to `w` bits may be added to the top of the register
    before it is shifted. -/
theorem feed_eq_shifts (poly c : BitVec w) (h : bits.length ≤ w) :
    feed poly c bits = shifts poly bits.length (c ^^^ load w bits) := by
  induction bits generalizing c with
  | nil =>
    show c = c ^^^ 0#w
    rw [BitVec.xor_zero]
  | cons bit bits ih =>
    have hlen : bits.length < w := h
    rw [feed_cons, ih _ (Nat.le_of_lt hlen), length_cons, shifts, load, absorb,
      ← BitVec.xor_assoc, shift_xor poly _ (load w bits >>> 1), shift_load poly hlen]

/-! ## Shifting loses nothing -/

section Injective

variable {poly : BitVec w} (hpoly : poly.getLsbD 0 = true)

include hpoly

theorem eq_zero_of_shift_eq_zero {c : BitVec w} (h : shift poly c = 0#w) : c = 0#w := by
  have hw : 0 < w := BitVec.lt_of_getLsbD hpoly
  have hmsb : c.msb = false := by
    cases hm : c.msb with
    | false => rfl
    | true =>
      have hlow : (shift poly c).getLsbD 0 = true := by
        rw [shift, hm, if_pos rfl, BitVec.getLsbD_xor, hpoly]
        simp
      rw [h] at hlow
      simp at hlow
  rw [shift, hmsb, if_neg Bool.false_ne_true] at h
  apply BitVec.eq_of_getLsbD_eq
  intro i hi
  by_cases hlast : i = w - 1
  · rw [hlast, ← BitVec.msb_eq_getLsbD_last, hmsb]
    simp
  · have hup : (c <<< 1).getLsbD (i + 1) = c.getLsbD i := by
      rw [BitVec.getLsbD_shiftLeft, Nat.add_sub_cancel, decide_eq_true (by omega),
        decide_eq_false (by omega), Bool.not_false, Bool.true_and, Bool.true_and]
    rw [← hup, h]
    simp

theorem eq_zero_of_shifts_eq_zero {n : Nat} {c : BitVec w} (h : shifts poly n c = 0#w) : c = 0#w := by
  induction n generalizing c with
  | zero => exact h
  | succ n ih => exact eq_zero_of_shift_eq_zero hpoly (ih h)

theorem shifts_injective {n : Nat} {a b : BitVec w} (h : shifts poly n a = shifts poly n b) : a = b := by
  have hxor : shifts poly n (a ^^^ b) = 0#w := by rw [shifts_xor, h, BitVec.xor_self]
  exact eq_of_xor_eq_zero (eq_zero_of_shifts_eq_zero hpoly hxor)

theorem feed_injective {bits : List Bool} {a b : BitVec w} (h : feed poly a bits = feed poly b bits) : a = b := by
  induction bits generalizing a b with
  | nil => exact h
  | cons bit bits ih =>
    have hshift : shift poly (a ^^^ top w bit) = shift poly (b ^^^ top w bit) := ih h
    have hxor := shifts_injective hpoly (n := 1) hshift
    have hcancel := congrArg (· ^^^ top w bit) hxor
    simp only [BitVec.xor_assoc, BitVec.xor_self, BitVec.xor_zero] at hcancel
    exact hcancel

theorem eq_of_feed_eq (c : BitVec w) {bits bits' : List Bool} (hlen : bits'.length = bits.length)
    (hw : bits.length ≤ w) (h : feed poly c bits = feed poly c bits') : bits = bits' := by
  rw [feed_eq_shifts poly c hw, feed_eq_shifts poly c (by rw [hlen]; exact hw), hlen] at h
  have hload := shifts_injective hpoly h
  have hxor := congrArg (c ^^^ ·) hload
  simp only [← BitVec.xor_assoc, BitVec.xor_self, BitVec.zero_xor] at hxor
  refine ext_getElem hlen.symm fun i hi hi' => ?_
  have hread := getLsbD_load (w := w) bits (w - 1 - i) (by omega)
  have hread' := getLsbD_load (w := w) bits' (w - 1 - i) (by omega)
  have hindex : w - 1 - (w - 1 - i) = i := by omega
  rw [hxor, hread', hindex, List.getElem?_eq_getElem hi, List.getElem?_eq_getElem hi'] at hread
  exact hread.symm

theorem feed_checksum (seed : BitVec w) (bits : List Bool) (checksum : BitVec w) :
    feed poly seed (bits ++ msbFirst checksum) = 0#w ↔ feed poly seed bits = checksum := by
  rw [feed_append, feed_eq_shifts poly _ (Nat.le_of_eq (length_msbFirst checksum)), load_msbFirst_self]
  constructor <;> intro h
  · exact eq_of_xor_eq_zero (eq_zero_of_shifts_eq_zero hpoly h)
  · rw [h, BitVec.xor_self, shifts_zero]

end Injective

/-! ## Error patterns -/

theorem feed_replicate (poly c : BitVec w) (n : Nat) : feed poly c (List.replicate n false) = shifts poly n c := by
  induction n generalizing c with
  | zero => rfl
  | succ n ih =>
    have htop : c ^^^ top w false = c := BitVec.xor_zero
    rw [replicate_succ, feed_cons, absorb, htop, ih, shifts]

/-- **Bursts.**  Errors within `w` consecutive bits are always seen. -/
theorem burst_detected {poly : BitVec w} (hpoly : poly.getLsbD 0 = true) (before after : Nat)
    {burst : List Bool} (hlen : burst.length ≤ w) (herror : true ∈ burst) :
    feed poly 0#w (List.replicate before false ++ burst ++ List.replicate after false) ≠ 0#w := by
  intro hzero
  rw [feed_append, feed_append, feed_replicate, feed_replicate, shifts_zero,
    feed_eq_shifts poly _ hlen, BitVec.zero_xor] at hzero
  have hload := eq_zero_of_shifts_eq_zero hpoly (eq_zero_of_shifts_eq_zero hpoly hzero)
  obtain ⟨i, hi, hbit⟩ := mem_iff_getElem.mp herror
  have hread := getLsbD_load (w := w) burst (w - 1 - i) (by omega)
  have hindex : w - 1 - (w - 1 - i) = i := by omega
  rw [hload, hindex, List.getElem?_eq_getElem hi, hbit] at hread
  simp at hread

/-- Of the register; with an even number of terms, that of what it was fed. -/
def parity (c : BitVec w) : ZMod 2 := ∑ i : Fin w, if c.getLsbD i then 1 else 0

theorem parity_xor (a b : BitVec w) : parity (a ^^^ b) = parity a + parity b := by
  unfold parity
  rw [← Finset.sum_add_distrib]
  refine Finset.sum_congr rfl fun i _ => ?_
  rw [BitVec.getLsbD_xor]
  cases a.getLsbD i <;> cases b.getLsbD i <;> decide

theorem parity_zero : parity 0#w = 0 := by
  unfold parity
  refine Finset.sum_eq_zero fun i _ => ?_
  simp

theorem parity_shiftLeft (c : BitVec (w + 1)) : parity c = parity (c <<< 1) + if c.msb then 1 else 0 := by
  unfold parity
  rw [Fin.sum_univ_castSucc, Fin.sum_univ_succ (n := w) (f := fun i => if (c <<< 1).getLsbD i then 1 else 0)]
  have hlow : (c <<< 1).getLsbD (0 : Fin (w + 1)) = false := by simp
  have hlast : c.getLsbD (Fin.last w) = c.msb := by
    rw [BitVec.msb_eq_getLsbD_last]
    rfl
  rw [hlow, hlast, if_neg Bool.false_ne_true, zero_add]
  congr 1
  refine Finset.sum_congr rfl fun i _ => ?_
  have hup : (c <<< 1).getLsbD i.succ = c.getLsbD i.castSucc := by
    rw [BitVec.getLsbD_shiftLeft, Fin.val_succ, Nat.add_sub_cancel, decide_eq_true (by omega),
      decide_eq_false (by omega), Bool.not_false, Bool.true_and, Bool.true_and]
    rfl
  rw [hup]

theorem top_true (w : Nat) : (top (w + 1) true).msb = true ∧ top (w + 1) true <<< 1 = 0#(w + 1) := by
  constructor
  · rw [BitVec.msb_eq_getLsbD_last, getLsbD_top true _ (by omega)]
    simp
  · apply BitVec.eq_of_getLsbD_eq
    intro i hi
    rw [BitVec.getLsbD_shiftLeft, BitVec.getLsbD_zero]
    cases i with
    | zero => simp
    | succ i =>
      rw [Nat.add_sub_cancel, getLsbD_top true i (by omega), decide_eq_false (by omega : ¬ i = w + 1 - 1),
        Bool.and_false, Bool.and_false]

section Parity

variable {poly : BitVec w} (hparity : parity poly = 1)

include hparity

theorem width_pos_of_parity : 0 < w := by
  cases w with
  | zero =>
    have hempty : parity poly = 0 := Fin.sum_univ_zero _
    rw [hempty] at hparity
    exact absurd hparity (by decide)
  | succ w => exact Nat.succ_pos w

theorem parity_shift (c : BitVec w) : parity (shift poly c) = parity c := by
  have hw := width_pos_of_parity hparity
  cases w with
  | zero => cases hw
  | succ w =>
    rw [parity_shiftLeft c, shift]
    cases c.msb with
    | false => rw [if_neg Bool.false_ne_true, if_neg Bool.false_ne_true, add_zero]
    | true => rw [if_pos rfl, if_pos rfl, parity_xor, hparity]

theorem parity_top (bit : Bool) : parity (top w bit) = if bit then 1 else 0 := by
  cases bit with
  | false => exact parity_zero
  | true =>
    have hw := width_pos_of_parity hparity
    cases w with
    | zero => cases hw
    | succ w =>
      rw [parity_shiftLeft, (top_true w).1, (top_true w).2, parity_zero, zero_add]

theorem parity_feed (c : BitVec w) (bits : List Bool) :
    parity (feed poly c bits) = parity c + (bits.count true : ZMod 2) := by
  induction bits generalizing c with
  | nil => rw [feed_nil, count_nil, Nat.cast_zero, add_zero]
  | cons bit bits ih =>
    rw [feed_cons, ih, absorb, parity_shift hparity, parity_xor, parity_top hparity]
    cases bit with
    | false => rw [if_neg Bool.false_ne_true, add_zero, List.count_cons_of_ne Bool.false_ne_true]
    | true =>
      rw [if_pos rfl, List.count_cons_self, Nat.cast_succ, add_assoc, add_comm (1 : ZMod 2)]

/-- **Odd numbers of errors** are always seen. -/
theorem odd_detected {errors : List Bool} (hodd : errors.count true % 2 = 1) : feed poly 0#w errors ≠ 0#w := by
  intro hzero
  have hfeed := parity_feed hparity 0#w errors
  have hcast : (errors.count true : ZMod 2) = 1 := by
    rw [← Nat.mod_add_div (errors.count true) 2, hodd]
    push_cast
    rw [show (2 : ZMod 2) = 0 from rfl, zero_mul, add_zero]
  rw [hzero, parity_zero, hcast, zero_add] at hfeed
  exact absurd hfeed (by decide)

end Parity

/-! ## Few errors -/

theorem exists_first_error {errors : List Bool} (h : true ∈ errors) :
    ∃ before rest, errors = List.replicate before false ++ true :: rest := by
  induction errors with
  | nil => cases h
  | cons bit bits ih =>
    cases bit with
    | true => exact ⟨0, bits, rfl⟩
    | false =>
      obtain ⟨before, rest, hrest⟩ := ih ((mem_cons.mp h).resolve_left (by decide))
      exact ⟨before + 1, rest, by rw [hrest]; rfl⟩

theorem eq_replicate_of_count_eq_zero (h : bits.count true = 0) : bits = List.replicate bits.length false := by
  rw [eq_replicate_iff]
  refine ⟨rfl, fun bit hbit => ?_⟩
  cases bit with
  | false => rfl
  | true => exact absurd hbit (count_eq_zero.mp h)

/-- What a polynomial needs to see up to three errors in messages of at most `length` bits. -/
structure Sound (poly : BitVec w) (length : Nat) : Prop where
  constant : poly.getLsbD 0 = true
  even : parity poly = 1
  period : ∀ n, 0 < n → n < length → shifts poly n poly ≠ poly

section Sound

variable {poly : BitVec w} {length : Nat} (h : Sound poly length)

include h

theorem absorb_true (c : BitVec w) : absorb poly c true = shift poly c ^^^ poly := by
  have hw := width_pos_of_parity h.even
  rw [absorb, shift_xor]
  cases w with
  | zero => cases hw
  | succ w =>
    congr 1
    rw [shift, (top_true w).1, (top_true w).2, if_pos rfl, BitVec.zero_xor]

/-- **Two errors** are seen within the period of the polynomial. -/
theorem double_detected {errors : List Bool} (hcount : errors.count true = 2)
    (hlen : errors.length ≤ length) : feed poly 0#w errors ≠ 0#w := by
  have hfirst : 0 < errors.count true := by omega
  obtain ⟨before, rest, rfl⟩ := exists_first_error (count_pos_iff.mp hfirst)
  have hrest : rest.count true = 1 := by
    rw [count_append, count_replicate, List.count_cons_self] at hcount
    simpa using hcount
  have hsecond : 0 < rest.count true := by omega
  obtain ⟨between, rest, rfl⟩ := exists_first_error (count_pos_iff.mp hsecond)
  have hlast : rest.count true = 0 := by
    rw [count_append, count_replicate, List.count_cons_self] at hrest
    simpa using hrest
  rw [eq_replicate_of_count_eq_zero hlast]
  simp only [length_append, length_replicate, length_cons] at hlen
  intro hzero
  rw [feed_append, feed_replicate, shifts_zero, feed_cons, absorb_true h, shift_zero, BitVec.zero_xor,
    feed_append, feed_replicate, feed_cons, feed_replicate, absorb_true h, ← shifts_succ'] at hzero
  have hperiod := eq_of_xor_eq_zero (eq_zero_of_shifts_eq_zero h.constant hzero)
  exact h.period (between + 1) (Nat.succ_pos between) (by omega) hperiod

/-- **One, two or three errors** are always seen. -/
theorem flips_detected {errors : List Bool} (hsome : 1 ≤ errors.count true)
    (hfew : errors.count true ≤ 3) (hlen : errors.length ≤ length) : feed poly 0#w errors ≠ 0#w := by
  by_cases htwo : errors.count true = 2
  · exact double_detected h htwo hlen
  · exact odd_detected h.even (by omega)

end Sound

end Crc
