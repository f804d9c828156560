/-
  Unsigned numbers in little-endian bytes, written to and read from a buffer.
-/
import Mathlib.Algebra.Group.Nat.Defs

namespace LittleEndian

open List

/-- The number in `k` bytes, least significant first. -/
def put : Nat → Nat → List UInt8
  | 0, _ => []
  | k + 1, n => UInt8.ofNat n :: put k (n / 256)

/-- Read bytes back. -/
def get : List UInt8 → Nat
  | [] => 0
  | byte :: bytes => byte.toNat + 256 * get bytes

@[simp] theorem length_put (k n : Nat) : (put k n).length = k := by
  induction k generalizing n with
  | zero => rfl
  | succ k ih => rw [put, length_cons, ih]

theorem get_put_mod (k n : Nat) : get (put k n) = n % 256 ^ k := by
  induction k generalizing n with
  | zero => rw [put, get, Nat.pow_zero, Nat.mod_one]
  | succ k ih =>
    have hbyte : (UInt8.ofNat n).toNat = n % 256 := UInt8.toNat_ofNat
    rw [put, get, ih, hbyte, Nat.pow_succ, Nat.mul_comm (256 ^ k), Nat.mod_mul]

variable {k : Nat}

variable {n : Nat}

theorem get_put (h : n < 256 ^ k) : get (put k n) = n := by
  rw [get_put_mod, Nat.mod_eq_of_lt h]

theorem get_lt (bytes : List UInt8) : get bytes < 256 ^ bytes.length := by
  induction bytes with
  | nil => exact Nat.one_pos
  | cons byte bytes ih =>
    have hbyte : byte.toNat < 256 := byte.toNat_lt
    rw [get, length_cons, Nat.pow_succ]
    omega

theorem put_get (bytes : List UInt8) : put bytes.length (get bytes) = bytes := by
  induction bytes with
  | nil => rfl
  | cons byte bytes ih =>
    have hbyte : byte.toNat < 256 := byte.toNat_lt
    have hlow : UInt8.ofNat (byte.toNat + 256 * get bytes) = byte := by
      apply UInt8.toNat_inj.1
      rw [UInt8.toNat_ofNat']
      omega
    have hhigh : (byte.toNat + 256 * get bytes) / 256 = get bytes := by omega
    rw [length_cons, get, put, hlow, hhigh, ih]

theorem get_append (first second : List UInt8) :
    get (first ++ second) = get first + 256 ^ first.length * get second := by
  induction first with
  | nil => simp [get]
  | cons byte bytes ih =>
    rw [cons_append, get, get, ih, length_cons, Nat.pow_succ, Nat.mul_add,
      Nat.mul_comm (256 ^ bytes.length) 256, Nat.mul_assoc, Nat.add_assoc]

theorem put_succ_last (k n : Nat) : put (k + 1) n = put k n ++ [UInt8.ofNat (n / 256 ^ k)] := by
  induction k generalizing n with
  | zero => simp [put]
  | succ k ih =>
    rw [put, ih, put, cons_append, Nat.div_div_eq_div_mul, ← Nat.pow_succ']

/-! ## The loops -/

/-- One byte at a time, by shifts, at an offset. -/
def write (width : Nat) (buffer : List UInt8) (offset value : Nat) : List UInt8 :=
  (List.range width).foldl
    (fun buffer byte => buffer.set (offset + byte) (UInt8.ofNat ((value >>> (byte * 8)) &&& 0xff))) buffer

/-- As `write`. -/
def read (width : Nat) (buffer : List UInt8) (offset : Nat) : Nat :=
  (List.range width).foldl
    (fun value byte => value ||| (buffer.getD (offset + byte) 0).toNat <<< (byte * 8)) 0

theorem ofNat_mask (n : Nat) : UInt8.ofNat (n &&& 0xff) = UInt8.ofNat n := by
  apply UInt8.toNat_inj.1
  rw [UInt8.toNat_ofNat', UInt8.toNat_ofNat', Nat.and_two_pow_sub_one_eq_mod n 8]
  exact Nat.mod_mod _ _

theorem write_append (before old after : List UInt8) (value : Nat) :
    write old.length (before ++ (old ++ after)) before.length value = before ++ (put old.length value ++ after) := by
  suffices h : ∀ k, ∀ old after : List UInt8, old.length = k →
      write k (before ++ (old ++ after)) before.length value = before ++ (put k value ++ after) from
    h _ old after rfl
  intro k
  induction k with
  | zero =>
    intro old after hold
    rw [List.length_eq_zero_iff.1 hold]
    rfl
  | succ k ih =>
    -- the last byte is written behind the others, which are there by the induction
    intro old after hold
    obtain ⟨first, last, rfl⟩ : ∃ first last, old = first ++ [last] := by
      refine ⟨old.dropLast, old.getLast ?_, (dropLast_concat_getLast ?_).symm⟩ <;>
        exact ne_nil_of_length_pos (by omega)
    have hfirst : first.length = k := by simpa using hold
    have hshift : value >>> (k * 8) = value / 256 ^ k := by
      rw [Nat.shiftRight_eq_div_pow, Nat.mul_comm, Nat.pow_mul]
    have hprev := ih first (last :: after) hfirst
    unfold write at hprev ⊢
    rw [range_succ, foldl_append, append_assoc, singleton_append, hprev,
      foldl_cons, foldl_nil, ofNat_mask, hshift, put_succ_last,
      set_append_right _ _ (Nat.le_add_right _ _), Nat.add_sub_cancel_left,
      set_append_right _ _ (Nat.le_of_eq (length_put k value)), length_put, Nat.sub_self,
      set_cons_zero, append_assoc, singleton_append]

variable {offset : Nat}

theorem write_next {before : List UInt8} {width : Nat} (value : Nat) (hwidth : width ≤ n)
    (hoffset : before.length = offset) :
    write width (before ++ List.replicate n 0) offset value =
      (before ++ put width value) ++ List.replicate (n - width) 0 := by
  have hzeros : List.replicate n (0 : UInt8) =
      List.replicate width 0 ++ List.replicate (n - width) 0 := by
    rw [replicate_append_replicate, Nat.add_sub_cancel' hwidth]
  have hwrite := write_append before (List.replicate width 0) (List.replicate (n - width) 0) value
  rw [length_replicate, hoffset] at hwrite
  rw [hzeros, hwrite, append_assoc]

theorem read_eq {buffer : List UInt8} (h : offset + k ≤ buffer.length) :
    read k buffer offset = get ((buffer.drop offset).take k) := by
  induction k with
  | zero => rfl
  | succ k ih =>
    have hbound : offset + k < buffer.length := h
    have hprev := ih (Nat.le_of_lt hbound)
    have hlast : (buffer.drop offset).take (k + 1) = (buffer.drop offset).take k ++ [buffer[offset + k]] := by
      rw [take_add_one, List.getElem?_drop, List.getElem?_eq_getElem hbound]
      rfl
    have hlen : ((buffer.drop offset).take k).length = k := by
      rw [length_take, length_drop]
      omega
    have hlt : get ((buffer.drop offset).take k) < 2 ^ (k * 8) := by
      have := get_lt ((buffer.drop offset).take k)
      rwa [hlen, show 256 = 2 ^ 8 from rfl, ← Nat.pow_mul, Nat.mul_comm] at this
    have hpow : 256 ^ k = 2 ^ (k * 8) := by rw [Nat.mul_comm, Nat.pow_mul]
    have hbyte : buffer.getD (offset + k) 0 = buffer[offset + k] := by
      rw [getD_eq_getElem?_getD, List.getElem?_eq_getElem hbound]
      rfl
    unfold read at hprev ⊢
    rw [range_succ, foldl_append, hprev, foldl_cons, foldl_nil, hlast,
      get_append, hlen, hbyte, Nat.shiftLeft_eq, hpow, Nat.mul_comm _ (2 ^ (k * 8)), Nat.or_comm,
      ← Nat.two_pow_add_eq_or_of_lt hlt, Nat.add_comm]
    rfl

/-! ## Fields -/

/-- `get` at an offset. -/
def field (bytes : List UInt8) (start length : Nat) : Nat := get ((bytes.drop start).take length)

/-- Numbers one behind the other, each with its width. -/
def row (numbers : List (Nat × Nat)) : List UInt8 := numbers.flatMap fun number => put number.1 number.2

theorem field_append {before after : List UInt8} (h : n < 256 ^ k) (hoffset : before.length = offset) :
    field (before ++ (put k n ++ after)) offset k = n := by
  rw [field, drop_left' hoffset, take_left' (length_put k n), get_put h]

/-- A number of the row is found behind those in front of it. -/
theorem field_row {numbers : List (Nat × Nat)} (i : Nat) (after : List UInt8) (hnum : numbers[i]? = some (k, n))
    (hoffset : (row (numbers.take i)).length = offset) (h : n < 256 ^ k) :
    field (row numbers ++ after) offset k = n := by
  obtain ⟨hi, hget⟩ := List.getElem?_eq_some_iff.1 hnum
  have hsplit : numbers = numbers.take i ++ (k, n) :: numbers.drop (i + 1) := by
    rw [← hget, ← drop_eq_getElem_cons hi, take_append_drop]
  have hrow : row numbers = row (numbers.take i) ++ (put k n ++ row (numbers.drop (i + 1))) := by
    rw [row, hsplit, flatMap_append, flatMap_cons, ← hsplit]
    rfl
  rw [hrow, append_assoc, append_assoc]
  exact field_append h hoffset

variable {bytes : List UInt8}

variable {start : Nat}

theorem put_field (h : start + k ≤ bytes.length) : put k (field bytes start k) = (bytes.drop start).take k := by
  have hlen : ((bytes.drop start).take k).length = k := by
    rw [length_take, length_drop]
    omega
  have := put_get ((bytes.drop start).take k)
  rwa [hlen] at this

theorem field_lt (h : start + k ≤ bytes.length) : field bytes start k < 256 ^ k := by
  have hlen : ((bytes.drop start).take k).length = k := by
    rw [length_take, length_drop]
    omega
  have := get_lt ((bytes.drop start).take k)
  rwa [hlen] at this

def fieldsFrom (bytes : List UInt8) : Nat → List Nat → List (Nat × Nat)
  | _, [] => []
  | start, k :: widths => (k, field bytes start k) :: fieldsFrom bytes (start + k) widths

theorem row_fieldsFrom {widths : List Nat} (hn : (row (fieldsFrom bytes start widths)).length = n)
    (h : start + n ≤ bytes.length) : row (fieldsFrom bytes start widths) = (bytes.drop start).take n := by
  induction widths generalizing start n with
  | nil =>
    obtain rfl : 0 = n := hn
    rw [take_zero]
    rfl
  | cons k widths ih =>
    have hrow : row (fieldsFrom bytes start (k :: widths)) =
        put k (field bytes start k) ++ row (fieldsFrom bytes (start + k) widths) := flatMap_cons
    rw [hrow, length_append, length_put] at hn
    rw [hrow, put_field (by omega), ih rfl (by omega), ← hn, take_add, drop_drop]

end LittleEndian
