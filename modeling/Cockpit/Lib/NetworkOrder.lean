/-
  Unsigned numbers in network byte order.
-/
import Mathlib.Algebra.Group.Nat.Defs

namespace NetworkOrder

/-- The number in `k` bytes, most significant first; of one that does not fit, the low `k` bytes. -/
def put : Nat → Nat → List UInt8
  | 0, _ => []
  | k + 1, n => UInt8.ofNat (n / 256 ^ k) :: put k n

/-- Read bytes back. -/
def get : List UInt8 → Nat
  | [] => 0
  | byte :: bytes => byte.toNat * 256 ^ bytes.length + get bytes

/-- `get` at an offset, as the reader of a hand-written header looks at it. -/
def field (bytes : List UInt8) (start length : Nat) : Nat := get ((bytes.drop start).take length)

@[simp] theorem length_put (k n : Nat) : (put k n).length = k := by
  induction k with
  | zero => rfl
  | succ k ih => rw [put, List.length_cons, ih]

theorem get_put_mod (k n : Nat) : get (put k n) = n % 256 ^ k := by
  induction k with
  | zero => rw [put, get, Nat.pow_zero, Nat.mod_one]
  | succ k ih =>
    have hbyte : (UInt8.ofNat (n / 256 ^ k)).toNat = n / 256 ^ k % 256 := UInt8.toNat_ofNat
    rw [put, get, ih, length_put, hbyte, Nat.mod_pow_succ, Nat.add_comm, Nat.mul_comm]

theorem get_lt (bytes : List UInt8) : get bytes < 256 ^ bytes.length := by
  induction bytes with
  | nil => exact Nat.one_pos
  | cons byte bytes ih =>
    have hbyte : byte.toNat ≤ 255 := Nat.le_of_lt_succ byte.toNat_lt
    have hhigh : byte.toNat * 256 ^ bytes.length ≤ 255 * 256 ^ bytes.length :=
      Nat.mul_le_mul_right _ hbyte
    rw [get, List.length_cons, Nat.pow_succ]
    omega

theorem get_put {k n : Nat} (h : n < 256 ^ k) : get (put k n) = n := by
  rw [get_put_mod, Nat.mod_eq_of_lt h]

/-- A field is found where it was put. -/
theorem field_append {k n start : Nat} {before after : List UInt8} (h : n < 256 ^ k)
    (hstart : before.length = start) : field (before ++ (put k n ++ after)) start k = n := by
  rw [field, List.drop_left' hstart, List.take_left' (length_put k n), get_put h]

end NetworkOrder
