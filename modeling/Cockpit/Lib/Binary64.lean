/-
  IEEE 754 binary64 values and the few operations on them that integer-scaling code uses.

  Every finite binary64 value is an integer multiple of the smallest subnormal `2^-1074`.  Products are then exact
  integers before the single rounding.  The sign of zero is not kept: no operation below can tell the two zeros
  apart.
-/
import Mathlib.Algebra.Group.Nat.Defs

namespace Ieee754

/-! ## Values -/

/-- The distance of the neighbours of `n`, as a power of two, with 53 bits of significand. -/
def quantum (n : Nat) : Nat := n.log2 - 52

/-- A multiple of its quantum that is in range. -/
def Representable (n : Nat) : Prop := 2 ^ quantum n ∣ n ∧ n < 2 ^ 2098

/-- A finite value is carried as its `units` of `2^-1074`, with the proof that it is representable. -/
inductive Binary64 where
  | nan
  | infinity (negative : Bool)
  | finite (units : Int) (h : Representable units.natAbs)
  deriving DecidableEq

namespace Binary64

def isFinite : Binary64 → Bool
  | finite _ _ => true
  | _ => false

def isZero : Binary64 → Bool
  | finite units _ => units = 0
  | _ => false

def lt : Binary64 → Binary64 → Bool
  | finite a _, finite b _ => a < b
  | finite _ _, infinity negative => !negative
  | infinity negative, finite _ _ => negative
  | infinity a, infinity b => a && !b
  | _, _ => false

/-! ## Rounding -/

/-- `n / 2^k` to the nearest integer, ties to even. -/
def roundHalfEven (n k : Nat) : Nat :=
  let q := n / 2 ^ k
  let r := n % 2 ^ k
  if 2 * r < 2 ^ k then q else if 2 ^ k < 2 * r then q + 1 else q + q % 2

/-- How far the significand of `n` is shifted, `k` at least. -/
def shift (n k : Nat) : Nat := max k (n.log2 - 52)

/-- `n` in units of `2^k`, rounded to what is representable. -/
def roundUnits (n k : Nat) : Nat := roundHalfEven n (shift n k) * 2 ^ (shift n k - k)

theorem roundHalfEven_le (n k : Nat) : roundHalfEven n k ≤ n / 2 ^ k + 1 := by
  unfold roundHalfEven
  dsimp only
  split
  · omega
  · split <;> omega

theorem roundHalfEven_shift_le (n k : Nat) : roundHalfEven n (shift n k) ≤ 2 ^ 53 := by
  have hlt : n / 2 ^ shift n k < 2 ^ 53 := by
    rw [Nat.div_lt_iff_lt_mul (Nat.two_pow_pos _), ← Nat.pow_add]
    refine Nat.lt_of_lt_of_le Nat.lt_log2_self (Nat.pow_le_pow_right (by omega) ?_)
    unfold shift
    omega
  have := roundHalfEven_le n (shift n k)
  omega

theorem quantum_dvd_of_le (m e : Nat) (hm : m ≤ 2 ^ 53) : 2 ^ quantum (m * 2 ^ e) ∣ m * 2 ^ e := by
  unfold quantum
  rcases Nat.eq_zero_or_pos m with rfl | hpos
  · simp
  · have hne : m * 2 ^ e ≠ 0 := Nat.mul_ne_zero (by omega) (Nat.ne_of_gt (Nat.two_pow_pos e))
    rcases Nat.lt_or_eq_of_le hm with hlt | rfl
    · have hlog : (m * 2 ^ e).log2 < 53 + e := by
        rw [Nat.log2_lt hne, Nat.pow_add]
        exact Nat.mul_lt_mul_of_pos_right hlt (Nat.two_pow_pos e)
      exact Nat.dvd_trans (Nat.pow_dvd_pow 2 (by omega)) (Nat.dvd_mul_left _ _)
    · have hlog : (2 ^ 53 * 2 ^ e).log2 < 54 + e := by
        rw [Nat.log2_lt hne, ← Nat.pow_add]
        exact Nat.pow_lt_pow_right (by omega) (by omega)
      rw [← Nat.pow_add] at hlog ⊢
      exact Nat.pow_dvd_pow 2 (by omega)

/-- The single rounding: to nearest, ties to even, overflow to infinity. -/
def ofUnits (negative : Bool) (n k : Nat) : Binary64 :=
  if h : roundUnits n k < 2 ^ 2098 then
    finite (if negative then -(roundUnits n k : Int) else roundUnits n k) (by
      have habs : (if negative then -(roundUnits n k : Int) else roundUnits n k).natAbs
          = roundUnits n k := by split <;> omega
      rw [habs]
      exact ⟨quantum_dvd_of_le _ _ (roundHalfEven_shift_le n k), h⟩)
  else infinity negative

/-! ## Operations -/

/-- The conversion of an integer. -/
def ofInt (i : Int) : Binary64 := ofUnits (i < 0) (i.natAbs * 2 ^ 1074) 0

/-- The product, rounded once. -/
def mul : Binary64 → Binary64 → Binary64
  | finite a _, finite b _ => ofUnits (a * b < 0) (a * b).natAbs 1074
  | finite a _, infinity negative => if a = 0 then nan else infinity (negative ^^ (a < 0))
  | infinity negative, finite b _ => if b = 0 then nan else infinity (negative ^^ (b < 0))
  | infinity a, infinity b => infinity (a ^^ b)
  | _, _ => nan

/-- Half away from zero; of what is no number or out of range the result is not specified, and taken as 0. -/
def llround : Binary64 → Int
  | finite units _ =>
    let magnitude : Nat := (units.natAbs + 2 ^ 1073) / 2 ^ 1074
    if units < 0 then -(magnitude : Int) else magnitude
  | _ => 0

end Binary64

end Ieee754
