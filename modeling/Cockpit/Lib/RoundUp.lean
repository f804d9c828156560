/-
  Rounding up to a multiple, on numbers and on machine words.
-/
import Mathlib.Algebra.Group.Nat.Defs

namespace RoundUp

/-- The next multiple of `a`. -/
def roundUp (n a : Nat) : Nat := (n + (a - 1)) / a * a

theorem le_roundUp (n : Nat) {a : Nat} (ha : 0 < a) : n ≤ roundUp n a := by
  have hdiv := Nat.div_add_mod (n + (a - 1)) a
  have hmod := Nat.mod_lt (n + (a - 1)) ha
  rw [Nat.mul_comm] at hdiv
  unfold roundUp
  omega

theorem roundUp_mod (n a : Nat) : roundUp n a % a = 0 := Nat.mul_mod_left _ _

theorem roundUp_of_mod {n a : Nat} (ha : 0 < a) (h : n % a = 0) : roundUp n a = n := by
  obtain ⟨k, rfl⟩ := Nat.dvd_of_mod_eq_zero h
  unfold roundUp
  rw [Nat.mul_add_div ha, Nat.div_eq_of_lt (by omega), Nat.add_zero, Nat.mul_comm]

/-- A mask does it for a power of two, as long as the sum does not wrap. -/
theorem and_mask {x k w : Nat} (hk : k ≤ w) (hx : x < 2 ^ w) : x &&& (2 ^ w - 2 ^ k) = x / 2 ^ k * 2 ^ k := by
  have hpos : 0 < 2 ^ k := Nat.two_pow_pos k
  have hle : 2 ^ k ≤ 2 ^ w := Nat.pow_le_pow_right (by decide) hk
  have hsub : 2 ^ w - 2 ^ k = 2 ^ w - (2 ^ k - 1 + 1) := by omega
  apply Nat.eq_of_testBit_eq
  intro i
  rw [Nat.testBit_and, hsub, Nat.testBit_two_pow_sub_succ (by omega), Nat.testBit_two_pow_sub_one,
    Nat.testBit_mul_two_pow, Nat.testBit_div_two_pow]
  by_cases hlow : i < k
  · simp [hlow, Nat.not_le.2 hlow]
  · have hback : i - k + k = i := by omega
    by_cases hhigh : i < w
    · simp [hlow, hhigh, hback, Nat.not_lt.1 hlow]
    · have hbit : x.testBit i = false :=
        Nat.testBit_lt_two_pow (Nat.lt_of_lt_of_le hx (Nat.pow_le_pow_right (by decide) (by omega)))
      simp [hbit, hback]

end RoundUp
