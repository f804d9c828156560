/-
  Counters of 64 bits that are only ever counted up, and the slots of a ring that they address. A counter is
  `UInt64.ofNat n` for the number `n` of times it was counted up: it wraps, and `n` does not.
-/
import Mathlib.Algebra.Group.Nat.Defs

namespace RingIndex

theorem isPowerOfTwo_of_and {size : UInt64} (hpos : size ≠ 0) (h : size &&& (size - 1) = 0) :
    size.toNat.isPowerOfTwo := by
  have hone : 1 ≤ size.toNat := by
    rcases Nat.eq_zero_or_pos size.toNat with hzero | hone
    · exact absurd (UInt64.toNat_inj.mp hzero) hpos
    · exact hone
  have hsub : (size - 1).toNat = size.toNat - 1 :=
    UInt64.toNat_sub_of_le size 1 (UInt64.le_iff_toNat_le.mpr hone)
  have hbits : size.toNat &&& (size.toNat - 1) = 0 := by
    rw [← hsub, ← UInt64.toNat_and, h]
    rfl
  exact (Nat.and_sub_one_eq_zero_iff_isPowerOfTwo (by omega)).mp hbits

variable {a b n m start : Nat} {size : UInt64}

/-- The difference of two counters is that of the numbers, as long as it fits. -/
theorem toNat_ofNat_sub (hle : b ≤ a) (hfits : a - b < 2 ^ 64) : (UInt64.ofNat a - UInt64.ofNat b).toNat = a - b := by
  rw [UInt64.toNat_sub, UInt64.toNat_ofNat', UInt64.toNat_ofNat']
  omega

theorem ofNat_add_one (n : Nat) : UInt64.ofNat n + 1 = UInt64.ofNat (n + 1) := by
  refine UInt64.toNat_inj.mp ?_
  rw [UInt64.toNat_add, UInt64.toNat_ofNat', UInt64.toNat_ofNat', UInt64.toNat_one]
  omega

/-- **The low bits of a counter are the slot.** -/
theorem toNat_and_sub_one (hpos : size ≠ 0) (h : size &&& (size - 1) = 0) (n : Nat) :
    (UInt64.ofNat n &&& (size - 1)).toNat = n % size.toNat := by
  obtain ⟨k, hk⟩ := isPowerOfTwo_of_and hpos h
  have hlt := size.toNat_lt
  have hone := Nat.one_le_two_pow (n := k)
  have hsub : (size - 1).toNat = size.toNat - 1 :=
    UInt64.toNat_sub_of_le size 1 (UInt64.le_iff_toNat_le.mpr (by rw [hk]; exact hone))
  have hk64 : k < 64 := by
    rw [hk] at hlt
    exact (Nat.pow_lt_pow_iff_right (by decide)).mp hlt
  rw [UInt64.toNat_and, hsub, hk, Nat.and_two_pow_sub_one_eq_mod, UInt64.toNat_ofNat']
  exact Nat.mod_mod_of_dvd n (Nat.pow_dvd_pow 2 (by omega))

/-- Two numbers less than one turn apart have different slots. -/
theorem slot_inj {size : Nat} (hn : start ≤ n ∧ n < start + size) (hm : start ≤ m ∧ m < start + size)
    (h : n % size = m % size) : n = m := by
  have key : ∀ {a b : Nat}, a ≤ b → b < a + size → a % size = b % size → a = b := by
    intro a b hle hlt heq
    have hturn := Nat.sub_mod_eq_zero_of_mod_eq heq.symm
    rw [Nat.mod_eq_of_lt (by omega)] at hturn
    omega
  rcases Nat.le_total n m with hle | hle
  · exact key hle (by omega) h
  · exact (key hle (by omega) h.symm).symm

end RingIndex
