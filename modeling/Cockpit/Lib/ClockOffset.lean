/-
  One clock read through another: the least offset seen so far.

  A sample `n` is taken at `d n` on the device's clock and received at `r n` on the host's.  Every sample
  arrives after it was taken, so `r j - d j` overestimates the offset of the clocks by the delay of sample `j`,
  and the least of them is the best estimate that the samples up to `n` allow.
-/
import Mathlib.Algebra.Order.Group.Defs
import Mathlib.Algebra.Order.Monoid.Unbundled.MinMax
import Mathlib.Order.Interval.Finset.Nat

namespace ClockOffset

variable {G : Type*} [AddCommGroup G] [LinearOrder G]

/-- The least offset of the samples up to `n`. -/
def offset (d r : ℕ → G) (n : ℕ) : G :=
  (Finset.range (n + 1)).inf' ⟨0, Finset.mem_range.mpr n.succ_pos⟩ fun j => r j - d j

/-- Sample `n` on the host's clock under the least offset. -/
def estimate (d r : ℕ → G) (n : ℕ) : G := d n + offset d r n

variable {d r : ℕ → G}

@[simp] theorem offset_zero : offset d r 0 = r 0 - d 0 := by
  simp [offset]

/-- The recursion that an implementation computes. -/
theorem offset_succ (n : ℕ) : offset d r (n + 1) = min (offset d r n) (r (n + 1) - d (n + 1)) := by
  unfold offset
  rw [min_comm]
  simp only [Finset.range_add_one (n := n + 1)]
  exact Finset.inf'_insert _ _

theorem offset_le {n j : ℕ} (h : j ≤ n) : offset d r n ≤ r j - d j :=
  Finset.inf'_le (fun j => r j - d j) (Finset.mem_range.mpr (Nat.lt_succ_of_le h))

theorem offset_succ_le (n : ℕ) : offset d r (n + 1) ≤ offset d r n := by
  rw [offset_succ]
  exact min_le_left _ _

variable [IsOrderedAddMonoid G]

/-- The estimate is never later than the receive time. -/
theorem estimate_le (n : ℕ) : estimate d r n ≤ r n := by
  have h : offset d r n ≤ r n - d n := offset_le le_rfl
  exact le_sub_iff_add_le'.mp h

/-- It never advances faster than the device's clock. -/
theorem estimate_advance (n : ℕ) : estimate d r (n + 1) - estimate d r n ≤ d (n + 1) - d n := by
  have h := offset_succ_le (d := d) (r := r) n
  unfold estimate
  rw [add_sub_add_comm]
  exact add_le_of_nonpos_right (sub_nonpos.mpr h)

/-- It never goes back where neither clock does. -/
theorem estimate_mono {n : ℕ} (hd : d n ≤ d (n + 1)) (hr : r n ≤ r (n + 1)) :
    estimate d r n ≤ estimate d r (n + 1) := by
  have hsucc : estimate d r (n + 1) = min (d (n + 1) + offset d r n) (r (n + 1)) := by
    unfold estimate
    rw [offset_succ, ← min_add_add_left, add_sub_cancel]
  rw [hsucc]
  exact le_min (add_le_add_left hd _) ((estimate_le n).trans hr)

end ClockOffset
