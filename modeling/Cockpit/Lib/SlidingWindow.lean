/-
  A budget of events within a sliding window of time.
-/

namespace SlidingWindow

open List

variable {window limit now later : Int} {log times : List Int}

/-- Within the closed window from `start` on. -/
def inWindow (window start t : Int) : Bool := start ≤ t && t ≤ start + window

/-- Within the window that ends now. -/
def recent (window now t : Int) : Bool := now ≤ t + window

/-- Drop from the front what has left the window that ends now. -/
def dropOld (window now : Int) (times : List Int) : List Int :=
  times.dropWhile fun t => window < now - t

/-- Every closed window, wherever it starts, holds at most `limit` events. -/
def Within (window limit : Int) (log : List Int) : Prop :=
  ∀ start, ((log.filter (inWindow window start)).length : Int) ≤ limit

theorem within_nil (h : 0 ≤ limit) : Within window limit [] := fun _ => h

theorem filter_recent_of_le (h : now ≤ later) (log : List Int) :
    (log.filter (recent window now)).filter (recent window later) = log.filter (recent window later) := by
  rw [filter_filter]
  refine filter_congr fun t _ => ?_
  unfold recent
  rw [Bool.eq_iff_iff, Bool.and_eq_true, decide_eq_true_iff, decide_eq_true_iff]
  omega

theorem filter_recent_sublist_dropOld (times : List Int) :
    (times.filter (recent window now)).Sublist (dropOld window now times) := by
  induction times with
  | nil => exact List.Sublist.refl _
  | cons t times ih =>
    unfold dropOld at ih ⊢
    by_cases hold : window < now - t
    · have hnot : ¬recent window now t = true := by
        unfold recent
        rw [decide_eq_true_iff]
        omega
      rw [filter_cons_of_neg hnot, dropWhile_cons_of_pos (by simpa using hold)]
      exact ih
    · rw [dropWhile_cons_of_neg (by simpa using hold)]
      exact filter_sublist

theorem recent_sublist_dropOld (h : (log.filter (recent window now)).Sublist times) (hlater : now ≤ later) :
    (log.filter (recent window later)).Sublist (dropOld window later times) := by
  have hfilter := h.filter (recent window later)
  rw [filter_recent_of_le hlater] at hfilter
  exact hfilter.trans (filter_recent_sublist_dropOld times)

theorem recent_sublist_of_le (h : (log.filter (recent window now)).Sublist times)
    (hlater : now ≤ later) : (log.filter (recent window later)).Sublist times := by
  have hfilter := h.filter (recent window later)
  rw [filter_recent_of_le hlater] at hfilter
  exact hfilter.trans filter_sublist

theorem recent_snoc (hwindow : 0 ≤ window) (log : List Int) :
    (log ++ [now]).filter (recent window now) = log.filter (recent window now) ++ [now] := by
  have hnow : recent window now now = true := by
    unfold recent
    rw [decide_eq_true_iff]
    omega
  rw [filter_append, filter_cons_of_pos hnow, filter_nil]

/-- Fewer than `limit` are left in the window that ends now, so one more may be admitted. -/
theorem Within.snoc (h : Within window limit log)
    (hrecent : ((log.filter (recent window now)).length : Int) < limit) : Within window limit (log ++ [now]) := by
  intro start
  have hbefore := h start
  rw [filter_append, length_append]
  by_cases hnow : inWindow window start now = true
  · -- the window holds `now`, so what it holds of the log is recent
    have hsub : (log.filter (inWindow window start)).length ≤
        (log.filter (recent window now)).length := by
      rw [← countP_eq_length_filter, ← countP_eq_length_filter]
      refine countP_mono_left fun t _ ht => ?_
      unfold inWindow at hnow ht
      unfold recent
      rw [Bool.and_eq_true, decide_eq_true_iff, decide_eq_true_iff] at hnow ht
      rw [decide_eq_true_iff]
      omega
    rw [filter_cons_of_pos hnow, filter_nil, length_singleton]
    omega
  · rw [filter_cons_of_neg hnow, filter_nil, length_nil]
    omega

end SlidingWindow
