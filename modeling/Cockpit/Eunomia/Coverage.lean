/-
  What a set of frames covers. It does not depend on their order, nor on how often one comes; the logarithms of
  a scale are those of a cube and a square.
-/
import Cockpit.Eunomia.SelectKeyframes

namespace Cockpit.Eunomia

open List

variable {options : Options} {frames frames' : List AcceptedFrame}

/-! ## The ends of a range -/

theorem foldl_min_spec {α β : Type} [LinearOrder α] (g : β → α) (items : List β) (start : α) :
    items.foldl (fun least item => min least (g item)) start ≤ start ∧
      (∀ item ∈ items, items.foldl (fun least item => min least (g item)) start ≤ g item) ∧
      (items.foldl (fun least item => min least (g item)) start = start ∨
        ∃ item ∈ items, items.foldl (fun least item => min least (g item)) start = g item) := by
  induction items generalizing start with
  | nil => exact ⟨le_refl _, nofun, .inl rfl⟩
  | cons item items ih =>
    obtain ⟨hstart, hall, hfound⟩ := ih (min start (g item))
    rw [foldl_cons]
    refine ⟨le_trans hstart (min_le_left _ _), ?_, ?_⟩
    · intro other hother
      rcases mem_cons.mp hother with rfl | hother
      · exact le_trans hstart (min_le_right _ _)
      · exact hall other hother
    · rcases hfound with hfound | ⟨other, hother, hfound⟩
      · rcases min_choice start (g item) with hmin | hmin
        · exact .inl (hfound.trans hmin)
        · exact .inr ⟨item, mem_cons_self, hfound.trans hmin⟩
      · exact .inr ⟨other, mem_cons_of_mem item hother, hfound⟩

variable {frame : AcceptedFrame}

/-- The areas that `std::minmax_element` finds are the ends of the range. -/
theorem minArea_le (h : frame ∈ frames) : minArea frames ≤ frame.area := by
  cases frames with
  | nil => cases h
  | cons first rest =>
    obtain ⟨hfirst, hrest, -⟩ := foldl_min_spec AcceptedFrame.area rest first.area
    rcases mem_cons.mp h with rfl | h
    · exact hfirst
    · exact hrest frame h

theorem exists_minArea (h : frames ≠ []) : ∃ frame ∈ frames, minArea frames = frame.area := by
  cases frames with
  | nil => exact absurd rfl h
  | cons first rest =>
    rcases (foldl_min_spec AcceptedFrame.area rest first.area).2.2 with hfound | ⟨frame, hframe, hfound⟩
    · exact ⟨first, mem_cons_self, hfound⟩
    · exact ⟨frame, mem_cons_of_mem first hframe, hfound⟩

theorem maxArea_spec (first : AcceptedFrame) (rest : List AcceptedFrame) :
    first.area ≤ maxArea (first :: rest) ∧ (∀ frame ∈ rest, frame.area ≤ maxArea (first :: rest)) ∧
      (maxArea (first :: rest) = first.area ∨ ∃ frame ∈ rest, maxArea (first :: rest) = frame.area) :=
  @foldl_min_spec ℝᵒᵈ AcceptedFrame _ (fun frame => OrderDual.toDual frame.area) rest (OrderDual.toDual first.area)

theorem le_maxArea (h : frame ∈ frames) : frame.area ≤ maxArea frames := by
  cases frames with
  | nil => cases h
  | cons first rest =>
    obtain ⟨hfirst, hrest, -⟩ := maxArea_spec first rest
    rcases mem_cons.mp h with rfl | h
    · exact hfirst
    · exact hrest frame h

theorem exists_maxArea (h : frames ≠ []) : ∃ frame ∈ frames, maxArea frames = frame.area := by
  cases frames with
  | nil => exact absurd rfl h
  | cons first rest =>
    rcases (maxArea_spec first rest).2.2 with hfound | ⟨frame, hframe, hfound⟩
    · exact ⟨first, mem_cons_self, hfound⟩
    · exact ⟨frame, mem_cons_of_mem first hframe, hfound⟩

/-! ## The coverage of a set of frames -/

/-- **The coverage is that of the frames as a set**, whatever their order and however often they come. -/
theorem buildCoverage_congr (h : ∀ frame, frame ∈ frames ↔ frame ∈ frames') :
    buildCoverage options frames = buildCoverage options frames' := by
  have hany : ∀ p : AcceptedFrame → Bool, frames.any p = frames'.any p := by
    intro p
    rw [Bool.eq_iff_iff, List.any_eq_true, List.any_eq_true]
    simp only [h]
  by_cases hempty : frames = []
  · have hempty' : frames' = [] := by
      rw [eq_nil_iff_forall_not_mem]
      intro frame hframe
      rw [← h, hempty] at hframe
      cases hframe
    rw [hempty, hempty']
  · have hempty' : frames' ≠ [] := by
      rintro rfl
      refine hempty (eq_nil_iff_forall_not_mem.mpr ?_)
      intro frame hframe
      cases (h frame).mp hframe
    have hmin : minArea frames = minArea frames' := by
      obtain ⟨frame, hframe, hleast⟩ := exists_minArea hempty
      obtain ⟨frame', hframe', hleast'⟩ := exists_minArea hempty'
      apply le_antisymm
      · rw [hleast']
        exact minArea_le ((h frame').mpr hframe')
      · rw [hleast]
        exact minArea_le ((h frame).mp hframe)
    have hmax : maxArea frames = maxArea frames' := by
      obtain ⟨frame, hframe, hgreatest⟩ := exists_maxArea hempty
      obtain ⟨frame', hframe', hgreatest'⟩ := exists_maxArea hempty'
      apply le_antisymm
      · rw [hgreatest]
        exact le_maxArea ((h frame).mp hframe)
      · rw [hgreatest']
        exact le_maxArea ((h frame').mpr hframe')
    unfold buildCoverage
    rw [if_neg (by rw [List.isEmpty_iff]; exact hempty), if_neg (by rw [List.isEmpty_iff]; exact hempty'), hmin, hmax]
    simp only [hany]

theorem poses_and_cells_iff : (5 ≤ (buildCoverage options frames).spatialCells ∧
      (buildCoverage options frames).poseComplete = true) ↔
    5 ≤ cells.countP (fun cell => frames.any (inCell cell.1 cell.2)) ∧ frames.any (isFront · options) = true ∧
      frames.any (isTiltLeft · options) = true ∧ frames.any (isTiltRight · options) = true ∧
      frames.any (isTiltUp · options) = true ∧ frames.any (isTiltDown · options) = true := by
  by_cases hempty : frames = []
  · subst hempty
    simp [buildCoverage, CoverageState.poseComplete]
  · unfold buildCoverage
    rw [if_neg (by rw [List.isEmpty_iff]; exact hempty)]
    simp only [CoverageState.poseComplete, Bool.and_eq_true, and_assoc]

theorem distanceComplete_of_complete {coverage : CoverageState} (h : coverage.complete = true) :
    coverage.distanceComplete = true := by
  unfold CoverageState.complete at h
  rw [Bool.and_eq_true] at h
  exact h.2

/-- **Frames that meet every requirement are complete.** -/
theorem complete_of_requirements (hprofile : options.boardProfile.isEmpty = false) (hsome : frames ≠ [])
    (h : ∀ p ∈ requirements options frames, frames.any p = true) : (buildCoverage options frames).complete = true := by
  unfold requirements at h
  rw [if_neg (by rw [hprofile]; exact Bool.false_ne_true)] at h
  simp only [mem_append, mem_cons, not_mem_nil, or_false, mem_map] at h
  have hcells : cells.countP (fun cell => frames.any (inCell cell.1 cell.2)) = cells.length := by
    rw [countP_eq_length]
    exact fun cell hcell => h _ (.inr ⟨cell, hcell, rfl⟩)
  have hscale := fun {scale : Scale} hmem => h _ (.inl (.inr ⟨scale, hmem, rfl⟩))
  unfold CoverageState.complete
  rw [Bool.and_eq_true, Bool.and_eq_true, decide_eq_true_eq]
  refine ⟨poses_and_cells_iff.mpr ⟨?_, ?_, ?_, ?_, ?_, ?_⟩, ?_⟩
  · rw [hcells]
    decide
  · exact h _ (.inl (.inl (.inl rfl)))
  · exact h _ (.inl (.inl (.inr (.inl rfl))))
  · exact h _ (.inl (.inl (.inr (.inr (.inl rfl)))))
  · exact h _ (.inl (.inl (.inr (.inr (.inr (.inl rfl))))))
  · exact h _ (.inl (.inl (.inr (.inr (.inr (.inr rfl))))))
  · unfold buildCoverage CoverageState.distanceComplete
    rw [if_neg (by rw [List.isEmpty_iff]; exact hsome)]
    simp only [Bool.and_eq_true]
    exact ⟨⟨hscale (.inl rfl), hscale (.inr (.inl rfl))⟩, hscale (.inr (.inr rfl))⟩

/-! ## Scales without logarithms -/

theorem minArea_eq {least : ℝ} (hsome : ∃ frame ∈ frames, frame.area = least)
    (hleast : ∀ frame ∈ frames, least ≤ frame.area) : minArea frames = least := by
  obtain ⟨frame, hframe, harea⟩ := hsome
  obtain ⟨other, hother, hfound⟩ := exists_minArea (ne_nil_of_mem hframe)
  apply le_antisymm
  · rw [← harea]
    exact minArea_le hframe
  · rw [hfound]
    exact hleast other hother

variable {greatest : ℝ}

theorem maxArea_eq (hsome : ∃ frame ∈ frames, frame.area = greatest)
    (hgreatest : ∀ frame ∈ frames, frame.area ≤ greatest) : maxArea frames = greatest := by
  obtain ⟨frame, hframe, harea⟩ := hsome
  obtain ⟨other, hother, hfound⟩ := exists_maxArea (ne_nil_of_mem hframe)
  apply le_antisymm
  · rw [hfound]
    exact hgreatest other hother
  · rw [← harea]
    exact le_maxArea hframe

/-- **A third of the range is the cube root of the ratio**, where the range is no single scale. -/
theorem scaleBucket_eq {least : ℝ} (hleast : 0 < least) (hspan : 3 / 2 ≤ greatest / least)
    (harea : least ≤ frame.area) :
    scaleBucket frame least greatest =
      if (frame.area / least) ^ 3 < greatest / least then .far
      else if (greatest / least) ^ 2 < (frame.area / least) ^ 3 then .near
      else .mid := by
  have hratio : 0 < greatest / least := by linarith
  have hposition : 0 < frame.area / least := div_pos (by linarith) hleast
  have hwide : ¬ (greatest ≤ least ∨ least ≤ 0) := by
    rintro (hle | hle)
    · have := (div_le_one hleast).mpr hle
      linarith
    · linarith
  have hlog : Real.log 1.5 ≤ Real.log (greatest / least) := Real.log_le_log (by norm_num) (by linarith)
  have hpos : 0 < Real.log (greatest / least) := Real.log_pos (by linarith)
  have hfar : Real.log (frame.area / least) / Real.log (greatest / least) < 1 / 3 ↔
      (frame.area / least) ^ 3 < greatest / least := by
    rw [← Real.log_lt_log_iff (pow_pos hposition 3) hratio, Real.log_pow, div_lt_iff₀ hpos]
    push_cast
    constructor <;> intro h <;> linarith
  have hnear : 2 / 3 < Real.log (frame.area / least) / Real.log (greatest / least) ↔
      (greatest / least) ^ 2 < (frame.area / least) ^ 3 := by
    rw [← Real.log_lt_log_iff (pow_pos hratio 2) (pow_pos hposition 3), Real.log_pow, Real.log_pow, lt_div_iff₀ hpos]
    push_cast
    constructor <;> intro h <;> linarith
  unfold scaleBucket
  rw [if_neg hwide, max_eq_left harea]
  simp only [not_lt.mpr hlog, if_false, hfar, hnear]

/-- **A range that is a single scale** has no frame that is NEAR. -/
theorem range_of_near {least : ℝ} (h : scaleBucket frame least greatest = .near) :
    0 < least ∧ 3 / 2 ≤ greatest / least := by
  unfold scaleBucket at h
  split at h
  case isTrue => cases h
  case isFalse hwide =>
    rw [not_or, not_le, not_le] at hwide
    dsimp only at h
    split at h
    case isTrue => cases h
    case isFalse hspan =>
      have hratio : 0 < greatest / least := div_pos (lt_trans hwide.2 hwide.1) hwide.2
      rw [not_lt, Real.log_le_log_iff (by norm_num) hratio] at hspan
      exact ⟨hwide.2, by linarith⟩

/-- The areas are positive, the greatest is half as much again as the least, and one of them is in the middle of the
    range: behind the cube root of the ratio, and not behind its square. -/
structure CoversAreas (frames : List AcceptedFrame) : Prop where
  positive : 0 < minArea frames
  range : 3 / 2 ≤ maxArea frames / minArea frames
  middle : ∃ frame ∈ frames, maxArea frames / minArea frames ≤ (frame.area / minArea frames) ^ 3 ∧
    (frame.area / minArea frames) ^ 3 ≤ (maxArea frames / minArea frames) ^ 2

/-- **NEAR, MID and FAR, in areas.** -/
theorem distanceComplete_iff : (buildCoverage options frames).distanceComplete = true ↔ CoversAreas frames := by
  by_cases hempty : frames = []
  · subst hempty
    refine iff_of_false (by simp [buildCoverage, CoverageState.distanceComplete]) fun h => ?_
    exact lt_irrefl _ h.positive
  unfold buildCoverage CoverageState.distanceComplete
  rw [if_neg (by rw [List.isEmpty_iff]; exact hempty)]
  simp only [Bool.and_eq_true, List.any_eq_true, decide_eq_true_eq]
  constructor
  · rintro ⟨⟨⟨_, -, hnear⟩, frame, hframe, hmid⟩, -⟩
    obtain ⟨hpositive, hrange⟩ := range_of_near hnear
    refine ⟨hpositive, hrange, frame, hframe, ?_⟩
    rw [scaleBucket_eq hpositive hrange (minArea_le hframe)] at hmid
    split at hmid
    · cases hmid
    · next hfar =>
      split at hmid
      · cases hmid
      · next hnear => exact ⟨not_lt.mp hfar, not_lt.mp hnear⟩
  · rintro ⟨hpositive, hrange, frame, hframe, hlow, hhigh⟩
    obtain ⟨greatest, hgreatest, hmax⟩ := exists_maxArea hempty
    obtain ⟨least, hleast, hmin⟩ := exists_minArea hempty
    refine ⟨⟨⟨greatest, hgreatest, ?_⟩, frame, hframe, ?_⟩, least, hleast, ?_⟩
    · have hsquare : maxArea frames / minArea frames ≤ (maxArea frames / minArea frames) ^ 3 := by nlinarith
      rw [scaleBucket_eq hpositive hrange (minArea_le hgreatest), ← hmax, if_neg (not_lt.mpr hsquare), if_pos]
      nlinarith
    · rw [scaleBucket_eq hpositive hrange (minArea_le hframe), if_neg (not_lt.mpr hlow), if_neg (not_lt.mpr hhigh)]
    · rw [scaleBucket_eq hpositive hrange (minArea_le hleast), ← hmin, div_self (ne_of_gt hpositive), if_pos]
      linarith

end Cockpit.Eunomia
