/-
  What the keyframes of a calibration cover. The frames that are required are taken, so poses and cells are
  those of the candidates; but `ScaleBucket` is relative to the greatest and the least area of the frames it is
  asked about, and the keyframes may miss the ends of the range that the candidates had. What the loop adds may
  be any choice, for some `FeatureDistance`.

  `FeatureDistance` is a root, so it is never below the -1 that each turn begins with.
-/
import Cockpit.Eunomia.Coverage

namespace Cockpit.Eunomia

open GreedyChoice List Finset

variable {options : Options} {featureDistance : AcceptedFrame → AcceptedFrame → ℝ}
  {candidates frames frames' : List AcceptedFrame} {target : Nat}

/-! ## What is to hold -/

/-- Different candidates are returned, as many as there can be, with the coverage of all. -/
structure Kept (options : Options) (featureDistance : AcceptedFrame → AcceptedFrame → ℝ)
    (candidates : List AcceptedFrame) (target : Nat) : Prop where
  count : (selectKeyframes options featureDistance candidates target).length = min target candidates.length
  different : (keyframeIndices options featureDistance candidates target).Nodup
  coverage : (buildCoverage options candidates).complete = true →
    (buildCoverage options (selectKeyframes options featureDistance candidates target)).complete = true

/-- As many different candidates as are returned, the required ones among them, have areas with the three scales. -/
def ChoicesCoverDistances (options : Options) (candidates : List AcceptedFrame) (target : Nat) : Prop :=
  ∀ choice : List (Fin candidates.length), choice.Nodup → choice.length = min target candidates.length →
    (∀ i ∈ addRequired options candidates target, i ∈ choice) → CoversAreas (choice.map candidates.get)

/-- Behind the required candidates there is room for one more at most, and then the first candidate is not taken. -/
def TurnsOnce (options : Options) (candidates : List AcceptedFrame) (target : Nat) : Prop :=
  target < candidates.length →
    (addRequired options candidates target).length = target ∨
      (addRequired options candidates target).length + 1 = target ∧
        ∀ i ∈ addRequired options candidates target, (i : Nat) ≠ 0

/-! ## The frames that are required -/

theorem requirements_length (options : Options) (candidates : List AcceptedFrame) :
    (requirements options candidates).length ≤ 17 := by
  unfold requirements
  split
  · exact Nat.zero_le 17
  · exact Nat.le_refl 17

theorem addRequired_nodup (htarget : 17 ≤ target) : (addRequired options candidates target).Nodup := by
  refine takeEach_nodup ?_
  rw [length_map]
  exact Nat.le_trans (requirements_length options candidates) htarget

theorem addRequired_length (htarget : 17 ≤ target) : (addRequired options candidates target).length ≤ 17 := by
  have hroom : ((requirements options candidates).map
      fun required (i : Fin candidates.length) => required (candidates.get i)).length ≤ target := by
    rw [length_map]
    exact Nat.le_trans (requirements_length options candidates) htarget
  refine Nat.le_trans (takeEach_length_le hroom) ?_
  rw [length_map]
  exact requirements_length options candidates

variable {p : AcceptedFrame → Bool}

/-- **What some candidate is required for, a required one is.** -/
theorem addRequired_covers (htarget : 17 ≤ target) (hp : p ∈ requirements options candidates)
    (hmet : candidates.any p = true) : ∃ i ∈ addRequired options candidates target, p (candidates.get i) = true := by
  have hroom : ((requirements options candidates).map
      fun required (i : Fin candidates.length) => required (candidates.get i)).length ≤ target := by
    rw [length_map]
    exact Nat.le_trans (requirements_length options candidates) htarget
  obtain ⟨frame, hframe, hmet⟩ := any_eq_true.mp hmet
  obtain ⟨i, rfl⟩ := mem_iff_get.mp hframe
  exact takeEach_covers hroom (mem_map_of_mem hp) ⟨i, mem_finRange i, hmet⟩

/-! ## The frames that are added -/

theorem nearest_le {selected : List (Fin candidates.length)} {index chosen : Fin candidates.length}
    (h : chosen ∈ selected) : nearest featureDistance candidates selected index ≤
      (featureDistance (candidates.get index) (candidates.get chosen) : WithTop ℝ) :=
  (foldl_min_spec (fun chosen =>
    (featureDistance (candidates.get index) (candidates.get chosen) : WithTop ℝ)) selected ⊤).2.1 chosen h

theorem nearest_cases (featureDistance : AcceptedFrame → AcceptedFrame → ℝ)
    (selected : List (Fin candidates.length)) (index : Fin candidates.length) :
    nearest featureDistance candidates selected index = ⊤ ∨ ∃ chosen ∈ selected,
      nearest featureDistance candidates selected index =
        (featureDistance (candidates.get index) (candidates.get chosen) : WithTop ℝ) :=
  (foldl_min_spec (fun chosen =>
    (featureDistance (candidates.get index) (candidates.get chosen) : WithTop ℝ)) selected ⊤).2.2

variable {selected : List (Fin candidates.length)}

theorem le_nearest {index : Fin candidates.length} {d : WithTop ℝ}
    (h : ∀ chosen ∈ selected, d ≤ (featureDistance (candidates.get index) (candidates.get chosen) : WithTop ℝ)) :
    d ≤ nearest featureDistance candidates selected index := by
  rcases nearest_cases featureDistance selected index with hfound | ⟨chosen, hchosen, hfound⟩ <;>
    rw [hfound]
  · exact le_top
  · exact h chosen hchosen

theorem lt_nearest {selected : List (Fin candidates.length)} {index : Fin candidates.length} {d : ℝ}
    (h : ∀ a b, d < featureDistance a b) : (d : WithTop ℝ) < nearest featureDistance candidates selected index := by
  rcases nearest_cases featureDistance selected index with hfound | ⟨chosen, -, hfound⟩ <;> rw [hfound]
  · exact WithTop.coe_lt_top d
  · exact WithTop.coe_lt_coe.mpr (h _ _)

variable {i : Fin candidates.length}

/-- **A turn of the loop finds a new frame, none of which is farther.** -/
theorem bestIndex_max (hdistance : ∀ a b, -1 < featureDistance a b) (first : Fin candidates.length)
    (hi : i ∉ selected) :
    bestIndex featureDistance candidates first selected ∉ selected ∧
      nearest featureDistance candidates selected i ≤
        nearest featureDistance candidates selected (bestIndex featureDistance candidates first selected) := by
  have hskips : ∀ {j : Fin candidates.length}, j ∉ selected → decide (j ∈ selected) = false :=
    fun hj => decide_eq_false hj
  have hlt := @lt_nearest featureDistance candidates selected i _ hdistance
  obtain ⟨-, hfresh, hmax⟩ := @best_max _ _ _ (nearest featureDistance candidates selected)
    (fun index => index ∈ selected) (List.finRange candidates.length) (((-1 : ℝ) : WithTop ℝ), first) i
    (mem_finRange i) (hskips hi) hlt
  exact ⟨of_decide_eq_false hfresh, hmax i (mem_finRange i) (hskips hi)⟩

/-- Candidates that are taken with so much room left. -/
structure Chosen (options : Options) (candidates : List AcceptedFrame) (target room : Nat)
    (selected : List (Fin candidates.length)) : Prop where
  nodup : selected.Nodup
  length : selected.length + room = target
  required : ∀ i ∈ addRequired options candidates target, i ∈ selected

variable {room : Nat}

theorem Chosen.exists_fresh (h : Chosen options candidates target (room + 1) selected)
    (hmore : target < candidates.length) : ∃ i, i ∉ selected := by
  by_contra hall
  have hall : ∀ i, i ∈ selected := by simpa using hall
  have hle := (subperm_of_subset (nodup_finRange candidates.length)
    (fun i _ => hall i)).length_le
  rw [length_finRange] at hle
  have := h.length
  omega

theorem Chosen.append (h : Chosen options candidates target (room + 1) selected) (hi : i ∉ selected) :
    Chosen options candidates target room (selected ++ [i]) := by
  constructor
  case nodup =>
    refine List.nodup_append.mpr ⟨h.nodup, by simp, ?_⟩
    intro j hj k hk hjk
    rw [List.mem_singleton.mp hk] at hjk
    exact hi (hjk ▸ hj)
  case length =>
    have := h.length
    rw [length_append, List.length_singleton]
    omega
  case required => exact fun j hj => mem_append_left _ (h.required j hj)

/-- Each turn adds a new frame. -/
theorem Chosen.step (hdistance : ∀ a b, -1 < featureDistance a b) (hmore : target < candidates.length)
    (first : Fin candidates.length) (h : Chosen options candidates target (room + 1) selected) :
    Chosen options candidates target room (selected ++ [bestIndex featureDistance candidates first selected]) := by
  obtain ⟨i, hi⟩ := h.exists_fresh hmore
  exact h.append (bestIndex_max hdistance first hi).1

theorem chosen_start (htarget : 17 ≤ target) (first : Fin candidates.length) : Chosen options candidates target
      (target - (if (addRequired options candidates target).isEmpty then [first]
        else addRequired options candidates target).length)
      (if (addRequired options candidates target).isEmpty then [first] else addRequired options candidates target) := by
  have hlen := @addRequired_length options candidates target htarget
  split
  · rename_i hempty
    rw [List.isEmpty_iff] at hempty
    refine ⟨by simp, ?_, ?_⟩
    · rw [List.length_singleton]
      omega
    · rw [hempty]
      nofun
  · exact ⟨addRequired_nodup htarget, by omega, fun _ => id⟩

/-- **Different candidates are chosen, the required ones among them.** -/
theorem selectedIndices_chosen (htarget : 17 ≤ target) (hmore : target < candidates.length)
    (hdistance : ∀ a b, -1 < featureDistance a b) (first : Fin candidates.length) :
    Chosen options candidates target 0 (selectedIndices options featureDistance candidates target first) :=
  @fill_invariant _ (bestIndex featureDistance candidates first) (Chosen options candidates target)
    (fun _ _ => Chosen.step hdistance hmore first) _ _ (chosen_start htarget first)

theorem keyframeIndices_eq (hmore : target < candidates.length) :
    ∃ first : Fin candidates.length, (first : Nat) = 0 ∧ ∀ featureDistance,
      keyframeIndices options featureDistance candidates target =
        selectedIndices options featureDistance candidates target first := by
  refine ⟨⟨0, by omega⟩, rfl, ?_⟩
  intro featureDistance
  unfold keyframeIndices
  rw [dif_neg (Nat.not_le.mpr hmore)]

/-! ## The poses and the cells are kept -/

theorem any_of_required (htarget : 17 ≤ target) {choice : List (Fin candidates.length)}
    (hrequired : ∀ i ∈ addRequired options candidates target, i ∈ choice) {p : AcceptedFrame → Bool}
    (hp : p ∈ requirements options candidates) (hmet : candidates.any p = true) :
    (choice.map candidates.get).any p = true := by
  obtain ⟨i, hi, hpi⟩ := addRequired_covers htarget hp hmet
  exact any_eq_true.mpr ⟨candidates.get i, mem_map_of_mem (hrequired i hi), hpi⟩

theorem mem_requirements (hprofile : options.boardProfile.isEmpty = false)
    (h : p ∈ [(isFront · options), (isTiltLeft · options), (isTiltRight · options), (isTiltUp · options),
      (isTiltDown · options)] ∨ ∃ cell ∈ cells, p = inCell cell.1 cell.2) : p ∈ requirements options candidates := by
  unfold requirements
  rw [if_neg (by rw [hprofile]; exact Bool.false_ne_true)]
  rcases h with h | ⟨cell, hcell, rfl⟩
  · exact mem_append_left _ (mem_append_left _ h)
  · exact mem_append_right _ (mem_map_of_mem hcell)

/-- **A choice with the required frames has all poses and as many cells.** -/
theorem complete_of_distanceComplete (hprofile : options.boardProfile.isEmpty = false) (htarget : 17 ≤ target)
    {choice : List (Fin candidates.length)} (hrequired : ∀ i ∈ addRequired options candidates target, i ∈ choice)
    (hcomplete : (buildCoverage options candidates).complete = true)
    (hdistance : (buildCoverage options (choice.map candidates.get)).distanceComplete = true) :
    (buildCoverage options (choice.map candidates.get)).complete = true := by
  unfold CoverageState.complete at hcomplete ⊢
  rw [Bool.and_eq_true, Bool.and_eq_true, decide_eq_true_eq] at hcomplete ⊢
  refine ⟨?_, hdistance⟩
  obtain ⟨hcells, hfront, hleft, hright, hup, hdown⟩ := poses_and_cells_iff.mp hcomplete.1
  have hpose := fun {p : AcceptedFrame → Bool} h => @any_of_required options candidates target htarget choice hrequired p
    (mem_requirements hprofile h)
  refine poses_and_cells_iff.mpr ⟨?_, hpose (.inl ?_) hfront, hpose (.inl ?_) hleft, hpose (.inl ?_) hright,
    hpose (.inl ?_) hup, hpose (.inl ?_) hdown⟩
  · refine Nat.le_trans hcells (countP_mono_left ?_)
    intro cell hcell hmet
    exact hpose (.inr ⟨cell, hcell, rfl⟩) hmet
  all_goals simp only [List.mem_cons, true_or, or_true]

/-! ## What the loop may add -/

section Realize

open scoped Classical

/-- A distance that makes the loop add the wanted frames. -/
noncomputable def preferring (wanted : Finset AcceptedFrame) (left right : AcceptedFrame) : ℝ :=
  if left ∉ wanted then 0 else if left = right then 0.5 else 1

variable {wanted : Finset AcceptedFrame} {left right : AcceptedFrame}

theorem preferring_above (wanted : Finset AcceptedFrame) (left right : AcceptedFrame) :
    -1 < preferring wanted left right := by
  unfold preferring
  split
  · norm_num
  · split <;> norm_num

theorem preferring_other (h : left ∉ wanted) : preferring wanted left right = 0 := if_pos h

theorem preferring_self (h : left ∈ wanted) : preferring wanted left left = 0.5 := by
  unfold preferring
  rw [if_neg (not_not.mpr h), if_pos rfl]

theorem preferring_new (h : left ∈ wanted) (hne : left ≠ right) : preferring wanted left right = 1 := by
  unfold preferring
  rw [if_neg (not_not.mpr h), if_neg hne]

theorem half_le_preferring (h : left ∈ wanted) : 0.5 ≤ preferring wanted left right := by
  by_cases hne : left = right
  · rw [← hne, preferring_self h]
  · rw [preferring_new h hne]
    norm_num

/-- Only wanted frames are taken, and there is room for those that are missing. -/
structure Realizes (options : Options) (candidates : List AcceptedFrame) (target : Nat) (wanted : Finset AcceptedFrame)
    (room : Nat) (selected : List (Fin candidates.length)) : Prop where
  chosen : Chosen options candidates target room selected
  only : ∀ i ∈ selected, candidates.get i ∈ wanted
  missing : (wanted \ (selected.map candidates.get).toFinset).card ≤ room

variable {choice : List (Fin candidates.length)}

theorem realizes_start (hnodup : choice.Nodup) (hlen : choice.length = target) (htarget : 17 ≤ target)
    (hrequired : ∀ i ∈ addRequired options candidates target, i ∈ choice) :
    Realizes options candidates target (choice.map candidates.get).toFinset
      (target - (addRequired options candidates target).length) (addRequired options candidates target) := by
  have hfresh := @addRequired_nodup options candidates target htarget
  have hle := @addRequired_length options candidates target htarget
  refine ⟨⟨hfresh, by omega, fun _ => id⟩, ?_, ?_⟩
  · intro i hi
    rw [List.mem_toFinset]
    exact mem_map_of_mem (hrequired i hi)
  · -- a missing frame is that of an index that is not required
    have hsub : (choice.map candidates.get).toFinset \ ((addRequired options candidates target).map candidates.get).toFinset ⊆
        (choice.toFinset \ (addRequired options candidates target).toFinset).image candidates.get := by
      intro frame hframe
      rw [Finset.mem_sdiff, List.mem_toFinset, List.mem_toFinset] at hframe
      obtain ⟨i, hi, rfl⟩ := List.mem_map.mp hframe.1
      refine mem_image_of_mem _ ?_
      rw [Finset.mem_sdiff, List.mem_toFinset, List.mem_toFinset]
      exact ⟨hi, fun hi => hframe.2 (mem_map_of_mem hi)⟩
    have hcard : (choice.toFinset \ (addRequired options candidates target).toFinset).card =
        target - (addRequired options candidates target).length := by
      rw [card_sdiff_of_subset, toFinset_card_of_nodup hnodup, toFinset_card_of_nodup hfresh, hlen]
      intro i hi
      rw [List.mem_toFinset] at hi ⊢
      exact hrequired i hi
    calc _ ≤ _ := card_le_card hsub
      _ ≤ _ := card_image_le
      _ = _ := hcard

theorem missing_append (wanted : Finset AcceptedFrame) (selected : List (Fin candidates.length))
    (i : Fin candidates.length) : wanted \ ((selected ++ [i]).map candidates.get).toFinset =
      (wanted \ (selected.map candidates.get).toFinset).erase (candidates.get i) := by
  ext frame
  simp only [List.map_append, List.map_singleton, List.toFinset_append, Finset.mem_sdiff, Finset.mem_union,
    List.mem_toFinset, List.mem_singleton, Finset.mem_erase, not_or]
  exact ⟨fun h => ⟨h.2.2, h.1, h.2.1⟩, fun h => ⟨h.2.1, h.2.2, h.1⟩⟩

variable {selected : List (Fin candidates.length)}

variable {i : Fin candidates.length}

theorem bestIndex_wanted (first : Fin candidates.length) (hsome : selected ≠ []) (hfresh : i ∉ selected)
    (hi : candidates.get i ∈ wanted) :
    candidates.get (bestIndex (preferring wanted) candidates first selected) ∈ wanted := by
  by_contra hnot
  obtain ⟨chosen, hchosen⟩ := exists_mem_of_ne_nil _ hsome
  have hle : ((0.5 : ℝ) : WithTop ℝ) ≤ nearest (preferring wanted) candidates selected i :=
    le_nearest fun _ _ => WithTop.coe_le_coe.mpr (half_le_preferring hi)
  have hmax := (bestIndex_max (preferring_above wanted) first hfresh).2
  have hnear := @nearest_le (preferring wanted) candidates selected
    (bestIndex (preferring wanted) candidates first selected) chosen hchosen
  rw [preferring_other hnot] at hnear
  have := WithTop.coe_le_coe.mp (le_trans hle (le_trans hmax hnear))
  norm_num at this

theorem bestIndex_new (first : Fin candidates.length) (hi : candidates.get i ∈ wanted)
    (hmissing : candidates.get i ∉ selected.map candidates.get)
    (hbest : candidates.get (bestIndex (preferring wanted) candidates first selected) ∈ wanted) :
    candidates.get (bestIndex (preferring wanted) candidates first selected) ∉ selected.map candidates.get := by
  intro hold
  obtain ⟨chosen, hchosen, heq⟩ := List.mem_map.mp hold
  have hle : ((1 : ℝ) : WithTop ℝ) ≤ nearest (preferring wanted) candidates selected i := by
    refine le_nearest fun other hother => WithTop.coe_le_coe.mpr ?_
    rw [preferring_new hi]
    intro hsame
    exact hmissing (hsame ▸ mem_map_of_mem hother)
  have hfresh : i ∉ selected := fun hi => hmissing (mem_map_of_mem hi)
  have hmax := (bestIndex_max (preferring_above wanted) first hfresh).2
  have hnear := @nearest_le (preferring wanted) candidates selected
    (bestIndex (preferring wanted) candidates first selected) chosen hchosen
  rw [heq, preferring_self hbest] at hnear
  have := WithTop.coe_le_coe.mp (le_trans hle (le_trans hmax hnear))
  norm_num at this

/-- **A turn of the loop takes a wanted frame, and one that is missing, if one is.** -/
theorem Realizes.step (hmore : target < candidates.length) (hlen : choice.length = target) (hnodup : choice.Nodup)
    (hsome : addRequired options candidates target ≠ []) (first : Fin candidates.length) {room : Nat}
    (h : Realizes options candidates target (choice.map candidates.get).toFinset (room + 1) selected) :
    Realizes options candidates target (choice.map candidates.get).toFinset room
      (selected ++ [bestIndex (preferring (choice.map candidates.get).toFinset) candidates first selected]) := by
  have hfull : selected ≠ [] := by
    obtain ⟨i, hi⟩ := exists_mem_of_ne_nil _ hsome
    exact ne_nil_of_mem (h.chosen.required i hi)
  -- the choice is longer, so some index of it is left
  obtain ⟨i, hi, hfresh⟩ : ∃ i ∈ choice, i ∉ selected := by
    by_contra hall
    have hall : ∀ i ∈ choice, i ∈ selected := by simpa using hall
    have hle := (subperm_of_subset hnodup hall).length_le
    have := h.chosen.length
    omega
  have hin := bestIndex_wanted first hfull hfresh (List.mem_toFinset.mpr (mem_map_of_mem hi))
  refine ⟨h.chosen.step (preferring_above _) hmore first, ?_, ?_⟩
  · intro j hj
    rcases List.mem_append.mp hj with hj | hj
    · exact h.only j hj
    · rw [List.mem_singleton.mp hj]
      exact hin
  · rw [missing_append]
    rcases eq_empty_or_nonempty ((choice.map candidates.get).toFinset \ (selected.map candidates.get).toFinset)
      with hnone | ⟨frame, hframe⟩
    · rw [hnone, erase_empty, card_empty]
      exact Nat.zero_le room
    · rw [Finset.mem_sdiff, List.mem_toFinset, List.mem_toFinset] at hframe
      obtain ⟨k, hk, rfl⟩ := List.mem_map.mp hframe.1
      have hnew := bestIndex_new first (List.mem_toFinset.mpr hframe.1) hframe.2 hin
      rw [card_erase_of_mem]
      · have := h.missing
        omega
      · exact Finset.mem_sdiff.mpr ⟨hin, fun hold => hnew (List.mem_toFinset.mp hold)⟩

/-- **For some distances the loop ends with the frames of the choice.** -/
theorem realize_members (hmore : target < candidates.length) (hlen : choice.length = target)
    (hnodup : choice.Nodup) (htarget : 17 ≤ target) (hsome : addRequired options candidates target ≠ [])
    (hrequired : ∀ i ∈ addRequired options candidates target, i ∈ choice) (first : Fin candidates.length) :
    ∃ featureDistance : AcceptedFrame → AcceptedFrame → ℝ, (∀ left right, -1 < featureDistance left right) ∧
      ∀ frame, frame ∈ (selectedIndices options featureDistance candidates target first).map candidates.get ↔
        frame ∈ choice.map candidates.get := by
  refine ⟨preferring (choice.map candidates.get).toFinset, preferring_above _, ?_⟩
  have hend : Realizes options candidates target (choice.map candidates.get).toFinset 0
      (selectedIndices options (preferring (choice.map candidates.get).toFinset) candidates target first) := by
    simp only [selectedIndices, List.isEmpty_iff, hsome, if_false]
    exact fill_invariant (fun _ _ => Realizes.step hmore hlen hnodup hsome first)
      (realizes_start hnodup hlen htarget hrequired)
  intro frame
  constructor <;> intro hframe
  · obtain ⟨i, hi, rfl⟩ := List.mem_map.mp hframe
    exact List.mem_toFinset.mp (hend.only i hi)
  · have hall := sdiff_eq_empty_iff_subset.mp (card_eq_zero.mp (Nat.le_zero.mp hend.missing))
    exact List.mem_toFinset.mp (hall (List.mem_toFinset.mpr hframe))

end Realize

/-! ## The law holds just when the choices cover the scales -/

section

variable (hprofile : options.boardProfile.isEmpty = false)
include hprofile

theorem kept_of_chosen (htarget : 17 ≤ target)
    (hchoices : (buildCoverage options candidates).complete = true → ChoicesCoverDistances options candidates target)
    (hchosen : target < candidates.length →
      Chosen options candidates target 0 (keyframeIndices options featureDistance candidates target)) :
    Kept options featureDistance candidates target := by
  by_cases hmore : target < candidates.length
  case pos =>
    have hchosen := hchosen hmore
    have hlen : (keyframeIndices options featureDistance candidates target).length = min target candidates.length := by
      have := hchosen.length
      omega
    constructor
    case count => rw [selectKeyframes_eq, length_map, hlen]
    case different => exact hchosen.nodup
    case coverage =>
      intro hcomplete
      rw [selectKeyframes_eq]
      exact complete_of_distanceComplete hprofile htarget hchosen.required hcomplete
        (distanceComplete_iff.mpr (hchoices hcomplete _ hchosen.nodup hlen hchosen.required))
  case neg =>
    have hfew : candidates.length ≤ target := Nat.not_lt.mp hmore
    have hsame : selectKeyframes options featureDistance candidates target = candidates := dif_pos hfew
    constructor
    case count => rw [hsame, Nat.min_eq_right hfew]
    case different =>
      unfold keyframeIndices
      rw [dif_pos hfew]
      exact nodup_finRange candidates.length
    case coverage =>
      rw [hsame]
      exact id

theorem addRequired_ne_nil (htarget : 17 ≤ target)
    (hcomplete : (buildCoverage options candidates).complete = true) : addRequired options candidates target ≠ [] := by
  unfold CoverageState.complete at hcomplete
  rw [Bool.and_eq_true, Bool.and_eq_true, decide_eq_true_eq] at hcomplete
  obtain ⟨-, hfront, -⟩ := poses_and_cells_iff.mp hcomplete.1
  obtain ⟨i, hi, -⟩ := addRequired_covers htarget (mem_requirements hprofile (.inl mem_cons_self)) hfront
  exact ne_nil_of_mem hi

/-- **If the loop keeps the coverage whatever the distances, every choice has it**, since the loop may end with it. -/
theorem choicesCoverDistances (htarget : 17 ≤ target)
    (hkept : ∀ featureDistance : AcceptedFrame → AcceptedFrame → ℝ, (∀ left right, -1 < featureDistance left right) →
      Kept options featureDistance candidates target)
    (hcomplete : (buildCoverage options candidates).complete = true) :
    ChoicesCoverDistances options candidates target := by
  intro choice hnodup hlen hrequired
  by_cases hmore : target < candidates.length
  case pos =>
    rw [Nat.min_eq_left (Nat.le_of_lt hmore)] at hlen
    obtain ⟨first, -, hfirst⟩ := @keyframeIndices_eq options candidates target hmore
    obtain ⟨featureDistance, hdistance, hmembers⟩ := realize_members hmore hlen hnodup htarget
      (addRequired_ne_nil hprofile htarget hcomplete) hrequired first
    have hcoverage := (hkept featureDistance hdistance).coverage hcomplete
    rw [selectKeyframes_eq, hfirst, buildCoverage_congr hmembers] at hcoverage
    exact distanceComplete_iff.mp (distanceComplete_of_complete hcoverage)
  case neg =>
    -- so many different candidates are all of them
    rw [Nat.min_eq_right (Nat.not_lt.mp hmore)] at hlen
    have hall : ∀ i, i ∈ choice := by
      intro i
      by_contra hnot
      have hle := (subperm_of_subset (nodup_cons.mpr ⟨hnot, hnodup⟩)
        (fun i _ => mem_finRange i)).length_le
      rw [length_cons, length_finRange] at hle
      omega
    have hsame : buildCoverage options (choice.map candidates.get) = buildCoverage options candidates := by
      refine buildCoverage_congr ?_
      intro frame
      constructor <;> intro hframe
      · obtain ⟨i, -, rfl⟩ := List.mem_map.mp hframe
        exact get_mem candidates i
      · obtain ⟨i, rfl⟩ := mem_iff_get.mp hframe
        exact mem_map_of_mem (hall i)
    rw [← hsame] at hcomplete
    exact distanceComplete_iff.mp (distanceComplete_of_complete hcomplete)

end

/-! ## Distances below -1 -/

/-- A turn finds a new frame, or stays at the first. -/
theorem bestIndex_cases (featureDistance : AcceptedFrame → AcceptedFrame → ℝ) (first : Fin candidates.length)
    (selected : List (Fin candidates.length)) :
    bestIndex featureDistance candidates first selected = first ∨
      bestIndex featureDistance candidates first selected ∉ selected := by
  rcases (best_spec (nearest featureDistance candidates selected) (fun index => index ∈ selected)
    (List.finRange candidates.length) (((-1 : ℝ) : WithTop ℝ), first)).2.2 with hstart | ⟨-, hfresh, -⟩
  · exact .inl (congrArg Prod.snd hstart)
  · exact .inr (of_decide_eq_false hfresh)

theorem chosen_of_turnsOnce (htarget : 17 ≤ target) (hmore : target < candidates.length)
    (hturns : TurnsOnce options candidates target) :
    Chosen options candidates target 0 (keyframeIndices options featureDistance candidates target) := by
  obtain ⟨first, hzero, hfirst⟩ := @keyframeIndices_eq options candidates target hmore
  have hnodup := @addRequired_nodup options candidates target htarget
  have hsome : addRequired options candidates target ≠ [] := by
    intro hnil
    have := hturns hmore
    rw [hnil, length_nil] at this
    omega
  rw [hfirst]
  simp only [selectedIndices, List.isEmpty_iff, hsome, if_false]
  rcases hturns hmore with hfull | ⟨hone, hfresh⟩
  · rw [hfull, Nat.sub_self]
    exact ⟨hnodup, hfull, fun _ => id⟩
  · have hnew : bestIndex featureDistance candidates first (addRequired options candidates target) ∉
        addRequired options candidates target := by
      rcases bestIndex_cases featureDistance first (addRequired options candidates target) with hsame | hnew
      · rw [hsame]
        exact fun hmem => hfresh first hmem hzero
      · exact hnew
    have hroom : target - (addRequired options candidates target).length = 1 := by omega
    rw [hroom]
    exact Chosen.append ⟨hnodup, hone, fun _ => id⟩ hnew

theorem turnsOnce_of_different (htarget : 17 ≤ target)
    (h : (keyframeIndices options (fun _ _ => -2) candidates target).Nodup) : TurnsOnce options candidates target := by
  intro hmore
  obtain ⟨first, hzero, hfirst⟩ := @keyframeIndices_eq options candidates target hmore
  have hnext : ∀ taken : List (Fin candidates.length), taken ≠ [] →
      bestIndex (fun _ _ => -2) candidates first taken = first := by
    intro taken htaken
    obtain ⟨chosen, hchosen⟩ := exists_mem_of_ne_nil taken htaken
    rcases (best_spec (nearest (fun _ _ => -2) candidates taken) (fun index => index ∈ taken)
      (List.finRange candidates.length) (((-1 : ℝ) : WithTop ℝ), first)) with ⟨hstart, -, hsame | ⟨-, -, hscore⟩⟩
    · exact congrArg Prod.snd hsame
    · have hle := @nearest_le (fun _ _ => -2) candidates taken
        (bestIndex (fun _ _ => -2) candidates first taken) chosen hchosen
      unfold bestIndex at hle
      rw [hscore] at hle
      have := WithTop.coe_le_coe.mp (le_trans hstart hle)
      norm_num at this
  have hlen := @addRequired_length options candidates target htarget
  rw [hfirst] at h
  by_cases hnil : addRequired options candidates target = []
  case pos =>
    simp only [selectedIndices, hnil, isEmpty_nil, if_true] at h
    rw [fill_constant hnext _ (cons_ne_nil first []), List.nodup_append] at h
    have := List.nodup_replicate.mp h.2.1
    rw [List.length_singleton] at this
    omega
  case neg =>
    simp only [selectedIndices, List.isEmpty_iff, hnil, if_false] at h
    rw [fill_constant hnext _ hnil, List.nodup_append, List.nodup_replicate] at h
    by_cases hfull : (addRequired options candidates target).length = target
    · exact .inl hfull
    · refine .inr ⟨by omega, ?_⟩
      intro i hi hzero'
      have hsame : i = first := Fin.ext (hzero'.trans hzero.symm)
      refine h.2.2 i hi first ?_ hsame
      rw [mem_replicate]
      exact ⟨by omega, rfl⟩

/-! ## Candidates whose least area is not required -/

theorem addRequired_in_order (hmeets : List.Forall₂ (fun frame required => required frame = true)
    (candidates.take target) (requirements options candidates)) :
    addRequired options candidates target = (List.finRange candidates.length).take target := by
  have hframes : ((List.finRange candidates.length).take target).map candidates.get = candidates.take target := by
    rw [List.map_take, List.map_get_finRange]
  rw [← hframes, forall₂_map_left_iff] at hmeets
  refine takeEach_in_order (take_append_drop target _).symm (nodup_finRange _) (length_take_le _ _) ?_
  rw [forall₂_map_right_iff]
  exact hmeets

theorem selectKeyframes_in_order (hmore : target < candidates.length) (hsome : 0 < target)
    (hmeets : List.Forall₂ (fun frame required => required frame = true)
      (candidates.take target) (requirements options candidates)) :
    selectKeyframes options featureDistance candidates target = candidates.take target := by
  obtain ⟨first, -, hfirst⟩ := @keyframeIndices_eq options candidates target hmore
  have hlen : ((List.finRange candidates.length).take target).length = target := by
    rw [length_take, length_finRange, Nat.min_eq_left (Nat.le_of_lt hmore)]
  have hne : (List.finRange candidates.length).take target ≠ [] := ne_nil_of_length_pos (by omega)
  rw [selectKeyframes_eq, hfirst]
  simp only [selectedIndices, addRequired_in_order hmeets, List.isEmpty_iff, hne, if_false, hlen, Nat.sub_self, fill]
  rw [List.map_take, List.map_get_finRange]

/-- A frame in the middle. -/
noncomputable def posed (horizontalTiltDeg verticalTiltDeg area : ℝ) : AcceptedFrame :=
  { area, poseValid := true, horizontalTiltDeg, verticalTiltDeg }

/-- A frame in this cell. -/
noncomputable def placed (cell : Int × Int) : AcceptedFrame :=
  { area := 0.19, poseValid := true, centerXNormalized := 0.17 + 0.33 * cell.1,
    centerYNormalized := 0.17 + 0.33 * cell.2 }

noncomputable def requiredFrames : List AcceptedFrame :=
  [posed 0 0 0.19, posed (-20) 0 0.19, posed 20 0 0.19, posed 0 (-20) 0.19,
    posed 0 20 0.19] ++
  [posed 0 0 0.80, posed 0 0 0.21, posed 0 0 0.19] ++
  cells.map placed

/-- Candidates whose least area is not required. -/
noncomputable def wideCapture : List AcceptedFrame := requiredFrames ++ [posed 0 0 0.10]

variable {frame : AcceptedFrame}

theorem requiredFrames_area (h : frame ∈ requiredFrames) :
    frame.area = 0.19 ∨ frame.area = 0.21 ∨ frame.area = 0.80 := by
  simp only [requiredFrames, List.mem_append, List.mem_cons, List.not_mem_nil, or_false, List.mem_map] at h
  rcases h with ((rfl | rfl | rfl | rfl | rfl) | rfl | rfl | rfl) | ⟨cell, -, rfl⟩
  all_goals norm_num [posed, placed]

theorem wideCapture_area (h : frame ∈ wideCapture) : 0.10 ≤ frame.area ∧ frame.area ≤ 0.80 := by
  rcases List.mem_append.mp h with h | h
  · rcases requiredFrames_area h with harea | harea | harea
    all_goals
      rw [harea]
      norm_num
  · rw [List.mem_singleton.mp h]
    norm_num [posed]

theorem mem_requiredFrames (h : frame ∈ [posed 0 0 0.80, posed 0 0 0.21, posed 0 0 0.19]) :
    frame ∈ requiredFrames := mem_append_left _ (mem_append_right _ h)

theorem minArea_wideCapture : minArea wideCapture = 0.10 :=
  minArea_eq ⟨_, mem_append_right _ (List.mem_singleton.mpr rfl), rfl⟩ fun _ h => (wideCapture_area h).1

theorem maxArea_wideCapture : maxArea wideCapture = 0.80 :=
  maxArea_eq ⟨_, mem_append_left _ (mem_requiredFrames mem_cons_self), rfl⟩ fun _ h => (wideCapture_area h).2

theorem requiredFrames_least (h : frame ∈ requiredFrames) : 0.19 ≤ frame.area := by
  rcases requiredFrames_area h with harea | harea | harea <;> linarith

theorem minArea_requiredFrames : minArea requiredFrames = 0.19 :=
  minArea_eq ⟨posed 0 0 0.19, mem_requiredFrames (by simp), rfl⟩ fun _ => requiredFrames_least

theorem maxArea_requiredFrames : maxArea requiredFrames = 0.80 :=
  maxArea_eq ⟨_, mem_requiredFrames mem_cons_self, rfl⟩
    fun _ h => (wideCapture_area (mem_append_left _ h)).2

theorem inCell_placed {cell : Int × Int} (h : cell ∈ cells) : inCell cell.1 cell.2 (placed cell) = true := by
  have hmiddle : ∀ x : Int, 0 ≤ x → x ≤ 2 → clampCell (truncate ((0.17 + 0.33 * x : ℝ) * 3)) = x := by
    intro x hlow hhigh
    have hreal : (0 : ℝ) ≤ x := by exact_mod_cast hlow
    have hreal' : (x : ℝ) ≤ 2 := by exact_mod_cast hhigh
    have hfloor : ⌊(0.17 + 0.33 * x : ℝ) * 3⌋ = x := by
      rw [Int.floor_eq_iff]
      constructor <;> linarith
    unfold truncate
    rw [if_pos (by linarith), hfloor]
    unfold clampCell
    rw [if_neg (by omega), if_neg (by omega)]
  have hbounds : ∀ cell ∈ cells, (0 ≤ cell.1 ∧ cell.1 ≤ 2) ∧ 0 ≤ cell.2 ∧ cell.2 ≤ 2 := by decide
  obtain ⟨hx, hy⟩ := hbounds cell h
  unfold inCell placed
  rw [hmiddle cell.1 hx.1 hx.2, hmiddle cell.2 hy.1 hy.2]
  simp

/-- **They meet the requirements in order**, where the areas go from 0.10 to 0.80. -/
theorem requiredFrames_meet (hmin : minArea candidates = 0.10) (hmax : maxArea candidates = 0.80) :
    List.Forall₂ (fun frame required => required frame = true) requiredFrames
      (requirements { boardProfile := "q12-70-5" } candidates) := by
  have hscale : ∀ area : ℝ, 0.10 ≤ area → scaleBucket (posed 0 0 area) 0.10 0.80 = _ :=
    fun area harea => scaleBucket_eq (by norm_num) (by norm_num) harea
  unfold requirements
  rw [if_neg (by decide), hmin, hmax]
  refine rel_append (rel_append ?_ ?_) ?_
  · simp only [List.forall₂_cons, List.forall₂_nil_left_iff, and_true]
    norm_num [isFront, isTiltLeft, isTiltRight, isTiltUp, isTiltDown, posed]
  · simp only [List.map_cons, List.map_nil, List.forall₂_cons, List.forall₂_nil_left_iff, and_true, decide_eq_true_eq]
    rw [hscale _ (by norm_num), hscale _ (by norm_num), hscale _ (by norm_num)]
    norm_num [posed]
  · rw [forall₂_map_left_iff, forall₂_map_right_iff, forall₂_same]
    exact fun cell => inCell_placed

theorem requiredFrames_mid (options : Options) : (buildCoverage options requiredFrames).mid = false := by
  have hne : ¬ requiredFrames.isEmpty = true := by simp [requiredFrames]
  unfold buildCoverage
  rw [if_neg hne, minArea_requiredFrames, maxArea_requiredFrames]
  show requiredFrames.any (fun frame => decide (scaleBucket frame 0.19 0.80 = .mid)) = false
  rw [any_eq_false]
  intro frame hframe
  rw [decide_eq_true_eq, scaleBucket_eq (by norm_num) (by norm_num) (requiredFrames_least hframe)]
  -- 0.21 is MID in the range from 0.10, and FAR in that from 0.19
  rcases requiredFrames_area hframe with harea | harea | harea
  all_goals
    rw [harea]
    norm_num
    decide

theorem complete_of_meets (hprofile : options.boardProfile.isEmpty = false) (hsome : candidates ≠ [])
    (hmeets : List.Forall₂ (fun frame required => required frame = true)
      (candidates.take target) (requirements options candidates)) : (buildCoverage options candidates).complete = true := by
  refine complete_of_requirements hprofile hsome ?_
  intro p hp
  obtain ⟨hlen, hmeets⟩ := forall₂_iff_get.mp hmeets
  obtain ⟨i, rfl⟩ := mem_iff_get.mp hp
  have hi : (i : Nat) < (candidates.take target).length := by
    rw [hlen]
    exact i.isLt
  exact any_eq_true.mpr ⟨_, mem_of_mem_take (get_mem _ ⟨i, hi⟩), hmeets i hi i.isLt⟩

theorem wideCapture_meets : List.Forall₂ (fun frame required => required frame = true) (wideCapture.take 17)
    (requirements { boardProfile := "q12-70-5" } wideCapture) :=
  requiredFrames_meet minArea_wideCapture maxArea_wideCapture

/-- The candidates cover everything. -/
theorem wideCapture_complete : (buildCoverage { boardProfile := "q12-70-5" } wideCapture).complete = true :=
  complete_of_meets (by decide) (by simp [wideCapture]) wideCapture_meets

/-! ## Candidates whose least area is required -/

noncomputable def steadyFrames : List AcceptedFrame := posed 0 0 0.10 :: requiredFrames.tail

/-- Candidates whose least area is required. -/
noncomputable def steadyCapture : List AcceptedFrame := steadyFrames ++ [posed 0 0 0.19]

theorem steadyCapture_area (h : frame ∈ steadyCapture) : 0.10 ≤ frame.area ∧ frame.area ≤ 0.80 := by
  rcases List.mem_append.mp h with h | h
  · rcases List.mem_cons.mp h with rfl | h
    · norm_num [posed]
    · exact wideCapture_area (mem_append_left _ (mem_of_mem_tail h))
  · rw [List.mem_singleton.mp h]
    norm_num [posed]

theorem mem_steadyFrames (h : frame ∈ [posed 0 0 0.10, posed 0 0 0.80, posed 0 0 0.21]) : frame ∈ steadyFrames := by
  simp only [List.mem_cons, List.not_mem_nil, or_false] at h
  rcases h with rfl | rfl | rfl <;> simp [steadyFrames, requiredFrames]

/-- **Frames with the required ones have the whole range**, and one in its middle. -/
theorem coversAreas_of_steadyFrames (hsteady : ∀ frame ∈ steadyFrames, frame ∈ frames)
    (hframes : ∀ frame ∈ frames, frame ∈ steadyCapture) : CoversAreas frames := by
  have hmin : minArea frames = 0.10 :=
    minArea_eq ⟨_, hsteady _ (mem_steadyFrames mem_cons_self), rfl⟩
      fun _ h => (steadyCapture_area (hframes _ h)).1
  have hmax : maxArea frames = 0.80 :=
    maxArea_eq ⟨_, hsteady (posed 0 0 0.80) (mem_steadyFrames (by simp)), rfl⟩
      fun _ h => (steadyCapture_area (hframes _ h)).2
  refine ⟨?_, ?_, posed 0 0 0.21, hsteady _ (mem_steadyFrames (by simp)), ?_⟩
  all_goals
    rw [hmin]
    try rw [hmax]
    norm_num [posed]

theorem steadyCapture_meets : List.Forall₂ (fun frame required => required frame = true) (steadyCapture.take 17)
    (requirements { boardProfile := "q12-70-5" } steadyCapture) := by
  have hfirst := minArea_eq ⟨_, mem_append_left _ (mem_steadyFrames mem_cons_self), rfl⟩
    fun _ h => (steadyCapture_area h).1
  have hlast : maxArea steadyCapture = 0.80 :=
    maxArea_eq ⟨posed 0 0 0.80, mem_append_left _ (mem_steadyFrames (by simp)), rfl⟩
      fun _ h => (steadyCapture_area h).2
  have hmeets := requiredFrames_meet hfirst hlast
  show List.Forall₂ _ (posed 0 0 0.10 :: requiredFrames.tail) _
  revert hmeets
  unfold requirements
  rw [if_neg (by decide)]
  intro hmeets
  -- only the frame in front is another
  refine .cons ?_ (List.forall₂_cons.mp hmeets).2
  norm_num [isFront, posed]

theorem steadyCapture_choices : ChoicesCoverDistances { boardProfile := "q12-70-5" } steadyCapture 17 := by
  intro choice _ _ hrequired
  apply coversAreas_of_steadyFrames
  · intro frame hframe
    have htaken : frame ∈ ((List.finRange steadyCapture.length).take 17).map steadyCapture.get := by
      rw [List.map_take, List.map_get_finRange]
      exact hframe
    obtain ⟨i, hi, rfl⟩ := List.mem_map.mp htaken
    rw [← addRequired_in_order steadyCapture_meets] at hi
    exact mem_map_of_mem (hrequired i hi)
  · intro frame hframe
    obtain ⟨i, -, rfl⟩ := List.mem_map.mp hframe
    exact get_mem steadyCapture i

/-! ## The law -/

/-- **The selection keeps the coverage for all distances above -1, just when every choice of as many candidates with the
required ones has the three scales**; for all real distances, just when the loop also turns once at most. -/
theorem keepsCoverage_iff (hprofile : options.boardProfile.isEmpty = false) (htarget : 17 ≤ target) :
    ((∀ featureDistance : AcceptedFrame → AcceptedFrame → ℝ, (∀ left right, -1 < featureDistance left right) →
        Kept options featureDistance candidates target) ↔
      ((buildCoverage options candidates).complete = true → ChoicesCoverDistances options candidates target)) ∧
    ((∀ featureDistance : AcceptedFrame → AcceptedFrame → ℝ, Kept options featureDistance candidates target) ↔
      ((buildCoverage options candidates).complete = true → ChoicesCoverDistances options candidates target) ∧
        TurnsOnce options candidates target) := by
  constructor
  · constructor
    · exact choicesCoverDistances hprofile htarget
    · intro hchoices featureDistance hdistance
      refine kept_of_chosen hprofile htarget hchoices ?_
      intro hmore
      obtain ⟨first, -, hfirst⟩ := @keyframeIndices_eq options candidates target hmore
      rw [hfirst]
      exact selectedIndices_chosen htarget hmore hdistance first
  · constructor
    · intro hkept
      refine ⟨?_, turnsOnce_of_different htarget (hkept _).different⟩
      exact choicesCoverDistances hprofile htarget fun featureDistance _ => hkept featureDistance
    · rintro ⟨hchoices, hturns⟩ featureDistance
      refine kept_of_chosen hprofile htarget hchoices ?_
      intro hmore
      exact chosen_of_turnsOnce htarget hmore hturns

theorem keepsCoverage_iff_steadyCapture :
    steadyCapture.length = 18 ∧
      (buildCoverage { boardProfile := "q12-70-5" } steadyCapture).complete = true ∧
      ∀ featureDistance, Kept { boardProfile := "q12-70-5" } featureDistance steadyCapture 17 := by
  refine ⟨rfl, complete_of_meets (by decide) (by simp [steadyCapture]) steadyCapture_meets, ?_⟩
  refine (keepsCoverage_iff (by decide) (Nat.le_refl 17)).2.mpr ⟨fun _ => steadyCapture_choices, fun _ => .inl ?_⟩
  rw [addRequired_in_order steadyCapture_meets, length_take, length_finRange]
  rfl

/-- **Without the least area no required frame is in the middle of the range**, whatever the distances. -/
theorem not_keepsCoverage :
    ({ boardProfile := "q12-70-5" } : Options).boardProfile.isEmpty = false ∧
      (∀ frame ∈ wideCapture, 0 < frame.area) ∧
      (buildCoverage { boardProfile := "q12-70-5" } wideCapture).complete = true ∧
      ∀ featureDistance, ¬ Kept { boardProfile := "q12-70-5" } featureDistance wideCapture 17 := by
  refine ⟨by decide, fun frame hframe => lt_of_lt_of_le (by norm_num) (wideCapture_area hframe).1,
    wideCapture_complete, ?_⟩
  intro featureDistance hkept
  have hselected : selectKeyframes { boardProfile := "q12-70-5" } featureDistance wideCapture 17 = requiredFrames :=
    selectKeyframes_in_order (by decide) (by decide) wideCapture_meets
  have hdistance := distanceComplete_of_complete (hkept.coverage wideCapture_complete)
  rw [hselected] at hdistance
  unfold CoverageState.distanceComplete at hdistance
  rw [requiredFrames_mid, Bool.and_false, Bool.false_and] at hdistance
  cases hdistance

end Cockpit.Eunomia
