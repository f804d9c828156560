/-
  Items chosen one at a time from a fixed list, over any type of items.
-/
import Mathlib.Data.List.Basic
import Mathlib.Order.Lattice

namespace GreedyChoice

open List

variable {ι : Type}

/-! ## One item for each requirement -/

section Each

variable [DecidableEq ι] {items : List ι} {limit : Nat}

/-- The first item that meets the requirement and was not taken, up to a limit. -/
def takeFresh (items : List ι) (limit : Nat) (taken : List ι) (p : ι → Bool) : List ι :=
  if limit ≤ taken.length then taken
  else
    match items.find? fun i => i ∉ taken && p i with
    | some i => taken ++ [i]
    | none => taken

/-- For each requirement in turn. -/
def takeEach (items : List ι) (limit : Nat) (ps : List (ι → Bool)) : List ι := ps.foldl (takeFresh items limit) []

/-- A fresh item is taken, or nothing. -/
theorem takeFresh_cases (items : List ι) (limit : Nat) (taken : List ι) (p : ι → Bool) :
    takeFresh items limit taken p = taken ∨
      ∃ i ∈ items, i ∉ taken ∧ p i = true ∧ takeFresh items limit taken p = taken ++ [i] := by
  unfold takeFresh
  split
  · exact .inl rfl
  split
  · rename_i i hi
    have hfound := List.find?_some hi
    simp only [Bool.and_eq_true, decide_eq_true_eq] at hfound
    exact .inr ⟨i, mem_of_find?_eq_some hi, hfound.1, hfound.2, rfl⟩
  · exact .inl rfl

variable {taken : List ι}

theorem takeFresh_nodup (h : taken.Nodup) (p : ι → Bool) : (takeFresh items limit taken p).Nodup := by
  rcases takeFresh_cases items limit taken p with hsame | ⟨i, -, hi, -, htaken⟩
  · rw [hsame]
    exact h
  · rw [htaken, nodup_append]
    refine ⟨h, by simp, ?_⟩
    intro j hj k hk hjk
    rw [mem_singleton.mp hk] at hjk
    exact hi (hjk ▸ hj)

theorem takeFresh_length_le (taken : List ι) (p : ι → Bool) :
    (takeFresh items limit taken p).length ≤ taken.length + 1 := by
  rcases takeFresh_cases items limit taken p with hsame | ⟨i, -, -, -, htaken⟩
  · rw [hsame]
    exact Nat.le_succ _
  · rw [htaken, length_append]
    exact Nat.le_refl _

theorem mem_takeFresh {i : ι} (h : i ∈ taken) (p : ι → Bool) : i ∈ takeFresh items limit taken p := by
  rcases takeFresh_cases items limit taken p with hsame | ⟨j, -, -, -, htaken⟩
  · rw [hsame]
    exact h
  · rw [htaken]
    exact mem_append_left _ h

theorem takeFresh_covers (hroom : taken.length < limit) {p : ι → Bool} {i : ι} (hi : i ∈ items) (hp : p i = true) :
    ∃ j ∈ takeFresh items limit taken p, p j = true := by
  unfold takeFresh
  rw [if_neg (Nat.not_le.mpr hroom)]
  split
  · rename_i j hj
    have hfound := List.find?_some hj
    simp only [Bool.and_eq_true] at hfound
    exact ⟨j, mem_append_right _ (mem_singleton.mpr rfl), hfound.2⟩
  · rename_i hnone
    -- no item is left that meets it, so the one there is was taken
    have htaken := List.find?_eq_none.mp hnone i hi
    simp only [Bool.and_eq_true, decide_eq_true_eq, not_and, hp, not_true_eq_false, imp_false, Decidable.not_not]
      at htaken
    exact ⟨i, htaken, hp⟩

theorem foldl_takeFresh (items : List ι) (limit : Nat) (ps : List (ι → Bool)) (taken : List ι)
    (hnodup : taken.Nodup) (hroom : taken.length + ps.length ≤ limit) :
    (ps.foldl (takeFresh items limit) taken).Nodup ∧
      (ps.foldl (takeFresh items limit) taken).length ≤ taken.length + ps.length ∧
      (∀ i ∈ taken, i ∈ ps.foldl (takeFresh items limit) taken) ∧
      ∀ p ∈ ps, (∃ i ∈ items, p i = true) → ∃ j ∈ ps.foldl (takeFresh items limit) taken, p j = true := by
  induction ps generalizing taken with
  | nil => exact ⟨hnodup, Nat.le_refl _, fun _ => id, nofun⟩
  | cons p ps ih =>
    rw [length_cons] at hroom
    have hlen := @takeFresh_length_le ι _ items limit taken p
    obtain ⟨hnodup', hlen', hmem, hcovers⟩ := ih (takeFresh items limit taken p) (takeFresh_nodup hnodup p) (by omega)
    rw [foldl_cons]
    refine ⟨hnodup', ?_, fun i hi => hmem i (mem_takeFresh hi p), ?_⟩
    · rw [length_cons]
      omega
    · intro q hq hmet
      rcases mem_cons.mp hq with rfl | hq
      · obtain ⟨i, hi, hp⟩ := hmet
        obtain ⟨j, hj, hp⟩ := takeFresh_covers (by omega : taken.length < limit) hi hp
        exact ⟨j, hmem j hj, hp⟩
      · exact hcovers q hq hmet

variable {ps : List (ι → Bool)}

/-- What is taken is taken once. -/
theorem takeEach_nodup (h : ps.length ≤ limit) : (takeEach items limit ps).Nodup :=
  (foldl_takeFresh items limit ps [] nodup_nil (by simpa using h)).1

theorem takeEach_length_le (h : ps.length ≤ limit) : (takeEach items limit ps).length ≤ ps.length := by
  have hlen := (foldl_takeFresh items limit ps [] nodup_nil (by simpa using h)).2.1
  rw [length_nil, Nat.zero_add] at hlen
  exact hlen

/-- **A requirement that some item meets is met by an item that is taken.** -/
theorem takeEach_covers (h : ps.length ≤ limit) {p : ι → Bool} (hp : p ∈ ps) (hmet : ∃ i ∈ items, p i = true) :
    ∃ j ∈ takeEach items limit ps, p j = true :=
  (foldl_takeFresh items limit ps [] nodup_nil (by simpa using h)).2.2.2 p hp hmet

theorem foldl_takeFresh_in_order {behind : List ι} {rest : List ι} (hitems : items = taken ++ rest ++ behind)
    (hnodup : items.Nodup) {ps : List (ι → Bool)} (hroom : taken.length + rest.length ≤ limit)
    (hmeets : List.Forall₂ (fun i p => p i = true) rest ps) :
    ps.foldl (takeFresh items limit) taken = taken ++ rest := by
  induction hmeets generalizing taken with
  | nil => rw [foldl_nil, append_nil]
  | @cons i p rest ps hp hmeets ih =>
    rw [length_cons] at hroom
    have hfind : items.find? (fun j => j ∉ taken && p j) = some i := by
      rw [hitems, append_assoc, List.find?_append, List.find?_eq_none.mpr, Option.none_or, cons_append,
        List.find?_cons_of_pos]
      · rw [hitems, append_assoc, nodup_append] at hnodup
        simp only [Bool.and_eq_true, decide_eq_true_eq, hp, and_true]
        exact fun hi => hnodup.2.2 i hi i (mem_append_left _ mem_cons_self) rfl
      · intro j hj
        simp [hj]
    have hstep : takeFresh items limit taken p = taken ++ [i] := by
      unfold takeFresh
      rw [if_neg (by omega), hfind]
    rw [foldl_cons, hstep, ih, append_assoc, singleton_append]
    · rw [hitems]
      simp
    · rw [length_append, length_singleton]
      omega

/-- **Where each item meets the requirement of its own number, these are the ones taken.** -/
theorem takeEach_in_order {rest behind : List ι} (hitems : items = rest ++ behind) (hnodup : items.Nodup)
    (hroom : rest.length ≤ limit) (hmeets : List.Forall₂ (fun i p => p i = true) rest ps) :
    takeEach items limit ps = rest :=
  foldl_takeFresh_in_order (by rw [hitems]; rfl) hnodup (by simpa using hroom) hmeets

end Each

/-! ## The best item -/

variable {D : Type} [LinearOrder D]

/-- The item with the best score that was not taken; the score may depend on what was. -/
def best (score : ι → D) (skips : ι → Bool) (items : List ι) (start : D × ι) : D × ι :=
  items.foldl (fun found i => if skips i then found else if found.1 < score i then (score i, i) else found) start

theorem best_cons (score : ι → D) (skips : ι → Bool) (i : ι) (items : List ι) (start : D × ι) :
    best score skips (i :: items) start =
      best score skips items (if skips i then start else if start.1 < score i then (score i, i) else start) := rfl

theorem best_spec (score : ι → D) (skips : ι → Bool) (items : List ι) (start : D × ι) :
    start.1 ≤ (best score skips items start).1 ∧
      (∀ i ∈ items, skips i = false → score i ≤ (best score skips items start).1) ∧
      (best score skips items start = start ∨
        (best score skips items start).2 ∈ items ∧ skips (best score skips items start).2 = false ∧
        score (best score skips items start).2 = (best score skips items start).1) := by
  induction items generalizing start with
  | nil => exact ⟨le_refl _, nofun, .inl rfl⟩
  | cons i items ih =>
    -- the start of the rest is the old one, or this item
    have hstep : ∀ next : D × ι, start.1 ≤ next.1 → (skips i = false → score i ≤ next.1) →
        (next = start ∨ next = (score i, i) ∧ skips i = false) →
        start.1 ≤ (best score skips items next).1 ∧
        (∀ j ∈ i :: items, skips j = false → score j ≤ (best score skips items next).1) ∧
        (best score skips items next = start ∨
          (best score skips items next).2 ∈ i :: items ∧ skips (best score skips items next).2 = false ∧
          score (best score skips items next).2 = (best score skips items next).1) := by
      intro next hle hself hnext
      obtain ⟨hge, hall, hfound⟩ := ih next
      refine ⟨le_trans hle hge, ?_, ?_⟩
      · intro j hj hskips
        rcases mem_cons.mp hj with rfl | hj
        · exact le_trans (hself hskips) hge
        · exact hall j hj hskips
      · rcases hfound with hfound | ⟨hmem, hskips, hscore⟩
        · rcases hnext with rfl | ⟨rfl, hskips⟩
          · exact .inl hfound
          · rw [hfound]
            exact .inr ⟨mem_cons_self, hskips, rfl⟩
        · exact .inr ⟨mem_cons_of_mem i hmem, hskips, hscore⟩
    rw [best_cons]
    cases hskips : skips i with
    | true =>
      rw [if_pos rfl]
      exact hstep start (le_refl _) (fun h => nomatch hskips.symm.trans h) (.inl rfl)
    | false =>
      rw [if_neg Bool.false_ne_true]
      split <;> rename_i hlt
      · exact hstep (score i, i) (le_of_lt hlt) (fun _ => le_refl _) (.inr ⟨rfl, hskips⟩)
      · exact hstep start (le_refl _) (fun _ => not_lt.mp hlt) (.inl rfl)

/-- **The best item has the best score**, where some item has a score above the start. -/
theorem best_max {score : ι → D} {skips : ι → Bool} {items : List ι} {start : D × ι} {i : ι} (hi : i ∈ items)
    (hskips : skips i = false) (hstart : start.1 < score i) :
    (best score skips items start).2 ∈ items ∧ skips (best score skips items start).2 = false ∧
      ∀ j ∈ items, skips j = false → score j ≤ score (best score skips items start).2 := by
  obtain ⟨-, hall, hfound⟩ := best_spec score skips items start
  rcases hfound with hfound | ⟨hmem, hfresh, hscore⟩
  · have hle := hall i hi hskips
    rw [hfound] at hle
    exact absurd hle (not_le.mpr hstart)
  · rw [hscore]
    exact ⟨hmem, hfresh, hall⟩

/-! ## The filling -/

/-- As long as there is room. -/
def fill (next : List ι → ι) : Nat → List ι → List ι
  | 0, taken => taken
  | room + 1, taken => fill next room (taken ++ [next taken])

theorem fill_constant {next : List ι → ι} {i : ι} (hnext : ∀ taken, taken ≠ [] → next taken = i) (room : Nat)
    {taken : List ι} (h : taken ≠ []) : fill next room taken = taken ++ List.replicate room i := by
  induction room generalizing taken with
  | zero => exact (append_nil taken).symm
  | succ room ih =>
    rw [fill, hnext taken h, ih (by simp), append_assoc, singleton_append, replicate_succ]

/-- **Step lemma to run lemma**, for an invariant that knows the room that is left. -/
theorem fill_invariant {next : List ι → ι} {I : Nat → List ι → Prop}
    (hstep : ∀ room taken, I (room + 1) taken → I room (taken ++ [next taken])) {room : Nat} {taken : List ι}
    (h : I room taken) : I 0 (fill next room taken) := by
  induction room generalizing taken with
  | zero => exact h
  | succ room ih => exact ih (hstep room taken h)

end GreedyChoice
