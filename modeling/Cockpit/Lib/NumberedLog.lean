/-
  A log whose entries are numbered from 1 on, of which only the end is kept. A reader keeps the number of the
  last entry that it has got.
-/
import Mathlib.Data.List.Basic

namespace NumberedLog

variable {α : Type} {key : α → Nat} {log : List α} {a : α}

/-- By their places. -/
def Numbered (key : α → Nat) (log : List α) : Prop := ∀ i a, log[i]? = some a → key a = i + 1

theorem Numbered.nil : Numbered key [] := by
  intro i a h
  simp at h

section

variable (h : Numbered key log)
include h

theorem Numbered.snoc (ha : key a = log.length + 1) : Numbered key (log ++ [a]) := by
  intro i b hb
  rcases Nat.lt_trichotomy i log.length with hi | rfl | hi
  · rw [List.getElem?_append_left hi] at hb
    exact h i b hb
  · rw [List.getElem?_concat_length] at hb
    cases hb
    exact ha
  · rw [List.getElem?_eq_none (by simp; omega)] at hb
    cases hb

theorem Numbered.getElem?_key (ha : a ∈ log) : 0 < key a ∧ log[key a - 1]? = some a := by
  obtain ⟨i, hi⟩ := List.mem_iff_getElem?.mp ha
  have hkey := h i a hi
  rw [hkey]
  exact ⟨Nat.succ_pos i, hi⟩

theorem Numbered.key_le (ha : a ∈ log) : key a ≤ log.length := by
  obtain ⟨hpos, hget⟩ := h.getElem?_key ha
  have hlt := (List.getElem?_eq_some_iff.mp hget).1
  omega

theorem Numbered.exists_key {v : Nat} (hpos : 0 < v) (hle : v ≤ log.length) : ∃ a ∈ log, key a = v := by
  have hlt : v - 1 < log.length := by omega
  refine ⟨log[v - 1], List.getElem_mem hlt, ?_⟩
  have hkey := h (v - 1) _ (List.getElem?_eq_getElem hlt)
  omega

theorem Numbered.mem_drop_iff (dropped : Nat) : a ∈ log.drop dropped ↔ a ∈ log ∧ dropped < key a := by
  constructor
  · intro ha
    obtain ⟨i, hi⟩ := List.mem_iff_getElem?.mp ha
    rw [List.getElem?_drop] at hi
    refine ⟨List.mem_of_mem_drop ha, ?_⟩
    have hkey := h (dropped + i) a hi
    omega
  · rintro ⟨ha, hkey⟩
    obtain ⟨-, hget⟩ := h.getElem?_key ha
    refine List.mem_iff_getElem?.mpr ⟨key a - 1 - dropped, ?_⟩
    rw [List.getElem?_drop, show dropped + (key a - 1 - dropped) = key a - 1 by omega]
    exact hget

end

theorem find?_of_consecutive {base : Nat} {l : List α}
    (h : ∀ i a, l[i]? = some a → key a = base + i + 1) (cursor : Nat) :
    l.find? (fun a => cursor < key a) = l[cursor - base]? := by
  induction l generalizing base with
  | nil => rfl
  | cons a l ih =>
    have ha : key a = base + 1 := h 0 a rfl
    by_cases hcursor : cursor < base + 1
    · rw [List.find?_cons_of_pos (by simpa [ha] using hcursor), show cursor - base = 0 by omega]
      rfl
    · have hrest : ∀ i b, l[i]? = some b → key b = base + 1 + i + 1 := by
        intro i b hb
        have := h (i + 1) b (by rw [List.getElem?_cons_succ]; exact hb)
        omega
      rw [List.find?_cons_of_neg (by simpa [ha] using hcursor), ih hrest,
        show cursor - base = cursor - (base + 1) + 1 by omega, List.getElem?_cons_succ]

/-- **The next entry for a cursor**: the one after it, or the oldest that is kept. -/
theorem Numbered.find?_beyond (h : Numbered key log) (dropped cursor : Nat) :
    (log.drop dropped).find? (fun a => cursor < key a) = log[max cursor dropped]? := by
  have hkept : ∀ i a, (log.drop dropped)[i]? = some a → key a = dropped + i + 1 := by
    intro i a ha
    rw [List.getElem?_drop] at ha
    exact h (dropped + i) a ha
  rw [find?_of_consecutive hkept, List.getElem?_drop]
  congr 1
  omega

end NumberedLog
