/-
  A list that is kept to its last `n` entries: what is appended pushes the oldest out.
-/
import Mathlib.Data.List.Nodup

namespace KeepLast

open List

variable {α : Type} {n : Nat} {l m before after : List α} {a : α}

/-- The last `n` entries. -/
def keepLast (n : Nat) (l : List α) : List α := l.drop (l.length - n)

theorem keepLast_suffix (n : Nat) (l : List α) : keepLast n l <:+ l := drop_suffix _ l

theorem length_keepLast_le (n : Nat) (l : List α) : (keepLast n l).length ≤ n := by
  unfold keepLast
  rw [length_drop]
  omega

theorem length_keepLast (h : n ≤ l.length) : (keepLast n l).length = n := by
  unfold keepLast
  rw [length_drop]
  omega

theorem keepLast_of_length_le (h : l.length ≤ n) : keepLast n l = l := by
  unfold keepLast
  rw [Nat.sub_eq_zero_of_le h, drop_zero]

theorem keepLast_cons (h : n ≤ l.length) (a : α) : keepLast n (a :: l) = keepLast n l := by
  unfold keepLast
  rw [length_cons, Nat.sub_add_comm h, drop_succ_cons]

theorem keepLast_append_of_le (h : n ≤ m.length) (l : List α) : keepLast n (l ++ m) = keepLast n m := by
  induction l with
  | nil => rfl
  | cons a l ih =>
    rw [cons_append, keepLast_cons (by rw [length_append]; omega), ih]

theorem keepLast_keepLast_append (n : Nat) (l m : List α) : keepLast n (keepLast n l ++ m) = keepLast n (l ++ m) := by
  by_cases h : l.length ≤ n
  · rw [keepLast_of_length_le h]
  · obtain ⟨before, hbefore⟩ := keepLast_suffix n l
    conv_rhs => rw [← hbefore, append_assoc]
    refine (keepLast_append_of_le ?_ before).symm
    rw [length_append, length_keepLast (by omega)]
    omega

theorem keepLast_split (h : after.length < n) (before : List α) (a : α) :
    ∃ kept, keepLast n (before ++ a :: after) = kept ++ a :: after := by
  refine ⟨before.drop ((before ++ a :: after).length - n), ?_⟩
  unfold keepLast
  refine drop_append_of_le_length ?_
  rw [length_append, length_cons]
  omega

theorem keepLast_push_out (h : n ≤ after.length) (before : List α) (a : α) :
    keepLast n (before ++ a :: after) = keepLast n after := by
  rw [append_cons, keepLast_append_of_le h]

theorem mem_keepLast_append (h : m.length ≤ n) (ha : a ∈ m) (l : List α) : a ∈ keepLast n (l ++ m) := by
  unfold keepLast
  rw [drop_append]
  refine mem_append_right _ ?_
  rwa [length_append, show l.length + m.length - n - l.length = 0 by omega, drop_zero]

end KeepLast
