/-
  Lists in which one entry is replaced, or one is added at the end.

  A state that keeps a table of calls, messages or records as a list changes it with `List.modify` and
  with `l ++ [a]`.  These are the few facts that invariants over such a table need: where an entry of
  the new list comes from, and what is the same as before.
-/

namespace ListUpdate

open List

variable {α β : Type} {l : List α} {n : Nat} {f : α → α}

theorem getElem?_snoc {a b : α} : (l ++ [a])[n]? = some b ↔ l[n]? = some b ∨ (n = l.length ∧ a = b) := by
  rcases Nat.lt_trichotomy n l.length with hlt | rfl | hgt
  · rw [List.getElem?_append_left hlt]
    exact ⟨.inl, fun h => h.resolve_right fun h => absurd h.1 (Nat.ne_of_lt hlt)⟩
  · rw [List.getElem?_concat_length, List.getElem?_eq_none (Nat.le_refl _)]
    simp
  · rw [List.getElem?_eq_none (by rw [length_append, length_singleton]; omega),
      List.getElem?_eq_none (Nat.le_of_lt hgt)]
    simp only [reduceCtorEq, false_or, false_iff, not_and]
    intro heq
    omega

theorem mem_snoc {a b : α} : b ∈ l ++ [a] ↔ b ∈ l ∨ b = a := by
  rw [mem_append, mem_singleton]

theorem nodup_snoc {l : List α} {a : α} (h : l.Nodup) (ha : a ∉ l) : (l ++ [a]).Nodup := by
  refine nodup_append.mpr ⟨h, nodup_cons.mpr ⟨not_mem_nil, nodup_nil⟩, ?_⟩
  rintro b hb c hc rfl
  exact ha (mem_singleton.mp hc ▸ hb)

theorem mem_modify {b : α} (h : b ∈ l.modify n f) : b ∈ l ∨ ∃ a, l[n]? = some a ∧ b = f a := by
  obtain ⟨m, hm⟩ := List.getElem?_of_mem h
  rw [List.getElem?_modify] at hm
  obtain ⟨a, ha, rfl⟩ := Option.map_eq_some_iff.1 hm
  split
  case isTrue heq =>
    subst heq
    exact .inr ⟨a, ha, rfl⟩
  case isFalse => exact .inl (mem_of_getElem? ha)

theorem map_modify {g : α → β} (h : ∀ a, g (f a) = g a) (l : List α) (n : Nat) : (l.modify n f).map g = l.map g := by
  induction l generalizing n with
  | nil => simp
  | cons x l ih =>
    cases n with
    | zero => rw [modify_zero_cons, map_cons, map_cons, h]
    | succ n => rw [modify_succ_cons, map_cons, map_cons, ih]

theorem filter_modify {c : α → Bool} {a : α} (h : l[n]? = some a) (hbefore : c a = false)
    (hafter : ∀ m b, n < m → l[m]? = some b → c b = false) :
    (l.modify n f).filter c = l.filter c ++ if c (f a) then [f a] else [] := by
  induction l generalizing n with
  | nil => cases h
  | cons x l ih =>
    cases n with
    | zero =>
      obtain rfl : x = a := Option.some.inj h
      have hnil : l.filter c = [] := by
        rw [filter_eq_nil_iff]
        intro b hb
        obtain ⟨m, hm⟩ := List.getElem?_of_mem hb
        rw [hafter (m + 1) b (Nat.succ_pos m) hm]
        decide
      rw [modify_zero_cons, filter_cons_of_neg (l := l) (a := x) (by simp [hbefore]), hnil,
        nil_append, filter_cons, hnil]
    | succ n =>
      have hrest := ih (n := n) h fun m b hlt hb => hafter (m + 1) b (by omega) hb
      rw [modify_succ_cons, filter_cons, filter_cons, hrest]
      split <;> rfl

end ListUpdate
