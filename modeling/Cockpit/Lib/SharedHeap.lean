/-
  Objects with shared owners: an object lives until the last of its handles is released. The heap only counts
  the handles; whoever keeps them lists them.
-/
import Mathlib.Data.List.Perm.Basic

/-- `useCount`: how many handles there are of an object; `alive`: the objects that there are. -/
structure SharedHeap (α : Type) where
  useCount : α → Nat
  alive : List α

namespace SharedHeap

open List Function

variable {α : Type} [DecidableEq α] {heap : SharedHeap α} {handles handles' : List α} {a b : α}

def empty : SharedHeap α where
  useCount := fun _ => 0
  alive := []

/-- A new object, with one handle. -/
def make (heap : SharedHeap α) (a : α) : SharedHeap α where
  useCount := update heap.useCount a 1
  alive := a :: heap.alive

/-- One more handle. -/
def copy (heap : SharedHeap α) (a : α) : SharedHeap α :=
  { heap with useCount := update heap.useCount a (heap.useCount a + 1) }

/-- One less; the last one ends the object. -/
def release (heap : SharedHeap α) (a : α) : SharedHeap α × Bool :=
  if heap.useCount a = 1 then
    ({ useCount := update heap.useCount a 0, alive := heap.alive.erase a }, true)
  else ({ heap with useCount := update heap.useCount a (heap.useCount a - 1) }, false)

/-- The handles are all that there are. -/
structure Owned (heap : SharedHeap α) (handles : List α) : Prop where
  count : ∀ a, heap.useCount a = handles.count a
  alive : ∀ a, a ∈ heap.alive ↔ a ∈ handles
  nodup : heap.alive.Nodup

theorem owned_empty : (empty : SharedHeap α).Owned [] where
  count := fun _ => rfl
  alive := fun _ => Iff.rfl
  nodup := nodup_nil

theorem Owned.perm (h : heap.Owned handles) (hperm : handles.Perm handles') : heap.Owned handles' where
  count := fun a => (h.count a).trans (hperm.count_eq a)
  alive := fun a => (h.alive a).trans hperm.mem_iff
  nodup := h.nodup

theorem count_cons_update {f : α → Nat} {n : Nat} (hf : ∀ b, b ≠ a → f b = handles.count b)
    (hn : n = handles.count a + 1) : ∀ b, update f a n b = (a :: handles).count b := by
  intro b
  by_cases hb : b = a
  · subst hb
    rw [update_self, count_cons_self, hn]
  · rw [update_of_ne hb, count_cons_of_ne (Ne.symm hb), hf b hb]

theorem Owned.make (h : heap.Owned handles) (ha : a ∉ handles) : (heap.make a).Owned (a :: handles) where
  count := count_cons_update (fun b _ => h.count b) (by rw [count_eq_zero_of_not_mem ha])
  alive := fun b => by
    change b ∈ a :: heap.alive ↔ b ∈ a :: handles
    rw [mem_cons, mem_cons, h.alive]
  nodup := nodup_cons.mpr ⟨fun hmem => ha ((h.alive a).mp hmem), h.nodup⟩

theorem Owned.copy (h : heap.Owned handles) (ha : a ∈ handles) : (heap.copy a).Owned (a :: handles) where
  count := count_cons_update (fun b _ => h.count b) (by rw [h.count])
  alive := fun b => by
    change b ∈ heap.alive ↔ b ∈ a :: handles
    rw [h.alive, mem_cons]
    exact ⟨.inr, fun hb => hb.elim (fun heq => heq ▸ ha) id⟩
  nodup := h.nodup

section

variable (h : heap.Owned (a :: handles))
include h

theorem Owned.release_last : (heap.release a).2 = true ↔ a ∉ handles := by
  have hcount := h.count a
  rw [count_cons_self] at hcount
  unfold release
  split
  case isTrue hone =>
    refine iff_of_true rfl fun hmem => ?_
    have := count_pos_iff.mpr hmem
    omega
  case isFalse hmore =>
    refine iff_of_false nofun fun hnot => hmore ?_
    rw [hcount, count_eq_zero_of_not_mem hnot]

theorem Owned.alive_release : (heap.release a).1.alive = if a ∈ handles then heap.alive else heap.alive.erase a := by
  have hlast := h.release_last
  unfold release at hlast ⊢
  split
  case isTrue hone =>
    rw [if_pos hone] at hlast
    rw [if_neg (hlast.mp rfl)]
  case isFalse hmore =>
    rw [if_neg hmore] at hlast
    rw [if_pos (not_not.mp fun hnot => nomatch hlast.mpr hnot)]

theorem Owned.release : (heap.release a).1.Owned handles where
  count := fun b => by
    have hcount := h.count b
    unfold SharedHeap.release
    by_cases hb : b = a
    · subst hb
      rw [count_cons_self] at hcount
      split
      all_goals simp only [update_self]
      all_goals omega
    · rw [count_cons_of_ne (Ne.symm hb)] at hcount
      split
      all_goals simp only [update_of_ne hb, hcount]
  alive := fun b => by
    rw [h.alive_release]
    split
    case isTrue hmem =>
      rw [h.alive, mem_cons]
      exact ⟨fun hb => hb.elim (fun heq => heq ▸ hmem) id, .inr⟩
    case isFalse hnot =>
      rw [h.nodup.mem_erase_iff, h.alive, mem_cons]
      exact ⟨fun hb => hb.2.resolve_left hb.1, fun hb => ⟨fun heq => hnot (heq ▸ hb), .inr hb⟩⟩
  nodup := by
    rw [h.alive_release]
    split
    · exact h.nodup
    · exact h.nodup.erase a

end

end SharedHeap
