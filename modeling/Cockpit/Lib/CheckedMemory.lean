/-
  Unsigned sizes and memory accesses that say where they go wrong: a size that does not fit its type and an
  access outside of its memory are faults.
-/
import Mathlib.Algebra.Group.Nat.Defs
import Mathlib.Data.List.TakeDrop

namespace CheckedMemory

open List

/-- What C++ would let pass. -/
inductive Fault where
  | wraps
  | outside
  deriving DecidableEq

/-! ## Sizes -/

/-- A product of 32 bits. -/
def mul32 (a b : UInt32) : Except Fault UInt32 := if a.toNat * b.toNat < 2 ^ 32 then .ok (a * b) else .error .wraps

def sub32 (a b : UInt32) : Except Fault UInt32 := if b ≤ a then .ok (a - b) else .error .wraps

def mul64 (a b : UInt64) : Except Fault UInt64 := if a.toNat * b.toNat < 2 ^ 64 then .ok (a * b) else .error .wraps

def add64 (a b : UInt64) : Except Fault UInt64 := if a.toNat + b.toNat < 2 ^ 64 then .ok (a + b) else .error .wraps

def sub64 (a b : UInt64) : Except Fault UInt64 := if b ≤ a then .ok (a - b) else .error .wraps

theorem mul32_eq {a b : UInt32} (h : a.toNat * b.toNat < 2 ^ 32) :
    ∃ c, mul32 a b = .ok c ∧ c.toNat = a.toNat * b.toNat :=
  ⟨a * b, if_pos h, (UInt32.toNat_mul a b).trans (Nat.mod_eq_of_lt h)⟩

theorem sub32_eq {a b : UInt32} (h : b.toNat ≤ a.toNat) : ∃ c, sub32 a b = .ok c ∧ c.toNat = a.toNat - b.toNat := by
  have hle : b ≤ a := UInt32.le_iff_toNat_le.mpr h
  exact ⟨a - b, if_pos hle, UInt32.toNat_sub_of_le _ _ hle⟩

theorem mul64_eq {a b : UInt64} (h : a.toNat * b.toNat < 2 ^ 64) :
    ∃ c, mul64 a b = .ok c ∧ c.toNat = a.toNat * b.toNat :=
  ⟨a * b, if_pos h, (UInt64.toNat_mul a b).trans (Nat.mod_eq_of_lt h)⟩

theorem add64_eq {a b : UInt64} (h : a.toNat + b.toNat < 2 ^ 64) :
    ∃ c, add64 a b = .ok c ∧ c.toNat = a.toNat + b.toNat :=
  ⟨a + b, if_pos h, (UInt64.toNat_add a b).trans (Nat.mod_eq_of_lt h)⟩

/-! ## Accesses -/

variable {α β : Type}

/-- One element. -/
def read (memory : List α) (index : Nat) : Except Fault α :=
  match memory[index]? with
  | some a => .ok a
  | none => .error .outside

/-- One element. -/
def write (memory : List α) (index : Nat) (a : α) : Except Fault (List α) :=
  if index < memory.length then .ok (memory.set index a) else .error .outside

/-- Consecutive elements of a source. -/
def slice (source : Nat → α) (offset count : Nat) : List α := (List.range count).map fun i => source (offset + i)

/-- `memcpy`. -/
def copyInto (memory : List α) (index : Nat) (source : Nat → α) (size offset count : Nat) : Except Fault (List α) :=
  if offset + count ≤ size ∧ index + count ≤ memory.length then
    .ok (memory.take index ++ (slice source offset count ++ memory.drop (index + count)))
  else .error .outside

variable {memory : List α} {index : Nat}

theorem write_eq (h : index < memory.length) (a : α) :
    ∃ memory', write memory index a = .ok memory' ∧ memory'.length = memory.length :=
  ⟨memory.set index a, if_pos h, length_set⟩

theorem write_outside (h : memory.length ≤ index) (a : α) : write memory index a = .error .outside :=
  if_neg (Nat.not_lt.mpr h)

theorem length_write {a : α} {memory' : List α} (h : write memory index a = .ok memory') :
    memory'.length = memory.length := by
  unfold write at h
  split at h
  · cases h
    exact length_set
  · cases h

@[simp] theorem length_slice (source : Nat → α) (offset count : Nat) : (slice source offset count).length = count := by
  unfold slice
  rw [length_map, length_range]

theorem copyInto_eq (front old behind : List α) (source : Nat → α) {size offset : Nat}
    (hsource : offset + old.length ≤ size) :
    copyInto (front ++ (old ++ behind)) front.length source size offset old.length =
      .ok (front ++ (slice source offset old.length ++ behind)) := by
  have hfits : front.length + old.length ≤ (front ++ (old ++ behind)).length := by
    rw [length_append, length_append]
    omega
  have hdrop : (front ++ (old ++ behind)).drop (front.length + old.length) = behind := by
    rw [← append_assoc]
    exact drop_left' length_append
  unfold copyInto
  rw [if_pos ⟨hsource, hfits⟩, take_left, hdrop]

/-! ## Rows -/

theorem length_rows {f : Nat → List α} {n : Nat} (h : ∀ row, (f row).length = n) (count : Nat) :
    ((List.range count).flatMap f).length = count * n := by
  induction count with
  | zero => exact (Nat.zero_mul n).symm
  | succ count ih =>
    rw [range_succ, flatMap_append, length_append, ih, flatMap_singleton, h, Nat.succ_mul]

/-- Rows of one length are found again where they begin. -/
theorem take_drop_rows {f : Nat → List α} {n row count : Nat} (h : ∀ row, (f row).length = n) (hrow : row < count)
    (behind : List α) : (((List.range count).flatMap f ++ behind).drop (row * n)).take n = f row := by
  have hsplit : List.range count = List.range row ++ row :: (List.range count).drop (row + 1) := by
    have htake : (List.range count).take row = List.range row := by
      rw [take_range, Nat.min_eq_left (Nat.le_of_lt hrow)]
    have hlt : row < (List.range count).length := by rwa [length_range]
    have hcons := drop_eq_getElem_cons hlt
    rw [getElem_range] at hcons
    rw [← htake, ← hcons, take_append_drop]
  rw [hsplit, flatMap_append, flatMap_cons, append_assoc, append_assoc,
    drop_left' (length_rows h row), take_left' (h row)]

/-! ## Loops -/

theorem exists_of_bind {first : Except Fault α} {next : α → Except Fault β} {b : β} (h : first >>= next = .ok b) :
    ∃ a, first = .ok a ∧ next a = .ok b := by
  cases first with
  | error fault => cases h
  | ok a => exact ⟨a, rfl, h⟩

theorem foldlM_range_add (f : β → Nat → Except Fault β) (m n : Nat) (b : β) :
    (List.range (m + n)).foldlM f b = (List.range m).foldlM f b >>= (List.range n).foldlM fun b i => f b (m + i) := by
  rw [range_add, foldlM_append]
  simp only [foldlM_map]

/-- A loop may go by blocks. -/
theorem foldlM_blocks (f : β → Nat → Except Fault β) (m n : Nat) (b : β) :
    (List.range m).foldlM (fun b block => (List.range n).foldlM (fun b lane => f b (block * n + lane)) b) b =
      (List.range (m * n)).foldlM f b := by
  induction m with
  | zero =>
    rw [Nat.zero_mul]
    rfl
  | succ m ih =>
    rw [range_succ, foldlM_append, ih, Nat.succ_mul, foldlM_range_add]
    simp only [foldlM_cons, foldlM_nil, bind_pure]

variable {P : β → Prop} {f : β → α → Except Fault β} {l : List α} {b : β}

/-- What each access keeps, the loop keeps. -/
theorem foldlM_keeps (h : ∀ a ∈ l, ∀ b, P b → ∃ b', f b a = .ok b' ∧ P b') (hb : P b) :
    ∃ b', l.foldlM f b = .ok b' ∧ P b' := by
  induction l generalizing b with
  | nil => exact ⟨b, rfl, hb⟩
  | cons a l ih =>
    obtain ⟨b', hround, hb'⟩ := h a mem_cons_self b hb
    rw [foldlM_cons, hround]
    exact ih (fun a ha => h a (mem_cons_of_mem _ ha)) hb'

/-- A loop faults where one access does. -/
theorem foldlM_faults {a : α} (ha : a ∈ l) (hfault : ∀ b, P b → ∀ b', f b a ≠ .ok b')
    (hkeeps : ∀ a ∈ l, ∀ b, P b → ∀ b', f b a = .ok b' → P b') (hb : P b) (b' : β) : l.foldlM f b ≠ .ok b' := by
  induction l generalizing b with
  | nil => cases ha
  | cons first l ih =>
    rw [foldlM_cons]
    cases hround : f b first with
    | error fault => exact nofun
    | ok next =>
      rcases List.mem_cons.mp ha with rfl | ha
      · exact absurd hround (hfault b hb next)
      · exact ih ha (fun a ha => hkeeps a (mem_cons_of_mem _ ha))
          (hkeeps first mem_cons_self b hb next hround)

end CheckedMemory
