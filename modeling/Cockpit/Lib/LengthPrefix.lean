/-
  Units behind their lengths. The length of a unit of `256 ^ k` bytes or more loses its high bytes.
-/
import Cockpit.Lib.NetworkOrder

namespace LengthPrefix

open NetworkOrder List

/-- A unit behind its length, of `k` bytes in network byte order. -/
def frame (k : Nat) (unit : List UInt8) : List UInt8 := put k unit.length ++ unit

/-- One unit, and what is behind it. -/
def readFrame (k : Nat) (bytes : List UInt8) : Option (List UInt8 × List UInt8) :=
  let rest := bytes.drop k
  let length := field bytes 0 k
  if k ≤ bytes.length ∧ length ≤ rest.length then some (rest.take length, rest.drop length) else none

def readRounds (k : Nat) : Nat → List UInt8 → Option (List (List UInt8))
  | _, [] => some []
  | 0, _ :: _ => none
  | rounds + 1, byte :: bytes => do
    let (unit, rest) ← readFrame k (byte :: bytes)
    let units ← readRounds k rounds rest
    some (unit :: units)

/-- Units up to the end. -/
def readFrames (k : Nat) (bytes : List UInt8) : Option (List (List UInt8)) := readRounds k bytes.length bytes

variable {k : Nat} {unit : List UInt8}

theorem length_frame (k : Nat) (unit : List UInt8) : (frame k unit).length = k + unit.length := by
  unfold frame
  rw [length_append, length_put]

theorem readFrame_frame (h : unit.length < 256 ^ k) (rest : List UInt8) :
    readFrame k (frame k unit ++ rest) = some (unit, rest) := by
  have hlen : field (frame k unit ++ rest) 0 k = unit.length := by
    have hfield : field ([] ++ (put k unit.length ++ (unit ++ rest))) 0 k = unit.length :=
      field_append h rfl
    rwa [nil_append, ← append_assoc] at hfield
  have hdrop : (frame k unit ++ rest).drop k = unit ++ rest := by
    unfold frame
    rw [append_assoc, drop_left' (length_put k _)]
  have hbytes : (frame k unit ++ rest).length = k + (unit ++ rest).length := by
    unfold frame
    rw [append_assoc, length_append, length_put]
  unfold readFrame
  dsimp only
  rw [hlen, hdrop, hbytes, length_append, if_pos (by omega), take_left, drop_left]

variable {bytes : List UInt8}

theorem readFrame_eq_some {rest : List UInt8} (h : readFrame k bytes = some (unit, rest)) :
    k ≤ bytes.length ∧ bytes.drop k = unit ++ rest ∧ unit.length = field bytes 0 k := by
  unfold readFrame at h
  dsimp only at h
  split at h
  · rename_i hle
    injection h with h
    injection h with hunit hrest
    rw [← hunit, ← hrest]
    refine ⟨hle.1, (take_append_drop _ _).symm, ?_⟩
    rw [length_take]
    omega
  · cases h

theorem length_readFrame {rest : List UInt8} (h : readFrame k bytes = some (unit, rest)) : unit.length < 256 ^ k := by
  obtain ⟨hle, -, hlen⟩ := readFrame_eq_some h
  have hfield : field bytes 0 k < 256 ^ (bytes.take k).length := get_lt _
  rw [length_take, Nat.min_eq_left hle] at hfield
  omega

variable {units : List (List UInt8)}

theorem readRounds_frames (hk : 0 < k) (h : ∀ unit ∈ units, unit.length < 256 ^ k) {rounds : Nat}
    (hrounds : units.length ≤ rounds) : readRounds k rounds (units.flatMap (frame k)) = some units := by
  induction units generalizing rounds with
  | nil =>
    unfold readRounds
    split <;> first | rfl | contradiction
  | cons unit units ih =>
    rw [forall_mem_cons] at h
    rw [length_cons] at hrounds
    obtain ⟨rounds, rfl⟩ : ∃ n, rounds = n + 1 := ⟨rounds - 1, by omega⟩
    have hread := readFrame_frame h.1 (units.flatMap (frame k))
    have hrest := ih h.2 (show units.length ≤ rounds by omega)
    have hlong : 0 < (frame k unit ++ units.flatMap (frame k)).length := by
      rw [length_append, length_frame]
      omega
    obtain ⟨byte, bytes, hbytes⟩ := exists_cons_of_length_pos hlong
    rw [flatMap_cons]
    rw [hbytes] at hread ⊢
    rw [readRounds, hread, Option.bind_eq_bind, Option.bind_some]
    dsimp only
    rw [hrest]
    rfl

theorem length_readRounds {rounds : Nat} (h : readRounds k rounds bytes = some units) :
    ∀ unit ∈ units, unit.length < 256 ^ k := by
  induction rounds generalizing bytes units with
  | zero =>
    cases bytes with
    | nil =>
      obtain rfl := Option.some.inj h
      exact fun _ hmem => absurd hmem not_mem_nil
    | cons byte bytes => cases h
  | succ rounds ih =>
    cases bytes with
    | nil =>
      obtain rfl := Option.some.inj h
      exact fun _ hmem => absurd hmem not_mem_nil
    | cons byte bytes =>
      rw [readRounds, Option.bind_eq_bind, Option.bind_eq_some_iff] at h
      obtain ⟨⟨unit, rest⟩, hread, h⟩ := h
      rw [Option.bind_eq_bind, Option.bind_eq_some_iff] at h
      obtain ⟨units', hrest, h⟩ := h
      obtain rfl := Option.some.inj h
      exact List.forall_mem_cons.2 ⟨length_readFrame hread, ih hrest⟩

/-- **Units are read back** where their lengths fit, and only there. -/
theorem readFrames_frames_iff (hk : 0 < k) (units : List (List UInt8)) :
    readFrames k (units.flatMap (frame k)) = some units ↔ ∀ unit ∈ units, unit.length < 256 ^ k := by
  constructor
  · exact length_readRounds
  · intro h
    refine readRounds_frames hk h ?_
    -- No frame is empty.
    clear h
    induction units with
    | nil => exact Nat.le_refl 0
    | cons unit units ih =>
      rw [flatMap_cons, length_append, length_frame, length_cons]
      omega

end LengthPrefix
