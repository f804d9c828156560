/-
  Where things are in the shared frame mapping (`driver/camera/shared_memory/shared_frame_buffer.cc`): a header
  and two slots, each a slot header and `capacity` bytes of payload; every part begins at a multiple of 64.

  All of it is `size_t` arithmetic, which wraps; the `checked` functions do the same operations in the same
  order, and fault at the first that wraps. Only the writer stores the active slot, and stores zero and one.
-/
import Cockpit.Lib.CheckedMemory
import Cockpit.Lib.RoundUp

namespace Cockpit.Camera.FrameLayout

open CheckedMemory RoundUp

/-! ## The code -/

def kMagic : UInt32 := 0x43414D46
def kVersion : UInt32 := 3
def kSlotCount : UInt64 := 2
def kAlignment : UInt64 := 64

def maxSize : UInt64 := 0xFFFFFFFFFFFFFFFF

/-- `SharedHeader`; `alignas(64)` makes its 48 bytes of fields 64. -/
structure SharedHeader where
  magic : UInt32 := kMagic
  version : UInt32 := kVersion
  mappingSize : UInt64 := 0
  slotCapacity : UInt64 := 0
  initialized : UInt32 := 0
  activeSlot : UInt32 := 0
  generation : UInt64 := 0
  writerPid : UInt64 := 0
  deriving DecidableEq

def sizeofSharedHeader : UInt64 := 64

/-- By the size of a robust mutex. -/
def sizeofSharedSlot (mutexBytes : Nat) : Nat := roundUp (roundUp mutexBytes 8 + 76) 64

example : sizeofSharedSlot 40 = 128 ∧ sizeofSharedSlot 48 = 128 := by decide

/-- `AlignUp`. -/
def alignUp (value : UInt64) : UInt64 := (value + kAlignment - 1) &&& ~~~(kAlignment - 1)

/-- `TryAlignUp`. -/
def tryAlignUp (value : UInt64) : Option UInt64 :=
  if value > maxSize - (kAlignment - 1) then none else some (alignUp value)

section Layout

variable (mutexBytes : Nat)

def slotHeaderSize : UInt64 := alignUp (UInt64.ofNat (sizeofSharedSlot mutexBytes))

/-- From one slot to the next. -/
def slotStride (capacity : UInt64) : Option UInt64 :=
  match tryAlignUp capacity with
  | none => none
  | some payloadSize =>
    if payloadSize > maxSize - slotHeaderSize mutexBytes then none
    else some (slotHeaderSize mutexBytes + payloadSize)

/-- `MappingSize`. -/
def mappingSize (capacity : UInt64) : Option UInt64 :=
  match slotStride mutexBytes capacity with
  | none => none
  | some stride =>
    if stride > (maxSize - alignUp sizeofSharedHeader) / kSlotCount then none
    else some (alignUp sizeofSharedHeader + kSlotCount * stride)

/-- The address of a slot. -/
def slot (capacity : UInt64) (index : UInt32) : UInt64 :=
  alignUp sizeofSharedHeader + index.toUInt64 * (slotStride mutexBytes capacity).getD 0

/-- Behind the slot header. -/
def payload (slot : UInt64) : UInt64 := slot + slotHeaderSize mutexBytes

/-- The reader computes the layout from the capacity in the header. -/
def validateMapping (header : SharedHeader) (size : UInt64) : Except String UInt64 :=
  if size < alignUp sizeofSharedHeader then .error "shared frame mapping is too small"
  else if header.initialized ≠ 1 ∨ header.magic ≠ kMagic ∨ header.version ≠ kVersion then
    .error "shared frame mapping is not initialized or has an unsupported version"
  else if header.mappingSize ≠ size ∨ header.slotCapacity = 0 ∨ header.slotCapacity > maxSize ∨
      mappingSize mutexBytes header.slotCapacity ≠ some size then
    .error "shared frame mapping layout is invalid"
  else .ok header.slotCapacity

/-! ## The accesses -/

/-- So many bytes of the mapping from an offset on. -/
structure Extent where
  first : Nat
  bytes : Nat
  deriving DecidableEq

/-- No byte in common. -/
def Extent.Apart (a b : Extent) : Prop := a.first + a.bytes ≤ b.first ∨ b.first + b.bytes ≤ a.first

/-- Every byte inside. -/
def Extent.Within (a b : Extent) : Prop := b.first ≤ a.first ∧ a.first + a.bytes ≤ b.first + b.bytes

/-- The slot that is not active. -/
def publishTarget (active : UInt32) : UInt32 := ((active + 1).toUInt64 % kSlotCount).toUInt32

/-- What the writer copies to. -/
def publishAccess (capacity : UInt64) (active : UInt32) (size : UInt64) : Option Extent :=
  if size > capacity then none
  else some { first := (payload mutexBytes (slot mutexBytes capacity (publishTarget active))).toNat
              bytes := size.toNat }

/-- What a reader copies from. -/
def readLatestAccess (capacity : UInt64) (active : UInt32) (payloadSize : UInt64) : Option Extent :=
  if payloadSize > capacity then none
  else some { first := (payload mutexBytes (slot mutexBytes capacity active)).toNat
              bytes := payloadSize.toNat }

end Layout

/-- What is ever stored in `active_slot`: `Create` clears it, `Publish` stores its target. -/
inductive ActiveSlot : UInt32 → Prop
  | created : ActiveSlot 0
  | published {active : UInt32} (h : ActiveSlot active) : ActiveSlot (publishTarget active)

/-! ## The same with faults -/

def alignUpChecked (value : UInt64) : Except Fault UInt64 := do
  let raised ← add64 value kAlignment
  let last ← sub64 raised 1
  let mask ← sub64 kAlignment 1
  return last &&& ~~~mask

def tryAlignUpChecked (value : UInt64) : Except Fault (Option UInt64) := do
  let mask ← sub64 kAlignment 1
  let room ← sub64 maxSize mask
  if value > room then return none
  let aligned ← alignUpChecked value
  return some aligned

def slotHeaderSizeChecked (mutexBytes : Nat) : Except Fault UInt64 :=
  alignUpChecked (UInt64.ofNat (sizeofSharedSlot mutexBytes))

def slotStrideChecked (mutexBytes : Nat) (capacity : UInt64) : Except Fault (Option UInt64) := do
  match ← tryAlignUpChecked capacity with
  | none => return none
  | some payloadSize =>
    let headerSize ← slotHeaderSizeChecked mutexBytes
    let room ← sub64 maxSize headerSize
    if payloadSize > room then return none
    let stride ← add64 headerSize payloadSize
    return some stride

def mappingSizeChecked (mutexBytes : Nat) (capacity : UInt64) : Except Fault (Option UInt64) := do
  match ← slotStrideChecked mutexBytes capacity with
  | none => return none
  | some stride =>
    let headerSize ← alignUpChecked sizeofSharedHeader
    let room ← sub64 maxSize headerSize
    if stride > room / kSlotCount then return none
    let slots ← mul64 kSlotCount stride
    let size ← add64 headerSize slots
    return some size

def slotChecked (mutexBytes : Nat) (capacity : UInt64) (index : UInt32) : Except Fault UInt64 := do
  let stride ← slotStrideChecked mutexBytes capacity
  let headerSize ← alignUpChecked sizeofSharedHeader
  let before ← mul64 index.toUInt64 (stride.getD 0)
  add64 headerSize before

def payloadChecked (mutexBytes : Nat) (slot : UInt64) : Except Fault UInt64 := do
  let headerSize ← slotHeaderSizeChecked mutexBytes
  add64 slot headerSize

/-! ## Single operations -/

variable {value : UInt64}

theorem toNat_alignUp (h : value.toNat + 63 < 2 ^ 64) : (alignUp value).toNat = roundUp value.toNat 64 := by
  have hraised : (value + kAlignment - 1).toNat = value.toNat + 63 := by
    rw [UInt64.toNat_sub, UInt64.toNat_add]
    have halign : kAlignment.toNat = 64 := rfl
    have hone : (1 : UInt64).toNat = 1 := rfl
    omega
  rw [alignUp, UInt64.toNat_and, hraised]
  exact and_mask (k := 6) (by decide) h

theorem alignUpChecked_eq (h : value.toNat + 64 < 2 ^ 64) : alignUpChecked value = .ok (alignUp value) := by
  have hadd : add64 value kAlignment = .ok (value + kAlignment) := if_pos h
  have hle : (1 : UInt64) ≤ value + kAlignment := by
    rw [UInt64.le_iff_toNat_le, UInt64.toNat_add]
    have halign : kAlignment.toNat = 64 := rfl
    have hone : (1 : UInt64).toNat = 1 := rfl
    omega
  have hsub : sub64 (value + kAlignment) 1 = .ok (value + kAlignment - 1) := if_pos hle
  have hmask : sub64 kAlignment 1 = .ok (kAlignment - 1) := rfl
  simp only [alignUpChecked, hadd, hsub, hmask, bind, Except.bind]
  rfl

theorem alignUp_header : alignUp sizeofSharedHeader = 64 := by decide

theorem alignUpChecked_header : alignUpChecked sizeofSharedHeader = .ok 64 := by decide

theorem tryAlignUp_eq_some {aligned : UInt64} (h : tryAlignUp value = some aligned) :
    value.toNat + 63 < 2 ^ 64 ∧ aligned = alignUp value := by
  unfold tryAlignUp at h
  split at h
  · exact absurd h (by simp)
  · rename_i hroom
    refine ⟨?_, (Option.some.inj h).symm⟩
    rw [gt_iff_lt, UInt64.lt_iff_toNat_lt] at hroom
    have hmax : (maxSize - (kAlignment - 1)).toNat = 2 ^ 64 - 64 := rfl
    omega

theorem tryAlignUpChecked_eq (h : value.toNat + 64 < 2 ^ 64) :
    tryAlignUpChecked value = .ok (some (alignUp value)) := by
  have hmask : sub64 kAlignment 1 = .ok (kAlignment - 1) := rfl
  have hroom : sub64 maxSize (kAlignment - 1) = .ok (maxSize - (kAlignment - 1)) := rfl
  have hguard : ¬ value > maxSize - (kAlignment - 1) := by
    rw [gt_iff_lt, UInt64.lt_iff_toNat_lt]
    have hmax : (maxSize - (kAlignment - 1)).toNat = 2 ^ 64 - 64 := rfl
    omega
  simp only [tryAlignUpChecked, hmask, hroom, bind, Except.bind, if_neg hguard, alignUpChecked_eq h]
  rfl

/-! ## The layout -/

section Layout

variable {mutexBytes : Nat} {capacity size stride : UInt64}

section

variable (hmutex : sizeofSharedSlot mutexBytes < 2 ^ 63)
include hmutex

theorem toNat_slotHeaderSize : (slotHeaderSize mutexBytes).toNat = sizeofSharedSlot mutexBytes := by
  have hsize : (UInt64.ofNat (sizeofSharedSlot mutexBytes)).toNat = sizeofSharedSlot mutexBytes :=
    UInt64.toNat_ofNat_of_lt' (Nat.lt_trans hmutex (by decide))
  rw [slotHeaderSize, toNat_alignUp (by rw [hsize]; omega), hsize]
  exact roundUp_of_mod (by decide) (roundUp_mod _ _)

theorem slotHeaderSizeChecked_eq : slotHeaderSizeChecked mutexBytes = .ok (slotHeaderSize mutexBytes) := by
  have hsize : (UInt64.ofNat (sizeofSharedSlot mutexBytes)).toNat = sizeofSharedSlot mutexBytes :=
    UInt64.toNat_ofNat_of_lt' (Nat.lt_trans hmutex (by decide))
  exact alignUpChecked_eq (by rw [hsize]; omega)

theorem slotStride_eq_some (h : slotStride mutexBytes capacity = some stride) :
    tryAlignUp capacity = some (alignUp capacity) ∧
    (alignUp capacity).toNat = roundUp capacity.toNat 64 ∧
    stride = slotHeaderSize mutexBytes + alignUp capacity ∧
    stride.toNat = sizeofSharedSlot mutexBytes + roundUp capacity.toNat 64 := by
  unfold slotStride at h
  split at h
  · exact absurd h (by simp)
  · rename_i payloadSize haligned
    obtain ⟨hcapacity, rfl⟩ := tryAlignUp_eq_some haligned
    split at h
    · exact absurd h (by simp)
    · rename_i hroom
      obtain rfl := Option.some.inj h
      have hheader := toNat_slotHeaderSize hmutex
      have hpayload := toNat_alignUp hcapacity
      have hmax : maxSize.toNat = 2 ^ 64 - 1 := rfl
      have hle : slotHeaderSize mutexBytes ≤ maxSize := by
        rw [UInt64.le_iff_toNat_le]
        omega
      rw [gt_iff_lt, UInt64.lt_iff_toNat_lt, UInt64.toNat_sub_of_le _ _ hle] at hroom
      refine ⟨haligned, hpayload, rfl, ?_⟩
      rw [UInt64.toNat_add, Nat.mod_eq_of_lt (by omega), hheader, hpayload]

end

theorem mappingSize_eq_some (h : mappingSize mutexBytes capacity = some size) :
    ∃ stride, slotStride mutexBytes capacity = some stride ∧ stride ≤ (maxSize - 64) / kSlotCount ∧
      size = 64 + kSlotCount * stride ∧ size.toNat = 64 + 2 * stride.toNat := by
  unfold mappingSize at h
  split at h
  · exact absurd h (by simp)
  · rename_i stride hstride
    rw [alignUp_header] at h
    split at h
    · exact absurd h (by simp)
    · rename_i hroom
      obtain rfl := Option.some.inj h
      have hle : stride ≤ (maxSize - 64) / kSlotCount := by simpa using hroom
      refine ⟨stride, hstride, hle, rfl, ?_⟩
      rw [UInt64.le_iff_toNat_le] at hle
      have hquotient : ((maxSize - 64) / kSlotCount).toNat = 2 ^ 63 - 33 := by decide
      have hcount : kSlotCount.toNat = 2 := rfl
      have hsize : (64 : UInt64).toNat = 64 := rfl
      rw [UInt64.toNat_add, UInt64.toNat_mul, hcount, hsize]
      omega

/-- **No intermediate value wraps** where `MappingSize` succeeds. -/
theorem mappingSize_checked (hmutex : sizeofSharedSlot mutexBytes < 2 ^ 63)
    (h : mappingSize mutexBytes capacity = some size) :
    slotStrideChecked mutexBytes capacity = .ok (slotStride mutexBytes capacity) ∧
    mappingSizeChecked mutexBytes capacity = .ok (some size) := by
  obtain ⟨stride, hstride, hle, rfl, hsize⟩ := mappingSize_eq_some h
  obtain ⟨-, haligned, hsum, hnum⟩ := slotStride_eq_some hmutex hstride
  have hheader := toNat_slotHeaderSize hmutex
  have hcapacity := le_roundUp capacity.toNat (show 0 < 64 by decide)
  have hfits : stride.toNat ≤ 2 ^ 63 - 33 := UInt64.le_iff_toNat_le.1 hle
  have hmax : maxSize.toNat = 2 ^ 64 - 1 := rfl
  have hstrideChecked : slotStrideChecked mutexBytes capacity = .ok (some stride) := by
    have hroom : slotHeaderSize mutexBytes ≤ maxSize := by
      rw [UInt64.le_iff_toNat_le]
      omega
    have hsub : sub64 maxSize (slotHeaderSize mutexBytes) = .ok (maxSize - slotHeaderSize mutexBytes) :=
      if_pos hroom
    have hguard : ¬ alignUp capacity > maxSize - slotHeaderSize mutexBytes := by
      rw [gt_iff_lt, UInt64.lt_iff_toNat_lt, UInt64.toNat_sub_of_le _ _ hroom]
      omega
    have hadd : add64 (slotHeaderSize mutexBytes) (alignUp capacity) = .ok stride := by
      rw [hsum]
      exact if_pos (by omega)
    simp only [slotStrideChecked, tryAlignUpChecked_eq (show capacity.toNat + 64 < 2 ^ 64 by omega),
      slotHeaderSizeChecked_eq hmutex, hsub, bind, Except.bind, if_neg hguard, hadd]
    rfl
  refine ⟨hstrideChecked.trans (congrArg _ hstride.symm), ?_⟩
  have hsub : sub64 maxSize 64 = .ok (maxSize - 64) := rfl
  have hmul : mul64 kSlotCount stride = .ok (kSlotCount * stride) :=
    if_pos (by rw [show kSlotCount.toNat = 2 from rfl]; omega)
  have htwice : (kSlotCount * stride).toNat = 2 * stride.toNat := by
    rw [UInt64.toNat_mul, show kSlotCount.toNat = 2 from rfl]
    omega
  have hadd : add64 64 (kSlotCount * stride) = .ok (64 + kSlotCount * stride) :=
    if_pos (by rw [htwice, show (64 : UInt64).toNat = 64 from rfl]; omega)
  simp only [mappingSizeChecked, hstrideChecked, alignUpChecked_header, hsub, bind, Except.bind,
    if_neg (show ¬ stride > (maxSize - 64) / kSlotCount by simpa using hle), hmul, hadd]
  rfl

theorem slot_of_mappingSize (hmutex : sizeofSharedSlot mutexBytes < 2 ^ 63)
    (h : mappingSize mutexBytes capacity = some size) {index : UInt32} (hindex : index < 2) :
    ∃ stride, stride % 64 = 0 ∧ sizeofSharedSlot mutexBytes + capacity.toNat ≤ stride ∧
      size.toNat = 64 + 2 * stride ∧
      (slot mutexBytes capacity index).toNat = 64 + index.toNat * stride ∧
      (payload mutexBytes (slot mutexBytes capacity index)).toNat =
        64 + index.toNat * stride + sizeofSharedSlot mutexBytes ∧
      slotChecked mutexBytes capacity index = .ok (slot mutexBytes capacity index) ∧
      payloadChecked mutexBytes (slot mutexBytes capacity index) =
        .ok (payload mutexBytes (slot mutexBytes capacity index)) := by
  obtain ⟨stride, hstride, hle, hsize, hnum⟩ := mappingSize_eq_some h
  obtain ⟨-, -, -, hsum⟩ := slotStride_eq_some hmutex hstride
  have hheader := toNat_slotHeaderSize hmutex
  have hcapacity := le_roundUp capacity.toNat (show 0 < 64 by decide)
  have hmod : sizeofSharedSlot mutexBytes % 64 = 0 := roundUp_mod _ _
  have hmod' := roundUp_mod capacity.toNat 64
  have hfits : stride.toNat ≤ 2 ^ 63 - 33 := UInt64.le_iff_toNat_le.1 hle
  have hsmall : index.toNat < 2 := hindex
  have hproduct : index.toNat * stride.toNat ≤ stride.toNat := by
    rcases (show index.toNat = 0 ∨ index.toNat = 1 by omega) with h0 | h1
    · rw [h0]
      omega
    · rw [h1]
      omega
  have hbefore : (index.toUInt64 * stride).toNat = index.toNat * stride.toNat := by
    rw [UInt64.toNat_mul, UInt32.toNat_toUInt64]
    exact Nat.mod_eq_of_lt (by omega)
  have hslot : slot mutexBytes capacity index = 64 + index.toUInt64 * stride := by
    rw [slot, alignUp_header, hstride]
    rfl
  have hslotNumber : (slot mutexBytes capacity index).toNat = 64 + index.toNat * stride.toNat := by
    rw [hslot, UInt64.toNat_add, hbefore, show (64 : UInt64).toNat = 64 from rfl]
    exact Nat.mod_eq_of_lt (by omega)
  refine ⟨stride.toNat, by omega, by omega, hnum, hslotNumber, ?_, ?_, ?_⟩
  · rw [payload, UInt64.toNat_add, hslotNumber, hheader]
    exact Nat.mod_eq_of_lt (by omega)
  · obtain ⟨hchecked, -⟩ := mappingSize_checked hmutex h
    have hmul : mul64 index.toUInt64 stride = .ok (index.toUInt64 * stride) :=
      if_pos (by rw [UInt32.toNat_toUInt64]; omega)
    have hadd : add64 64 (index.toUInt64 * stride) = .ok (64 + index.toUInt64 * stride) :=
      if_pos (by rw [hbefore, show (64 : UInt64).toNat = 64 from rfl]; omega)
    simp only [slotChecked, hchecked, hstride, alignUpChecked_header, bind, Except.bind,
      Option.getD_some, hmul, hadd, hslot]
  · have hadd : add64 (slot mutexBytes capacity index) (slotHeaderSize mutexBytes) =
        .ok (payload mutexBytes (slot mutexBytes capacity index)) :=
      if_pos (by rw [hslotNumber, hheader]; omega)
    simp only [payloadChecked, slotHeaderSizeChecked_eq hmutex, bind, Except.bind, hadd]

end Layout

/-! ## The parts of a mapping -/

def headerExtent : Extent := { first := 0, bytes := sizeofSharedHeader.toNat }

/-- A slot with its payload. -/
def slotExtent (mutexBytes : Nat) (capacity : UInt64) (index : UInt32) : Extent :=
  { first := (slot mutexBytes capacity index).toNat
    bytes := sizeofSharedSlot mutexBytes + capacity.toNat }

def payloadExtent (mutexBytes : Nat) (capacity : UInt64) (index : UInt32) : Extent :=
  { first := (payload mutexBytes (slot mutexBytes capacity index)).toNat, bytes := capacity.toNat }

theorem Extent.Within.trans {a b c : Extent} (hab : a.Within b) (hbc : b.Within c) : a.Within c := by
  unfold Extent.Within at *
  omega

theorem publishTarget_lt (active : UInt32) : publishTarget active < 2 := by
  have hmod : ((active + 1).toUInt64 % kSlotCount).toNat < 2 := by
    rw [UInt64.toNat_mod]
    exact Nat.mod_lt _ (by decide)
  rw [publishTarget, UInt32.lt_iff_toNat_lt, UInt64.toNat_toUInt32]
  exact Nat.lt_of_le_of_lt (Nat.mod_le _ _) hmod

variable {active : UInt32}

theorem activeSlot_lt (h : ActiveSlot active) : active < 2 := by
  cases h with
  | created => decide
  | published _ => exact publishTarget_lt _

/-- What a mapping of this size and capacity promises. -/
structure SafeLayout (mutexBytes : Nat) (capacity size : UInt64) : Prop where
  sizeUnwrapped : mappingSizeChecked mutexBytes capacity = .ok (some size)
  slotUnwrapped : ∀ index < 2,
    slotChecked mutexBytes capacity index = .ok (slot mutexBytes capacity index) ∧
    payloadChecked mutexBytes (slot mutexBytes capacity index) =
      .ok (payload mutexBytes (slot mutexBytes capacity index))
  headerInside : headerExtent.Within { first := 0, bytes := size.toNat }
  slotInside : ∀ index < 2,
    (slotExtent mutexBytes capacity index).Within { first := 0, bytes := size.toNat }
  headerApart : ∀ index < 2, headerExtent.Apart (slotExtent mutexBytes capacity index)
  slotsApart : (slotExtent mutexBytes capacity 0).Apart (slotExtent mutexBytes capacity 1)
  aligned : ∀ index < 2, (slot mutexBytes capacity index).toNat % 64 = 0 ∧
    (payload mutexBytes (slot mutexBytes capacity index)).toNat % 64 = 0
  payloadBehind : ∀ index < 2,
    (payloadExtent mutexBytes capacity index).first =
      (slotExtent mutexBytes capacity index).first + sizeofSharedSlot mutexBytes ∧
    (payloadExtent mutexBytes capacity index).Within (slotExtent mutexBytes capacity index)

variable {mutexBytes : Nat} {capacity size : UInt64}

/-- The offsets are those of the numbers. -/
theorem layout_of_mappingSize (hmutex : sizeofSharedSlot mutexBytes < 2 ^ 63)
    (h : mappingSize mutexBytes capacity = some size) : SafeLayout mutexBytes capacity size := by
  -- the stride does not depend on the index
  obtain ⟨first, _, hroom, hsize, hfirst, -⟩ := slot_of_mappingSize hmutex h (show (0 : UInt32) < 2 by decide)
  have hheader : sizeofSharedHeader.toNat = 64 := rfl
  have hbounds : ∀ index < 2, (slot mutexBytes capacity index).toNat = 64 + index.toNat * first ∧
      index.toNat * first ≤ first := by
    intro index hindex
    obtain ⟨stride, _, _, hsize', hslot, -⟩ := slot_of_mappingSize hmutex h hindex
    have hsame : stride = first := by omega
    subst hsame
    have hsmall : index.toNat < 2 := hindex
    refine ⟨hslot, ?_⟩
    rcases (show index.toNat = 0 ∨ index.toNat = 1 by omega) with h0 | h1
    · rw [h0]
      omega
    · rw [h1]
      omega
  constructor
  · exact (mappingSize_checked hmutex h).2
  · intro index hindex
    obtain ⟨stride, -, -, -, -, -, hslot, hpayload⟩ := slot_of_mappingSize hmutex h hindex
    exact ⟨hslot, hpayload⟩
  · simp only [headerExtent, Extent.Within]
    omega
  · intro index hindex
    obtain ⟨hslot, hle⟩ := hbounds index hindex
    simp only [slotExtent, Extent.Within]
    omega
  · intro index hindex
    obtain ⟨hslot, -⟩ := hbounds index hindex
    simp only [headerExtent, slotExtent, Extent.Apart]
    omega
  · have h0 := (hbounds 0 (by decide)).1
    have h1 := (hbounds 1 (by decide)).1
    rw [show (0 : UInt32).toNat = 0 from rfl] at h0
    rw [show (1 : UInt32).toNat = 1 from rfl] at h1
    simp only [slotExtent, Extent.Apart]
    omega
  · intro index hindex
    obtain ⟨stride, hmod, -, -, hslot, hpayload, -⟩ := slot_of_mappingSize hmutex h hindex
    have hmul : index.toNat * stride % 64 = 0 := by
      rw [Nat.mul_mod, hmod, Nat.mul_zero, Nat.zero_mod]
    have hmutexMod : sizeofSharedSlot mutexBytes % 64 = 0 := roundUp_mod _ _
    omega
  · intro index hindex
    obtain ⟨stride, -, -, -, hslot, hpayload, -⟩ := slot_of_mappingSize hmutex h hindex
    simp only [payloadExtent, slotExtent, Extent.Within]
    omega

theorem publishAccess_within {bytes : UInt64} {access : Extent}
    (h : publishAccess mutexBytes capacity active bytes = some access) :
    access.Within (payloadExtent mutexBytes capacity (publishTarget active)) := by
  unfold publishAccess at h
  split at h
  · exact absurd h (by simp)
  · rename_i hguard
    obtain rfl := Option.some.inj h
    rw [gt_iff_lt, UInt64.lt_iff_toNat_lt] at hguard
    simp only [Extent.Within, payloadExtent]
    omega

theorem readLatestAccess_within {bytes : UInt64} {access : Extent}
    (h : readLatestAccess mutexBytes capacity active bytes = some access) :
    access.Within (payloadExtent mutexBytes capacity active) := by
  unfold readLatestAccess at h
  split at h
  · exact absurd h (by simp)
  · rename_i hguard
    obtain rfl := Option.some.inj h
    rw [gt_iff_lt, UInt64.lt_iff_toNat_lt] at hguard
    simp only [Extent.Within, payloadExtent]
    omega

theorem validateMapping_eq_ok {header : SharedHeader} (h : validateMapping mutexBytes header size = .ok capacity) :
    capacity = header.slotCapacity ∧ mappingSize mutexBytes header.slotCapacity = some size := by
  unfold validateMapping at h
  split at h
  · cases h
  · split at h
    · cases h
    · split at h
      · cases h
      · rename_i hcond
        simp only [not_or, Decidable.not_not] at hcond
        cases h
        exact ⟨rfl, hcond.2.2.2⟩

/-- **The layout of the shared mapping is safe** for every capacity that `MappingSize` takes, and the
    reader takes no other. -/
theorem sharedLayout_safe (mutexBytes : Nat) (hmutex : sizeofSharedSlot mutexBytes < 2 ^ 63) :
    (∀ capacity size : UInt64, mappingSize mutexBytes capacity = some size →
      SafeLayout mutexBytes capacity size ∧
      (∀ (active : UInt32) (bytes : UInt64) (access : Extent),
        publishAccess mutexBytes capacity active bytes = some access →
        access.Within { first := 0, bytes := size.toNat }) ∧
      (∀ (active : UInt32) (bytes : UInt64) (access : Extent), ActiveSlot active →
        readLatestAccess mutexBytes capacity active bytes = some access →
        access.Within { first := 0, bytes := size.toNat })) ∧
    (∀ (header : SharedHeader) (size capacity : UInt64),
      validateMapping mutexBytes header size = .ok capacity →
      capacity = header.slotCapacity ∧ mappingSize mutexBytes header.slotCapacity = some size) := by
  constructor
  · intro capacity size h
    have hlayout := layout_of_mappingSize hmutex h
    refine ⟨hlayout, ?_, ?_⟩
    · intro active bytes access haccess
      have hindex := publishTarget_lt active
      have hpayload := (hlayout.payloadBehind _ hindex).2
      exact ((publishAccess_within haccess).trans hpayload).trans (hlayout.slotInside _ hindex)
    · intro active bytes access hactive haccess
      have hindex := activeSlot_lt hactive
      have hpayload := (hlayout.payloadBehind _ hindex).2
      exact ((readLatestAccess_within haccess).trans hpayload).trans (hlayout.slotInside _ hindex)
  · intro header size capacity h
    exact validateMapping_eq_ok h

theorem sharedLayout_safe_hundred :
    SafeLayout 40 100 576 ∧ ∀ access : Extent, publishAccess 40 100 0 100 = some access →
      access.Within { first := 0, bytes := 576 } := by
  obtain ⟨hlayout, hpublish, -⟩ := (sharedLayout_safe 40 (by decide)).1 100 576 (by decide)
  exact ⟨hlayout, hpublish 0 100⟩

end Cockpit.Camera.FrameLayout
