/-
  What a reader of the shared frames gets: what it copies is one frame of the writer with its generation, and
  the generations go up along the runs in which no reader locks a slot ahead of the active one.
-/
import Cockpit.Camera.SharedFrameBuffer

namespace Cockpit.Camera

open List Function

/-! ## Accesses one after another -/

variable {n : Nat}

theorem applied_succ {α : Type} {accesses : List (α → α)} {access : α → α} (h : accesses[n]? = some access) (a : α) :
    applied accesses (n + 1) a = access (applied accesses n a) := by
  unfold applied
  rw [take_add_one, h, Option.toList_some, foldl_append]
  rfl

theorem applied_all {α : Type} {accesses : List (α → α)} (h : accesses[n]? = none) (a : α) :
    applied accesses n a = accesses.foldl (fun a access => access a) a := by
  unfold applied
  rw [take_of_length_le (List.getElem?_eq_none_iff.mp h)]

/-- The slot as one frame. -/
def copyOf (slot : SharedSlot) : FrameCopy where
  frame :=
    { sequence := slot.sequence
      timestampMs := slot.timestampMs
      sourceTimestampNs := slot.sourceTimestampNs
      receivedAtNs := slot.receivedAtNs
      sourceClock := slot.sourceClock
      sourceTimestampFlags := slot.sourceTimestampFlags
      sourceTimestampValid := slot.sourceTimestampValid
      width := slot.width
      height := slot.height
      strideBytes := slot.strideBytes
      format := slot.format
      data := slot.payload.take slot.payloadSize }
  generation := slot.generation

def readsOf (slot : SharedSlot) : List (FrameCopy → FrameCopy) := slotReads.map fun access => access slot

theorem applied_readsOf {slot : SharedSlot} (h : slotReads[n]? = none) (copy : FrameCopy) :
    applied (readsOf slot) n copy = copyOf slot := by
  rw [applied_all (by unfold readsOf; rw [List.getElem?_map, h]; rfl)]
  rfl

theorem copyOf_written {frame : CameraFrame} {next : Nat} (h : (slotWrites next frame)[n]? = none)
    (slot : SharedSlot) :
    copyOf (applied (slotWrites next frame) n slot) = { frame := frame, generation := next } := by
  rw [applied_all h]
  simp [slotWrites, copyOf]

theorem width_cleared (h : clearWrites[n]? = none) (slot : SharedSlot) : (applied clearWrites n slot).width = 0 := by
  rw [applied_all h]
  rfl

namespace SharedFrames

/-! ## The invariant -/

/-- The slot that a reader holds. -/
def reading : ReaderPc → Option (Fin 2)
  | .checkSize active | .copying active _ _ => some active
  | _ => none

variable {pc : ReaderPc}

theorem holds_of_reading {k : Fin 2} (h : reading pc = some k) : holds pc = some k := by
  cases pc <;> first | exact h | cases h

/-- Free, or with a reader. -/
def Readable (s : SharedFrames) (k : Fin 2) : Prop :=
  s.locks k = .free ∨ ∃ i, s.locks k = .held (.reader i) ∧ reading (s.readers i) = some k

/-- Filled, and not yet active. -/
def Ahead (s : SharedFrames) (k : Fin 2) : Prop := ∃ frame next, s.writer = .storeActive frame k next

def aheadSlot (s : SharedFrames) : Option (Fin 2) :=
  match s.writer with
  | .storeActive _ target _ => some target
  | _ => none

theorem aheadSlot_eq {s : SharedFrames} {k : Fin 2} : s.aheadSlot = some k ↔ s.Ahead k := by
  unfold aheadSlot Ahead
  cases s.writer with
  | storeActive frame target next =>
    constructor
    · rintro h
      cases h
      exact ⟨frame, next, rfl⟩
    · rintro ⟨_, _, h⟩
      cases h
      rfl
  | _ => exact ⟨nofun, nofun⟩

instance (s : SharedFrames) (k : Fin 2) : Decidable (s.Ahead k) := decidable_of_iff _ aheadSlot_eq

/-- The frame of a filled slot, until its generation is stored. -/
def finishing (s : SharedFrames) : List FrameCopy :=
  match s.writer with
  | .storeActive frame _ next | .storeGeneration frame next => [{ frame := frame, generation := next }]
  | _ => []

/-- The frames that a slot was filled with: their `Publish` has only its stores left, and returns true. -/
def filled (s : SharedFrames) : List FrameCopy := s.published ++ s.finishing

/-- The frames that were made active. -/
def known (s : SharedFrames) : List FrameCopy :=
  match s.writer with
  | .storeGeneration frame next => s.published ++ [{ frame := frame, generation := next }]
  | _ => s.published

/-- The generation of the active slot. -/
def activeGeneration (s : SharedFrames) : Nat :=
  match s.writer with
  | .storeGeneration _ next => next
  | _ => s.generation

/-- A readable slot that is not cleared holds a frame that was published, the newest if it is active. -/
structure FrameOk (s : SharedFrames) (k : Fin 2) : Prop where
  filled : copyOf (s.slots k) ∈ s.filled
  active : k = s.activeSlot → (s.slots k).generation = s.activeGeneration
  ahead : ∀ frame next, s.writer = .storeActive frame k next → (s.slots k).generation = next
  behind : ¬ s.Ahead k → (s.slots k).generation ≤ s.activeGeneration

/-- Cleared, or one known frame. -/
def SlotOk (s : SharedFrames) (k : Fin 2) : Prop := (s.slots k).width = 0 ∨ s.FrameOk k

/-- No read so far is newer. -/
def Before (reads : List FrameCopy) (generation : Nat) : Prop := ∀ copy ∈ reads, copy.generation ≤ generation

/-- What is read of this slot keeps the order, where order is claimed. -/
def MayRead (ordered : Prop) (s : SharedFrames) (reads : List FrameCopy) (k : Fin 2) : Prop :=
  ordered → (s.slots k).width ≠ 0 →
    Before reads (s.slots k).generation ∧ (s.slots k).generation ≤ s.activeGeneration

def ReaderPcOk (ordered : Prop) (s : SharedFrames) (reads : List FrameCopy) : ReaderPc → Prop
  | .lockSlot active =>
    ordered → s.Readable active → (s.slots active).width ≠ 0 → Before reads (s.slots active).generation
  | .clearing active done => ∃ slot, s.slots active = applied clearWrites done slot
  | .checkSize active => s.MayRead ordered reads active
  | .copying active done copy =>
    s.MayRead ordered reads active ∧ copy = applied (readsOf (s.slots active)) done {}
  | .checkFrame copy =>
    copy.frame.width = 0 ∨
      copy ∈ s.filled ∧ (ordered → copy.generation ≤ s.activeGeneration ∧ Before reads copy.generation)
  | .idle | .loadGeneration | .loadActive | .dead => True

/-- What a reader got are whole frames; if it is `ordered`, in the order of their generations, none newer
    than the active one. -/
structure ReadsOk (ordered : Prop) (s : SharedFrames) (reads : List FrameCopy) : Prop where
  sorted : ordered → reads.Pairwise fun earlier later => earlier.generation ≤ later.generation
  bounded : ordered → Before reads s.activeGeneration
  filled : ∀ copy ∈ reads, copy ∈ s.filled

/-- The invariant of all runs, and, if they are `ordered`, of those in which no reader locks a slot ahead. -/
structure Inv (ordered : Prop) (s : SharedFrames) : Prop where
  writer : s.WriterOk
  slot : ∀ k, s.Readable k → s.SlotOk k
  lockWriter : ∀ k, s.locks k = .held .writer ↔ s.writerHolds = some k
  lockReader : ∀ k i, s.locks k = .held (.reader i) ↔ holds (s.readers i) = some k
  reads : ∀ i, s.ReadsOk ordered (s.reads i)
  reader : ∀ i, s.ReaderPcOk ordered (s.reads i) (s.readers i)

variable {ordered : Prop}

theorem inv_create (slotCapacity : Nat) : (create slotCapacity).Inv ordered where
  writer := trivial
  slot := fun _ _ => .inl rfl
  lockWriter := fun _ => ⟨nofun, nofun⟩
  lockReader := fun _ _ => ⟨nofun, nofun⟩
  reads := fun _ => ⟨fun _ => List.Pairwise.nil, nofun, nofun⟩
  reader := fun _ => trivial

variable {s s' : SharedFrames}

theorem fin_two_ne (k : Fin 2) : k + 1 ≠ k := by
  revert k
  decide

/-! ## Steps of a reader -/

variable {reads : List FrameCopy}

theorem ReaderPcOk.mono (h : s.ReaderPcOk ordered reads pc) (hfilled : ∀ copy ∈ s.filled, copy ∈ s'.filled)
    (hactive : s.activeGeneration ≤ s'.activeGeneration) (hheld : ∀ k, holds pc = some k → s'.slots k = s.slots k)
    (hchosen : ∀ k, pc = .lockSlot k → ordered → s'.Readable k → (s'.slots k).width ≠ 0 →
      s.Readable k ∧ s'.slots k = s.slots k ∨ Before reads (s'.slots k).generation) :
    s'.ReaderPcOk ordered reads pc := by
  have hmay : ∀ k, holds pc = some k → s.MayRead ordered reads k → s'.MayRead ordered reads k := by
    intro k hk hmay hord hwidth
    rw [hheld k hk] at hwidth ⊢
    exact ⟨(hmay hord hwidth).1, Nat.le_trans (hmay hord hwidth).2 hactive⟩
  cases pc with
  | lockSlot active =>
    intro hord hreadable hwidth
    obtain ⟨hbefore, hslot⟩ | hnew := hchosen active rfl hord hreadable hwidth
    · rw [hslot] at hwidth ⊢
      exact h hord hbefore hwidth
    · exact hnew
  | clearing active done =>
    obtain ⟨slot, hslot⟩ := h
    exact ⟨slot, (hheld active rfl).trans hslot⟩
  | checkSize active => exact hmay active rfl h
  | copying active done copy => exact ⟨hmay active rfl h.1, by rw [hheld active rfl]; exact h.2⟩
  | checkFrame copy =>
    exact h.imp id fun hc =>
      ⟨hfilled copy hc.1, fun hord => ⟨Nat.le_trans (hc.2 hord).1 hactive, (hc.2 hord).2⟩⟩
  | idle | loadGeneration | loadActive | dead => trivial

theorem ReadsOk.mono (h : s.ReadsOk ordered reads) (hfilled : ∀ copy ∈ s.filled, copy ∈ s'.filled)
    (hactive : s.activeGeneration ≤ s'.activeGeneration) : s'.ReadsOk ordered reads where
  sorted := h.sorted
  bounded := fun hord copy hcopy => Nat.le_trans (h.bounded hord copy hcopy) hactive
  filled := fun copy hcopy => hfilled copy (h.filled copy hcopy)

variable {S : Fin 2 → SharedSlot} {L : Fin 2 → SlotLock} {R : Nat → ReaderPc} {D : Nat → List FrameCopy}
  {i : Nat} {k : Fin 2}

theorem SlotOk.congr (h : s.SlotOk k) (hslot : S k = s.slots k) :
    ({ s with slots := S, locks := L, readers := R, reads := D } : SharedFrames).SlotOk k := by
  refine h.imp (fun hwidth => (congrArg SharedSlot.width hslot).trans hwidth) fun hframe => ⟨?_, ?_, ?_, ?_⟩
  all_goals dsimp only
  all_goals rw [hslot]
  · exact hframe.filled
  · exact hframe.active
  · exact hframe.ahead
  · exact hframe.behind

theorem Readable.of_moved (hother : ∀ j, j ≠ i → R j = s.readers j ∧ D j = s.reads j)
    (hreading : reading (R i) = reading (s.readers i))
    (hk : ({ s with readers := R, reads := D } : SharedFrames).Readable k) : s.Readable k := by
  refine hk.imp id fun ⟨j, hlock, hj⟩ => ⟨j, hlock, ?_⟩
  by_cases hji : j = i
  · subst hji
    rw [← hreading]
    exact hj
  · rw [← (hother j hji).1]
    exact hj

section

variable (h : s.Inv ordered)
include h

/-- **A reader moves**, and the slots, their mutexes and the writer stay as they are. -/
theorem Inv.moveReader (hother : ∀ j, j ≠ i → R j = s.readers j ∧ D j = s.reads j)
    (hholds : holds (R i) = holds (s.readers i)) (hreading : reading (R i) = reading (s.readers i))
    (hreads : s.ReadsOk ordered (D i)) (hpc : s.ReaderPcOk ordered (D i) (R i)) :
    ({ s with readers := R, reads := D } : SharedFrames).Inv ordered := by
  have hmono : ∀ reads pc, s.ReaderPcOk ordered reads pc →
      ({ s with readers := R, reads := D } : SharedFrames).ReaderPcOk ordered reads pc := fun reads pc hok =>
    hok.mono (fun _ => id) (Nat.le_refl _) (fun _ _ => rfl)
      fun k _ _ hk _ => .inl ⟨hk.of_moved hother hreading, rfl⟩
  refine ⟨h.writer, fun k hk => (h.slot k (hk.of_moved hother hreading)).congr rfl, h.lockWriter, fun k j => ?_,
    fun j => ?_, fun j => ?_⟩
  · refine (h.lockReader k j).trans ?_
    by_cases hji : j = i
    · subst hji
      rw [← hholds]
    · rw [← (hother j hji).1]
  · by_cases hji : j = i
    · subst hji
      exact hreads.mono (fun _ => id) (Nat.le_refl _)
    · change ReadsOk ordered _ (D j)
      rw [(hother j hji).2]
      exact (h.reads j).mono (fun _ => id) (Nat.le_refl _)
  · by_cases hji : j = i
    · subst hji
      exact hmono _ _ hpc
    · change ReaderPcOk ordered _ (D j) (R j)
      rw [(hother j hji).1, (hother j hji).2]
      exact hmono _ _ (h.reader j)

/-- **A reader takes, changes or gives back the slot `k`**, which nobody else holds. -/
theorem Inv.touchReader (hother : ∀ j, j ≠ i → R j = s.readers j)
    (hslots : ∀ l, l ≠ k → S l = s.slots l) (hlocks : ∀ l, l ≠ k → L l = s.locks l)
    (hfree : ∀ owner, s.locks k = .held owner → owner = .reader i)
    (hheld : ∀ owner, L k = .held owner → owner = .reader i) (hholds : ∀ l, holds (s.readers i) = some l → l = k)
    (hlock : ∀ l, holds (R i) = some l ↔ l = k ∧ L k = .held (.reader i))
    (hslot : ({ s with slots := S, locks := L, readers := R } : SharedFrames).Readable k →
      s.Readable k ∧ S k = s.slots k ∨ (S k).width = 0)
    (hpc : ({ s with slots := S, locks := L, readers := R } : SharedFrames).ReaderPcOk ordered (s.reads i) (R i)) :
    ({ s with slots := S, locks := L, readers := R } : SharedFrames).Inv ordered := by
  have hreadable : ∀ l, l ≠ k →
      ({ s with slots := S, locks := L, readers := R } : SharedFrames).Readable l → s.Readable l := by
    intro l hl hr
    obtain hfree' | ⟨j, hj, hreading⟩ := hr
    · exact .inl ((hlocks l hl).symm.trans hfree')
    · by_cases hji : j = i
      · subst hji
        exact absurd ((hlock l).mp (holds_of_reading hreading)).1 hl
      · refine .inr ⟨j, (hlocks l hl).symm.trans hj, ?_⟩
        rw [← hother j hji]
        exact hreading
  have hnotWriter : s.writerHolds ≠ some k := fun hw => by
    have := hfree .writer ((h.lockWriter k).mpr hw)
    cases this
  refine ⟨?_, fun l hr => ?_, fun l => ?_, fun l j => ?_, fun j => ?_, fun j => ?_⟩
  · -- the writer holds the other slot, if any
    have hw := h.writer
    unfold WriterOk at hw ⊢
    dsimp only
    cases hpc : s.writer with
    | writing frame target next done =>
      rw [hpc] at hw
      have htarget : target ≠ k := by
        rintro rfl
        exact hnotWriter (by unfold writerHolds; rw [hpc])
      obtain ⟨h1, h2, slot, h3⟩ := hw
      exact ⟨h1, h2, slot, (hslots target htarget).trans h3⟩
    | _ =>
      rw [hpc] at hw
      exact hw
  · by_cases hl : l = k
    · subst hl
      obtain ⟨hr', heq⟩ | hwidth := hslot hr
      · exact (h.slot l hr').congr heq
      · exact .inl hwidth
    · exact (h.slot l (hreadable l hl hr)).congr (hslots l hl)
  · by_cases hl : l = k
    · subst hl
      refine iff_of_false (fun hw => ?_) hnotWriter
      have := hheld .writer hw
      cases this
    · exact (iff_of_eq (congrArg (· = _) (hlocks l hl))).trans (h.lockWriter l)
  · by_cases hji : j = i
    · subst hji
      refine Iff.trans ?_ (hlock l).symm
      by_cases hl : l = k
      · subst hl
        exact ⟨fun hw => ⟨rfl, hw⟩, And.right⟩
      · refine iff_of_false (fun hw => ?_) fun hw => hl hw.1
        exact hl (hholds l ((h.lockReader l j).mp ((hlocks l hl).symm.trans hw)))
    · change L l = _ ↔ holds (R j) = _
      rw [hother j hji]
      by_cases hl : l = k
      · subst hl
        refine iff_of_false (fun hw => ?_) fun hw => ?_
        · cases hheld _ hw
          exact hji rfl
        · cases hfree _ ((h.lockReader l j).mpr hw)
          exact hji rfl
      · rw [hlocks l hl]
        exact h.lockReader l j
  · exact (h.reads j).mono (fun _ => id) (Nat.le_refl _)
  · by_cases hji : j = i
    · subst hji
      exact hpc
    · change ReaderPcOk ordered _ (s.reads j) (R j)
      rw [hother j hji]
      refine (h.reader j).mono (fun _ => id) (Nat.le_refl _) (fun l hl => ?_) fun l _ _ hr hwidth => ?_
      · refine hslots l ?_
        rintro rfl
        cases hfree _ ((h.lockReader l j).mpr hl)
        exact hji rfl
      · by_cases hl : l = k
        · subst hl
          exact .inl ((hslot hr).resolve_right hwidth)
        · exact .inl ⟨hreadable l hl hr, hslots l hl⟩

theorem Inv.setReader (hholds : holds pc = holds (s.readers i))
    (hreading : reading pc = reading (s.readers i)) (hpc : s.ReaderPcOk ordered (s.reads i) pc) :
    (s.setReader i pc).Inv ordered := by
  refine h.moveReader (i := i) (D := s.reads) (fun j hj => ⟨update_of_ne hj _ _, rfl⟩) ?_ ?_
    (h.reads i) ?_
  all_goals rw [update_self]
  · exact hholds
  · exact hreading
  · exact hpc

theorem Inv.read : (s.read i).Inv ordered := by
  unfold SharedFrames.read
  split
  case h_1 hidle =>
    split
    · exact h.setReader (by rw [hidle]; rfl) (by rw [hidle]; rfl) trivial
    · exact h
  case h_2 => exact h

theorem Inv.giveBack {lock : SlotLock} (hpc : holds pc = none) (hheld : s.locks k = .held (.reader i))
    (hlock : ∀ owner, lock ≠ .held owner) (hslot : lock = .free → s.Readable k ∨ (s.slots k).width = 0)
    (hok : s.ReaderPcOk ordered (s.reads i) pc) (hchosen : ∀ active, pc ≠ .lockSlot active) :
    ((s.setLock k lock).setReader i pc).Inv ordered := by
  refine Inv.touchReader (s := s) (i := i) (k := k) (S := s.slots) (L := update s.locks k lock)
    (R := update s.readers i pc) h (fun j hj => update_of_ne hj _ _)
    (fun _ _ => rfl) (fun l hl => update_of_ne hl _ _) ?_ ?_ ?_ ?_ ?_ ?_
  · intro owner howner
    rw [hheld] at howner
    cases howner
    rfl
  · intro owner howner
    rw [update_self] at howner
    exact absurd howner (hlock owner)
  · intro l hl
    have hk := (h.lockReader k i).mp hheld
    rw [hk] at hl
    cases hl
    rfl
  · intro l
    rw [update_self, update_self, hpc]
    exact iff_of_false nofun fun hl => hlock _ hl.2
  · rintro (hfree | ⟨j, hj, _⟩)
    · dsimp only at hfree
      rw [update_self] at hfree
      exact (hslot hfree).imp (fun hr => ⟨hr, rfl⟩) id
    · dsimp only at hj
      rw [update_self] at hj
      exact absurd hj (hlock _)
  · rw [update_self]
    exact hok.mono (fun _ => id) (Nat.le_refl _) (fun _ _ => rfl) fun l hl => absurd hl (hchosen l)

theorem Inv.take (hnone : holds (s.readers i) = none) (hpc : holds pc = some k)
    (hlock : ∀ owner, s.locks k ≠ .held owner) (hslot : reading pc = some k → s.locks k = .free)
    (hok : s.ReaderPcOk ordered (s.reads i) pc) : ((s.setLock k (.held (.reader i))).setReader i pc).Inv ordered := by
  refine Inv.touchReader (s := s) (i := i) (k := k) (S := s.slots)
    (L := update s.locks k (.held (.reader i))) (R := update s.readers i pc) h
    (fun j hj => update_of_ne hj _ _) (fun _ _ => rfl)
    (fun l hl => update_of_ne hl _ _) ?_ ?_ ?_ ?_ ?_ ?_
  · exact fun owner howner => absurd howner (hlock owner)
  · intro owner howner
    rw [update_self] at howner
    cases howner
    rfl
  · exact fun l hl => absurd (hnone.symm.trans hl) nofun
  · intro l
    rw [update_self, update_self, hpc]
    exact ⟨fun hl => ⟨(Option.some.inj hl).symm, rfl⟩, fun hl => congrArg some hl.1.symm⟩
  · rintro (hfree | ⟨j, hj, hreading⟩)
    · dsimp only at hfree
      rw [update_self] at hfree
      cases hfree
    · dsimp only at hj hreading
      rw [update_self] at hj
      cases hj
      rw [update_self] at hreading
      exact .inl ⟨.inl (hslot hreading), rfl⟩
  · rw [update_self]
    refine hok.mono (fun _ => id) (Nat.le_refl _) (fun _ _ => rfl) fun l hl => ?_
    subst hl
    cases hpc

end

variable {done : Nat}

section

variable (h : s.Inv ordered)
include h

theorem Inv.clear {slot : SharedSlot} {n : Nat} (hpc : s.readers i = .clearing k n)
    (hslot : ∃ before, slot = applied clearWrites done before) :
    ((s.setSlot k slot).setReader i (.clearing k done)).Inv ordered := by
  have hheld : s.locks k = .held (.reader i) := (h.lockReader k i).mpr (by rw [hpc]; rfl)
  refine Inv.touchReader (s := s) (i := i) (k := k) (S := update s.slots k slot) (L := s.locks)
    (R := update s.readers i (.clearing k done)) h
    (fun j hj => update_of_ne hj _ _) (fun l hl => update_of_ne hl _ _)
    (fun _ _ => rfl) ?_ ?_ ?_ ?_ ?_ ?_
  · intro owner howner
    rw [hheld] at howner
    cases howner
    rfl
  · intro owner howner
    rw [hheld] at howner
    cases howner
    rfl
  · intro l hl
    rw [hpc] at hl
    cases hl
    rfl
  · intro l
    rw [update_self]
    exact ⟨fun hl => ⟨(Option.some.inj hl).symm, hheld⟩, fun hl => congrArg some hl.1.symm⟩
  · rintro (hfree | ⟨j, hj, hreading⟩)
    · dsimp only at hfree
      rw [hheld] at hfree
      cases hfree
    · dsimp only at hj hreading
      rw [hheld] at hj
      cases hj
      rw [update_self] at hreading
      cases hreading
  · rw [update_self]
    obtain ⟨before, hbefore⟩ := hslot
    exact ⟨before, (update_self k slot s.slots).trans hbefore⟩

theorem Inv.before_active (i : Nat) (hr : s.Readable s.activeSlot)
    (hwidth : (s.slots s.activeSlot).width ≠ 0) (hord : ordered) :
    Before (s.reads i) (s.slots s.activeSlot).generation := by
  obtain hcleared | hframe := h.slot s.activeSlot hr
  · exact absurd hcleared hwidth
  · rw [hframe.active rfl]
    exact (h.reads i).bounded hord

theorem Inv.mayRead_locked (hpc : s.readers i = .lockSlot k) (hfree : s.locks k = .free)
    (hahead : ordered → ¬ s.Ahead k) : s.MayRead ordered (s.reads i) k := by
  intro hord hwidth
  have hbefore : Before (s.reads i) (s.slots k).generation := by
    have := h.reader i
    rw [hpc] at this
    exact this hord (.inl hfree) hwidth
  obtain hcleared | hframe := h.slot k (.inl hfree)
  · exact absurd hcleared hwidth
  · exact ⟨hbefore, hframe.behind (hahead hord)⟩

theorem Inv.lockSlot (hpc : s.readers i = .lockSlot k) (error : Bool)
    (hahead : ordered → s.locks k = .free → ¬ s.Ahead k) : (s.stepReader i error).Inv ordered := by
  have hnone : holds (s.readers i) = none := by rw [hpc]; rfl
  unfold stepReader
  rw [hpc]
  dsimp only
  cases hlock : s.locks k with
  | held owner => exact h
  | lost => exact h.setReader hnone.symm (by rw [hpc]; rfl) trivial
  | abandoned =>
    cases error with
    | true => exact h.setReader hnone.symm (by rw [hpc]; rfl) trivial
    | false =>
      exact h.take hnone rfl (fun owner howner => by rw [hlock] at howner; cases howner) nofun
        ⟨s.slots k, rfl⟩
  | free =>
    cases error with
    | true => exact h.setReader hnone.symm (by rw [hpc]; rfl) trivial
    | false =>
      exact h.take hnone rfl (fun owner howner => by rw [hlock] at howner; cases howner) (fun _ => hlock)
        (h.mayRead_locked hpc hlock fun hord => hahead hord hlock)

theorem Inv.clearing (hpc : s.readers i = .clearing k done) (error : Bool) : (s.stepReader i error).Inv ordered := by
  obtain ⟨slot, hslot⟩ : ∃ slot, s.slots k = applied clearWrites done slot := by
    have := h.reader i
    rw [hpc] at this
    exact this
  have hheld : s.locks k = .held (.reader i) := (h.lockReader k i).mpr (by rw [hpc]; rfl)
  unfold stepReader
  rw [hpc]
  dsimp only
  cases hwrite : clearWrites[done]? with
  | some write =>
    refine h.clear hpc ⟨slot, ?_⟩
    rw [applied_succ hwrite, hslot]
  | none =>
    refine h.giveBack rfl hheld ?_ (fun _ => .inr ?_) trivial nofun
    · cases error <;> exact nofun
    · rw [hslot]
      exact width_cleared hwrite slot

theorem Inv.checkSize (hpc : s.readers i = .checkSize k) (error : Bool) : (s.stepReader i error).Inv ordered := by
  have hmay : s.MayRead ordered (s.reads i) k := by
    have := h.reader i
    rw [hpc] at this
    exact this
  have hheld : s.locks k = .held (.reader i) := (h.lockReader k i).mpr (by rw [hpc]; rfl)
  unfold stepReader
  rw [hpc]
  dsimp only
  split
  · exact h.giveBack rfl hheld nofun (fun _ => .inl (.inr ⟨i, hheld, by rw [hpc]; rfl⟩)) trivial nofun
  · exact h.setReader (by rw [hpc]; rfl) (by rw [hpc]; rfl) ⟨hmay, rfl⟩

end

variable {copy : FrameCopy}

theorem Inv.copying (h : s.Inv ordered) (hpc : s.readers i = .copying k done copy) (error : Bool) :
    (s.stepReader i error).Inv ordered := by
  obtain ⟨hmay, hcopy⟩ : s.MayRead ordered (s.reads i) k ∧ copy = applied (readsOf (s.slots k)) done {} := by
    have := h.reader i
    rw [hpc] at this
    exact this
  have hheld : s.locks k = .held (.reader i) := (h.lockReader k i).mpr (by rw [hpc]; rfl)
  have hreadable : s.Readable k := .inr ⟨i, hheld, by rw [hpc]; rfl⟩
  unfold stepReader
  rw [hpc]
  dsimp only
  cases haccess : slotReads[done]? with
  | some access =>
    refine h.setReader (by rw [hpc]; rfl) (by rw [hpc]; rfl) ⟨hmay, ?_⟩
    rw [hcopy]
    refine (applied_succ ?_ _).symm
    unfold readsOf
    rw [List.getElem?_map, haccess]
    rfl
  | none =>
    refine h.giveBack rfl hheld nofun (fun _ => .inl hreadable) ?_ nofun
    rw [applied_readsOf haccess] at hcopy
    subst hcopy
    by_cases hwidth : (s.slots k).width = 0
    · exact .inl hwidth
    · obtain hcleared | hframe := h.slot k hreadable
      · exact absurd hcleared hwidth
      · exact .inr ⟨hframe.filled, fun hord => (hmay hord hwidth).symm⟩

theorem ReadsOk.snoc (h : s.ReadsOk ordered reads) (hfilled : copy ∈ s.filled)
    (hnew : ordered → copy.generation ≤ s.activeGeneration ∧ Before reads copy.generation) :
    s.ReadsOk ordered (reads ++ [copy]) := by
  refine ⟨fun hord => ?_, fun hord old hold => ?_, fun old hold => ?_⟩
  · refine pairwise_append.mpr
      ⟨h.sorted hord, pairwise_singleton _ _, fun old hold last hlast => ?_⟩
    obtain rfl := mem_singleton.mp hlast
    exact (hnew hord).2 old hold
  · obtain hold | hold := mem_append.mp hold
    · exact h.bounded hord old hold
    · obtain rfl := mem_singleton.mp hold
      exact (hnew hord).1
  · obtain hold | hold := mem_append.mp hold
    · exact h.filled old hold
    · obtain rfl := mem_singleton.mp hold
      exact hfilled

theorem Inv.checkFrame (h : s.Inv ordered) (hpc : s.readers i = .checkFrame copy) (error : Bool) :
    (s.stepReader i error).Inv ordered := by
  have hcopy : s.ReaderPcOk ordered (s.reads i) (.checkFrame copy) := hpc ▸ h.reader i
  unfold stepReader
  rw [hpc]
  dsimp only
  split
  case isTrue hvalid =>
    obtain hwidth | ⟨hfilled, hnew⟩ := hcopy
    · exact absurd hwidth (CameraFrame.width_ne_zero hvalid)
    · have hidle : (s.setReader i .idle).readers i = .idle := update_self i _ s.readers
      refine Inv.moveReader (s := s) (i := i) h
        (fun j hj => ⟨update_of_ne hj _ _, update_of_ne hj _ _⟩) ?_ ?_ ?_ ?_
      · rw [hpc, hidle]
        rfl
      · rw [hpc, hidle]
        rfl
      · rw [update_self]
        exact (h.reads i).snoc hfilled hnew
      · rw [hidle]
        trivial
  case isFalse => exact h.setReader (by rw [hpc]; rfl) (by rw [hpc]; rfl) trivial

/-- **A step of a reader**, which, in an ordered run, does not lock a slot that is ahead. -/
theorem Inv.stepReader (h : s.Inv ordered) (error : Bool)
    (hahead : ordered → ∀ k, s.readers i = .lockSlot k → s.locks k = .free → ¬ s.Ahead k) :
    (s.stepReader i error).Inv ordered := by
  cases hpc : s.readers i with
  | loadGeneration =>
    unfold SharedFrames.stepReader
    rw [hpc]
    dsimp only
    split <;> exact h.setReader (by rw [hpc]; rfl) (by rw [hpc]; rfl) trivial
  | loadActive =>
    unfold SharedFrames.stepReader
    rw [hpc]
    exact h.setReader (by rw [hpc]; rfl) (by rw [hpc]; rfl)
      fun hord hr hwidth => h.before_active i hr hwidth hord
  | lockSlot active => exact h.lockSlot hpc error fun hord => hahead hord active hpc
  | clearing active done => exact h.clearing hpc error
  | checkSize active => exact h.checkSize hpc error
  | copying active done copy => exact h.copying hpc error
  | checkFrame copy => exact h.checkFrame hpc error
  | idle | dead =>
    unfold SharedFrames.stepReader
    rw [hpc]
    exact h

theorem Inv.readerDies (h : s.Inv ordered) : (s.readerDies i).Inv ordered := by
  unfold SharedFrames.readerDies
  cases hholds : holds (s.readers i) with
  | none => exact h
  | some k =>
    have hheld : s.locks k = .held (.reader i) := (h.lockReader k i).mpr hholds
    exact h.giveBack rfl hheld nofun nofun trivial nofun

/-! ## Steps of the writer -/

variable {w : WriterPc}

theorem SlotOk.mono (h : s.SlotOk k) (hslot : s'.slots k = s.slots k)
    (hfilled : ∀ copy ∈ s.filled, copy ∈ s'.filled) (hactive : s'.activeSlot = s.activeSlot)
    (hgen : s'.activeGeneration = s.activeGeneration) (hbefore : ¬ s.Ahead k)
    (hafter : ¬ s'.Ahead k) : s'.SlotOk k := by
  unfold SlotOk at h ⊢
  rw [hslot]
  refine h.imp id fun hframe => ⟨?_, ?_, fun frame next hpc => absurd ⟨frame, next, hpc⟩ hafter, ?_⟩
  · rw [hslot]
    exact hfilled _ hframe.filled
  · rw [hslot, hactive, hgen]
    exact hframe.active
  · rw [hslot, hgen]
    exact fun _ => hframe.behind hbefore

/-- **The writer moves**, and the slots and their mutexes stay as they are. -/
theorem Inv.moveWriter {active : Fin 2} {generation : Nat} {published : List FrameCopy}
    {initialized : Bool} (h : s.Inv ordered)
    (hs : s' = { s with
      initialized := initialized
      activeSlot := active
      generation := generation
      writer := w
      published := published })
    (hwriter : s'.WriterOk) (hholds : s'.writerHolds = s.writerHolds)
    (hfilled : ∀ copy ∈ s.filled, copy ∈ s'.filled) (hactive : s.activeGeneration ≤ s'.activeGeneration)
    (hslot : ∀ k, s.SlotOk k → s'.SlotOk k) : s'.Inv ordered := by
  subst hs
  refine ⟨hwriter, fun k hr => hslot k (h.slot k hr), fun k => ?_, h.lockReader, fun i => ?_, fun i => ?_⟩
  · rw [hholds]
    exact h.lockWriter k
  · exact (h.reads i).mono hfilled hactive
  · exact (h.reader i).mono hfilled hactive (fun _ _ => rfl) fun k _ _ hr _ => .inl ⟨hr, rfl⟩

/-- The slot is filled. -/
def storing : WriterPc → Bool
  | .storeActive .. | .storeGeneration .. => true
  | _ => false

section

variable (h : storing s.writer = false)
include h

theorem filled_of_not_storing : s.filled = s.published := by
  unfold filled finishing
  cases hpc : s.writer with
  | storeActive frame target next | storeGeneration frame next => rw [hpc] at h; cases h
  | _ => exact append_nil _

theorem activeGeneration_of_not_storing : s.activeGeneration = s.generation := by
  unfold activeGeneration
  cases hpc : s.writer with
  | storeGeneration frame next => rw [hpc] at h; cases h
  | _ => rfl

theorem not_ahead : ¬ s.Ahead k := by
  rintro ⟨frame, next, hpc⟩
  rw [hpc] at h
  cases h

end

section

variable (h : s.Inv ordered)
include h

theorem Inv.setWriter {initialized : Bool}
    (hs : s' = { s with initialized := initialized, writer := w }) (hwriter : s'.WriterOk)
    (hholds : s'.writerHolds = s.writerHolds) (hbefore : storing s.writer = false)
    (hafter : storing w = false) : s'.Inv ordered := by
  have hnot : storing s'.writer = false := by rw [hs]; exact hafter
  have hfilled : ∀ copy ∈ s.filled, copy ∈ s'.filled := by
    rw [filled_of_not_storing hbefore, filled_of_not_storing hnot, hs]
    exact fun _ => id
  have hactive : s'.activeGeneration = s.activeGeneration := by
    rw [activeGeneration_of_not_storing hbefore, activeGeneration_of_not_storing hnot, hs]
  refine h.moveWriter hs hwriter hholds hfilled (Nat.le_of_eq hactive.symm) fun k hok => ?_
  exact hok.mono (by rw [hs]) hfilled (by rw [hs]) hactive (not_ahead hbefore) (not_ahead hnot)

/-- **The writer takes, changes or gives back the slot `k`**, which nobody else holds. -/
theorem Inv.touchWriter (hs : s' = { s with slots := S, locks := L, writer := w })
    (hslots : ∀ l, l ≠ k → S l = s.slots l) (hlocks : ∀ l, l ≠ k → L l = s.locks l)
    (hfree : ∀ owner, s.locks k = .held owner → owner = .writer)
    (hheld : ∀ owner, L k = .held owner → owner = .writer)
    (hholds : ∀ l, s.writerHolds = some l → l = k)
    (hlock : ∀ l, s'.writerHolds = some l ↔ l = k ∧ L k = .held .writer) (hwriter : s'.WriterOk)
    (hfilled : ∀ copy ∈ s.filled, copy ∈ s'.filled) (hactive : s'.activeGeneration = s.activeGeneration)
    (hbefore : ∀ l, l ≠ k → ¬ s.Ahead l) (hafter : ∀ l, l ≠ k → ¬ s'.Ahead l)
    (hslot : L k = .free → s'.SlotOk k ∧ ∀ i, ordered → Before (s.reads i) (S k).generation) : s'.Inv ordered := by
  subst hs
  have hreader : ∀ i, s.locks k ≠ .held (.reader i) ∧ L k ≠ .held (.reader i) := fun i =>
    ⟨fun hw => (nomatch hfree _ hw), fun hw => (nomatch hheld _ hw)⟩
  have hreadable : ∀ l, ({ s with slots := S, locks := L, writer := w } : SharedFrames).Readable l →
      l = k ∧ L k = .free ∨ l ≠ k ∧ s.Readable l := by
    intro l hr
    by_cases hl : l = k
    · subst hl
      obtain hfree' | ⟨i, hi, _⟩ := hr
      · exact .inl ⟨rfl, hfree'⟩
      · exact absurd hi (hreader i).2
    · refine .inr ⟨hl, hr.imp (fun hw => (hlocks l hl).symm.trans hw) ?_⟩
      exact fun ⟨i, hi, hreading⟩ => ⟨i, (hlocks l hl).symm.trans hi, hreading⟩
  refine ⟨hwriter, fun l hr => ?_, fun l => ?_, fun l i => ?_, fun i => ?_, fun i => ?_⟩
  · obtain ⟨rfl, hfree'⟩ | ⟨hl, hr'⟩ := hreadable l hr
    · exact (hslot hfree').1
    · exact (h.slot l hr').mono (hslots l hl) hfilled rfl hactive (hbefore l hl) (hafter l hl)
  · refine Iff.trans ?_ (hlock l).symm
    by_cases hl : l = k
    · subst hl
      exact ⟨fun hw => ⟨rfl, hw⟩, And.right⟩
    · refine iff_of_false (fun hw => hl ?_) fun hw => hl hw.1
      exact hholds l ((h.lockWriter l).mp ((hlocks l hl).symm.trans hw))
  · by_cases hl : l = k
    · subst hl
      exact iff_of_false (hreader i).2 fun hw => (hreader i).1 ((h.lockReader l i).mpr hw)
    · change L l = _ ↔ _
      rw [hlocks l hl]
      exact h.lockReader l i
  · exact (h.reads i).mono hfilled (Nat.le_of_eq hactive.symm)
  · refine (h.reader i).mono hfilled (Nat.le_of_eq hactive.symm) (fun l hl => ?_) fun l _ hord hr _ => ?_
    · refine hslots l ?_
      rintro rfl
      exact (hreader i).1 ((h.lockReader l i).mpr hl)
    · obtain ⟨rfl, hfree'⟩ | ⟨hl, hr'⟩ := hreadable l hr
      · exact .inr ((hslot hfree').2 i hord)
      · exact .inl ⟨hr', hslots l hl⟩

theorem Inv.touchSlot (hs : s' = { s with slots := S, locks := L, writer := w })
    (hslots : ∀ l, l ≠ k → S l = s.slots l) (hlocks : ∀ l, l ≠ k → L l = s.locks l)
    (hfree : ∀ owner, s.locks k = .held owner → owner = .writer)
    (hheld : ∀ owner, L k = .held owner → owner = .writer) (hkept : L k ≠ .free)
    (hholds : ∀ l, s.writerHolds = some l → l = k)
    (hlock : ∀ l, s'.writerHolds = some l ↔ l = k ∧ L k = .held .writer) (hwriter : s'.WriterOk)
    (hbefore : storing s.writer = false) (hafter : storing w = false) : s'.Inv ordered := by
  have hnot : storing s'.writer = false := by rw [hs]; exact hafter
  refine h.touchWriter hs hslots hlocks hfree hheld hholds hlock hwriter ?_ ?_
    (fun l _ => not_ahead hbefore) (fun l _ => not_ahead hnot) fun hw => absurd hw hkept
  · rw [filled_of_not_storing hbefore, filled_of_not_storing hnot, hs]
    exact fun _ => id
  · rw [activeGeneration_of_not_storing hbefore, activeGeneration_of_not_storing hnot, hs]

theorem Inv.publish (frame : CameraFrame) : (s.publish frame).Inv ordered := by
  unfold SharedFrames.publish
  split
  case h_1 hpc =>
    split
    · exact h
    · refine h.setWriter rfl trivial ?_ (by rw [hpc]; rfl) rfl
      unfold writerHolds
      rw [hpc]
  case h_2 => exact h

theorem Inv.close : s.close.Inv ordered := by
  unfold SharedFrames.close
  split
  case h_1 hpc =>
    refine h.setWriter rfl trivial ?_ (by rw [hpc]; rfl) rfl
    unfold writerHolds
    rw [hpc]
  case h_2 => exact h

theorem Inv.writerHeld (hk : s.writerHolds = some k) :
    s.locks k = .held .writer ∧ (∀ owner, s.locks k = .held owner → owner = .writer) ∧
      (∀ l, s.writerHolds = some l → l = k) ∧ storing s.writer = false := by
  have hheld : s.locks k = .held .writer := (h.lockWriter k).mpr hk
  refine ⟨hheld, fun owner howner => ?_, fun l hl => Option.some.inj (hl.symm.trans hk), ?_⟩
  · rw [hheld] at howner
    cases howner
    rfl
  · unfold writerHolds at hk
    cases hpc : s.writer with
    | storeActive | storeGeneration =>
      rw [hpc] at hk
      cases hk
    | _ => rfl

theorem Inv.writerDies : s.writerDies.Inv ordered := by
  unfold SharedFrames.writerDies
  cases hholds : s.writerHolds with
  | none => exact h
  | some k =>
    obtain ⟨_, hfree, hk, hbefore⟩ := h.writerHeld hholds
    have habandoned : update s.locks k .abandoned k = .abandoned := update_self k _ _
    refine h.touchSlot (k := k) (S := s.slots) (L := update s.locks k .abandoned) rfl
      (fun _ _ => rfl) (fun l hl => update_of_ne hl _ _) hfree (fun owner howner => ?_) ?_ hk
      (fun l => ?_) trivial hbefore rfl
    · rw [habandoned] at howner
      cases howner
    · rw [habandoned]
      exact nofun
    · rw [habandoned]
      exact iff_of_false nofun fun hl => nomatch hl.2

end

variable {frame : CameraFrame}

theorem Inv.writerLockSlot (h : s.Inv ordered) (hpc : s.writer = .lockSlot frame k) (error : Bool) :
    (s.stepWriter error).Inv ordered := by
  have htarget : k = s.activeSlot + 1 := by
    have := h.writer
    unfold WriterOk at this
    rw [hpc] at this
    exact this
  have hnone : s.writerHolds = none := by
    unfold writerHolds
    rw [hpc]
  have hbefore : storing s.writer = false := by rw [hpc]; rfl
  have htake : ∀ w, (∀ S L, WriterOk { s with slots := S, locks := L, writer := w }) → storing w = false →
      (∀ l, writerHolds { s with locks := update s.locks k (.held .writer), writer := w } = some l
        ↔ l = k) →
      (∀ owner, s.locks k ≠ .held owner) →
      Inv ordered { s with locks := update s.locks k (.held .writer), writer := w } := by
    intro w hwriter hafter hlock hfree
    have hheld : update s.locks k (.held .writer) k = .held .writer := update_self k _ _
    refine h.touchSlot (k := k) (S := s.slots) (L := update s.locks k (.held .writer)) rfl
      (fun _ _ => rfl) (fun l hl => update_of_ne hl _ _)
      (fun owner howner => absurd howner (hfree owner)) (fun owner howner => ?_) ?_
      (fun l hl => absurd (hnone.symm.trans hl) nofun) (fun l => ?_) (hwriter _ _) hbefore hafter
    · rw [hheld] at howner
      cases howner
      rfl
    · rw [hheld]
      exact nofun
    · rw [hheld]
      exact (hlock l).trans ⟨fun hl => ⟨hl, rfl⟩, And.left⟩
  unfold stepWriter
  rw [hpc]
  dsimp only
  cases hlock : s.locks k with
  | held owner => exact h
  | lost => exact h.setWriter rfl trivial hnone.symm hbefore rfl
  | abandoned =>
    cases error with
    | true => exact h.setWriter rfl trivial hnone.symm hbefore rfl
    | false =>
      refine htake (.clearing frame k 0) (fun _ _ => htarget) rfl (fun l => ?_) fun owner howner => ?_
      · exact ⟨fun hl => (Option.some.inj hl).symm, fun hl => congrArg some hl.symm⟩
      · rw [hlock] at howner
        cases howner
  | free =>
    cases error with
    | true => exact h.setWriter rfl trivial hnone.symm hbefore rfl
    | false =>
      refine htake (.loadGeneration frame k) (fun _ _ => htarget) rfl (fun l => ?_) fun owner howner => ?_
      · exact ⟨fun hl => (Option.some.inj hl).symm, fun hl => congrArg some hl.symm⟩
      · rw [hlock] at howner
        cases howner

theorem Inv.change {slot : SharedSlot} (h : s.Inv ordered) (hk : s.writerHolds = some k)
    (hs : s' = { s with slots := update s.slots k slot, writer := w }) (hwriter : s'.WriterOk)
    (hholds : s'.writerHolds = some k) (hafter : storing w = false) : s'.Inv ordered := by
  obtain ⟨hheld, hfree, hl, hbefore⟩ := h.writerHeld hk
  refine h.touchSlot (k := k) (S := update s.slots k slot) (L := s.locks) hs
    (fun l hl => update_of_ne hl _ _) (fun _ _ => rfl) hfree hfree ?_ hl (fun l => ?_) hwriter
    hbefore hafter
  · rw [hheld]
    exact nofun
  · rw [hholds]
    exact ⟨fun hl => ⟨(Option.some.inj hl).symm, hheld⟩, fun hl => congrArg some hl.1.symm⟩

theorem Inv.writerClearing (h : s.Inv ordered) (hpc : s.writer = .clearing frame k done) (error : Bool) :
    (s.stepWriter error).Inv ordered := by
  have htarget : k = s.activeSlot + 1 := by
    have := h.writer
    unfold WriterOk at this
    rw [hpc] at this
    exact this
  have hk : s.writerHolds = some k := by
    unfold writerHolds
    rw [hpc]
  obtain ⟨_, hfree, hl, hbefore⟩ := h.writerHeld hk
  unfold stepWriter
  rw [hpc]
  dsimp only
  cases clearWrites[done]? with
  | some write => exact h.change hk rfl htarget rfl rfl
  | none =>
    cases error with
    | true =>
      have hlost : update s.locks k .lost k = .lost := update_self k _ _
      refine h.touchSlot (k := k) (S := s.slots) (L := update s.locks k .lost) rfl
        (fun _ _ => rfl) (fun l hl => update_of_ne hl _ _) hfree (fun owner howner => ?_) ?_ hl
        (fun l => ?_) trivial hbefore rfl
      · rw [hlost] at howner
        cases howner
      · rw [hlost]
        exact nofun
      · rw [hlost]
        exact iff_of_false nofun fun hl => nomatch hl.2
    | false => exact h.setWriter rfl htarget hk.symm hbefore rfl

variable {next : Nat}

theorem Inv.writing (h : s.Inv ordered) (hpc : s.writer = .writing frame k next done) (error : Bool) :
    (s.stepWriter error).Inv ordered := by
  obtain ⟨htarget, hnext, slot, hslot⟩ : k = s.activeSlot + 1 ∧ next = s.generation + 1 ∧
      ∃ slot, s.slots k = applied (slotWrites next frame) done slot := by
    have := h.writer
    unfold WriterOk at this
    rw [hpc] at this
    exact this
  have hk : s.writerHolds = some k := by
    unfold writerHolds
    rw [hpc]
  obtain ⟨_, hfree, hl, hbefore⟩ := h.writerHeld hk
  unfold stepWriter
  rw [hpc]
  dsimp only
  cases hwrite : (slotWrites next frame)[done]? with
  | some write =>
    refine h.change hk rfl ⟨htarget, hnext, slot, ?_⟩ rfl rfl
    rw [applied_succ hwrite, ← hslot]
    exact update_self k _ s.slots
  | none =>
    have hfreed : update s.locks k .free k = .free := update_self k _ _
    have hcopy : copyOf (s.slots k) = { frame := frame, generation := next } := by
      rw [hslot]
      exact copyOf_written hwrite slot
    have hgen : (s.slots k).generation = next := congrArg FrameCopy.generation hcopy
    refine h.touchWriter (k := k) (S := s.slots) (L := update s.locks k .free)
      (w := .storeActive frame k next) rfl (fun _ _ => rfl) (fun l hl => update_of_ne hl _ _)
      hfree (fun owner howner => ?_) hl (fun l => ?_) ⟨htarget, hnext⟩ ?_ ?_
      (fun l _ => not_ahead hbefore) ?_ fun _ => ⟨.inr ⟨?_, ?_, ?_, ?_⟩, fun i hord => ?_⟩
    · rw [hfreed] at howner
      cases howner
    · rw [hfreed]
      exact iff_of_false nofun fun hl => nomatch hl.2
    · rw [filled_of_not_storing hbefore]
      exact fun copy hcopy => mem_append_left _ hcopy
    · rw [activeGeneration_of_not_storing hbefore]
      rfl
    · rintro l hl ⟨_, _, hahead⟩
      cases hahead
      exact hl rfl
    · exact mem_append_right _ (mem_singleton.mpr hcopy)
    · exact fun hactive => absurd (htarget.symm.trans hactive) (fin_two_ne s.activeSlot)
    · intro _ _ hahead
      cases hahead
      exact hgen
    · exact fun hahead => absurd ⟨frame, next, rfl⟩ hahead
    · -- what was read is not newer than the frame before
      intro copy hcopy'
      have := (h.reads i).bounded hord copy hcopy'
      rw [activeGeneration_of_not_storing hbefore] at this
      rw [hgen]
      omega

theorem Inv.storeActive (h : s.Inv ordered) (hpc : s.writer = .storeActive frame k next) (error : Bool) :
    (s.stepWriter error).Inv ordered := by
  obtain ⟨htarget, hnext⟩ : k = s.activeSlot + 1 ∧ next = s.generation + 1 := by
    have := h.writer
    unfold WriterOk at this
    rw [hpc] at this
    exact this
  have hfilled : s.filled = s.published ++ [{ frame := frame, generation := next }] := by
    unfold filled finishing
    rw [hpc]
  have hle : s.activeGeneration ≤ next := by
    unfold activeGeneration
    rw [hpc, hnext]
    exact Nat.le_succ _
  unfold stepWriter
  rw [hpc]
  refine h.moveWriter rfl hnext ?_ (fun copy hcopy => by rw [hfilled] at hcopy; exact hcopy) hle
    fun l hok => hok.imp id fun hframe => ⟨?_, fun hl => ?_, nofun, fun _ => ?_⟩
  · unfold writerHolds
    rw [hpc]
  · have := hframe.filled
    rw [hfilled] at this
    exact this
  · subst hl
    exact hframe.ahead frame next hpc
  · by_cases hl : l = k
    · subst hl
      exact Nat.le_of_eq (hframe.ahead frame next hpc)
    · have hbehind := hframe.behind fun ⟨_, _, hahead⟩ => hl (by rw [hpc] at hahead; cases hahead; rfl)
      exact Nat.le_trans hbehind hle

theorem Inv.storeGeneration (h : s.Inv ordered) (hpc : s.writer = .storeGeneration frame next) (error : Bool) :
    (s.stepWriter error).Inv ordered := by
  have hfilled : s.filled = s.published ++ [{ frame := frame, generation := next }] := by
    unfold filled finishing
    rw [hpc]
  have hactive : s.activeGeneration = next := by
    unfold activeGeneration
    rw [hpc]
  have hkeep : ∀ copy ∈ s.filled,
      copy ∈ s.published ++ [{ frame := frame, generation := next }] ++ [] := by
    intro copy hcopy
    rw [append_nil, ← hfilled]
    exact hcopy
  unfold stepWriter
  rw [hpc]
  refine h.moveWriter rfl trivial ?_ hkeep (Nat.le_of_eq hactive) fun l hok =>
    hok.mono rfl hkeep rfl hactive.symm ?_ ?_
  · unfold writerHolds
    rw [hpc]
  · rintro ⟨_, _, hahead⟩
    rw [hpc] at hahead
    cases hahead
  · exact not_ahead rfl

/-- **A step of the writer.** -/
theorem Inv.stepWriter (h : s.Inv ordered) (error : Bool) : (s.stepWriter error).Inv ordered := by
  cases hpc : s.writer with
  | loadActive frame =>
    unfold SharedFrames.stepWriter
    rw [hpc]
    refine h.setWriter rfl rfl ?_ (by rw [hpc]; rfl) rfl
    unfold writerHolds
    rw [hpc]
  | lockSlot frame target => exact h.writerLockSlot hpc error
  | clearing frame target done => exact h.writerClearing hpc error
  | loadGeneration frame target =>
    have htarget : target = s.activeSlot + 1 := by
      have := h.writer
      unfold WriterOk at this
      rw [hpc] at this
      exact this
    unfold SharedFrames.stepWriter
    rw [hpc]
    refine h.setWriter rfl ⟨htarget, rfl, s.slots target, rfl⟩ ?_ (by rw [hpc]; rfl) rfl
    unfold writerHolds
    rw [hpc]
  | writing frame target next done => exact h.writing hpc error
  | storeActive frame target next => exact h.storeActive hpc error
  | storeGeneration frame next => exact h.storeGeneration hpc error
  | idle | dead =>
    unfold SharedFrames.stepWriter
    rw [hpc]
    exact h

/-! ## Runs -/

/-- No reader locks a slot ahead. -/
def LocksActive (s : SharedFrames) : FrameEvent → Prop
  | .reader i _ => ∀ k, s.readers i = .lockSlot k → s.locks k = .free → ¬ s.Ahead k
  | _ => True

instance (s : SharedFrames) : ∀ event, Decidable (s.LocksActive event)
  | .reader i _ =>
    inferInstanceAs (Decidable (∀ k, s.readers i = .lockSlot k → s.locks k = .free → ¬ s.Ahead k))
  | .publish _ | .writer _ | .read _ | .writerDies | .readerDies _ | .close => isTrue trivial

/-- Every step keeps the invariant; the order too, when no reader locks a slot ahead. -/
theorem Inv.step (h : s.Inv ordered) (event : FrameEvent) (hlocks : ordered → s.LocksActive event) :
    (s.step event).1.Inv ordered := by
  cases event with
  | publish frame => exact h.publish frame
  | writer error => exact h.stepWriter error
  | read i => exact h.read
  | reader i error => exact h.stepReader error hlocks
  | writerDies => exact h.writerDies
  | readerDies i => exact h.readerDies
  | close => exact h.close

theorem known_of_filled (h : s.WriterOk) {copy : FrameCopy} (hfilled : copy ∈ s.filled)
    (hactive : copy.generation ≤ s.activeGeneration) : copy ∈ s.known := by
  unfold filled finishing at hfilled
  unfold activeGeneration at hactive
  unfold WriterOk at h
  unfold known
  cases hpc : s.writer with
  | storeActive frame target next =>
    -- the frame that is ahead is newer than all that were active
    rw [hpc] at hfilled hactive h
    rcases mem_append.mp hfilled with hold | hnew
    · exact hold
    · rw [mem_singleton.mp hnew] at hactive
      exact absurd (Nat.le_trans (Nat.le_of_eq h.2.symm) hactive) (Nat.not_succ_le_self _)
  | storeGeneration frame next =>
    rw [hpc] at hfilled
    exact hfilled
  | _ =>
    rw [hpc] at hfilled
    exact (append_nil s.published) ▸ hfilled

open StepRun in
/-- **Readers get whole frames, and never an older one**: what a reader gets is always a frame that a slot
    was filled with.  As long as no reader locks a slot that `Publish` has filled and not yet made active, it
    is one that was made active, and the generations go up. -/
theorem reads_in_order (slotCapacity : Nat) (events : List FrameEvent) (i : Nat) :
    let s := run SharedFrames.step (create slotCapacity) events
    (∀ copy ∈ s.reads i, copy ∈ s.filled ∧ (s.writer = .idle → copy ∈ s.published)) ∧
      (Along SharedFrames.step LocksActive (create slotCapacity) events →
        (s.reads i).Pairwise (fun earlier later => earlier.generation ≤ later.generation) ∧
          ∀ copy ∈ s.reads i, copy ∈ s.known) := by
  intro s
  constructor
  · have hinv : s.Inv False :=
      run_invariant (fun _ event h => h.step event False.elim) (inv_create slotCapacity) events
    refine fun copy hcopy => ⟨(hinv.reads i).filled copy hcopy, fun hidle => ?_⟩
    have := (hinv.reads i).filled copy hcopy
    rwa [filled_of_not_storing (by rw [hidle]; rfl)] at this
  · intro hlocks
    have hinv : s.Inv True :=
      hlocks.invariant (fun _ event h hlocks => h.step event fun _ => hlocks) (inv_create slotCapacity)
    exact ⟨(hinv.reads i).sorted trivial, fun copy hcopy => known_of_filled hinv.writer
      ((hinv.reads i).filled copy hcopy) ((hinv.reads i).bounded trivial copy hcopy)⟩

def tinyFrame (byte : UInt8) : CameraFrame where
  sequence := byte.toNat
  width := 1
  height := 1
  strideBytes := 1
  format := .mjpeg
  data := [byte]

def publishEvents (frame : CameraFrame) : List FrameEvent :=
  .publish frame :: List.replicate 20 (.writer false)

def readEvents : List FrameEvent := .read 0 :: List.replicate 20 (.reader 0 false)

open StepRun in
theorem reads_in_order_two :
    let s := run SharedFrames.step (create 4)
      (publishEvents (tinyFrame 1) ++ readEvents ++ publishEvents (tinyFrame 2) ++ readEvents)
    (s.reads 0).length = 2 ∧
      (s.reads 0).Pairwise (fun earlier later => earlier.generation ≤ later.generation) ∧
        ∀ copy ∈ s.reads 0, copy ∈ s.known :=
  ⟨by decide +kernel, (reads_in_order 4 _ 0).2 (by decide +kernel)⟩

def lappedEvents : List FrameEvent :=
  publishEvents (tinyFrame 1) ++ [.read 0, .reader 0 false, .reader 0 false] ++
    publishEvents (tinyFrame 2) ++ .publish (tinyFrame 3) :: List.replicate 18 (.writer false) ++
      List.replicate 20 (.reader 0 false) ++ readEvents

open StepRun in
/-- A slot that is locked ahead of the active one is read first. -/
theorem reads_go_back :
    let s := run SharedFrames.step (create 4) lappedEvents
    (s.reads 0).map FrameCopy.generation = [3, 2] ∧
      ¬ (s.reads 0).Pairwise fun earlier later => earlier.generation ≤ later.generation := by
  decide +kernel

end SharedFrames

end Cockpit.Camera
