/-
  `SpscRingBuffer`: one thread puts values into a ring of slots, and another takes them out, without a lock.

  A step is one access to what the threads share. A store with `memory_order_release` is seen by a load with
  `memory_order_acquire` together with all that was done before it, so the steps of the two threads interleave.
  The indices are never taken back to the size of the ring; they wrap at 2 ^ 64.
-/
import Cockpit.Lib.RingIndex
import Cockpit.Lib.StepRun

namespace Cockpit.Audio

open RingIndex StepRun List Function

/-- `Capacity`, with what the class asserts of it. -/
structure RingCapacity where
  value : UInt64
  two_le : 2 ≤ value
  power_of_two : value &&& (value - 1) = 0

/-- `kBufferCapacity` of `AudioCaptureStream`. -/
def kBufferCapacity : RingCapacity := ⟨64, by decide, by decide⟩

/-- `std::optional<T>`; a value that was moved out of leaves the optional engaged. -/
inductive Slot (α : Type) where
  | empty
  | full (value : α)
  | moved
  deriving DecidableEq

def Slot.value? {α : Type} : Slot α → Option α
  | .full value => some value
  | .empty | .moved => none

/-- Where the producer is in `Emplace`. -/
inductive Producer (α : Type) where
  | idle
  | entered (value : α)
  | loadedWrite (value : α) (write : UInt64)
  | loaded (value : α) (write read : UInt64)
  | filled (value : α) (write : UInt64)

/-- Where the consumer is in `TryPop`. -/
inductive Consumer (α : Type) where
  | idle
  | entered
  | loadedRead (read : UInt64)
  | loaded (read write : UInt64)
  | moved (read : UInt64) (result : Option α)
  | reset (read : UInt64) (result : Option α)

/-- The ring, and where its two threads are. -/
structure SpscRingBuffer (α : Type) where
  slots : Nat → Slot α := fun _ => .empty
  writeIndex : UInt64 := 0
  readIndex : UInt64 := 0
  dropCount : UInt64 := 0
  producer : Producer α := .idle
  consumer : Consumer α := .idle

/-- Who takes a step. -/
inductive RingEvent (α : Type) where
  | tryPush (value : α)
  | producer
  | tryPop
  | consumer

/-- What a call returned with the step. -/
inductive RingAnswer (α : Type) where
  | nothing
  | pushed (value : α) (accepted : Bool)
  | popped (result : Option α)

namespace RingCapacity

variable (capacity : RingCapacity)

/-- The low bits of an index. -/
def slot (index : UInt64) : Nat := (index &&& (capacity.value - 1)).toNat

def size : Nat := capacity.value.toNat

theorem value_ne_zero : capacity.value ≠ 0 := by
  intro hzero
  have htwo := capacity.two_le
  rw [hzero] at htwo
  exact absurd htwo (by decide)

theorem size_pos : 0 < capacity.size := by
  have htwo := UInt64.le_iff_toNat_le.mp capacity.two_le
  have : (2 : UInt64).toNat = 2 := rfl
  show 0 < capacity.value.toNat
  omega

theorem size_lt : capacity.size < 2 ^ 64 := capacity.value.toNat_lt

theorem slot_ofNat (n : Nat) : capacity.slot (UInt64.ofNat n) = n % capacity.size :=
  toNat_and_sub_one capacity.value_ne_zero capacity.power_of_two n

end RingCapacity

namespace SpscRingBuffer

variable {α : Type}

/-! ## The steps -/

/-- `TryPush`, access by access. -/
def producerStep (capacity : RingCapacity) (s : SpscRingBuffer α) : SpscRingBuffer α × RingAnswer α :=
  match s.producer with
  | .idle => (s, .nothing)
  | .entered value => ({ s with producer := .loadedWrite value s.writeIndex }, .nothing)
  | .loadedWrite value write => ({ s with producer := .loaded value write s.readIndex }, .nothing)
  | .loaded value write read =>
    if capacity.value ≤ write - read then
      ({ s with dropCount := s.dropCount + 1, producer := .idle }, .pushed value false)
    else
      ({ s with
        slots := update s.slots (capacity.slot write) (.full value)
        producer := .filled value write }, .nothing)
  | .filled value write => ({ s with writeIndex := write + 1, producer := .idle }, .pushed value true)

/-- `TryPop`, access by access. -/
def consumerStep (capacity : RingCapacity) (s : SpscRingBuffer α) : SpscRingBuffer α × RingAnswer α :=
  match s.consumer with
  | .idle => (s, .nothing)
  | .entered => ({ s with consumer := .loadedRead s.readIndex }, .nothing)
  | .loadedRead read => ({ s with consumer := .loaded read s.writeIndex }, .nothing)
  | .loaded read write =>
    if read = write then ({ s with consumer := .idle }, .popped none)
    else
      ({ s with
        slots := update s.slots (capacity.slot read) .moved
        consumer := .moved read (s.slots (capacity.slot read)).value? }, .nothing)
  | .moved read result =>
    ({ s with
      slots := update s.slots (capacity.slot read) .empty
      consumer := .reset read result }, .nothing)
  | .reset read result => ({ s with readIndex := read + 1, consumer := .idle }, .popped result)

def step (capacity : RingCapacity) (s : SpscRingBuffer α) : RingEvent α → SpscRingBuffer α × RingAnswer α
  | .tryPush value =>
    match s.producer with
    | .idle => ({ s with producer := .entered value }, .nothing)
    | _ => (s, .nothing)
  | .producer => s.producerStep capacity
  | .tryPop =>
    match s.consumer with
    | .idle => ({ s with consumer := .entered }, .nothing)
    | _ => (s, .nothing)
  | .consumer => s.consumerStep capacity

/-- `AvailableRead`. -/
def available (s : SpscRingBuffer α) : UInt64 := s.writeIndex - s.readIndex

/-! ## What has happened -/

/-- The value that a push put in. -/
def accepted : RingEvent α × RingAnswer α → Option α
  | (_, .pushed value true) => some value
  | _ => none

/-- The value that a pop took out. -/
def popped : RingEvent α × RingAnswer α → Option α
  | (_, .popped result) => result
  | _ => none

def rejected : RingEvent α × RingAnswer α → Bool
  | (_, .pushed _ false) => true
  | _ => false

/-- The consumer is about to read a slot without a value. -/
def ReadsEmpty (capacity : RingCapacity) (s : SpscRingBuffer α) : Prop :=
  ∃ read write, s.consumer = .loaded read write ∧ read ≠ write ∧
    (s.slots (capacity.slot read)).value? = none

/-- The producer is about to fill a slot that has one. -/
def Overwrites (capacity : RingCapacity) (s : SpscRingBuffer α) : Prop :=
  ∃ value write read, s.producer = .loaded value write read ∧ ¬ capacity.value ≤ write - read ∧
    s.slots (capacity.slot write) ≠ .empty

/-! ## What is in the slots -/

def headSlot (consumer : Consumer α) (value : α) : Slot α :=
  match consumer with
  | .moved _ _ => .moved
  | .reset _ _ => .empty
  | _ => .full value

def tailSlot (producer : Producer α) : Slot α :=
  match producer with
  | .filled value _ => .full value
  | _ => .empty

/-- A value between the two indices is in its slot, but for the one being emptied; else only the producer's. -/
def slotFor (producer : Producer α) (consumer : Consumer α) (pushed : List α) (out n : Nat) : Slot α :=
  match pushed[n]? with
  | some value => if n = out then headSlot consumer value else .full value
  | none => if n = pushed.length then tailSlot producer else .empty

/-- The indices that it has loaded. -/
def ProducerKnows (capacity : RingCapacity) (pushed : List α) (out : Nat) : Producer α → Prop
  | .idle | .entered _ => True
  | .loadedWrite _ write => write = UInt64.ofNat pushed.length
  | .loaded _ write read => write = UInt64.ofNat pushed.length ∧
    ∃ seen ≤ out, read = UInt64.ofNat seen ∧ pushed.length ≤ seen + capacity.size
  | .filled _ write => write = UInt64.ofNat pushed.length ∧ pushed.length < out + capacity.size

def ConsumerKnows (pushed : List α) (out : Nat) : Consumer α → Prop
  | .idle | .entered => True
  | .loadedRead read => read = UInt64.ofNat out
  | .loaded read write => read = UInt64.ofNat out ∧
    ∃ seen, out ≤ seen ∧ seen ≤ pushed.length ∧ write = UInt64.ofNat seen
  | .moved read result | .reset read result => read = UInt64.ofNat out ∧ out < pushed.length ∧
    result = pushed[out]?

/-- The ring, in terms of the values `pushed` into it and of how many of them were taken `out`. -/
structure Law (capacity : RingCapacity) (pushed : List α) (out : Nat) (s : SpscRingBuffer α) : Prop where
  write : s.writeIndex = UInt64.ofNat pushed.length
  read : s.readIndex = UInt64.ofNat out
  out_le : out ≤ pushed.length
  fits : pushed.length ≤ out + capacity.size
  slots : ∀ n, out ≤ n → n < out + capacity.size →
    s.slots (n % capacity.size) = slotFor s.producer s.consumer pushed out n
  producer : ProducerKnows capacity pushed out s.producer
  consumer : ConsumerKnows pushed out s.consumer

variable {capacity : RingCapacity} {pushed : List α} {out n : Nat} {s : SpscRingBuffer α}
  {value : α} {write read : UInt64}

theorem slotFor_tail (producer : Producer α) (consumer : Consumer α) (pushed : List α) (out : Nat) :
    slotFor producer consumer pushed out pushed.length = tailSlot producer := by
  unfold slotFor
  rw [List.getElem?_eq_none (Nat.le_refl _)]
  dsimp only
  rw [if_pos rfl]

variable {consumer : Consumer α} {producer : Producer α}

theorem slotFor_head (hout : out < pushed.length) :
    slotFor producer consumer pushed out out = headSlot consumer pushed[out] := by
  unfold slotFor
  rw [List.getElem?_eq_getElem hout]
  dsimp only
  rw [if_pos rfl]

theorem slotFor_of_ne {producer' : Producer α} {consumer' : Consumer α}
    (htail : n = pushed.length → tailSlot producer' = tailSlot producer)
    (hhead : n = out → ∀ value, headSlot consumer' value = headSlot consumer value) :
    slotFor producer' consumer' pushed out n = slotFor producer consumer pushed out n := by
  unfold slotFor
  cases pushed[n]? with
  | some value =>
    dsimp only
    split
    case isTrue hn => exact hhead hn value
    case isFalse => rfl
  | none =>
    dsimp only
    split
    case isTrue hn => exact htail hn
    case isFalse => rfl

theorem Law.initial (capacity : RingCapacity) : Law capacity [] 0 ({} : SpscRingBuffer α) where
  write := rfl
  read := rfl
  out_le := Nat.le_refl 0
  fits := Nat.zero_le _
  slots n _ _ := by
    show Slot.empty = slotFor .idle .idle [] 0 n
    unfold slotFor
    rw [List.getElem?_nil]
    dsimp only
    split <;> rfl
  producer := trivial
  consumer := trivial

theorem Law.slot_write (h : Law capacity pushed out s) (hroom : pushed.length < out + capacity.size)
    (hfree : tailSlot s.producer = .empty) : s.slots (capacity.slot (UInt64.ofNat pushed.length)) = .empty := by
  rw [capacity.slot_ofNat, h.slots pushed.length h.out_le hroom, slotFor_tail, hfree]

theorem Law.slot_read (h : Law capacity pushed out s) (hout : out < pushed.length)
    (hfull : ∀ value, headSlot s.consumer value = .full value) :
    s.slots (capacity.slot (UInt64.ofNat out)) = .full pushed[out] := by
  have hpos := capacity.size_pos
  rw [capacity.slot_ofNat, h.slots out (Nat.le_refl _) (by omega), slotFor_head hout, hfull]

theorem room_of_loaded {seen : Nat} (hseen : seen ≤ out) (hfits : pushed.length ≤ seen + capacity.size)
    (hle : out ≤ pushed.length) (h : ¬ capacity.value ≤ UInt64.ofNat pushed.length - UInt64.ofNat seen) :
    pushed.length < out + capacity.size := by
  have hlt := capacity.size_lt
  have hsub := toNat_ofNat_sub (a := pushed.length) (b := seen) (by omega) (by omega)
  rw [UInt64.not_le, UInt64.lt_iff_toNat_lt, hsub] at h
  have : capacity.value.toNat = capacity.size := rfl
  omega

theorem lt_of_loaded {seen : Nat} (hout : out ≤ seen) (hseen : seen ≤ pushed.length)
    (h : UInt64.ofNat out ≠ UInt64.ofNat seen) : out < pushed.length := by
  rcases Nat.lt_or_eq_of_le hout with hlt | heq
  · omega
  · exact absurd (congrArg UInt64.ofNat heq) h

theorem slots_update {slots : Nat → Slot α} {described described' : Nat → Slot α} {at' : Nat}
    (h : ∀ n, out ≤ n → n < out + capacity.size → slots (n % capacity.size) = described n)
    (hat : out ≤ at' ∧ at' < out + capacity.size)
    (hother : ∀ n, n ≠ at' → described' n = described n) (n : Nat) (hlow : out ≤ n)
    (hhigh : n < out + capacity.size) :
    update slots (capacity.slot (UInt64.ofNat at')) (described' at') (n % capacity.size) = described' n := by
  rw [capacity.slot_ofNat]
  rcases eq_or_ne n at' with rfl | hne
  · rw [update_self]
  · have hslot : n % capacity.size ≠ at' % capacity.size := fun heq =>
      hne (slot_inj ⟨hlow, hhigh⟩ hat heq)
    rw [update_of_ne hslot, h n hlow hhigh, hother n hne]

/-! ## What a step does -/

theorem Law.goOn (h : Law capacity pushed out s) {dropCount : UInt64}
    (htail : tailSlot producer = tailSlot s.producer)
    (hhead : ∀ value, headSlot consumer value = headSlot s.consumer value)
    (hproducer : ProducerKnows capacity pushed out producer) (hconsumer : ConsumerKnows pushed out consumer) :
    Law capacity pushed out { s with producer := producer, consumer := consumer, dropCount := dropCount } where
  write := h.write
  read := h.read
  out_le := h.out_le
  fits := h.fits
  slots n hlow hhigh := by
    rw [slotFor_of_ne (fun _ => htail) fun _ => hhead]
    exact h.slots n hlow hhigh
  producer := hproducer
  consumer := hconsumer

/-- **What a step does**, by what it returns. -/
inductive Effect (capacity : RingCapacity) (pushed : List α) (out : Nat) (s s' : SpscRingBuffer α) :
    RingAnswer α → Prop where
  | nothing (law : Law capacity pushed out s') (hdrops : s'.dropCount = s.dropCount) :
    Effect capacity pushed out s s' .nothing
  | accepted {value : α} (law : Law capacity (pushed ++ [value]) out s')
    (hdrops : s'.dropCount = s.dropCount) : Effect capacity pushed out s s' (.pushed value true)
  | rejected {value : α} (law : Law capacity pushed out s') (hdrops : s'.dropCount = s.dropCount + 1) :
    Effect capacity pushed out s s' (.pushed value false)
  | empty (law : Law capacity pushed out s') (hdrops : s'.dropCount = s.dropCount) :
    Effect capacity pushed out s s' (.popped none)
  | popped {value : α} (hvalue : pushed[out]? = some value) (law : Law capacity pushed (out + 1) s')
    (hdrops : s'.dropCount = s.dropCount) : Effect capacity pushed out s s' (.popped (some value))

section

variable (h : Law capacity pushed out s)
include h

theorem Law.fill (value : α)
    (hroom : pushed.length < out + capacity.size) (hwrite : write = UInt64.ofNat pushed.length) :
    Law capacity pushed out { s with
      slots := update s.slots (capacity.slot write) (.full value)
      producer := .filled value write } where
  write := h.write
  read := h.read
  out_le := h.out_le
  fits := h.fits
  slots n hlow hhigh := by
    have hfull : slotFor (.filled value write) s.consumer pushed out pushed.length = .full value :=
      slotFor_tail _ _ _ _
    have hother : ∀ m, m ≠ pushed.length → slotFor (.filled value write) s.consumer pushed out m
        = slotFor s.producer s.consumer pushed out m := by
      intro m hm
      exact slotFor_of_ne (fun heq => absurd heq hm) fun _ _ => rfl
    have hslots := slots_update h.slots ⟨h.out_le, hroom⟩ hother n hlow hhigh
    rwa [hfull, ← hwrite] at hslots
  producer := ⟨hwrite, hroom⟩
  consumer := h.consumer

theorem Law.publish (hproducer : s.producer = .filled value write) :
    Law capacity (pushed ++ [value]) out { s with writeIndex := write + 1, producer := .idle } := by
  have hknows := h.producer
  rw [hproducer] at hknows
  obtain ⟨hwrite, hroom⟩ := hknows
  have hlen : (pushed ++ [value]).length = pushed.length + 1 := by
    rw [length_append, length_singleton]
  -- a consumer that holds a slot has not taken its value out yet, and that one is not the new one
  have hconsumer : ConsumerKnows (pushed ++ [value]) out s.consumer ∧
      (out = pushed.length → headSlot s.consumer value = .full value) := by
    have hconsumer := h.consumer
    cases hc : s.consumer with
    | idle | entered => exact ⟨trivial, fun _ => rfl⟩
    | loadedRead read =>
      rw [hc] at hconsumer
      exact ⟨hconsumer, fun _ => rfl⟩
    | loaded read write' =>
      rw [hc] at hconsumer
      obtain ⟨hread, seen, hout, hseen, hwrite'⟩ := hconsumer
      exact ⟨⟨hread, seen, hout, by omega, hwrite'⟩, fun _ => rfl⟩
    | moved read result | reset read result =>
      rw [hc] at hconsumer
      obtain ⟨hread, hlt, hresult⟩ := hconsumer
      refine ⟨⟨hread, by omega, ?_⟩, fun heq => by omega⟩
      rw [hresult, List.getElem?_append_left hlt]
  refine ⟨?_, h.read, by have := h.out_le; omega, by omega, ?_, trivial, hconsumer.1⟩
  · show write + 1 = _
    rw [hwrite, hlen, ofNat_add_one]
  · intro n hlow hhigh
    show s.slots (n % capacity.size) = slotFor .idle s.consumer (pushed ++ [value]) out n
    rw [h.slots n hlow hhigh, hproducer]
    rcases Nat.lt_trichotomy n pushed.length with hlt | heq | hgt
    · unfold slotFor
      rw [List.getElem?_append_left hlt, List.getElem?_eq_getElem hlt]
    · subst heq
      rw [slotFor_tail]
      unfold slotFor
      rw [List.getElem?_concat_length]
      dsimp only
      split
      case isTrue hout => exact (hconsumer.2 hout.symm).symm
      case isFalse => rfl
    · unfold slotFor
      rw [List.getElem?_eq_none (by omega), List.getElem?_eq_none (by omega)]
      dsimp only
      rw [if_neg (by omega)]
      split <;> rfl

theorem Law.writeHead {slot : Slot α} (hout : out < pushed.length)
    (hread : read = UInt64.ofNat out) (hslot : ∀ value, headSlot consumer value = slot)
    (hknows : ConsumerKnows pushed out consumer) :
    Law capacity pushed out { s with
      slots := update s.slots (capacity.slot read) slot, consumer := consumer } where
  write := h.write
  read := h.read
  out_le := h.out_le
  fits := h.fits
  slots n hlow hhigh := by
    have hpos := capacity.size_pos
    have hhead : slotFor s.producer consumer pushed out out = slot := by
      rw [slotFor_head hout, hslot]
    have hother : ∀ m, m ≠ out → slotFor s.producer consumer pushed out m
        = slotFor s.producer s.consumer pushed out m := by
      intro m hm
      exact slotFor_of_ne (fun _ => rfl) fun heq => absurd heq hm
    have hslots := slots_update h.slots ⟨Nat.le_refl out, by omega⟩ hother n hlow hhigh
    rwa [hhead, ← hread] at hslots
  producer := h.producer
  consumer := hknows

theorem Law.release {result : Option α} (hconsumer : s.consumer = .reset read result) :
    Law capacity pushed (out + 1) { s with readIndex := read + 1, consumer := .idle } := by
  have hknows := h.consumer
  rw [hconsumer] at hknows
  obtain ⟨hread, hlt, -⟩ := hknows
  have hfits := h.fits
  have hproducer : ProducerKnows capacity pushed (out + 1) s.producer ∧
      (pushed.length = out + capacity.size → tailSlot s.producer = .empty) := by
    have hproducer := h.producer
    cases hp : s.producer with
    | idle | entered value => exact ⟨trivial, fun _ => rfl⟩
    | loadedWrite value write =>
      rw [hp] at hproducer
      exact ⟨hproducer, fun _ => rfl⟩
    | loaded value write read =>
      rw [hp] at hproducer
      obtain ⟨hwrite, seen, hseen, hread, hfits⟩ := hproducer
      exact ⟨⟨hwrite, seen, by omega, hread, hfits⟩, fun _ => rfl⟩
    | filled value write =>
      rw [hp] at hproducer
      obtain ⟨hwrite, hroom⟩ := hproducer
      exact ⟨⟨hwrite, by omega⟩, fun heq => by omega⟩
  refine ⟨h.write, ?_, hlt, by omega, ?_, hproducer.1, trivial⟩
  · show read + 1 = _
    rw [hread, ofNat_add_one]
  · intro n hlow hhigh
    show s.slots (n % capacity.size) = slotFor s.producer .idle pushed (out + 1) n
    rcases Nat.lt_or_ge n (out + capacity.size) with hin | hlast
    · rw [h.slots n (by omega) hin]
      unfold slotFor
      cases pushed[n]? with
      | some value =>
        dsimp only
        rw [if_neg (by omega)]
        split <;> rfl
      | none => rfl
    · -- the slot behind all the others is the one that was reset
      obtain rfl : n = out + capacity.size := by omega
      have hpos := capacity.size_pos
      rw [Nat.add_mod_right, h.slots out (Nat.le_refl _) (by omega), slotFor_head hlt, hconsumer]
      unfold slotFor
      rw [List.getElem?_eq_none (by omega)]
      dsimp only
      split
      case isTrue heq => exact (hproducer.2 heq.symm).symm
      case isFalse => rfl

theorem effect_producerStep :
    Effect capacity pushed out s (s.producerStep capacity).1 (s.producerStep capacity).2 := by
  have hknows := h.producer
  unfold producerStep
  cases hp : s.producer with
  | idle => exact .nothing h rfl
  | entered value =>
    exact .nothing (h.goOn (by rw [hp]; rfl) (fun _ => rfl) h.write h.consumer) rfl
  | loadedWrite value write =>
    rw [hp] at hknows
    exact .nothing (h.goOn (by rw [hp]; rfl) (fun _ => rfl)
      ⟨hknows, out, Nat.le_refl out, h.read, h.fits⟩ h.consumer) rfl
  | loaded value write read =>
    rw [hp] at hknows
    obtain ⟨hwrite, seen, hseen, hread, hfits⟩ := hknows
    dsimp only
    split
    case isTrue => exact .rejected (h.goOn (by rw [hp]; rfl) (fun _ => rfl) trivial h.consumer) rfl
    case isFalse hroom =>
      rw [hwrite, hread] at hroom
      exact .nothing (h.fill value (room_of_loaded hseen hfits h.out_le hroom) hwrite) rfl
  | filled value write => exact .accepted (h.publish hp) rfl

theorem effect_consumerStep :
    Effect capacity pushed out s (s.consumerStep capacity).1 (s.consumerStep capacity).2 := by
  have hknows := h.consumer
  unfold consumerStep
  cases hc : s.consumer with
  | idle => exact .nothing h rfl
  | entered =>
    exact .nothing (h.goOn rfl (fun _ => by rw [hc]; rfl) h.producer h.read) rfl
  | loadedRead read =>
    rw [hc] at hknows
    exact .nothing (h.goOn rfl (fun _ => by rw [hc]; rfl) h.producer
      ⟨hknows, pushed.length, h.out_le, Nat.le_refl _, h.write⟩) rfl
  | loaded read write =>
    rw [hc] at hknows
    obtain ⟨hread, seen, hout, hseen, hwrite⟩ := hknows
    dsimp only
    split
    case isTrue => exact .empty (h.goOn rfl (fun _ => by rw [hc]; rfl) h.producer trivial) rfl
    case isFalse hne =>
      rw [hread, hwrite] at hne
      have hlt := lt_of_loaded hout hseen hne
      refine .nothing (h.writeHead hlt hread (fun _ => rfl) ⟨hread, hlt, ?_⟩) rfl
      rw [hread, h.slot_read hlt fun _ => by rw [hc]; rfl, List.getElem?_eq_getElem hlt]
      rfl
  | moved read result =>
    rw [hc] at hknows
    exact .nothing (h.writeHead hknows.2.1 hknows.1 (fun _ => rfl) hknows) rfl
  | reset read result =>
    rw [hc] at hknows
    obtain ⟨-, hlt, hresult⟩ := hknows
    rw [List.getElem?_eq_getElem hlt] at hresult
    rw [hresult]
    exact .popped (List.getElem?_eq_getElem hlt) (h.release hc) rfl

/-- What any step does to the two counts. -/
theorem effect_step (event : RingEvent α) :
    Effect capacity pushed out s (s.step capacity event).1 (s.step capacity event).2 := by
  unfold step
  cases event with
  | tryPush value =>
    cases hp : s.producer with
    | idle => exact .nothing (h.goOn (by rw [hp]; rfl) (fun _ => rfl) trivial h.consumer) rfl
    | entered | loadedWrite | loaded | filled => exact .nothing h rfl
  | producer => exact effect_producerStep h
  | tryPop =>
    cases hc : s.consumer with
    | idle => exact .nothing (h.goOn rfl (fun _ => by rw [hc]; rfl) h.producer trivial) rfl
    | entered | loadedRead | loaded | moved | reset => exact .nothing h rfl
  | consumer => exact effect_consumerStep h

end

/-! ## Whole runs -/

/-- What has gone in and come out, and the ring as it is now. -/
structure Accounts (capacity : RingCapacity) (history : List (RingEvent α × RingAnswer α))
    (s : SpscRingBuffer α) : Prop where
  law : Law capacity (history.filterMap accepted) (history.filterMap popped).length s
  order : history.filterMap popped <+: history.filterMap accepted
  drops : s.dropCount = UInt64.ofNat (history.countP rejected)

theorem countP_snoc {β : Type} (f : β → Bool) (history : List β) (call : β) :
    UInt64.ofNat ((history ++ [call]).countP f) = UInt64.ofNat (history.countP f) + if f call then 1 else 0 := by
  rw [countP_append, countP_singleton]
  split
  case isTrue => exact (ofNat_add_one _).symm
  case isFalse => rw [UInt64.add_zero, Nat.add_zero]

theorem Accounts.step {history : List (RingEvent α × RingAnswer α)} (h : Accounts capacity history s)
    (event : RingEvent α) :
    Accounts capacity (history ++ [(event, (s.step capacity event).2)]) (s.step capacity event).1 := by
  obtain ⟨law, order, drops⟩ := h
  have heffect := effect_step law event
  generalize (s.step capacity event).1 = s' at heffect
  generalize (s.step capacity event).2 = answer at heffect
  have hin := filterMap_snoc accepted history (event, answer)
  have hout := filterMap_snoc popped history (event, answer)
  have hcount := countP_snoc rejected history (event, answer)
  cases heffect with
  | nothing law hdrops | empty law hdrops =>
    replace hin : _ = _ ++ [] := hin
    replace hout : _ = _ ++ [] := hout
    rw [append_nil] at hin hout
    exact ⟨by rwa [hin, hout], by rwa [hin, hout], by rw [hcount, hdrops, drops]; exact (UInt64.add_zero _).symm⟩
  | @accepted value law hdrops =>
    replace hin : _ = _ ++ [value] := hin
    replace hout : _ = _ ++ [] := hout
    rw [append_nil] at hout
    refine ⟨by rwa [hin, hout], ?_, by rw [hcount, hdrops, drops]; exact (UInt64.add_zero _).symm⟩
    rw [hin, hout]
    exact order.trans (prefix_append _ _)
  | rejected law hdrops =>
    replace hin : _ = _ ++ [] := hin
    replace hout : _ = _ ++ [] := hout
    rw [append_nil] at hin hout
    exact ⟨by rwa [hin, hout], by rwa [hin, hout], by rw [hcount, hdrops, drops]; rfl⟩
  | @popped value hvalue law hdrops =>
    replace hin : _ = _ ++ [] := hin
    replace hout : _ = _ ++ [value] := hout
    rw [append_nil] at hin
    refine ⟨?_, ?_, by rw [hcount, hdrops, drops]; exact (UInt64.add_zero _).symm⟩
    · rwa [hin, hout, length_append, length_singleton]
    · rw [hin, hout]
      obtain ⟨rest, hrest⟩ := order
      rw [← hrest, List.getElem?_append_right (Nat.le_refl _), Nat.sub_self] at hvalue
      cases rest with
      | nil => cases hvalue
      | cons next rest =>
        cases hvalue
        exact ⟨rest, by rw [append_assoc]; exact hrest⟩

/-- The accounts are right at every time. -/
theorem accounts_run (capacity : RingCapacity) (events : List (RingEvent α)) :
    Accounts capacity (trace (step capacity) {} events) (run (step capacity) {} events) := by
  have hstart : Accounts capacity [] ({} : SpscRingBuffer α) :=
    ⟨Law.initial capacity, prefix_rfl, rfl⟩
  exact trace_invariant (I := Accounts capacity) (fun _ _ event h => h.step event) hstart events

section

variable (h : Law capacity pushed out s)
include h

theorem Law.not_readsEmpty : ¬ s.ReadsEmpty capacity := by
  rintro ⟨read, write, hc, hne, hnone⟩
  have hknows := h.consumer
  rw [hc] at hknows
  obtain ⟨hread, seen, hout, hseen, hwrite⟩ := hknows
  rw [hread, hwrite] at hne
  rw [hread, h.slot_read (lt_of_loaded hout hseen hne) fun _ => by rw [hc]; rfl] at hnone
  cases hnone

theorem Law.not_overwrites : ¬ s.Overwrites capacity := by
  rintro ⟨value, write, read, hp, hroom, hfull⟩
  have hknows := h.producer
  rw [hp] at hknows
  obtain ⟨hwrite, seen, hseen, hread, hfits⟩ := hknows
  rw [hwrite, hread] at hroom
  rw [hwrite] at hfull
  exact hfull (h.slot_write (room_of_loaded hseen hfits h.out_le hroom) (by rw [hp]; rfl))

theorem Law.available : s.available.toNat = pushed.length - out := by
  have hfits := h.fits
  have hlt := capacity.size_lt
  show (s.writeIndex - s.readIndex).toNat = _
  rw [h.write, h.read, toNat_ofNat_sub h.out_le (by omega)]

theorem Law.available_le : s.available ≤ capacity.value := by
  have hfits := h.fits
  rw [UInt64.le_iff_toNat_le, h.available]
  show _ ≤ capacity.size
  omega

end

/-- The ring of `AudioCaptureStream` never holds more than 64 frames. -/
example (events : List (RingEvent α)) : (run (step kBufferCapacity) {} events).available ≤ 64 :=
  (accounts_run kBufferCapacity events).law.available_le

/-! ## When a call may fail -/

variable {events : List (RingEvent α)} {event : RingEvent α}

/-- `P` held at some step of a call that is still in progress, and that `InCall` tells from the others. -/
def During (capacity : RingCapacity) (InCall P : SpscRingBuffer α → Prop) (events : List (RingEvent α)) : Prop :=
  ∃ before after, events = before ++ after ∧ P (run (step capacity) {} before) ∧
    Along (step capacity) (fun s _ => InCall s) (run (step capacity) {} before) after

/-- A look at the other side's index: from there on the call holds what it has seen. -/
theorem During.of_look {InCall P S : SpscRingBuffer α → Prop} (hstart : ¬ S ({} : SpscRingBuffer α))
    (hseen : ∀ s, S s → InCall s) (hlook : ∀ before event, ¬ S (run (step capacity) {} before) →
      S (step capacity (run (step capacity) {} before) event).1 →
        InCall (run (step capacity) {} before) ∧ P (run (step capacity) {} before))
    (h : S (run (step capacity) {} events)) : During capacity InCall P events := by
  obtain ⟨before, event, after, hsplit, hnot, hat, halong⟩ := exists_since hstart h
  rw [run_append] at hat halong
  obtain ⟨hcall, hP⟩ := hlook before event hnot hat
  exact ⟨before, event :: after, hsplit, hP, hcall, halong.mono fun s _ => hseen s⟩

section

variable (h : Law capacity pushed out s)
include h

theorem looked_consumer (hnot : s.consumer ≠ .loaded read write)
    (hloaded : (s.step capacity event).1.consumer = .loaded read write) :
    s.consumer ≠ .idle ∧ s.available = write - read := by
  have hknows := h.consumer
  cases event with
  | tryPush value => cases hp : s.producer <;> (rw [step, hp] at hloaded; exact absurd hloaded hnot)
  | producer =>
    unfold step producerStep at hloaded
    cases hp : s.producer <;> rw [hp] at hloaded <;> dsimp only at hloaded
    case loaded => split at hloaded <;> exact absurd hloaded hnot
    all_goals exact absurd hloaded hnot
  | tryPop =>
    cases hc : s.consumer <;> rw [step, hc] at hloaded <;> dsimp only at hloaded
    case idle => cases hloaded
    all_goals exact absurd hloaded hnot
  | consumer =>
    unfold step consumerStep at hloaded
    cases hc : s.consumer <;> rw [hc] at hloaded hknows <;> dsimp only at hloaded
    case idle => exact absurd hloaded hnot
    case loadedRead =>
      cases hloaded
      have hread : read = s.readIndex := hknows.trans h.read.symm
      exact ⟨nofun, by rw [hread]; rfl⟩
    case loaded => split at hloaded <;> cases hloaded
    all_goals cases hloaded

theorem looked_producer (hnot : s.producer ≠ .loaded value write read)
    (hloaded : (s.step capacity event).1.producer = .loaded value write read) :
    s.producer ≠ .idle ∧ s.available = write - read := by
  have hknows := h.producer
  cases event with
  | tryPop => cases hc : s.consumer <;> (rw [step, hc] at hloaded; exact absurd hloaded hnot)
  | consumer =>
    unfold step consumerStep at hloaded
    cases hc : s.consumer <;> rw [hc] at hloaded <;> dsimp only at hloaded
    case loaded => split at hloaded <;> exact absurd hloaded hnot
    all_goals exact absurd hloaded hnot
  | tryPush value =>
    cases hp : s.producer <;> rw [step, hp] at hloaded <;> dsimp only at hloaded
    case idle => cases hloaded
    all_goals exact absurd hloaded hnot
  | producer =>
    unfold step producerStep at hloaded
    cases hp : s.producer <;> rw [hp] at hloaded hknows <;> dsimp only at hloaded
    case idle => exact absurd hloaded hnot
    case loadedWrite =>
      cases hloaded
      have hwrite : write = s.writeIndex := hknows.trans h.write.symm
      exact ⟨nofun, by rw [hwrite]; rfl⟩
    case loaded => split at hloaded <;> cases hloaded
    all_goals cases hloaded

theorem loaded_of_popped_none
    (hanswer : (s.step capacity event).2 = .popped none) : ∃ read, s.consumer = .loaded read read := by
  have hknows := h.consumer
  cases event with
  | tryPush value => cases hp : s.producer <;> (rw [step, hp] at hanswer; cases hanswer)
  | tryPop => cases hc : s.consumer <;> (rw [step, hc] at hanswer; cases hanswer)
  | producer =>
    unfold step producerStep at hanswer
    cases hp : s.producer <;> rw [hp] at hanswer <;> dsimp only at hanswer
    case loaded => split at hanswer <;> cases hanswer
    all_goals cases hanswer
  | consumer =>
    unfold step consumerStep at hanswer
    cases hc : s.consumer <;> rw [hc] at hanswer hknows <;> dsimp only at hanswer
    case loaded read write =>
      split at hanswer
      · next heq => exact ⟨read, by rw [heq]⟩
      · cases hanswer
    case reset =>
      -- the slot it has taken its value out of was full
      cases hanswer
      obtain ⟨-, hlt, hresult⟩ := hknows
      rw [List.getElem?_eq_getElem hlt] at hresult
      cases hresult
    all_goals cases hanswer

end

theorem loaded_of_rejected (hanswer : (s.step capacity event).2 = .pushed value false) :
    ∃ write read, s.producer = .loaded value write read ∧ capacity.value ≤ write - read := by
  cases event with
  | tryPush value => cases hp : s.producer <;> (rw [step, hp] at hanswer; cases hanswer)
  | tryPop => cases hc : s.consumer <;> (rw [step, hc] at hanswer; cases hanswer)
  | producer =>
    unfold step producerStep at hanswer
    cases hp : s.producer <;> rw [hp] at hanswer <;> dsimp only at hanswer
    case loaded value' write read =>
      split at hanswer <;> cases hanswer
      next hfull => exact ⟨write, read, rfl, hfull⟩
    all_goals cases hanswer
  | consumer =>
    unfold step consumerStep at hanswer
    cases hc : s.consumer <;> rw [hc] at hanswer <;> dsimp only at hanswer
    case loaded => split at hanswer <;> cases hanswer
    all_goals cases hanswer

/-- **A `TryPop` that has no value** was made where, at some step of it, the ring was empty. -/
theorem empty_during (h : (step capacity (run (step capacity) {} events) event).2 = .popped none) :
    During capacity (fun s => s.consumer ≠ .idle) (fun s => s.available = 0) events := by
  obtain ⟨read, hconsumer⟩ := loaded_of_popped_none (accounts_run capacity events).law h
  refine During.of_look (S := fun s => s.consumer = .loaded read read) nofun (fun s hs => ?_)
    (fun before event hnot hat => ?_) hconsumer
  · rw [hs]
    nofun
  · obtain ⟨hcall, hsees⟩ := looked_consumer (accounts_run capacity before).law hnot hat
    exact ⟨hcall, hsees.trans (UInt64.sub_self read)⟩

/-- **A `TryPush` that fails** was made where, at some step of it, the ring was full. -/
theorem full_during (h : (step capacity (run (step capacity) {} events) event).2 = .pushed value false) :
    During capacity (fun s => s.producer ≠ .idle) (fun s => s.available = capacity.value) events := by
  obtain ⟨write, read, hproducer, hfull⟩ := loaded_of_rejected h
  refine During.of_look (S := fun s => s.producer = .loaded value write read) nofun (fun s hs => ?_)
    (fun before event hnot hat => ?_) hproducer
  · rw [hs]
    nofun
  · have hlaw := (accounts_run capacity before).law
    obtain ⟨hcall, hsees⟩ := looked_producer hlaw hnot hat
    exact ⟨hcall, UInt64.le_antisymm hlaw.available_le (hsees ▸ hfull)⟩

/-- **What is popped is, in order, what was pushed**, and what was pushed and not popped is still there;
    no step reads an empty slot or fills one that has a value; there is never more in the ring than it can
    hold, and `DropCount` counts the pushes that failed.  A pop has no value only if the ring was empty in
    its time, and a push fails only if it was full. -/
theorem pops_what_was_pushed (capacity : RingCapacity) (events : List (RingEvent α)) :
    let s := run (step capacity) {} events
    let history := trace (step capacity) {} events
    (∃ unread, history.filterMap accepted = history.filterMap popped ++ unread ∧
        unread.length = s.available.toNat) ∧
      ¬ s.ReadsEmpty capacity ∧ ¬ s.Overwrites capacity ∧
      s.available ≤ capacity.value ∧
      s.dropCount = UInt64.ofNat (history.countP rejected) ∧
      ∀ event, ((step capacity s event).2 = .popped none →
          During capacity (fun s => s.consumer ≠ .idle) (fun s => s.available = 0) events) ∧
        ∀ value, (step capacity s event).2 = .pushed value false →
          During capacity (fun s => s.producer ≠ .idle) (fun s => s.available = capacity.value) events := by
  intro s history
  obtain ⟨law, ⟨unread, hunread⟩, drops⟩ := accounts_run capacity events
  refine ⟨⟨unread, hunread.symm, ?_⟩, law.not_readsEmpty, law.not_overwrites, law.available_le, drops,
    fun event => ⟨empty_during, fun value => full_during⟩⟩
  rw [law.available, ← hunread, length_append]
  omega

end SpscRingBuffer

end Cockpit.Audio
