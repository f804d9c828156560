/-
  The accounts of the frame broker: which handles there are, what the counters count, and where each lease is.
-/
import Cockpit.Camera.FrameBroker

namespace Cockpit.Camera

open List Function

namespace FrameMemory

/-- Living frames of one epoch. -/
def live (m : FrameMemory) (epoch : Nat) : Nat := (m.heap.alive.map SharedNativeFrame.epoch).count epoch

/-- Living frames of one lease. -/
def wrapped (m : FrameMemory) (id : Nat) : Nat := (m.heap.alive.map fun frame => frame.lease.id).count id

/-- The books of the frames: `handles` are all handles, `reserved` the epochs with a reservation, once for
    each, and `owned` the leases that a call of `Publish` still has. -/
structure Accounts (m : FrameMemory) (limit : Nat) (handles : List SharedNativeFrame)
    (reserved owned : List Nat) : Prop where
  heap : m.heap.Owned handles
  retained : ∀ epoch, m.retained epoch = m.live epoch + reserved.count epoch
  bound : ∀ epoch, m.retained epoch ≤ limit
  leases : ∀ id, owned.count id + m.wrapped id + m.returned id = if id < m.leases then 1 else 0

variable {m : FrameMemory} {limit : Nat} {handles handles' : List SharedNativeFrame}
  {reserved reserved' owned owned' : List Nat} {frame : SharedNativeFrame} {taken : FrameLease}
  {epoch : Nat}

theorem accounts_empty (limit : Nat) : ({} : FrameMemory).Accounts limit [] [] [] where
  heap := SharedHeap.owned_empty
  retained := fun _ => rfl
  bound := fun _ => Nat.zero_le limit
  leases := fun _ => rfl

theorem Accounts.perm (h : m.Accounts limit handles reserved owned) (hhandles : handles.Perm handles')
    (hreserved : reserved.Perm reserved') (howned : owned.Perm owned') :
    m.Accounts limit handles' reserved' owned' where
  heap := h.heap.perm hhandles
  retained := fun epoch => by rw [← hreserved.count_eq epoch]; exact h.retained epoch
  bound := h.bound
  leases := fun id => by rw [← howned.count_eq id]; exact h.leases id

theorem live_eq_of_alive {m m' : FrameMemory} (h : m'.heap.alive = m.heap.alive) : m'.live = m.live := by
  unfold live
  rw [h]

theorem wrapped_eq_of_alive {m m' : FrameMemory} (h : m'.heap.alive = m.heap.alive) : m'.wrapped = m.wrapped := by
  unfold wrapped
  rw [h]

theorem Accounts.wrapped_eq_zero (h : m.Accounts limit handles reserved owned) {id : Nat}
    (hid : id ∈ owned ∨ 0 < m.returned id) : m.wrapped id = 0 := by
  have hone := h.leases id
  have hpos : 0 < owned.count id + m.returned id :=
    hid.elim (fun hmem => Nat.add_pos_left (count_pos_iff.mpr hmem) _) fun hr => Nat.add_pos_right _ hr
  split at hone <;> omega

theorem wrapped_pos (h : frame ∈ m.heap.alive) : 0 < m.wrapped frame.lease.id :=
  count_pos_iff.mpr (mem_map_of_mem h)

theorem Accounts.lease (h : m.Accounts limit handles reserved owned) :
    m.lease.Accounts limit handles reserved (m.leases :: owned) where
  heap := h.heap
  retained := h.retained
  bound := h.bound
  leases := fun id => by
    have hone := h.leases id
    change _ + m.wrapped id + m.returned id = if id < m.leases + 1 then 1 else 0
    by_cases hid : id = m.leases
    · subst hid
      rw [if_neg (Nat.lt_irrefl _)] at hone
      rw [count_cons_self, if_pos (Nat.lt_succ_self _)]
      omega
    · rw [count_cons_of_ne (Ne.symm hid), hone]
      exact if_congr (by omega) rfl rfl

theorem Accounts.giveBack (h : m.Accounts limit handles reserved (taken.id :: owned)) :
    (m.giveBack taken).Accounts limit handles reserved owned where
  heap := h.heap
  retained := h.retained
  bound := h.bound
  leases := fun id => by
    have hone := h.leases id
    change _ + m.wrapped id + update m.returned taken.id _ id = if id < m.leases then 1 else 0
    by_cases hid : id = taken.id
    · subst hid
      rw [count_cons_self] at hone
      rw [update_self, ← hone]
      omega
    · rw [count_cons_of_ne (Ne.symm hid)] at hone
      rw [update_of_ne hid, hone]

theorem Accounts.reserve (h : m.Accounts limit handles reserved owned) (hroom : m.retained epoch < limit) :
    (m.reserve epoch).Accounts limit handles (epoch :: reserved) owned where
  heap := h.heap
  retained := fun e => by
    change update m.retained epoch _ e = m.live e + _
    by_cases he : e = epoch
    · subst he
      rw [update_self, count_cons_self, h.retained]
      omega
    · rw [update_of_ne he, count_cons_of_ne (Ne.symm he), h.retained]
  bound := fun e => by
    change update m.retained epoch _ e ≤ limit
    by_cases he : e = epoch
    · subst he
      rw [update_self]
      exact hroom
    · rw [update_of_ne he]
      exact h.bound e
  leases := h.leases

theorem Accounts.unreserve (h : m.Accounts limit handles (epoch :: reserved) owned) :
    (m.unreserve epoch).Accounts limit handles reserved owned where
  heap := h.heap
  retained := fun e => by
    have hretained := h.retained e
    change update m.retained epoch _ e = m.live e + _
    by_cases he : e = epoch
    · subst he
      rw [count_cons_self] at hretained
      rw [update_self, hretained]
      omega
    · rw [count_cons_of_ne (Ne.symm he)] at hretained
      rw [update_of_ne he, hretained]
  bound := fun e => by
    change update m.retained epoch _ e ≤ limit
    by_cases he : e = epoch
    · subst he
      rw [update_self]
      exact Nat.le_trans (Nat.sub_le _ _) (h.bound e)
    · rw [update_of_ne he]
      exact h.bound e
  leases := h.leases

theorem Accounts.wrap (h : m.Accounts limit handles (frame.epoch :: reserved) (frame.lease.id :: owned)) :
    (m.wrap frame).Accounts limit (frame :: handles) reserved owned where
  heap := by
    refine h.heap.make fun hmem => ?_
    have := wrapped_pos ((h.heap.alive frame).mpr hmem)
    have := h.wrapped_eq_zero (.inl mem_cons_self)
    omega
  retained := fun e => by
    have hretained := h.retained e
    change m.retained e = (frame.epoch :: m.heap.alive.map SharedNativeFrame.epoch).count e + _
    rw [count_cons] at hretained ⊢
    unfold live at hretained
    omega
  bound := h.bound
  leases := fun id => by
    have hone := h.leases id
    change _ + (frame.lease.id :: m.heap.alive.map fun frame => frame.lease.id).count id + m.returned id = _
    rw [count_cons] at hone ⊢
    unfold wrapped at hone
    refine Eq.trans ?_ hone
    omega

theorem Accounts.copy (h : m.Accounts limit handles reserved owned) (hmem : frame ∈ handles) :
    (m.copy frame).Accounts limit (frame :: handles) reserved owned where
  heap := h.heap.copy hmem
  retained := h.retained
  bound := h.bound
  leases := h.leases

theorem Accounts.alive (h : m.Accounts limit handles reserved owned) (hmem : frame ∈ handles) :
    frame ∈ m.heap.alive := (h.heap.alive frame).mpr hmem

theorem heap_drop (m : FrameMemory) (frame : SharedNativeFrame) : (m.drop frame).heap = (m.heap.release frame).1 := by
  unfold drop
  dsimp only
  split <;> rfl

section

variable (h : m.Accounts limit (frame :: handles) reserved owned)
include h

theorem Accounts.drop_shared (hmem : frame ∈ handles) : (m.drop frame).Accounts limit handles reserved owned := by
  have hlast : ¬ (m.heap.release frame).2 = true := fun hl => h.heap.release_last.mp hl hmem
  have halive : (m.drop frame).heap.alive = m.heap.alive := by
    rw [heap_drop, h.heap.alive_release, if_pos hmem]
  have hrest : (m.drop frame).retained = m.retained ∧ (m.drop frame).returned = m.returned ∧
      (m.drop frame).leases = m.leases := by
    unfold drop
    rw [if_neg hlast]
    exact ⟨rfl, rfl, rfl⟩
  obtain ⟨hretained, hret, hleases⟩ := hrest
  refine ⟨?_, fun epoch => ?_, fun epoch => ?_, fun id => ?_⟩
  · rw [heap_drop]
    exact h.heap.release
  · rw [hretained, live_eq_of_alive halive]
    exact h.retained epoch
  · rw [hretained]
    exact h.bound epoch
  · rw [hret, hleases, wrapped_eq_of_alive halive]
    exact h.leases id

theorem Accounts.drop_last (hmem : frame ∉ handles) :
    (m.drop frame).Accounts limit handles reserved owned ∧ (m.drop frame).returned frame.lease.id = 1 := by
  have hlast : (m.heap.release frame).2 = true := h.heap.release_last.mpr hmem
  have hperm : m.heap.alive.Perm (frame :: (m.heap.release frame).1.alive) := by
    rw [h.heap.alive_release, if_neg hmem]
    exact perm_cons_erase (h.alive mem_cons_self)
  -- the lease is with the frame, and so with no call
  let gone : FrameMemory := { m with heap := (m.heap.release frame).1 }
  have hgone : gone.Accounts limit handles (frame.epoch :: reserved) (frame.lease.id :: owned) := by
    refine ⟨h.heap.release, fun epoch => ?_, h.bound, fun id => ?_⟩
    · have hlive : m.live epoch = gone.live epoch + if frame.epoch == epoch then 1 else 0 := by
        unfold live
        rw [(hperm.map SharedNativeFrame.epoch).count_eq epoch, map_cons, count_cons]
      have hretained : m.retained epoch = _ := h.retained epoch
      rw [count_cons]
      change m.retained epoch = _
      omega
    · have hwrapped : m.wrapped id = gone.wrapped id + if frame.lease.id == id then 1 else 0 := by
        unfold wrapped
        rw [(hperm.map fun frame => frame.lease.id).count_eq id, map_cons, count_cons]
      have hone := h.leases id
      rw [count_cons, ← hone]
      change _ + _ + m.returned id = _
      omega
  have hdrop : m.drop frame = (gone.giveBack frame.lease).unreserve frame.epoch := by
    unfold drop
    rw [if_pos hlast]
  rw [hdrop]
  refine ⟨hgone.giveBack.unreserve, ?_⟩
  have hret : gone.returned frame.lease.id = 0 := by
    have hone := hgone.leases frame.lease.id
    rw [count_cons_self] at hone
    split at hone <;> omega
  change update gone.returned frame.lease.id _ frame.lease.id = 1
  rw [update_self, hret]

theorem Accounts.drop : (m.drop frame).Accounts limit handles reserved owned := by
  by_cases hmem : frame ∈ handles
  · exact h.drop_shared hmem
  · exact (h.drop_last hmem).1

end

/-- The frame lives, or its lease was returned once. -/
def Kept (m : FrameMemory) (frame : SharedNativeFrame) : Prop :=
  frame ∈ m.heap.alive ∨ m.returned frame.lease.id = 1

theorem Kept.giveBack (h : m.Kept frame) (hacc : m.Accounts limit handles reserved (taken.id :: owned)) :
    (m.giveBack taken).Kept frame := by
  obtain halive | hret := h
  · exact .inl halive
  · refine .inr ?_
    change update m.returned taken.id _ frame.lease.id = 1
    by_cases hid : frame.lease.id = taken.id
    · have hone := hacc.leases taken.id
      rw [count_cons_self, ← hid, hret] at hone
      split at hone <;> omega
    · rw [update_of_ne hid]
      exact hret

theorem Kept.drop {other : SharedNativeFrame} (h : m.Kept other)
    (hacc : m.Accounts limit (frame :: handles) reserved owned) : (m.drop frame).Kept other := by
  by_cases hmem : frame ∈ handles
  · have hlast : ¬ (m.heap.release frame).2 = true := fun hl => hacc.heap.release_last.mp hl hmem
    refine h.imp (fun halive => ?_) fun hret => ?_
    · rw [heap_drop, hacc.heap.alive_release, if_pos hmem]
      exact halive
    · unfold FrameMemory.drop
      rw [if_neg hlast]
      exact hret
  · by_cases hother : other = frame
    · subst hother
      exact .inr (hacc.drop_last hmem).2
    · obtain halive | hret := h
      · refine .inl ?_
        rw [heap_drop, hacc.heap.alive_release, if_neg hmem]
        exact (mem_erase_of_ne hother).mpr halive
      · -- the lease that goes back now is another one
        have hid : other.lease.id ≠ frame.lease.id := by
          intro hid
          have := hacc.wrapped_eq_zero (.inr (by rw [hret]; exact Nat.one_pos) : _ ∨ 0 < m.returned _)
          rw [hid] at this
          have := wrapped_pos (hacc.alive mem_cons_self)
          omega
        refine .inr ?_
        unfold FrameMemory.drop
        rw [if_pos (hacc.heap.release_last.mpr hmem)]
        change update m.returned frame.lease.id _ other.lease.id = 1
        rw [update_of_ne hid]
        exact hret

end FrameMemory

/-! ## What the queues hold -/

namespace BrokerQueue

theorem evict_eq (n : Nat) (queue : BrokerQueue) :
    queue.evict n = ({ queue with
      frames := queue.frames.drop n
      dropped := queue.dropped + min n queue.frames.length
      left := queue.left ++ queue.frames.take n }, queue.frames.take n) := by
  induction n generalizing queue with
  | zero => simp [evict]
  | succ n ih =>
    unfold evict
    cases hframes : queue.frames with
    | nil =>
      obtain ⟨_, enqueued, dequeued, dropped, highWatermark, left⟩ := queue
      obtain rfl : _ = [] := hframes
      simp
    | cons frame frames =>
      dsimp only
      rw [ih]
      simp only [drop_succ_cons, take_succ_cons, length_cons, append_assoc,
        singleton_append, Nat.add_min_add_right]
      rw [Nat.add_assoc, Nat.add_comm 1]

/-- The books of a queue: `published` are the frames that were put into it so far. -/
structure Ok (queue : BrokerQueue) (published : List SharedNativeFrame) (capacity : Nat) : Prop where
  balance : queue.enqueued = queue.dequeued + queue.dropped + queue.frames.length
  depth : queue.frames.length ≤ capacity
  order : queue.left ++ queue.frames = published

variable {queue : BrokerQueue} {published : List SharedNativeFrame} {capacity : Nat}

section

variable (h : queue.Ok published capacity)
include h

theorem Ok.evict (n : Nat) : (queue.evict n).1.Ok published capacity := by
  rw [evict_eq]
  refine ⟨?_, ?_, ?_⟩
  · have := h.balance
    dsimp only
    rw [length_drop]
    omega
  · exact Nat.le_trans (by rw [length_drop]; exact Nat.sub_le _ _) h.depth
  · dsimp only
    rw [append_assoc, take_append_drop]
    exact h.order

theorem Ok.push (hroom : queue.frames.length < capacity)
    (frame : SharedNativeFrame) : (queue.push frame).Ok (published ++ [frame]) capacity := by
  have hlen : (queue.push frame).frames.length = queue.frames.length + 1 := length_append
  refine ⟨?_, by rw [hlen]; exact hroom, ?_⟩
  · have := h.balance
    rw [hlen]
    change queue.enqueued + 1 = queue.dequeued + queue.dropped + _
    omega
  · change queue.left ++ (queue.frames ++ [frame]) = _
    rw [← append_assoc, h.order]

theorem Ok.pop : queue.pop.1.Ok published capacity := by
  unfold BrokerQueue.pop
  split
  case h_1 => exact h
  case h_2 frame frames hframes =>
    obtain ⟨hbalance, hdepth, horder⟩ := h
    rw [hframes] at hbalance hdepth horder
    rw [length_cons] at hbalance hdepth
    refine ⟨?_, by dsimp only; omega, ?_⟩ <;> dsimp only
    · omega
    · rw [append_assoc]
      exact horder

end

theorem frames_pop (queue : BrokerQueue) : queue.frames = queue.pop.2.toList ++ queue.pop.1.frames := by
  unfold BrokerQueue.pop
  split
  case h_1 hframes => rw [hframes]; rfl
  case h_2 hframes => rw [hframes]; rfl

theorem frames_evict (queue : BrokerQueue) (n : Nat) :
    queue.frames = (queue.evict n).2 ++ (queue.evict n).1.frames := by
  rw [evict_eq]
  exact (take_append_drop n _).symm

end BrokerQueue

/-! ## Where the handles are -/

namespace BrokerCall

/-- The handles that a call holds. -/
def handles : BrokerCall → List SharedNativeFrame
  | .retire _ _ handles | .leaving _ _ handles => handles
  | .enqueue shared => [shared]
  | _ => []

/-- The places it has reserved. -/
def reserved : BrokerCall → List Nat
  | .allocate _ epoch => [epoch]
  | _ => []

/-- The leases it has still to return. -/
def owned : BrokerCall → List Nat
  | .entered lease | .retire lease _ _ | .reserve lease _ | .allocate lease _ => [lease.id]
  | .leaving _ (some lease) _ => [lease.id]
  | _ => []

end BrokerCall

namespace NativeFrameBroker

/-- The handles in queues and with consumers. -/
def stored (s : NativeFrameBroker) : List SharedNativeFrame :=
  s.preview.frames ++ s.transform.frames ++ s.held

/-- The accounts, with one call picked out. -/
def Settled (s : NativeFrameBroker) (call : BrokerCall) (rest : List BrokerCall) : Prop :=
  s.memory.Accounts s.limit (call.handles ++ (s.stored ++ rest.flatMap BrokerCall.handles))
    (call.reserved ++ rest.flatMap BrokerCall.reserved) (call.owned ++ rest.flatMap BrokerCall.owned)

/-- The accounts of the whole broker. -/
def Balanced (s : NativeFrameBroker) : Prop :=
  s.memory.Accounts s.limit (s.stored ++ s.calls.flatMap BrokerCall.handles)
    (s.calls.flatMap BrokerCall.reserved) (s.calls.flatMap BrokerCall.owned)

/-- What the queues hold: frames of the open session, in the order in which they were published. -/
structure Queued (s : NativeFrameBroker) : Prop where
  preview : s.preview.Ok s.published 1
  transform : s.transform.Ok s.published s.config.transformCapacity
  capacity : 0 < s.config.transformCapacity
  current : ∀ frame ∈ s.preview.frames ++ s.transform.frames, s.isCurrent frame.epoch = true

/-- What every run keeps. -/
structure Inv (s : NativeFrameBroker) : Prop where
  balanced : s.Balanced
  queued : s.Queued
  opened : ∀ epoch, s.isOpen epoch = true → s.epoch = some epoch
  kept : ∀ frame ∈ s.published, s.memory.Kept frame

variable {s s' : NativeFrameBroker} {call call' : BrokerCall} {calls rest : List BrokerCall} {n : Nat}

theorem balanced_iff_settled (hcalls : s.calls.Perm (call :: rest)) : s.Balanced ↔ s.Settled call rest := by
  have hperm : (s.stored ++ s.calls.flatMap BrokerCall.handles).Perm
      (call.handles ++ (s.stored ++ rest.flatMap BrokerCall.handles)) := by
    refine (List.Perm.append_left _ (hcalls.flatMap_right _)).trans ?_
    rw [flatMap_cons, ← append_assoc, ← append_assoc]
    exact List.Perm.append_right _ perm_append_comm
  have hreserved := hcalls.flatMap_right BrokerCall.reserved
  have howned := hcalls.flatMap_right BrokerCall.owned
  exact ⟨fun h => h.perm hperm hreserved howned, fun h => h.perm hperm.symm hreserved.symm howned.symm⟩

theorem exists_rest (h : calls[n]? = some call) :
    ∃ rest, calls.Perm (call :: rest) ∧ ∀ call', (calls.set n call').Perm (call' :: rest) := by
  obtain ⟨hn, rfl⟩ := List.getElem?_eq_some_iff.mp h
  exact ⟨calls.eraseIdx n, (getElem_cons_eraseIdx_perm hn).symm,
    fun call' => set_perm_cons_eraseIdx hn call'⟩

theorem inv_create {config : FrameBrokerConfig} (h : create config = some s) : s.Inv := by
  unfold create at h
  split at h
  case isTrue => cases h
  case isFalse haccepted =>
    cases h
    refine ⟨FrameMemory.accounts_empty _, ⟨⟨rfl, Nat.zero_le _, rfl⟩, ⟨rfl, Nat.zero_le _, rfl⟩, ?_, nofun⟩,
      nofun, nofun⟩
    dsimp only
    omega

/-! ## Steps outside the queues -/

variable {memory : FrameMemory} {rejectedSession rejectedInvalid budgetDropped budgetEvictions peak : Nat}

/-- **A call moves**, and the queues stay as they are. -/
theorem Inv.move (h : s.Inv) (hn : s.calls[n]? = some call)
    (hmemory : ∀ rest, s.Settled call rest → Settled { s with memory := memory } call' rest ∧
      ∀ frame, s.memory.Kept frame → memory.Kept frame) :
    Inv { s with
      memory := memory
      rejectedSession := rejectedSession
      budgetDropped := budgetDropped
      peakRetained := peak
      calls := s.calls.set n call' } := by
  obtain ⟨rest, hcalls, hset⟩ := exists_rest hn
  obtain ⟨hsettled, hkept⟩ := hmemory rest ((balanced_iff_settled hcalls).mp h.balanced)
  refine ⟨(balanced_iff_settled (hset call')).mpr hsettled, ?_, h.opened, fun frame hframe => ?_⟩
  · exact ⟨h.queued.preview, h.queued.transform, h.queued.capacity, h.queued.current⟩
  · exact hkept frame (h.kept frame hframe)

/-- **A call begins**, and the queues stay as they are. -/
theorem Inv.add (h : s.Inv) (hsettled : Settled { s with memory := memory } call s.calls)
    (hkept : ∀ frame, s.memory.Kept frame → memory.Kept frame) :
    Inv { s with
      memory := memory
      rejectedInvalid := rejectedInvalid
      calls := s.calls ++ [call] } := by
  refine ⟨(balanced_iff_settled (perm_append_singleton call s.calls)).mpr hsettled, ?_, h.opened,
    fun frame hframe => hkept frame (h.kept frame hframe)⟩
  exact ⟨h.queued.preview, h.queued.transform, h.queued.capacity, h.queued.current⟩

theorem Inv.settled_nothing (h : s.Inv) (hhandles : call.handles = []) (hreserved : call.reserved = [])
    (howned : call.owned = []) : s.Settled call s.calls := by
  unfold Settled
  rw [hhandles, hreserved, howned]
  exact h.balanced

theorem Inv.publish (h : s.Inv) (frame : Option NativeFrame) : (s.publish frame).Inv := by
  cases frame with
  | none => exact h.add (h.settled_nothing rfl rfl rfl) fun _ => id
  | some frame =>
    unfold NativeFrameBroker.publish
    dsimp only
    split <;> exact h.add h.balanced.lease fun _ => id

variable {frame : SharedNativeFrame}

theorem Inv.dropHandle (h : s.Inv) (hn : s.calls[n]? = some call) (hhandles : call.handles = frame :: call'.handles)
    (hreserved : call.reserved = call'.reserved) (howned : call.owned = call'.owned) :
    ({ s with memory := s.memory.drop frame }.setCall n call').Inv := by
  refine h.move hn fun rest hsettled => ?_
  have hacc : s.memory.Accounts s.limit
      (frame :: (call'.handles ++ (s.stored ++ rest.flatMap BrokerCall.handles)))
      (call'.reserved ++ rest.flatMap BrokerCall.reserved) (call'.owned ++ rest.flatMap BrokerCall.owned) := by
    rw [← hreserved, ← howned, ← cons_append, ← hhandles]
    exact hsettled
  exact ⟨hacc.drop, fun other hother => hother.drop hacc⟩

variable {lease : FrameLease}

theorem Inv.reserve {epoch : Nat} (h : s.Inv) (hn : s.calls[n]? = some (.reserve lease epoch)) :
    (s.reserve n lease epoch).Inv := by
  unfold NativeFrameBroker.reserve
  split
  · exact h.move hn fun rest hsettled => ⟨hsettled, fun _ => id⟩
  · split
    · exact h.move hn fun rest hsettled => ⟨hsettled, fun _ => id⟩
    · exact h.move hn fun rest hsettled => ⟨hsettled.reserve (by omega), fun _ => id⟩

theorem Inv.allocate {epoch : Nat} (h : s.Inv) (hn : s.calls[n]? = some (.allocate lease epoch)) (fails : Bool) :
    (s.allocate n lease epoch fails).Inv := by
  unfold NativeFrameBroker.allocate
  split
  · exact h.move hn fun rest hsettled => ⟨hsettled.unreserve, fun _ => id⟩
  · refine h.move hn fun rest hsettled => ⟨FrameMemory.Accounts.wrap hsettled, fun frame hframe => ?_⟩
    exact hframe.imp (mem_cons_of_mem _) id

theorem Inv.giveBack {result : BrokerResult} (h : s.Inv) (hn : s.calls[n]? = some (.leaving result (some lease) [])) :
    ({ s with memory := s.memory.giveBack lease }.setCall n (.leaving result none [])).Inv :=
  h.move hn fun _ hsettled => ⟨FrameMemory.Accounts.giveBack hsettled, fun _ hkept => hkept.giveBack hsettled⟩

/-! ## Steps of the consumers -/

theorem Inv.copy (h : s.Inv) (hn : s.held[n]? = some frame) :
    Inv { s with memory := s.memory.copy frame, held := s.held ++ [frame] } := by
  have hmem : frame ∈ s.stored ++ s.calls.flatMap BrokerCall.handles :=
    mem_append_left _ (mem_append_right _ (mem_of_getElem? hn))
  have hperm : (frame :: (s.stored ++ s.calls.flatMap BrokerCall.handles)).Perm
      (s.preview.frames ++ s.transform.frames ++ (s.held ++ [frame]) ++
        s.calls.flatMap BrokerCall.handles) := by
    rw [← append_assoc]
    exact List.Perm.append_right _ (perm_append_singleton frame s.stored).symm
  refine ⟨(h.balanced.copy hmem).perm hperm (List.Perm.refl _) (List.Perm.refl _), ?_, h.opened, h.kept⟩
  exact ⟨h.queued.preview, h.queued.transform, h.queued.capacity, h.queued.current⟩

theorem Inv.reset (h : s.Inv) (hn : s.held[n]? = some frame) :
    Inv { s with memory := s.memory.drop frame, held := s.held.eraseIdx n } := by
  obtain ⟨hlt, rfl⟩ := List.getElem?_eq_some_iff.mp hn
  have hperm : (s.stored ++ s.calls.flatMap BrokerCall.handles).Perm
      (s.held[n] :: (s.preview.frames ++ s.transform.frames ++ s.held.eraseIdx n ++
        s.calls.flatMap BrokerCall.handles)) := by
    refine List.Perm.append_right _ ((List.Perm.append_left _ ?_).trans perm_middle)
    exact (getElem_cons_eraseIdx_perm hlt).symm
  have hacc := h.balanced.perm hperm (List.Perm.refl _) (List.Perm.refl _)
  refine ⟨hacc.drop, ?_, h.opened, fun frame hframe => (h.kept frame hframe).drop hacc⟩
  exact ⟨h.queued.preview, h.queued.transform, h.queued.capacity, h.queued.current⟩

theorem Inv.pop_current (h : s.Inv) (consumer : FrameConsumer) (hpop : (s.pop consumer).2 = .popped (some frame)) :
    s.isCurrent frame.epoch = true := by
  have hmem : ∀ queue : BrokerQueue, queue.pop.2 = some frame → frame ∈ queue.frames := by
    intro queue hq
    rw [queue.frames_pop, hq]
    exact mem_append_left _ (mem_singleton.mpr rfl)
  cases consumer with
  | preview =>
    refine h.queued.current frame (mem_append_left _ (hmem s.preview ?_))
    exact BrokerOutput.popped.inj hpop
  | transform =>
    refine h.queued.current frame (mem_append_right _ (hmem s.transform ?_))
    exact BrokerOutput.popped.inj hpop

theorem Inv.pop (h : s.Inv) (consumer : FrameConsumer) : (s.pop consumer).1.Inv := by
  obtain ⟨hpreview, htransform, hcapacity, hcur⟩ := h.queued
  cases consumer with
  | preview =>
    have hframes := s.preview.frames_pop
    have hperm : (s.stored ++ s.calls.flatMap BrokerCall.handles).Perm
        (s.preview.pop.1.frames ++ s.transform.frames ++ (s.held ++ s.preview.pop.2.toList) ++
          s.calls.flatMap BrokerCall.handles) := by
      refine List.Perm.append_right _ ?_
      unfold stored
      conv_lhs => rw [hframes]
      rw [append_assoc, append_assoc, ← append_assoc s.preview.pop.1.frames, ← append_assoc _ s.held]
      exact perm_append_comm
    refine ⟨h.balanced.perm hperm (List.Perm.refl _) (List.Perm.refl _),
      ⟨hpreview.pop, htransform, hcapacity, fun frame hmem => hcur frame ?_⟩, h.opened, h.kept⟩
    rw [hframes, append_assoc]
    exact mem_append_right _ hmem
  | transform =>
    have hframes := s.transform.frames_pop
    have hperm : (s.stored ++ s.calls.flatMap BrokerCall.handles).Perm
        (s.preview.frames ++ s.transform.pop.1.frames ++ (s.held ++ s.transform.pop.2.toList) ++
          s.calls.flatMap BrokerCall.handles) := by
      refine List.Perm.append_right _ ?_
      unfold stored
      conv_lhs => rw [hframes]
      rw [append_assoc, append_assoc, append_assoc]
      refine List.Perm.append_left _ ?_
      rw [← append_assoc _ s.held]
      exact perm_append_comm
    refine ⟨h.balanced.perm hperm (List.Perm.refl _) (List.Perm.refl _),
      ⟨hpreview, htransform.pop, hcapacity, fun frame hmem => hcur frame ?_⟩, h.opened, h.kept⟩
    rw [hframes]
    obtain hmem | hmem := mem_append.mp hmem
    · exact mem_append_left _ hmem
    · exact mem_append_right _ (mem_append_right _ hmem)

/-! ## Steps that change the queues -/

variable {previews transforms : Nat}

theorem stored_evict (s : NativeFrameBroker) (previews transforms : Nat) :
    s.stored.Perm ((s.evict previews transforms).2 ++ (s.evict previews transforms).1.stored) := by
  unfold stored NativeFrameBroker.evict
  dsimp only
  conv_lhs => rw [s.preview.frames_evict previews, s.transform.frames_evict transforms]
  rw [← append_assoc, ← append_assoc, ← append_assoc]
  refine List.Perm.append_right _ (List.Perm.append_right _ ?_)
  rw [append_assoc, append_assoc]
  exact List.Perm.append_left _ perm_append_comm

theorem Queued.evict (h : s.Queued) (previews transforms : Nat) : (s.evict previews transforms).1.Queued where
  preview := h.preview.evict previews
  transform := h.transform.evict transforms
  capacity := h.capacity
  current := fun frame hmem => h.current frame <| by
    obtain hmem | hmem := mem_append.mp hmem
    · refine mem_append_left _ ?_
      rw [s.preview.frames_evict previews]
      exact mem_append_right _ hmem
    · refine mem_append_right _ ?_
      rw [s.transform.frames_evict transforms]
      exact mem_append_right _ hmem

theorem Settled.evict (h : s.Settled call rest)
    (hhandles : call'.handles = call.handles ++ (s.evict previews transforms).2)
    (hreserved : call'.reserved = call.reserved) (howned : call'.owned = call.owned) :
    (s.evict previews transforms).1.Settled call' rest := by
  unfold Settled
  rw [hhandles, hreserved, howned, append_assoc]
  refine h.perm (List.Perm.append_left _ ?_) (List.Perm.refl _) (List.Perm.refl _)
  rw [← append_assoc]
  exact List.Perm.append_right _ (stored_evict s previews transforms)

theorem Queued.room (h : s.Queued) :
    s.evictObsolete.1.preview.frames.length < 1 ∧
      s.evictObsolete.1.transform.frames.length < s.config.transformCapacity := by
  unfold evictObsolete NativeFrameBroker.evict
  dsimp only
  rw [BrokerQueue.evict_eq, BrokerQueue.evict_eq]
  dsimp only
  rw [length_drop, length_drop]
  have hpreview := h.preview.depth
  have htransform := h.transform.depth
  have hcapacity := h.capacity
  constructor
  · split
    case isTrue hempty =>
      rw [isEmpty_iff.mp hempty]
      exact Nat.one_pos
    case isFalse => omega
  · split <;> omega

theorem Inv.makeRoom (h : s.Inv) (hn : s.calls[n]? = some (.entered lease)) : (s.makeRoom n lease).Inv := by
  obtain ⟨rest, hcalls, hset⟩ := exists_rest hn
  have hsettled := (balanced_iff_settled hcalls).mp h.balanced
  unfold NativeFrameBroker.makeRoom
  dsimp only
  split
  · exact h.move hn fun rest hsettled => ⟨hsettled, fun _ => id⟩
  · have hobsolete : s.evictObsolete.1.Settled
        (.retire lease lease.frame.sessionId s.evictObsolete.2) rest := hsettled.evict rfl rfl rfl
    have hqueued : s.evictObsolete.1.Queued := h.queued.evict _ _
    split
    · refine ⟨(balanced_iff_settled (hset _)).mpr ?_, ?_, h.opened, h.kept⟩
      · exact (Settled.evict hobsolete rfl rfl rfl : s.evictObsolete.1.evictAll.1.Settled
          (.retire lease lease.frame.sessionId (s.evictObsolete.2 ++ s.evictObsolete.1.evictAll.2)) rest)
      · obtain ⟨hpreview, htransform, hcapacity, hcur⟩ := hqueued.evict
          s.evictObsolete.1.preview.frames.length s.evictObsolete.1.transform.frames.length
        exact ⟨hpreview, htransform, hcapacity, hcur⟩
    · obtain ⟨hpreview, htransform, hcapacity, hcur⟩ := hqueued
      exact ⟨(balanced_iff_settled (hset _)).mpr hobsolete,
        ⟨hpreview, htransform, hcapacity, hcur⟩, h.opened, h.kept⟩

theorem perm_enqueue (shared : SharedNativeFrame) (retired previews transforms held others : List SharedNativeFrame) :
    (shared :: shared :: (shared :: retired ++ (previews ++ transforms ++ held ++ others))).Perm
      (retired ++ [shared] ++ (previews ++ [shared] ++ (transforms ++ [shared]) ++ held ++ others)) := by
  rw [perm_iff_count]
  intro frame
  simp only [count_append, count_cons, count_nil, cons_append]
  omega

theorem Inv.enqueue {shared : SharedNativeFrame} (h : s.Inv) (hn : s.calls[n]? = some (.enqueue shared)) :
    (s.enqueue n shared).Inv := by
  obtain ⟨rest, hcalls, hset⟩ := exists_rest hn
  have hsettled := (balanced_iff_settled hcalls).mp h.balanced
  have halive : shared ∈ s.memory.heap.alive := hsettled.alive mem_cons_self
  unfold NativeFrameBroker.enqueue
  dsimp only
  split
  case isTrue => exact h.move hn fun rest hsettled => ⟨hsettled, fun _ => id⟩
  case isFalse hcur =>
    have hopen : s.isCurrent shared.epoch = true := by
      cases hc : s.isCurrent shared.epoch with
      | true => rfl
      | false => exact absurd (by rw [hc]; rfl) hcur
    obtain ⟨hpreview, htransform⟩ := h.queued.room
    have hqueued : s.evictObsolete.1.Queued := h.queued.evict _ _
    refine ⟨(balanced_iff_settled (hset _)).mpr ?_, ⟨hqueued.preview.push hpreview shared,
      hqueued.transform.push htransform shared, h.queued.capacity, fun frame hmem => ?_⟩, h.opened,
      fun frame hmem => ?_⟩
    · -- the two new handles are those in the queues
      have hevicted : s.evictObsolete.1.Settled
          (.leaving (.publish .published) none (shared :: s.evictObsolete.2)) rest := hsettled.evict rfl rfl rfl
      have hcopied := (FrameMemory.Accounts.copy hevicted mem_cons_self).copy mem_cons_self
      exact hcopied.perm (perm_enqueue shared _ _ _ _ _) (List.Perm.refl _) (List.Perm.refl _)
    · obtain hmem | hmem := mem_append.mp hmem
      · obtain hmem | hmem := mem_append.mp hmem
        · exact hqueued.current frame (mem_append_left _ hmem)
        · rw [mem_singleton.mp hmem]
          exact hopen
      · obtain hmem | hmem := mem_append.mp hmem
        · exact hqueued.current frame (mem_append_right _ hmem)
        · rw [mem_singleton.mp hmem]
          exact hopen
    · obtain hmem | hmem := mem_append.mp hmem
      · exact h.kept frame hmem
      · rw [mem_singleton.mp hmem]
        exact .inl halive

theorem Inv.finish (h : s.Inv) (hn : s.calls[n]? = some call) (hhandles : call.handles = [])
    (hreserved : call.reserved = []) (howned : call.owned = []) : (s.setCall n .done).Inv := by
  refine h.move hn fun rest hsettled => ⟨?_, fun _ => id⟩
  unfold Settled at hsettled
  rw [hhandles, hreserved, howned] at hsettled
  exact hsettled

variable {epoch : Option Nat}

variable {consumer : FrameConsumer}

theorem Inv.wake (h : s.Inv) (hn : s.calls[n]? = some (.waiting consumer epoch)) (timedOut : Bool) :
    (s.wake n consumer epoch timedOut).1.Inv := by
  have hdone := h.finish hn rfl rfl rfl
  unfold NativeFrameBroker.wake
  cases epoch with
  | none =>
    dsimp only
    split
    · exact h
    · exact hdone
  | some epoch =>
    dsimp only
    split
    · exact h
    · split
      · exact hdone
      · exact hdone.pop consumer

theorem Inv.renew (h : s.Inv) (lastSession : Nat) {isOpen : Nat → Bool}
    (hopened : ∀ e, isOpen e = true → epoch = some e) (result : BrokerResult) :
    Inv { s.evictAll.1 with
      lastSession := lastSession
      epoch := epoch
      isOpen := isOpen
      calls := s.calls ++ [.leaving result none s.evictAll.2] } := by
  have hempty : s.evictAll.1.preview.frames ++ s.evictAll.1.transform.frames = [] := by
    unfold evictAll NativeFrameBroker.evict
    dsimp only
    rw [BrokerQueue.evict_eq, BrokerQueue.evict_eq]
    dsimp only
    rw [drop_length, drop_length]
    rfl
  have hqueued : s.evictAll.1.Queued := h.queued.evict _ _
  refine ⟨(balanced_iff_settled (perm_append_singleton _ s.calls)).mpr ?_, ⟨hqueued.preview,
    hqueued.transform, hqueued.capacity, fun frame hmem => ?_⟩, hopened, h.kept⟩
  · exact Settled.evict (show Settled _ .done _ from h.settled_nothing rfl rfl rfl) rfl rfl rfl
  · dsimp only at hmem
    rw [hempty] at hmem
    cases hmem

theorem Inv.closed (h : s.Inv) {epoch : Nat} (hepoch : s.epoch = some epoch) (e : Nat) :
    update s.isOpen epoch false e ≠ true := by
  by_cases he : e = epoch
  · subst he
    rw [update_self]
    exact nofun
  · rw [update_of_ne he]
    intro hopen
    rw [h.opened e hopen] at hepoch
    exact he (Option.some.inj hepoch)

theorem Inv.close (h : s.Inv) : s.close.Inv := by
  unfold NativeFrameBroker.close closeEpoch
  cases hepoch : s.epoch with
  | none => exact h.renew s.lastSession h.opened .close
  | some epoch => exact h.renew s.lastSession (fun e hopen => absurd hopen (h.closed hepoch e)) .close

theorem Inv.beginSession (h : s.Inv) (sessionId : Nat) : (s.beginSession sessionId).Inv := by
  unfold NativeFrameBroker.beginSession
  split
  · exact h.add (h.settled_nothing rfl rfl rfl) fun _ => id
  · have hopened : ∀ isOpen : Nat → Bool, (∀ e, isOpen e ≠ true) → ∀ e,
        update isOpen sessionId true e = true → some sessionId = some e := by
      intro isOpen hclosed e hopen
      by_cases he : e = sessionId
      · rw [he]
      · rw [update_of_ne he] at hopen
        exact absurd hopen (hclosed e)
    unfold closeEpoch
    cases hepoch : s.epoch with
    | none =>
      refine h.renew sessionId (hopened s.isOpen fun e hopen => ?_) (.beginSession true)
      have := h.opened e hopen
      rw [hepoch] at this
      cases this
    | some epoch => exact h.renew sessionId (hopened _ (h.closed hepoch)) (.beginSession true)

/-! ## All steps -/

theorem Inv.stepCall (h : s.Inv) (hn : s.calls[n]? = some call) (fails : Bool) : (s.stepCall n call fails).1.Inv := by
  cases call with
  | entered lease => exact h.makeRoom hn
  | retire lease epoch retired =>
    cases retired with
    | nil => exact h.move hn fun _ hsettled => ⟨hsettled, fun _ => id⟩
    | cons frame retired => exact h.dropHandle hn rfl rfl rfl
  | reserve lease epoch => exact h.reserve hn
  | allocate lease epoch => exact h.allocate hn fails
  | enqueue shared => exact h.enqueue hn
  | waiting consumer epoch => exact h.wake hn fails
  | leaving result lease handles =>
    cases handles with
    | cons frame handles => cases lease <;> exact h.dropHandle hn rfl rfl rfl
    | nil =>
      cases lease with
      | some lease => exact h.giveBack hn
      | none => exact h.finish hn rfl rfl rfl
  | done => exact h

theorem step_call {fails : Bool} (hn : s.calls[n]? = some call) :
    s.step (.step n fails) = s.stepCall n call fails := by
  unfold NativeFrameBroker.step
  dsimp only
  rw [hn]

theorem step_none {fails : Bool} (hn : s.calls[n]? = none) : s.step (.step n fails) = (s, .nothing) := by
  unfold NativeFrameBroker.step
  dsimp only
  rw [hn]

/-- Every step keeps the accounts. -/
theorem Inv.step (h : s.Inv) (event : BrokerEvent) : (s.step event).1.Inv := by
  cases event with
  | publish frame => exact h.publish frame
  | beginSession sessionId => exact h.beginSession sessionId
  | close => exact h.close
  | tryPop consumer => exact h.pop consumer
  | waitPop consumer timeoutMs =>
    unfold NativeFrameBroker.step
    dsimp only
    split
    · exact h.pop consumer
    · exact h.add (h.settled_nothing rfl rfl rfl) fun _ => id
  | step n fails =>
    cases hn : s.calls[n]? with
    | none =>
      rw [step_none hn]
      exact h
    | some call =>
      rw [step_call hn]
      exact h.stepCall hn fails
  | copy n =>
    unfold NativeFrameBroker.step
    dsimp only
    split
    case h_1 => exact h
    case h_2 frame hn => exact h.copy hn
  | reset n =>
    unfold NativeFrameBroker.step
    dsimp only
    split
    case h_1 => exact h
    case h_2 frame hn => exact h.reset hn

def handles (s : NativeFrameBroker) : List SharedNativeFrame := s.stored ++ s.calls.flatMap BrokerCall.handles

/-- What the broker promises in every state. -/
structure Accounted (s : NativeFrameBroker) : Prop where
  /-- The open session retains no more than its budget, and all its frames are counted. -/
  retained : ∀ epoch, s.isCurrent epoch = true →
    s.memory.live epoch ≤ s.memory.retained epoch ∧
      s.memory.retained epoch ≤ s.config.poolSize - s.config.captureReserve
  previewBalance : s.preview.enqueued = s.preview.dequeued + s.preview.dropped + s.preview.frames.length
  transformBalance :
    s.transform.enqueued = s.transform.dequeued + s.transform.dropped + s.transform.frames.length
  previewDepth : s.preview.frames.length ≤ 1
  transformDepth : s.transform.frames.length ≤ s.config.transformCapacity
  /-- A handle is valid only in the open session. -/
  fenced : ∀ frame ∈ s.held, s.isOpen frame.epoch = true → s.epoch = some frame.epoch
  /-- What has left a queue are the first of the published frames, in their order. -/
  previewOrder : s.preview.left <+: s.published
  transformOrder : s.transform.left <+: s.published
  /-- A lease goes back once, and not before the last handle has gone. -/
  returned : ∀ frame ∈ s.published,
    s.memory.returned frame.lease.id = if frame ∈ s.handles then 0 else 1

theorem Inv.accounted (h : s.Inv) : s.Accounted where
  retained := fun epoch _ => by
    refine ⟨?_, h.balanced.bound epoch⟩
    rw [h.balanced.retained epoch]
    exact Nat.le_add_right _ _
  previewBalance := h.queued.preview.balance
  transformBalance := h.queued.transform.balance
  previewDepth := h.queued.preview.depth
  transformDepth := h.queued.transform.depth
  fenced := fun frame _ hopen => h.opened frame.epoch hopen
  previewOrder := ⟨_, h.queued.preview.order⟩
  transformOrder := ⟨_, h.queued.transform.order⟩
  returned := fun frame hpub => by
    have halive : frame ∈ s.memory.heap.alive ↔ frame ∈ s.handles := h.balanced.heap.alive frame
    have hone := h.balanced.leases frame.lease.id
    split
    case isTrue hmem =>
      have := FrameMemory.wrapped_pos (halive.mpr hmem)
      split at hone <;> omega
    case isFalse hmem =>
      exact (h.kept frame hpub).resolve_left fun hframe => hmem (halive.mp hframe)

theorem Inv.popped_pop (h : s.Inv) (consumer : FrameConsumer) (hpopped : (s.pop consumer).2 = .popped (some frame)) :
    (s.pop consumer).1.isCurrent frame.epoch = true := by
  have := h.pop_current consumer hpopped
  cases consumer <;> exact this

theorem Inv.popped_wake {timedOut : Bool} (h : s.Inv) (hn : s.calls[n]? = some (.waiting consumer epoch))
    (hpopped : (s.wake n consumer epoch timedOut).2 = .popped (some frame)) :
    (s.wake n consumer epoch timedOut).1.isCurrent frame.epoch = true := by
  have hdone : (s.setCall n .done).Inv := h.finish hn rfl rfl rfl
  unfold NativeFrameBroker.wake at hpopped ⊢
  cases epoch with
  | none =>
    dsimp only at hpopped
    split at hpopped <;> cases hpopped
  | some epoch =>
    dsimp only at hpopped ⊢
    split at hpopped
    case isTrue => cases hpopped
    case isFalse hover =>
      rw [if_neg hover]
      split at hpopped
      case isTrue => cases hpopped
      case isFalse hcur =>
        rw [if_neg hcur]
        exact hdone.popped_pop consumer hpopped

theorem Inv.popped_current {event : BrokerEvent} (h : s.Inv) (hpopped : (s.step event).2 = .popped (some frame)) :
    (s.step event).1.isCurrent frame.epoch = true := by
  cases event with
  | publish | beginSession | close => cases hpopped
  | tryPop consumer => exact h.popped_pop consumer hpopped
  | waitPop consumer timeoutMs =>
    unfold NativeFrameBroker.step at hpopped ⊢
    dsimp only at hpopped ⊢
    split at hpopped
    case isTrue htimeout =>
      rw [if_pos htimeout]
      exact h.popped_pop consumer hpopped
    case isFalse => cases hpopped
  | step n fails =>
    cases hn : s.calls[n]? with
    | none =>
      rw [step_none hn] at hpopped
      cases hpopped
    | some call =>
      rw [step_call hn] at hpopped ⊢
      cases call with
      | waiting consumer epoch => exact h.popped_wake hn hpopped
      | retire lease epoch retired => cases retired <;> cases hpopped
      | leaving result lease handles => cases handles <;> cases lease <;> cases hpopped
      | entered | reserve | allocate | enqueue | done => cases hpopped
  | copy n | reset n =>
    unfold NativeFrameBroker.step at hpopped
    dsimp only at hpopped
    split at hpopped <;> cases hpopped

open StepRun in
/-- **The accounts of the broker**, for every configuration that it accepts and every run. -/
theorem accounts {config : FrameBrokerConfig} (hcreate : create config = some s)
    (events : List BrokerEvent) :
    (run NativeFrameBroker.step s events).Accounted ∧
      ∀ event frame, ((run NativeFrameBroker.step s events).step event).2 = .popped (some frame) →
        ((run NativeFrameBroker.step s events).step event).1.isCurrent frame.epoch = true := by
  have hinv : (run NativeFrameBroker.step s events).Inv :=
    run_invariant (fun _ event h => h.step event) (inv_create hcreate) events
  exact ⟨hinv.accounted, fun event frame hpopped => hinv.popped_current hpopped⟩

def twoFrames : List BrokerEvent :=
  let frame : NativeFrame := { sessionId := 1, dmabufFd := 42, width := 2, height := 2 }
  .beginSession 1 :: .publish (some frame) :: List.replicate 8 (.step 1 false) ++
    .publish (some frame) :: List.replicate 8 (.step 2 false) ++ [.tryPop .preview, .tryPop .transform]

open StepRun in
theorem accounts_two_frames :
    let s := run NativeFrameBroker.step { config := {} } twoFrames
    (s.published.length = 2 ∧ s.held.length = 2 ∧ s.memory.retained 1 = 2) ∧ s.Accounted ∧
      ∀ event frame, (s.step event).2 = .popped (some frame) →
        (s.step event).1.isCurrent frame.epoch = true :=
  ⟨by decide, accounts (show create {} = some _ from rfl) twoFrames⟩

end NativeFrameBroker

end Cockpit.Camera
