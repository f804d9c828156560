/-
  The native buffers have one owner: each frame is released once at most, and the slots of a session that is
  stopped go without a lease or a return that knows them.
-/
import Mathlib.Data.List.Nodup
import Mathlib.Data.List.Perm.Subperm
import Cockpit.Camera.NativeArgusSession

namespace Cockpit.Camera

open StepRun List Option

/-! ## The law -/

namespace SessionPlace

/-- Indices in the hands of `FlushReturns`. -/
@[simp] def ready : SessionPlace → List Nat
  | flushing _ ready _ | flushed _ _ _ ready _ => ready
  | _ => []

/-- Released, with the counters to follow. -/
@[simp] def noting : SessionPlace → Option (Nat × Int)
  | flushed _ index status _ _ => some (index, status)
  | _ => none

end SessionPlace

namespace NativeSession

/-- Every index that waits for its return. -/
def queue (s : NativeSession) : List Nat := s.returns ++ ((s.place.noting.map Prod.fst).toList ++ s.place.ready)

/-- A slot says who has its buffer. -/
def HasOwner (s : NativeSession) (i : Nat) : SlotState → Prop
  | .leased => (s.leases.map NativeLease.index).count i = 1 ∧ s.queue.count i = 0
  | .pendingReturn => (s.leases.map NativeLease.index).count i = 0 ∧ s.queue.count i = 1
  | .inArgus | .releaseFailed => (s.leases.map NativeLease.index).count i = 0 ∧ s.queue.count i = 0

/-- What holds of the session after the calls. -/
structure OneOwner (argus : ArgusStatus) (bufferCount : Nat) (calls : List SessionCall) : Prop where
  owner : ∀ i state, (after argus bufferCount calls).slots[i]? = some state →
    (after argus bufferCount calls).HasOwner i state
  outstanding : (after argus bufferCount calls).stats.outstandingLeases =
    (after argus bufferCount calls).slots.count .leased
  pending : (after argus bufferCount calls).stats.pendingReturns =
    (after argus bufferCount calls).slots.count .pendingReturn
  /-- Only a frame that was acquired is released, and once. -/
  once : (after argus bufferCount calls).pool.releases.Nodup ∧ none ∉ (after argus bufferCount calls).pool.releases
  alive : ∀ lease ∈ (after argus bufferCount calls).leases,
    some lease.frame ∉ (after argus bufferCount calls).pool.releases
  returns : (after argus bufferCount calls).returns.length ≤ bufferCount
  /-- The slot that a lease will return is there. -/
  slot : ∀ lease ∈ (after argus bufferCount calls).leases,
    lease.index < (after argus bufferCount calls).slots.length
  /-- The step that clears the slots finds none that is leased or waits for its return. -/
  clears : ∀ before call rest, calls = before ++ call :: rest →
    (after argus bufferCount before).slots ≠ [] → (after argus bufferCount (before ++ [call])).slots = [] →
    (after argus bufferCount before).leases = [] ∧ (after argus bufferCount before).queue = [] ∧
    (after argus bufferCount before).stats.outstandingLeases = 0 ∧
    (after argus bufferCount before).stats.pendingReturns = 0

end NativeSession

/-! ## The frames -/

namespace ArgusPool

variable {p : ArgusPool} {i j frame : Nat}

/-- The client has the buffer with this frame, and it was not released. -/
def Holds (p : ArgusPool) (i frame : Nat) : Prop :=
  p.buffers[i]? = some { client := true, frame := some frame } ∧ some frame ∉ p.releases

/-- A number is given to one frame, in one buffer. -/
structure Sound (p : ArgusPool) : Prop where
  fresh : ∀ (i : Nat) (buffer : ArgusBuffer) frame, p.buffers[i]? = some buffer → buffer.frame = some frame →
    frame < p.nextFrame
  apart : ∀ (i j : Nat) (b c : ArgusBuffer) frame, p.buffers[i]? = some b → p.buffers[j]? = some c → b.frame = some frame →
    c.frame = some frame → i = j
  released : ∀ r ∈ p.releases, ∃ frame, r = some frame ∧ frame < p.nextFrame
  once : p.releases.Nodup

theorem started_sound (bufferCount : Nat) : Sound { buffers := List.replicate bufferCount {} } := by
  have hnone : ∀ (i : Nat) (buffer : ArgusBuffer),
      (List.replicate bufferCount ({} : ArgusBuffer))[i]? = some buffer → buffer.frame = none := by
    intro i buffer hbuffer
    rw [List.getElem?_replicate] at hbuffer
    split at hbuffer <;> cases hbuffer
    rfl
  constructor
  case fresh =>
    intro i buffer frame hbuffer hframe
    cases (hnone i buffer hbuffer).symm.trans hframe
  case apart =>
    intro i j b c frame hb _ hframe _
    cases (hnone i b hb).symm.trans hframe
  case released => nofun
  case once => exact nodup_nil

theorem yielded_some {wanted : Option Nat} (h : p.yielded wanted = some i) :
    ∃ buffer, p.buffers[i]? = some buffer ∧ buffer.client = false := by
  unfold yielded at h
  split at h
  · split at h
    · rename_i j buffer hbuffer
      split at h
      · cases h
      · rename_i hclient
        cases h
        exact ⟨buffer, hbuffer, by simpa using hclient⟩
    · cases h
  · cases h

theorem acquire_other (hij : i ≠ j) : (p.acquire i).buffers[j]? = p.buffers[j]? := List.getElem?_set_ne hij

theorem acquire_self (hi : i < p.buffers.length) :
    (p.acquire i).buffers[i]? = some { client := true, frame := some p.nextFrame } := by
  show (p.buffers.set i _)[i]? = _
  rw [List.getElem?_set_self hi]

theorem Sound.acquire (h : Sound p) (hi : i < p.buffers.length) : Sound (p.acquire i) := by
  have hself := acquire_self hi
  constructor
  case fresh =>
    intro j buffer frame hbuffer hframe
    show frame < p.nextFrame + 1
    by_cases hij : i = j
    · subst hij
      cases hself.symm.trans hbuffer
      cases hframe
      omega
    · rw [acquire_other hij] at hbuffer
      have := h.fresh j buffer frame hbuffer hframe
      omega
  case apart =>
    intro j k b c frame hb hc hbframe hcframe
    by_cases hij : i = j <;> by_cases hik : i = k
    · omega
    · -- the new number is that of no other buffer
      subst hij
      cases hself.symm.trans hb
      cases hbframe
      rw [acquire_other hik] at hc
      have := h.fresh k c _ hc hcframe
      omega
    · subst hik
      cases hself.symm.trans hc
      cases hcframe
      rw [acquire_other hij] at hb
      have := h.fresh j b _ hb hbframe
      omega
    · rw [acquire_other hij] at hb
      rw [acquire_other hik] at hc
      exact h.apart j k b c frame hb hc hbframe hcframe
  case released =>
    intro r hr
    obtain ⟨frame, hframe, hlt⟩ := h.released r hr
    exact ⟨frame, hframe, Nat.lt_succ_of_lt hlt⟩
  case once => exact h.once

theorem Holds.lt (h : Holds p i frame) : i < p.buffers.length := (List.getElem?_eq_some_iff.mp h.1).1

/-- The new frame was not released. -/
theorem acquire_holds (h : Sound p) (hi : i < p.buffers.length) : Holds (p.acquire i) i p.nextFrame := by
  refine ⟨acquire_self hi, ?_⟩
  intro hmem
  obtain ⟨frame, hframe, hlt⟩ := h.released _ hmem
  cases hframe
  omega

theorem Holds.acquire (h : Holds p j frame) {buffer : ArgusBuffer} (hbuffer : p.buffers[i]? = some buffer)
    (hclient : buffer.client = false) : Holds (p.acquire i) j frame := by
  have hij : i ≠ j := by
    rintro rfl
    cases hbuffer.symm.trans h.1
    cases hclient
  exact ⟨(acquire_other hij).trans h.1, h.2⟩

theorem Holds.release_eq (h : Holds p i frame) (status : Int) :
    p.release i status =
      { p with
        buffers := p.buffers.set i { client := status ≠ 0, frame := some frame }
        releases := p.releases ++ [some frame] } := by
  unfold release
  rw [h.1]
  simp

/-- What is released is the frame held, and it was not before. -/
theorem Sound.release (h : Sound p) (hheld : Holds p i frame) (status : Int) : Sound (p.release i status) := by
  rw [hheld.release_eq]
  have hlt := h.fresh i _ frame hheld.1 rfl
  -- the frames of the buffers are those of before
  have hframes : ∀ (j : Nat) (b : ArgusBuffer), (p.buffers.set i { client := status ≠ 0, frame := some frame })[j]? = some b →
      ∃ c : ArgusBuffer, p.buffers[j]? = some c ∧ c.frame = b.frame := by
    intro j b hb
    by_cases hij : i = j
    · subst hij
      rw [List.getElem?_set_self hheld.lt] at hb
      cases hb
      exact ⟨_, hheld.1, rfl⟩
    · rw [List.getElem?_set_ne hij] at hb
      exact ⟨b, hb, rfl⟩
  constructor
  case fresh =>
    intro j b g hb hg
    obtain ⟨c, hc, hcb⟩ := hframes j b hb
    exact h.fresh j c g hc (hcb.trans hg)
  case apart =>
    intro j k b c g hb hc hbg hcg
    obtain ⟨b', hb', hbb⟩ := hframes j b hb
    obtain ⟨c', hc', hcc⟩ := hframes k c hc
    exact h.apart j k b' c' g hb' hc' (hbb.trans hbg) (hcc.trans hcg)
  case released =>
    intro r hr
    rcases mem_append.mp hr with hr | hr
    · exact h.released r hr
    · exact ⟨frame, mem_singleton.mp hr, hlt⟩
  case once =>
    refine nodup_append.mpr ⟨h.once, by simp, ?_⟩
    intro r hr q hq hrq
    rw [mem_singleton.mp hq] at hrq
    exact hheld.2 (hrq ▸ hr)

theorem Holds.release (h : Sound p) (hheld : Holds p i frame) {other : Nat} (hother : Holds p j other) (hij : i ≠ j)
    (status : Int) : Holds (p.release i status) j other := by
  rw [hheld.release_eq]
  refine ⟨(List.getElem?_set_ne hij).trans hother.1, ?_⟩
  intro hmem
  rcases mem_append.mp hmem with hmem | hmem
  · exact hother.2 hmem
  · cases mem_singleton.mp hmem
    exact hij (h.apart i j _ _ _ hheld.1 hother.1 rfl rfl)

theorem release_free (hheld : Holds p i frame) {status : Int} {buffer : ArgusBuffer}
    (hbuffer : (p.release i status).buffers[j]? = some buffer) (hclient : buffer.client = false) :
    (j = i ∧ status = 0) ∨ (j ≠ i ∧ p.buffers[j]? = some buffer) := by
  rw [hheld.release_eq] at hbuffer
  by_cases hij : i = j
  · subst hij
    dsimp only at hbuffer
    rw [List.getElem?_set_self hheld.lt] at hbuffer
    cases hbuffer
    exact .inl ⟨rfl, by simpa using hclient⟩
  · dsimp only at hbuffer
    rw [List.getElem?_set_ne hij] at hbuffer
    exact .inr ⟨fun h => hij h.symm, hbuffer⟩

end ArgusPool

/-! ## The session -/

namespace SessionPlace

/-- Acquired, and no lease yet. -/
@[simp] def unregistered : SessionPlace → Option Nat
  | acquired index | acquireFailed index _ | drained index => some index
  | _ => none

/-- The flush behind the count is the last. -/
@[simp] def isFinal : SessionPlace → Bool
  | flush .stopFinal | flushing .stopFinal _ _ | flushed .stopFinal _ _ _ _ | drain | drained _ | waitForIdle
  | clear => true
  | _ => false

@[simp] def isSwept : SessionPlace → Bool
  | flushing .stopFinal _ _ | flushed .stopFinal _ _ _ _ | drain | drained _ | waitForIdle | clear => true
  | _ => false

end SessionPlace

namespace NativeSession

variable {s s' : NativeSession} {argus : ArgusStatus} {n i : Nat}

/-- The slots, the leases, the returned indices and the counters go together. -/
structure Tracked (s : NativeSession) : Prop where
  closed : s.control.closed = true → s.slots = [] ∧ s.place = .idle
  owner : ∀ i state, s.slots[i]? = some state → s.HasOwner i state
  lease : ∀ i ∈ s.leases.map NativeLease.index, s.slots[i]? = some .leased
  queued : ∀ i ∈ s.queue, s.slots[i]? = some .pendingReturn
  outstanding : s.stats.outstandingLeases = s.slots.count .leased
  pending : s.stats.pendingReturns = s.slots.count .pendingReturn

/-- The buffers in Argus are those that nobody has, and the frames that somebody has were not released. -/
structure Held (n : Nat) (s : NativeSession) : Prop where
  sound : s.pool.Sound
  size : s.slots.length ≤ n
  lease : ∀ lease ∈ s.leases, s.pool.Holds lease.index lease.frame
  unreleased : ∀ i ∈ s.returns ++ s.place.ready, ∃ frame, s.pool.Holds i frame
  unregistered : ∀ i, s.place.unregistered = some i → s.slots[i]? = some .inArgus ∧ ∃ frame, s.pool.Holds i frame
  free : s.control.closed = false → ∀ (i : Nat) (buffer : ArgusBuffer), s.pool.buffers[i]? = some buffer →
    buffer.client = false → s.slots[i]? = some .inArgus ∨ s.place.noting = some (i, 0)

/-- What every run keeps. -/
structure Owned (n : Nat) (s : NativeSession) : Prop where
  tracked : Tracked s
  held : Held n s
  final : s.place.isFinal = true → s.leases = []
  swept : s.place.isSwept = true → s.returns = []

theorem Tracked.congr (h : Tracked s) (hslots : s'.slots = s.slots) (hleases : s'.leases = s.leases)
    (hqueue : ∀ i, s'.queue.count i = s.queue.count i)
    (hclosed : s'.control.closed = true → s.control.closed = true ∧ s'.place = .idle)
    (houtstanding : s'.stats.outstandingLeases = s.stats.outstandingLeases)
    (hpending : s'.stats.pendingReturns = s.stats.pendingReturns) : Tracked s' := by
  constructor
  case closed =>
    intro hclosed'
    exact ⟨hslots.trans (h.closed (hclosed hclosed').1).1, (hclosed hclosed').2⟩
  case owner =>
    intro i state hstate
    rw [hslots] at hstate
    have howner := h.owner i state hstate
    cases state <;> simpa only [HasOwner, hleases, hqueue] using howner
  case lease =>
    rw [hslots, hleases]
    exact h.lease
  case queued =>
    intro i hi
    rw [← count_pos_iff, hqueue, count_pos_iff] at hi
    rw [hslots]
    exact h.queued i hi
  case outstanding => rw [houtstanding, hslots, h.outstanding]
  case pending => rw [hpending, hslots, h.pending]

theorem Tracked.set (h : Tracked s) {old new : SlotState} (hold : s.slots[i]? = some old)
    (hslots : s'.slots = s.slots.set i new) (hself : s'.HasOwner i new)
    (hothers : ∀ j, j ≠ i → (s'.leases.map NativeLease.index).count j = (s.leases.map NativeLease.index).count j ∧
      s'.queue.count j = s.queue.count j) (hopen : s'.control.closed = false)
    (houtstanding : s'.stats.outstandingLeases + (if old = .leased then 1 else 0) =
      s.stats.outstandingLeases + if new = .leased then 1 else 0)
    (hpending : s'.stats.pendingReturns + (if old = .pendingReturn then 1 else 0) =
      s.stats.pendingReturns + if new = .pendingReturn then 1 else 0) : Tracked s' := by
  obtain ⟨hi, hget⟩ := List.getElem?_eq_some_iff.mp hold
  have hnew : s'.slots[i]? = some new := by rw [hslots, List.getElem?_set_self hi]
  have hother : ∀ j, j ≠ i → s'.slots[j]? = s.slots[j]? := by
    intro j hj
    rw [hslots, List.getElem?_set_ne (fun hij => hj hij.symm)]
  have hcount : ∀ state, (s'.slots.count state : Int) + (if old = state then 1 else 0) =
      s.slots.count state + if new = state then 1 else 0 := by
    intro state
    have hset : s'.slots.count state = s.slots.count state - (if old = state then 1 else 0) +
        if new = state then 1 else 0 := by
      rw [hslots, count_set hi, hget]
      simp only [beq_iff_eq]
    have hpositive : old = state → 0 < s.slots.count state := by
      rintro rfl
      exact count_pos_iff.mpr (mem_of_getElem? hold)
    by_cases hlost : old = state <;> by_cases hgot : new = state
    · rw [if_pos hlost, if_pos hgot] at hset ⊢
      have := hpositive hlost
      omega
    · rw [if_pos hlost, if_neg hgot] at hset ⊢
      have := hpositive hlost
      omega
    · rw [if_neg hlost, if_pos hgot] at hset ⊢
      omega
    · rw [if_neg hlost, if_neg hgot] at hset ⊢
      omega
  constructor
  case closed =>
    intro hclosed
    cases hopen.symm.trans hclosed
  case owner =>
    intro j state hstate
    by_cases hj : j = i
    · subst hj
      cases hnew.symm.trans hstate
      exact hself
    · rw [hother j hj] at hstate
      have howner := h.owner j state hstate
      cases state <;> simpa only [HasOwner, hothers j hj] using howner
  case lease =>
    intro j hj
    rw [← count_pos_iff] at hj
    by_cases hji : j = i
    · subst hji
      rw [hnew]
      cases new <;> simp only [HasOwner] at hself <;> first | rfl | omega
    · rw [(hothers j hji).1, count_pos_iff] at hj
      rw [hother j hji]
      exact h.lease j hj
  case queued =>
    intro j hj
    rw [← count_pos_iff] at hj
    by_cases hji : j = i
    · subst hji
      rw [hnew]
      cases new <;> simp only [HasOwner] at hself <;> first | rfl | omega
    · rw [(hothers j hji).2, count_pos_iff] at hj
      rw [hother j hji]
      exact h.queued j hj
  case outstanding =>
    have := hcount .leased
    have := h.outstanding
    omega
  case pending =>
    have := hcount .pendingReturn
    have := h.pending
    omega

theorem Held.congr (h : Held n s) (hpool : s'.pool = s.pool) (hslots : s'.slots = s.slots)
    (hleases : s'.leases = s.leases) (hclosed : s'.control.closed = s.control.closed)
    (hunreleased : ∀ i ∈ s'.returns ++ s'.place.ready, i ∈ s.returns ++ s.place.ready)
    (hunregistered : ∀ i, s'.place.unregistered = some i → s.place.unregistered = some i)
    (hnoting : s'.place.noting = s.place.noting) : Held n s' := by
  constructor
  case sound => rw [hpool]; exact h.sound
  case size => rw [hslots]; exact h.size
  case lease => rw [hleases, hpool]; exact h.lease
  case unreleased => rw [hpool]; exact fun i hi => h.unreleased i (hunreleased i hi)
  case unregistered => rw [hslots, hpool]; exact fun i hi => h.unregistered i (hunregistered i hi)
  case free => rw [hclosed, hpool, hslots, hnoting]; exact h.free

/-- A step that touches neither a slot nor the pool. -/
structure SameBuffers (s s' : NativeSession) : Prop where
  slots : s'.slots = s.slots
  pool : s'.pool = s.pool
  leases : s'.leases = s.leases
  returns : s'.returns = s.returns
  closed : s'.control.closed = s.control.closed
  outstanding : s'.stats.outstandingLeases = s.stats.outstandingLeases
  pending : s'.stats.pendingReturns = s.stats.pendingReturns

theorem Owned.moves (h : Owned n s) (hsame : SameBuffers s s') (hidle : s.control.closed = true → s'.place = .idle)
    (hready : s'.place.ready = s.place.ready) (hnoting : s'.place.noting = s.place.noting)
    (hunregistered : ∀ i, s'.place.unregistered = some i → s.place.unregistered = some i)
    (hfinal : s'.place.isFinal = true → s.leases = []) (hswept : s'.place.isSwept = true → s.returns = []) :
    Owned n s' := by
  constructor
  case tracked =>
    refine h.tracked.congr hsame.slots hsame.leases ?_ ?_ hsame.outstanding hsame.pending
    · intro i
      rw [queue, queue, hsame.returns, hready, hnoting]
    · intro hclosed
      rw [hsame.closed] at hclosed
      exact ⟨hclosed, hidle hclosed⟩
  case held =>
    refine h.held.congr hsame.pool hsame.slots hsame.leases hsame.closed ?_ hunregistered hnoting
    rw [hsame.returns, hready]
    exact fun _ => id
  case final => rw [hsame.leases]; exact hfinal
  case swept => rw [hsame.returns]; exact hswept

theorem Owned.isOpen (h : Owned n s) (hplace : s.place ≠ .idle) : s.control.closed = false := by
  cases hclosed : s.control.closed with
  | false => rfl
  | true => exact absurd (h.tracked.closed hclosed).2 hplace

variable {place : SessionPlace}

/-- From a place with nothing in hand the controller goes to another one. -/
theorem Owned.goes (h : Owned n s) (hplace : s.place = place) (hopen : s.control.closed = false)
    (hfinal : s'.place.isFinal = true → s.leases = [])
    (hswept : s'.place.isSwept = true → s.returns = [])
    (hready : place.ready = []) (hnoting : place.noting = none)
    (hready' : s'.place.ready = []) (hnoting' : s'.place.noting = none)
    (hunregistered : s'.place.unregistered = none)
    (hsame : SameBuffers s s') : Owned n s' := by
  subst hplace
  refine h.moves hsame (fun hc => nomatch hopen.symm.trans hc) (hready'.trans hready.symm)
    (hnoting'.trans hnoting.symm) ?_ hfinal hswept
  rw [hunregistered]
  nofun

theorem Owned.leaves (h : Owned n s) (hplace : s.place = place) (hidle : s'.place = .idle)
    (hready : place.ready = []) (hnoting : place.noting = none)
    (hsame : SameBuffers s s') : Owned n s' := by
  subst hplace
  refine h.moves hsame (fun _ => hidle) ?_ ?_ ?_ ?_ ?_
  · rw [hidle, hready]; rfl
  · rw [hidle, hnoting]; rfl
  · rw [hidle]; nofun
  · rw [hidle]; nofun
  · rw [hidle]; nofun

/-! ## The buffer pool -/

theorem Owned.acquire (h : Owned n s) (hopen : s.control.closed = false) (hnoting : s.place.noting = none)
    {wanted : Option Nat} (hyielded : s.pool.yielded wanted = some i) :
    Owned n { s with pool := s.pool.acquire i } ∧ s.slots[i]? = some .inArgus ∧
      (s.pool.acquire i).Holds i s.pool.nextFrame := by
  obtain ⟨buffer, hbuffer, hclient⟩ := ArgusPool.yielded_some hyielded
  have hi : i < s.pool.buffers.length := (List.getElem?_eq_some_iff.mp hbuffer).1
  have hslot : s.slots[i]? = some .inArgus := by
    rcases h.held.free hopen i buffer hbuffer hclient with hslot | hnoted
    · exact hslot
    · cases hnoting.symm.trans hnoted
  refine ⟨⟨h.tracked.congr rfl rfl (fun _ => rfl) (fun hclosed => ⟨hclosed, (h.tracked.closed hclosed).2⟩) rfl rfl,
    ?_, h.final, h.swept⟩, hslot, ArgusPool.acquire_holds h.held.sound hi⟩
  constructor
  case sound => exact h.held.sound.acquire hi
  case size => exact h.held.size
  case lease =>
    intro lease hlease
    exact (h.held.lease lease hlease).acquire hbuffer hclient
  case unreleased =>
    intro j hj
    obtain ⟨frame, hframe⟩ := h.held.unreleased j hj
    exact ⟨frame, hframe.acquire hbuffer hclient⟩
  case unregistered =>
    intro j hj
    obtain ⟨hslot', frame, hframe⟩ := h.held.unregistered j hj
    exact ⟨hslot', frame, hframe.acquire hbuffer hclient⟩
  case free =>
    intro hopen j b hb hfree
    by_cases hij : i = j
    · subst hij
      exact .inl hslot
    · rw [ArgusPool.acquire_other hij] at hb
      exact h.held.free hopen j b hb hfree

theorem Held.release (h : Held n s) {frame : Nat} {status : Int} (hheld : s.pool.Holds i frame)
    (hlease : i ∉ s.leases.map NativeLease.index) (hnoting : s.place.noting = none)
    (hpool : s'.pool = s.pool.release i status) (hslots : s'.slots = s.slots) (hleases : s'.leases = s.leases)
    (hclosed : s'.control.closed = s.control.closed)
    (hunreleased : ∀ j ∈ s'.returns ++ s'.place.ready, i ≠ j ∧ j ∈ s.returns ++ s.place.ready)
    (hunregistered : s'.place.unregistered = none)
    (hfree : s.slots[i]? = some .inArgus ∨ s'.place.noting = some (i, status)) : Held n s' := by
  constructor
  case sound =>
    rw [hpool]
    exact h.sound.release hheld status
  case size => rw [hslots]; exact h.size
  case lease =>
    rw [hpool, hleases]
    intro lease hmem
    have hne : i ≠ lease.index := by
      rintro rfl
      exact hlease (mem_map_of_mem hmem)
    exact hheld.release h.sound (h.lease lease hmem) hne status
  case unreleased =>
    rw [hpool]
    intro j hj
    obtain ⟨hne, hj⟩ := hunreleased j hj
    obtain ⟨other, hother⟩ := h.unreleased j hj
    exact ⟨other, hheld.release h.sound hother hne status⟩
  case unregistered =>
    intro j hj
    cases hunregistered.symm.trans hj
  case free =>
    rw [hclosed, hslots, hpool]
    intro hopen j b hb hclient
    rcases ArgusPool.release_free hheld hb hclient with ⟨rfl, rfl⟩ | ⟨-, hb⟩
    · exact hfree
    · rcases h.free hopen j b hb hclient with hslot | hnoted
      · exact .inl hslot
      · cases hnoting.symm.trans hnoted

/-! ## `FlushReturns` -/

variable {behind : FlushBehind}

theorem takeReturns_owned (h : Owned n s) (hplace : s.place = .flush behind) : Owned n (s.takeReturns behind).1 := by
  have hopen := h.isOpen (by rw [hplace]; nofun)
  constructor
  case tracked =>
    refine h.tracked.congr rfl rfl ?_ (fun hclosed => nomatch hopen.symm.trans hclosed) rfl rfl
    intro i
    simp [queue, takeReturns, goTo, hplace]
  case held =>
    refine h.held.congr rfl rfl rfl rfl ?_ nofun (by rw [hplace]; rfl)
    intro i hi
    exact mem_append_left _ hi
  case final =>
    intro hfinal
    refine h.final ?_
    rw [hplace]
    cases behind <;> first | rfl | cases hfinal
  case swept => exact fun _ => rfl

variable {ok : Bool}

theorem flushEnds_owned (h : Owned n s) (hplace : s.place = .flushing behind [] ok) :
    Owned n (s.flushEnds ok behind).1 := by
  have hopen := h.isOpen (by rw [hplace]; nofun)
  cases behind with
  | acquire =>
    simp only [flushEnds]
    split
    · exact h.goes hplace hopen nofun nofun rfl rfl rfl rfl rfl ⟨rfl, rfl, rfl, rfl, rfl, rfl, rfl⟩
    · exact h.leaves hplace rfl rfl rfl ⟨rfl, rfl, rfl, rfl, rfl, rfl, rfl⟩
  | stop => exact h.goes hplace hopen nofun nofun rfl rfl rfl rfl rfl ⟨rfl, rfl, rfl, rfl, rfl, rfl, rfl⟩
  | stopFinal =>
    have hfinal := h.final (by rw [hplace]; rfl)
    have hswept := h.swept (by rw [hplace]; rfl)
    simp only [flushEnds]
    split <;> exact h.goes hplace hopen (fun _ => hfinal) (fun _ => hswept) rfl rfl rfl rfl rfl
      ⟨rfl, rfl, rfl, rfl, rfl, rfl, rfl⟩

variable {ready : List Nat}

theorem Owned.next (h : Owned n s) (hplace : s.place = .flushing behind (i :: ready) ok) :
    (∃ frame, s.pool.Holds i frame) ∧ i ∉ s.leases.map NativeLease.index ∧ i ∉ s.returns ++ ready := by
  have hmem : i ∈ s.queue := by simp [queue, hplace]
  have howner := h.tracked.owner i _ (h.tracked.queued i hmem)
  simp only [HasOwner, queue, hplace, SessionPlace.noting, SessionPlace.ready, map_none, toList_none,
    nil_append, count_append, count_cons_self] at howner
  refine ⟨h.held.unreleased i (by rw [hplace]; simp), count_eq_zero.mp howner.1, ?_⟩
  rw [← count_eq_zero, count_append]
  omega

theorem releaseIndex_owned (h : Owned n s) (hplace : s.place = .flushing behind (i :: ready) ok)
    (answer : ArgusAnswer) : Owned n (s.releaseIndex argus behind i ready ok answer).1 := by
  have hopen := h.isOpen (by rw [hplace]; nofun)
  have hclosed : s.control.closed = true → False := fun hclosed => nomatch hopen.symm.trans hclosed
  obtain ⟨⟨frame, hheld⟩, hlease, hothers⟩ := h.next hplace
  have hunreleased : ∀ j ∈ s.returns ++ ready, i ≠ j ∧ j ∈ s.returns ++ s.place.ready := by
    intro j hj
    refine ⟨fun hij => hothers (hij ▸ hj), ?_⟩
    rw [hplace]
    rcases mem_append.mp hj with hj | hj
    · exact mem_append_left _ hj
    · exact mem_append_right _ (mem_cons_of_mem i hj)
  have hfinal : ∀ status, (SessionPlace.flushed behind i status ready ok).isFinal = true → s.leases = [] := by
    intro status hfinal
    refine h.final ?_
    rw [hplace]
    cases behind <;> first | rfl | cases hfinal
  have hswept : ∀ status, (SessionPlace.flushed behind i status ready ok).isSwept = true → s.returns = [] := by
    intro status hswept
    refine h.swept ?_
    rw [hplace]
    cases behind <;> first | rfl | cases hswept
  unfold releaseIndex
  split
  · refine ⟨?_, ?_, hfinal _, hswept _⟩
    · refine h.tracked.congr rfl rfl ?_ (fun hc => (hclosed hc).elim) rfl rfl
      intro j
      simp [queue, goTo, hplace]
    · exact h.held.release hheld hlease (by rw [hplace]; rfl) rfl rfl rfl rfl hunreleased rfl (.inr rfl)
  · -- the buffer stays with the client
    refine ⟨?_, ?_, hfinal _, hswept _⟩
    · refine h.tracked.congr rfl rfl ?_ (fun hc => (hclosed hc).elim) rfl rfl
      intro j
      simp [queue, goTo, report, hplace]
    · constructor
      case sound => exact h.held.sound
      case size => exact h.held.size
      case lease => exact h.held.lease
      case unreleased => exact fun j hj => h.held.unreleased j (hunreleased j hj).2
      case unregistered => nofun
      case free =>
        intro _ j b hb hclient
        rcases h.held.free hopen j b hb hclient with hslot | hnoted
        · exact .inl hslot
        · rw [hplace] at hnoted
          cases hnoted

theorem noteReleased_owned (h : Owned n s) {status : Int} (hplace : s.place = .flushed behind i status ready ok) :
    Owned n (s.noteReleased behind i status ready ok).1 := by
  have hopen := h.isOpen (by rw [hplace]; nofun)
  have hslot : s.slots[i]? = some .pendingReturn := h.tracked.queued i (by simp [queue, hplace])
  have howner := h.tracked.owner i _ hslot
  simp only [HasOwner, queue, hplace, SessionPlace.noting, SessionPlace.ready, map_some, toList_some,
    count_append, count_cons_self, count_nil] at howner
  obtain ⟨hleased, hqueued⟩ := howner
  have hqueue : (s.returns ++ ready).count i = 0 := by
    rw [count_append]
    omega
  have hothers : ∀ j, j ≠ i → (s.returns ++ ready).count j = s.queue.count j := by
    intro j hj
    simp [queue, hplace, count_cons_of_ne (fun hij => hj hij.symm)]
  have hunreleased : ∀ j ∈ s.returns ++ ready, j ∈ s.returns ++ s.place.ready := by
    rw [hplace]
    exact fun j => id
  -- whatever the slot becomes, with the buffer in Argus only behind a release that succeeded
  have hheld : ∀ {s' : NativeSession} {new : SlotState}, s'.slots = s.slots.set i new →
      (status = 0 → new = .inArgus) → s'.pool = s.pool → s'.leases = s.leases → s'.returns = s.returns →
      s'.control = s.control → s'.place.ready = ready → s'.place.unregistered = none → Held n s' := by
    intro s' new hslots hnew hpool hleases hreturns hcontrol hready hunregistered
    constructor
    case sound => rw [hpool]; exact h.held.sound
    case size => rw [hslots, length_set]; exact h.held.size
    case lease => rw [hleases, hpool]; exact h.held.lease
    case unreleased =>
      rw [hreturns, hready, hpool]
      exact fun j hj => h.held.unreleased j (hunreleased j hj)
    case unregistered => rw [hunregistered]; nofun
    case free =>
      rw [hpool, hslots]
      intro _ j b hb hclient
      refine .inl ?_
      rcases h.held.free hopen j b hb hclient with hfree | hnoted
      · have hji : i ≠ j := by
          rintro rfl
          cases hslot.symm.trans hfree
        rw [List.getElem?_set_ne hji]
        exact hfree
      · rw [hplace] at hnoted
        cases hnoted
        rw [List.getElem?_set_self (List.getElem?_eq_some_iff.mp hslot).1, hnew rfl]
  have hfinal : ∀ ok', (SessionPlace.flushing behind ready ok').isFinal = true → s.leases = [] := by
    intro ok' hfinal
    refine h.final ?_
    rw [hplace]
    cases behind <;> first | rfl | cases hfinal
  have hswept : ∀ ok', (SessionPlace.flushing behind ready ok').isSwept = true → s.returns = [] := by
    intro ok' hswept
    refine h.swept ?_
    rw [hplace]
    cases behind <;> first | rfl | cases hswept
  unfold noteReleased
  dsimp only
  split
  · refine ⟨?_, hheld rfl (fun _ => rfl) rfl rfl rfl rfl rfl rfl, hfinal _, hswept _⟩
    refine h.tracked.set hslot rfl ⟨hleased, hqueue⟩ (fun j hj => ⟨rfl, hothers j hj⟩) hopen ?_ ?_ <;>
      simp [goTo]
  · rename_i hstatus
    refine ⟨?_, hheld rfl (fun h0 => absurd h0 hstatus) rfl rfl rfl rfl rfl rfl, hfinal _, hswept _⟩
    refine h.tracked.set hslot rfl ⟨hleased, hqueue⟩ (fun j hj => ⟨rfl, hothers j hj⟩) hopen ?_ ?_ <;>
      simp [goTo, report]

/-! ## `Acquire` -/

section

variable (h : Owned n s)
include h

theorem beginAcquire_owned (hplace : s.place = .idle) (valid : Bool) : Owned n (s.beginAcquire valid).1 := by
  unfold beginAcquire
  split
  · exact h.leaves hplace rfl rfl rfl ⟨rfl, rfl, rfl, rfl, rfl, rfl, rfl⟩
  split
  · exact h.leaves hplace rfl rfl rfl ⟨rfl, rfl, rfl, rfl, rfl, rfl, rfl⟩
  split
  · exact h.leaves hplace rfl rfl rfl ⟨rfl, rfl, rfl, rfl, rfl, rfl, rfl⟩
  split
  · exact h.leaves hplace rfl rfl rfl ⟨rfl, rfl, rfl, rfl, rfl, rfl, rfl⟩
  · rename_i hstate _
    have hopen : s.control.closed = false := by
      rw [Bool.not_eq_true, Bool.or_eq_false_iff, Bool.or_eq_false_iff] at hstate
      exact hstate.1.2
    exact h.goes hplace hopen nofun nofun rfl rfl rfl rfl rfl ⟨rfl, rfl, rfl, rfl, rfl, rfl, rfl⟩

theorem acquireHeldStep_owned (hplace : s.place = .acquireHeld) : Owned n s.acquireHeldStep.1 := by
  unfold acquireHeldStep
  split
  · exact h.leaves hplace rfl rfl rfl ⟨rfl, rfl, rfl, rfl, rfl, rfl, rfl⟩
  · exact h.goes hplace (h.isOpen (by rw [hplace]; nofun)) nofun nofun rfl rfl rfl rfl rfl
      ⟨rfl, rfl, rfl, rfl, rfl, rfl, rfl⟩

/-- It goes on with a buffer in hand. -/
theorem Owned.has (hplace : s.place = place) (hopen : s.control.closed = false)
    (hslot : s.slots[i]? = some .inArgus) (hheld : ∃ frame, s.pool.Holds i frame)
    (hfinal : s'.place.isFinal = true → s.leases = [])
    (hswept : s'.place.isSwept = true → s.returns = [])
    (hready : s'.place.ready = place.ready) (hnoting : s'.place.noting = place.noting)
    (hunregistered : s'.place.unregistered = some i)
    (hsame : SameBuffers s s') : Owned n s' := by
  subst hplace
  constructor
  case tracked =>
    refine h.tracked.congr hsame.slots hsame.leases ?_ ?_ hsame.outstanding hsame.pending
    · intro j
      rw [queue, queue, hsame.returns, hready, hnoting]
    · intro hclosed
      rw [hsame.closed, hopen] at hclosed
      cases hclosed
  case held =>
    constructor
    case sound => rw [hsame.pool]; exact h.held.sound
    case size => rw [hsame.slots]; exact h.held.size
    case lease => rw [hsame.leases, hsame.pool]; exact h.held.lease
    case unreleased => rw [hsame.returns, hready, hsame.pool]; exact h.held.unreleased
    case unregistered =>
      intro j hj
      cases hunregistered.symm.trans hj
      rw [hsame.slots, hsame.pool]
      exact ⟨hslot, hheld⟩
    case free => rw [hsame.closed, hsame.pool, hsame.slots, hnoting]; exact h.held.free
  case final => rw [hsame.leases]; exact hfinal
  case swept => rw [hsame.returns]; exact hswept

theorem acquireBufferStep_owned (hplace : s.place = .acquireBuffer) (answer : ArgusAnswer) :
    Owned n (s.acquireBufferStep argus answer).1 := by
  have hopen := h.isOpen (by rw [hplace]; nofun)
  unfold acquireBufferStep
  dsimp only
  cases hyielded : s.pool.yielded answer.buffer with
  | none =>
    dsimp only
    split
    · split
      · exact h.leaves hplace rfl rfl rfl ⟨rfl, rfl, rfl, rfl, rfl, rfl, rfl⟩
      · exact h.goes hplace hopen nofun nofun rfl rfl rfl rfl rfl ⟨rfl, rfl, rfl, rfl, rfl, rfl, rfl⟩
    split <;> exact h.leaves hplace rfl rfl rfl ⟨rfl, rfl, rfl, rfl, rfl, rfl, rfl⟩
  | some i =>
    obtain ⟨h', hslot, hheld⟩ := h.acquire hopen (by rw [hplace]; rfl) hyielded
    dsimp only
    split
    · split
      · exact h'.leaves hplace rfl rfl rfl ⟨rfl, rfl, rfl, rfl, rfl, rfl, rfl⟩
      · exact h'.goes hplace hopen nofun nofun rfl rfl rfl rfl rfl ⟨rfl, rfl, rfl, rfl, rfl, rfl, rfl⟩
    split
    · exact h'.leaves hplace rfl rfl rfl ⟨rfl, rfl, rfl, rfl, rfl, rfl, rfl⟩
    split
    · exact h'.leaves hplace rfl rfl rfl ⟨rfl, rfl, rfl, rfl, rfl, rfl, rfl⟩
    · exact h'.has hplace hopen hslot ⟨_, hheld⟩ nofun nofun rfl rfl rfl ⟨rfl, rfl, rfl, rfl, rfl, rfl, rfl⟩

theorem register_owned (hplace : s.place = .acquired i) {frame : Nat}
    (hheld : s.pool.Holds i frame) (hslot : s.slots[i]? = some .inArgus) :
    Owned n ((s.register i frame).acquireReturns .frame "").1 := by
  have hopen := h.isOpen (by rw [hplace]; nofun)
  have hqueue : s.queue = s.returns := by simp [queue, hplace]
  have howner := h.tracked.owner i _ hslot
  simp only [HasOwner, hqueue] at howner
  constructor
  case tracked =>
    refine h.tracked.set hslot rfl ?_ ?_ hopen ?_ ?_
    · simp [HasOwner, acquireReturns, register, queue, howner]
    · intro j hj
      simp [acquireReturns, register, queue, hplace, count_cons_of_ne (fun hij => hj hij.symm)]
    · simp [acquireReturns, register]
    · simp [acquireReturns, register]
  case held =>
    constructor
    case sound => exact h.held.sound
    case size =>
      show (s.slots.set i .leased).length ≤ n
      rw [length_set]
      exact h.held.size
    case lease =>
      intro lease hlease
      rcases mem_append.mp hlease with hlease | hlease
      · exact h.held.lease lease hlease
      · rw [mem_singleton.mp hlease]
        exact hheld
    case unreleased =>
      intro j hj
      refine h.held.unreleased j ?_
      rw [hplace]
      exact hj
    case unregistered => nofun
    case free =>
      intro _ j b hb hclient
      have hji : i ≠ j := by
        rintro rfl
        cases hb.symm.trans hheld.1
        cases hclient
      rcases h.held.free hopen j b hb hclient with hfree | hnoted
      · exact .inl ((List.getElem?_set_ne hji).trans hfree)
      · rw [hplace] at hnoted
        cases hnoted
  case final => nofun
  case swept => nofun

theorem acquiredStep_owned (hplace : s.place = .acquired i) (answer : ArgusAnswer) :
    Owned n (s.acquiredStep i answer).1 := by
  have hopen := h.isOpen (by rw [hplace]; nofun)
  obtain ⟨hslot, frame, hheld⟩ := h.held.unregistered i (by rw [hplace]; rfl)
  have hfailed : ∀ error, Owned n (s.goTo (.acquireFailed i error)).1 := by
    intro error
    refine h.moves ⟨rfl, rfl, rfl, rfl, rfl, rfl, rfl⟩ (fun hc => nomatch hopen.symm.trans hc) ?_ ?_ ?_ nofun nofun
    · rw [hplace]; rfl
    · rw [hplace]; rfl
    · rw [hplace]; exact fun j hj => hj
  unfold acquiredStep
  split
  · exact hfailed _
  · rw [hheld.1]
    dsimp only [bind_some]
    split
    · rename_i hframe
      cases hframe
      exact register_owned h hplace hheld hslot
    · exact hfailed _
    · exact hfailed _

end

theorem queue_eq_returns (hready : s.place.ready = []) (hnoting : s.place.noting = none) : s.queue = s.returns := by
  rw [queue, hready, hnoting, map_none, toList_none, append_nil, append_nil]

/-- The buffer in hand goes back. -/
theorem Owned.gives (h : Owned n s) {behind : SessionPlace} (hplace : s.place = place) (status : Int)
    (hfinal : behind.isFinal = true → s.leases = [])
    (hswept : behind.isSwept = true → s.returns = [])
    (hunregistered : place.unregistered = some i) (hready : place.ready = [])
    (hnoting : place.noting = none) (hready' : behind.ready = [])
    (hnoting' : behind.noting = none) (hunregistered' : behind.unregistered = none) :
    Owned n { s with pool := s.pool.release i status, place := behind } := by
  subst hplace
  have hopen := h.isOpen (by rintro hplace; rw [hplace] at hunregistered; cases hunregistered)
  obtain ⟨hslot, frame, hheld⟩ := h.held.unregistered i hunregistered
  have hqueue := queue_eq_returns hready hnoting
  have howner := h.tracked.owner i _ hslot
  simp only [HasOwner, hqueue] at howner
  refine ⟨?_, ?_, hfinal, hswept⟩
  · refine h.tracked.congr rfl rfl ?_ (fun hc => nomatch hopen.symm.trans hc) rfl rfl
    intro j
    rw [hqueue, queue_eq_returns hready' hnoting']
  · refine h.held.release hheld (count_eq_zero.mp howner.1) hnoting rfl rfl rfl rfl ?_ hunregistered' (.inl hslot)
    intro j hj
    rw [hready', append_nil] at hj
    refine ⟨?_, mem_append_left _ hj⟩
    rintro rfl
    exact count_eq_zero.mp howner.2 hj

theorem acquireFailedStep_owned (h : Owned n s) {error : String} (hplace : s.place = .acquireFailed i error)
    (answer : ArgusAnswer) : Owned n (s.acquireFailedStep i error answer).1 := by
  have hgiven : Owned n { s with pool := s.pool.release i answer.status, place := .idle } :=
    h.gives hplace answer.status nofun nofun rfl rfl rfl rfl rfl rfl
  unfold acquireFailedStep
  dsimp only
  split
  · exact hgiven.leaves rfl rfl rfl rfl ⟨rfl, rfl, rfl, rfl, rfl, rfl, rfl⟩
  · exact hgiven

/-! ## `Stop` -/

section

variable (h : Owned n s)
include h

theorem beginSessionStop_owned (hplace : s.place = .idle) (endOfStreamStatus : Int) :
    Owned n (s.beginSessionStop endOfStreamStatus).1 := by
  unfold beginSessionStop
  split
  · exact h.leaves hplace rfl rfl rfl ⟨rfl, rfl, rfl, rfl, rfl, rfl, rfl⟩
  rename_i hclosed
  have hopen := Bool.not_eq_true _ ▸ hclosed
  split
  · exact h.goes hplace hopen nofun nofun rfl rfl rfl rfl rfl ⟨rfl, rfl, rfl, rfl, rfl, rfl, rfl⟩
  dsimp only
  split <;> exact h.goes hplace hopen nofun nofun rfl rfl rfl rfl rfl ⟨rfl, rfl, rfl, rfl, rfl, rfl, rfl⟩

/-- **Without a leased slot there is no lease**, whoever counts. -/
theorem Owned.leases_nil (houtstanding : s.stats.outstandingLeases = 0) : s.leases = [] := by
  rw [h.tracked.outstanding] at houtstanding
  cases hleases : s.leases with
  | nil => rfl
  | cons lease rest =>
    have hslot := h.tracked.lease lease.index (by rw [hleases]; exact mem_cons_self)
    have hpositive : 0 < s.slots.count .leased := count_pos_iff.mpr (mem_of_getElem? hslot)
    omega

theorem Owned.counters_zero (hleases : s.leases = []) (hqueue : s.queue = []) :
    s.stats.outstandingLeases = 0 ∧ s.stats.pendingReturns = 0 := by
  have hnone : ∀ state, (state = .leased ∨ state = .pendingReturn) → s.slots.count state = 0 := by
    intro state hstate
    rw [count_eq_zero]
    intro hmem
    obtain ⟨i, hi⟩ := List.getElem?_of_mem hmem
    have howner := h.tracked.owner i state hi
    rcases hstate with rfl | rfl <;> simp [HasOwner, hleases, hqueue] at howner
  rw [h.tracked.outstanding, h.tracked.pending, hnone _ (.inl rfl), hnone _ (.inr rfl)]
  exact ⟨rfl, rfl⟩

theorem stopOutstandingStep_owned (hplace : s.place = .stopOutstanding) : Owned n s.stopOutstandingStep.1 := by
  unfold stopOutstandingStep
  split
  · exact h.leaves hplace rfl rfl rfl ⟨rfl, rfl, rfl, rfl, rfl, rfl, rfl⟩
  · rename_i houtstanding
    have hleases := h.leases_nil (Decidable.not_not.mp houtstanding)
    exact h.goes hplace (h.isOpen (by rw [hplace]; nofun)) (fun _ => hleases) nofun rfl rfl rfl rfl rfl
      ⟨rfl, rfl, rfl, rfl, rfl, rfl, rfl⟩

theorem notDrained_owned (hplace : s.place = .drain) (answer : ArgusAnswer) : Owned n (s.notDrained answer).1 := by
  have hopen := h.isOpen (by rw [hplace]; nofun)
  have hleases := h.final (by rw [hplace]; rfl)
  have hreturns := h.swept (by rw [hplace]; rfl)
  unfold notDrained
  dsimp only
  split <;> exact h.goes hplace hopen (fun _ => hleases) (fun _ => hreturns) rfl rfl rfl rfl rfl
    ⟨rfl, rfl, rfl, rfl, rfl, rfl, rfl⟩

theorem drainStep_owned (hplace : s.place = .drain) (answer : ArgusAnswer) :
    Owned n (s.drainStep argus answer).1 := by
  have hopen := h.isOpen (by rw [hplace]; nofun)
  have hleases := h.final (by rw [hplace]; rfl)
  have hreturns := h.swept (by rw [hplace]; rfl)
  unfold drainStep
  split
  · exact notDrained_owned h hplace answer
  dsimp only
  cases hyielded : s.pool.yielded answer.buffer with
  | none =>
    dsimp only
    split
    · exact h.goes hplace hopen (fun _ => hleases) (fun _ => hreturns) rfl rfl rfl rfl rfl
        ⟨rfl, rfl, rfl, rfl, rfl, rfl, rfl⟩
    split
    · exact notDrained_owned h hplace answer
    · exact h.goes hplace hopen (fun _ => hleases) (fun _ => hreturns) rfl rfl rfl rfl rfl
        ⟨rfl, rfl, rfl, rfl, rfl, rfl, rfl⟩
  | some i =>
    obtain ⟨h', hslot, hheld⟩ := h.acquire hopen (by rw [hplace]; rfl) hyielded
    dsimp only
    split
    · exact h'.goes hplace hopen (fun _ => hleases) (fun _ => hreturns) rfl rfl rfl rfl rfl
        ⟨rfl, rfl, rfl, rfl, rfl, rfl, rfl⟩
    · exact h'.has hplace hopen hslot ⟨_, hheld⟩ (fun _ => hleases) (fun _ => hreturns) rfl rfl rfl
        ⟨rfl, rfl, rfl, rfl, rfl, rfl, rfl⟩

theorem drainedStep_owned (hplace : s.place = .drained i) (answer : ArgusAnswer) :
    Owned n (s.drainedStep i answer).1 := by
  have hopen := h.isOpen (by rw [hplace]; nofun)
  have hleases := h.final (by rw [hplace]; rfl)
  have hreturns := h.swept (by rw [hplace]; rfl)
  have hgiven : Owned n { s with pool := s.pool.release i answer.status, place := .drain } :=
    h.gives hplace answer.status (fun _ => hleases) (fun _ => hreturns) rfl rfl rfl rfl rfl rfl
  unfold drainedStep
  dsimp only
  split
  · unfold notDrained
    dsimp only
    split <;> exact hgiven.goes rfl hopen (fun _ => hleases) (fun _ => hreturns) rfl rfl rfl rfl rfl
      ⟨rfl, rfl, rfl, rfl, rfl, rfl, rfl⟩
  · exact hgiven.goes rfl hopen (fun _ => hleases) (fun _ => hreturns) rfl rfl rfl rfl rfl
      ⟨rfl, rfl, rfl, rfl, rfl, rfl, rfl⟩

theorem waitForIdleStep_owned (hplace : s.place = .waitForIdle) (answer : ArgusAnswer) :
    Owned n (s.waitForIdleStep answer).1 := by
  have hopen := h.isOpen (by rw [hplace]; nofun)
  have hleases := h.final (by rw [hplace]; rfl)
  have hreturns := h.swept (by rw [hplace]; rfl)
  unfold waitForIdleStep
  dsimp only
  split
  · exact h.goes hplace hopen (fun _ => hleases) (fun _ => hreturns) rfl rfl rfl rfl rfl
      ⟨rfl, rfl, rfl, rfl, rfl, rfl, rfl⟩
  split <;> split
  all_goals
    refine h.goes hplace hopen (fun _ => hleases) (fun _ => hreturns) ?_ ?_ ?_ ?_ ?_ ⟨?_, ?_, ?_, ?_, ?_, ?_, ?_⟩ <;> rfl

theorem Owned.unused (hplace : s.place = .clear) :
    s.leases = [] ∧ s.queue = [] ∧ s.stats.outstandingLeases = 0 ∧ s.stats.pendingReturns = 0 := by
  have hleases := h.final (by rw [hplace]; rfl)
  have hqueue : s.queue = [] := by simp [queue, hplace, h.swept]
  exact ⟨hleases, hqueue, h.counters_zero hleases hqueue⟩

theorem clearStep_owned (hplace : s.place = .clear) (answer : ArgusAnswer) : Owned n (s.clearStep answer).1 := by
  obtain ⟨hleases, hqueue, houtstanding, hpending⟩ := h.unused hplace
  have hreturns := h.swept (by rw [hplace]; rfl)
  constructor
  case tracked =>
    constructor
    case closed => exact fun _ => ⟨rfl, rfl⟩
    case owner => nofun
    case lease =>
      intro i hi
      have hi : i ∈ s.leases.map NativeLease.index := hi
      rw [hleases] at hi
      cases hi
    case queued =>
      intro i hi
      have hi : i ∈ s.returns ++ [] := hi
      rw [hreturns] at hi
      cases hi
    case outstanding => exact houtstanding
    case pending => exact hpending
  case held =>
    constructor
    case sound => exact h.held.sound
    case size => exact Nat.zero_le n
    case lease => exact h.held.lease
    case unreleased =>
      intro i hi
      have hi : i ∈ s.returns ++ [] := hi
      rw [hreturns] at hi
      cases hi
    case unregistered => nofun
    case free => nofun
  case final => nofun
  case swept => nofun

end

/-! ## The leases -/

theorem isFinal_of_isSwept {place : SessionPlace} (hswept : place.isSwept = true) : place.isFinal = true := by
  cases place with
  | flushing behind | flushed behind => cases behind <;> first | rfl | cases hswept
  | _ => first | rfl | cases hswept

/-- **A lease is returned while its slot is there, and once**: between any two steps of the controller. -/
theorem returnLease_owned (h : Owned n s) (frame : Nat) : Owned n (s.returnLease frame) := by
  unfold returnLease
  cases hfind : s.leases.find? fun lease => lease.frame = frame with
  | none => exact h
  | some lease =>
    dsimp only
    have hmem : lease ∈ s.leases := mem_of_find?_eq_some hfind
    have hslot := h.tracked.lease lease.index (mem_map_of_mem hmem)
    have howner := h.tracked.owner lease.index _ hslot
    simp only [HasOwner] at howner
    have hopen : s.control.closed = false := by
      cases hclosed : s.control.closed with
      | false => rfl
      | true =>
        rw [(h.tracked.closed hclosed).1] at hslot
        cases hslot
    have hperm : (s.leases.map NativeLease.index).Perm
        (lease.index :: (s.leases.erase lease).map NativeLease.index) :=
      (perm_cons_erase hmem).map NativeLease.index
    have hnotFinal : s.place.isFinal ≠ true := by
      intro hfinal
      rw [h.final hfinal] at hmem
      cases hmem
    constructor
    case tracked =>
      refine h.tracked.set hslot rfl ?_ ?_ hopen ?_ ?_
      · have hlost := hperm.count_eq lease.index
        rw [count_cons_self] at hlost
        have hgained : (({ s.returnSlot lease.index with leases := s.leases.erase lease } : NativeSession)).queue.count
            lease.index = s.queue.count lease.index + 1 := by
          simp only [queue, returnSlot, count_append, count_cons_self, count_nil]
          omega
        refine ⟨?_, hgained.trans (by rw [howner.2])⟩
        show ((s.leases.erase lease).map NativeLease.index).count lease.index = 0
        omega
      · intro j hj
        have hsame := hperm.count_eq j
        rw [count_cons_of_ne (fun hij => hj hij.symm)] at hsame
        refine ⟨hsame.symm, ?_⟩
        simp [queue, returnSlot, count_cons_of_ne (fun hij => hj hij.symm)]
      · simp [returnSlot]
      · simp [returnSlot]
    case held =>
      constructor
      case sound => exact h.held.sound
      case size =>
        show (s.slots.set lease.index .pendingReturn).length ≤ n
        rw [length_set]
        exact h.held.size
      case lease =>
        intro other hother
        exact h.held.lease other (mem_of_mem_erase hother)
      case unreleased =>
        intro j hj
        have hj : j ∈ s.returns ++ [lease.index] ++ s.place.ready := hj
        rw [append_assoc, mem_append, mem_append, mem_singleton] at hj
        rcases hj with hj | rfl | hj
        · exact h.held.unreleased j (mem_append_left _ hj)
        · exact ⟨lease.frame, h.held.lease lease hmem⟩
        · exact h.held.unreleased j (mem_append_right _ hj)
      case unregistered =>
        intro j hj
        obtain ⟨hfree, hheld⟩ := h.held.unregistered j hj
        refine ⟨?_, hheld⟩
        have hne : lease.index ≠ j := by
          rintro rfl
          cases hslot.symm.trans hfree
        exact (List.getElem?_set_ne hne).trans hfree
      case free =>
        intro _ j b hb hclient
        rcases h.held.free hopen j b hb hclient with hfree | hnoted
        · have hne : lease.index ≠ j := by
            rintro rfl
            cases hslot.symm.trans hfree
          exact .inl ((List.getElem?_set_ne hne).trans hfree)
        · exact .inr hnoted
    case final => exact fun hfinal => absurd hfinal hnotFinal
    case swept => exact fun hswept => absurd (isFinal_of_isSwept hswept) hnotFinal

/-! ## The calls -/

theorem changeTuning_closed (session : TuningSession) (change : TuningChange) (world : ArgusWorld) :
    (session.change world change).session.closed = session.closed := by
  have hsubmit : ∀ (session : TuningSession) (request : TuningRequest) (submission : Submission),
      (session.submit request submission).closed = session.closed := by
    intro session request submission
    unfold TuningSession.submit
    split <;> rfl
  have hset : ∀ settings, (session.setTuning settings world).session.closed = session.closed := by
    intro settings
    unfold TuningSession.setTuning
    dsimp only
    repeat' split
    all_goals first | rfl | skip
    unfold TuningSession.submitCandidate
    dsimp only
    split
    · rw [hsubmit, hsubmit]
    · exact hsubmit _ _ _
  cases change with
  | set settings => exact hset settings
  | reset => exact hset _
  | applyProfile profile =>
    unfold TuningSession.change
    dsimp only
    repeat' split
    · rfl
    · rfl
    · exact hset _

theorem changeTuning_owned (h : Owned n s) (hplace : s.place = .idle) (change : TuningChange) (world : ArgusWorld) :
    Owned n (s.changeTuning change world).1 := by
  unfold changeTuning
  split
  · exact h.leaves hplace hplace rfl rfl ⟨rfl, rfl, rfl, rfl, changeTuning_closed s.control change world, rfl, rfl⟩
  · exact h

/-- Every step of a call keeps the owners. -/
theorem resume_owned (h : Owned n s) (answer : ArgusAnswer) : Owned n (s.resume argus answer).1 := by
  unfold resume
  cases hplace : s.place with
  | idle => exact h
  | flush behind => exact takeReturns_owned h hplace
  | flushing behind ready ok =>
    cases ready with
    | nil => exact flushEnds_owned h hplace
    | cons index ready => exact releaseIndex_owned h hplace answer
  | flushed behind index status ready ok => exact noteReleased_owned h hplace
  | acquireHeld => exact acquireHeldStep_owned h hplace
  | acquireBuffer => exact acquireBufferStep_owned h hplace answer
  | acquired index => exact acquiredStep_owned h hplace answer
  | acquireFailed index error => exact acquireFailedStep_owned h hplace answer
  | stopOutstanding => exact stopOutstandingStep_owned h hplace
  | drain => exact drainStep_owned h hplace answer
  | drained index => exact drainedStep_owned h hplace answer
  | waitForIdle => exact waitForIdleStep_owned h hplace answer
  | clear => exact clearStep_owned h hplace answer

/-- **Every step keeps the owners**, whoever makes it. -/
theorem step_owned (argus : ArgusStatus) (s : NativeSession) (call : SessionCall) (h : Owned n s) :
    Owned n (s.step argus call).1 := by
  cases call with
  | acquire valid =>
    show Owned n (if s.place = .idle then s.beginAcquire valid else (s, none)).1
    split
    · exact beginAcquire_owned h (by assumption) valid
    · exact h
  | setTuning change world =>
    show Owned n (if s.place = .idle then s.changeTuning change world else (s, none)).1
    split
    · exact changeTuning_owned h (by assumption) change world
    · exact h
  | stop endOfStreamStatus =>
    show Owned n (if s.place = .idle then s.beginStop endOfStreamStatus else (s, none)).1
    split
    · unfold beginStop
      split
      · exact beginSessionStop_owned h (by assumption) endOfStreamStatus
      · exact h
    · exact h
  | abandon =>
    show Owned n (if s.place = .idle then ({ s with owned := false }, none) else (s, none)).1
    split
    · rename_i hplace
      exact h.leaves hplace hplace rfl rfl ⟨rfl, rfl, rfl, rfl, rfl, rfl, rfl⟩
    · exact h
  | destroy endOfStreamStatus =>
    show Owned n (if s.place = .idle then s.beginDestroy endOfStreamStatus else (s, none)).1
    split
    · unfold beginDestroy
      split
      · exact beginSessionStop_owned h (by assumption) endOfStreamStatus
      · exact h
    · exact h
  | resume answer => exact resume_owned h answer
  | returnLease frame => exact returnLease_owned h frame

theorem started_owned (bufferCount : Nat) : Owned bufferCount (started bufferCount) := by
  have hslot : ∀ (i : Nat) state, (started bufferCount).slots[i]? = some state → state = .inArgus := by
    intro i state hstate
    rw [started, List.getElem?_replicate] at hstate
    split at hstate <;> cases hstate
    rfl
  constructor
  case tracked =>
    constructor
    case closed => nofun
    case owner =>
      intro i state hstate
      rw [hslot i state hstate]
      exact ⟨rfl, rfl⟩
    case lease => nofun
    case queued => nofun
    case outstanding => simp [started, count_replicate]
    case pending => simp [started, count_replicate]
  case held =>
    constructor
    case sound => exact ArgusPool.started_sound bufferCount
    case size => simp [started]
    case lease => nofun
    case unreleased => nofun
    case unregistered => nofun
    case free =>
      intro _ i buffer hbuffer _
      refine .inl ?_
      have hi := (List.getElem?_eq_some_iff.mp hbuffer).1
      simp only [started, length_replicate] at hi
      simp [started, hi]
  case final => nofun
  case swept => nofun

/-- So each buffer has one owner in every reachable state. -/
theorem after_owned (argus : ArgusStatus) (bufferCount : Nat) (calls : List SessionCall) :
    Owned bufferCount (after argus bufferCount calls) :=
  run_invariant (step_owned argus) (started_owned bufferCount) calls

/-! ## The law holds -/

theorem Tracked.queue_nodup (h : Tracked s) : s.queue.Nodup := by
  rw [nodup_iff_count_le_one]
  intro i
  rcases Nat.eq_zero_or_pos (s.queue.count i) with hzero | hpositive
  · omega
  · have howner := h.owner i _ (h.queued i (count_pos_iff.mp hpositive))
    exact Nat.le_of_eq howner.2

theorem Owned.returns_length (h : Owned n s) : s.returns.length ≤ n := by
  have hnodup : s.returns.Nodup := (nodup_append.mp h.tracked.queue_nodup).1
  have hsubset : s.returns ⊆ List.range s.slots.length := by
    intro i hi
    have hslot := h.tracked.queued i (mem_append_left _ hi)
    exact mem_range.mpr (List.getElem?_eq_some_iff.mp hslot).1
  have hlen := (subperm_of_subset hnodup hsubset).length_le
  rw [length_range] at hlen
  exact Nat.le_trans hlen h.held.size

theorem beginSessionStop_slots (endOfStreamStatus : Int) :
    (s.beginSessionStop endOfStreamStatus).1.slots = s.slots := by
  unfold beginSessionStop
  dsimp only
  repeat' split
  all_goals rfl

theorem resume_slots (hplace : s.place ≠ .clear) (answer : ArgusAnswer) :
    (s.resume argus answer).1.slots.length = s.slots.length := by
  unfold resume
  cases hat : s.place with
  | clear => exact absurd hat hplace
  | idle | flush => rfl
  | flushing behind ready ok =>
    cases ready with
    | nil =>
      cases behind with
      | acquire =>
        simp only [flushNext, flushEnds]
        split <;> rfl
      | stop | stopFinal => rfl
    | cons index ready =>
      simp only [flushNext, releaseIndex]
      split <;> rfl
  | flushed behind index status ready ok =>
    unfold noteReleased
    dsimp only
    split <;> exact length_set
  | acquireHeld =>
    unfold acquireHeldStep
    dsimp only
    split <;> rfl
  | acquireBuffer =>
    unfold acquireBufferStep
    cases s.pool.yielded answer.buffer <;> dsimp only <;> repeat' split
    all_goals rfl
  | acquired index =>
    unfold acquiredStep
    dsimp only
    repeat' split
    all_goals first | rfl | exact length_set
  | acquireFailed index error =>
    unfold acquireFailedStep
    dsimp only
    split <;> rfl
  | stopOutstanding =>
    unfold stopOutstandingStep
    dsimp only
    split <;> rfl
  | drain =>
    unfold drainStep notDrained
    cases s.pool.yielded answer.buffer <;> dsimp only <;> repeat' split
    all_goals rfl
  | drained index =>
    unfold drainedStep notDrained
    dsimp only
    repeat' split
    all_goals rfl
  | waitForIdle =>
    unfold waitForIdleStep
    dsimp only
    repeat' split
    all_goals rfl

theorem slots_cleared {call : SessionCall} (hslots : s.slots ≠ [])
    (hcleared : (s.step argus call).1.slots = []) : s.place = .clear := by
  by_contra hplace
  have hlen : (s.step argus call).1.slots.length = s.slots.length := by
    cases call with
    | resume answer => exact resume_slots hplace answer
    | returnLease frame =>
      show (s.returnLease frame).slots.length = _
      unfold returnLease
      split
      · exact length_set
      · rfl
    | acquire valid =>
      unfold step beginAcquire
      dsimp only
      repeat' split
      all_goals rfl
    | setTuning change world =>
      unfold step changeTuning
      dsimp only
      repeat' split
      all_goals rfl
    | abandon =>
      unfold step
      dsimp only
      split <;> rfl
    | stop endOfStreamStatus =>
      unfold step beginStop
      dsimp only
      split
      · split
        · rw [beginSessionStop_slots]
        · rfl
      · rfl
    | destroy endOfStreamStatus =>
      unfold step beginDestroy
      dsimp only
      split
      · split
        · rw [beginSessionStop_slots]
        · rfl
      · rfl
  rw [hcleared] at hlen
  exact hslots (length_eq_zero_iff.mp hlen.symm)

/-- **The native buffers have one owner**, whatever the callers, the consumers and the SDK do. -/
theorem one_owner (argus : ArgusStatus) (bufferCount : Nat) (calls : List SessionCall) :
    OneOwner argus bufferCount calls := by
  have h := after_owned argus bufferCount calls
  constructor
  case owner => exact h.tracked.owner
  case outstanding => exact h.tracked.outstanding
  case pending => exact h.tracked.pending
  case once =>
    refine ⟨h.held.sound.once, ?_⟩
    intro hnone
    obtain ⟨frame, hframe, -⟩ := h.held.sound.released _ hnone
    cases hframe
  case alive => exact fun lease hlease => (h.held.lease lease hlease).2
  case returns => exact h.returns_length
  case slot =>
    intro lease hlease
    have hslot := h.tracked.lease lease.index (mem_map_of_mem hlease)
    exact (List.getElem?_eq_some_iff.mp hslot).1
  case clears =>
    intro before call rest _ hslots hcleared
    have hbefore := after_owned argus bufferCount before
    rw [after, run_append] at hcleared
    exact hbefore.unused (slots_cleared hslots hcleared)

end NativeSession

end Cockpit.Camera
