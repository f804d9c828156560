/-
  What the playback queue promises of its results: the life of an id, that a cancelled id is never completed,
  when it can be submitted again, and that it is played once.
-/
import Cockpit.Audio.AudioPlayback
import Cockpit.Lib.KeepLast
import Mathlib.Data.List.Perm.Subperm
import Mathlib.Data.List.Range

namespace Cockpit.Audio

open KeepLast List Option Function

def Results.statusOf (results : Results) (playbackId : Nat) : Option AudioPlaybackStatus :=
  (results playbackId).map AudioPlaybackResult.status

/-- There is a result, and it is not pending. -/
def IsFinal (status : Option AudioPlaybackStatus) : Prop := ∃ final, status = some final ∧ final ≠ .pending

theorem not_isFinal_none : ¬IsFinal none := fun ⟨_, h, _⟩ => nomatch h

theorem not_isFinal_pending : ¬IsFinal (some .pending) := fun ⟨_, h, hne⟩ => hne (Option.some.inj h).symm

theorem isFinal_some {status : AudioPlaybackStatus} (h : status ≠ .pending) : IsFinal (some status) :=
  ⟨status, rfl, h⟩

/-- **The books**: the pending ids are those alive (active or queued), the final ones those listed. -/
structure Books (results : Results) (final live : List Nat) : Prop where
  pendingIds : ∀ i, results.statusOf i = some .pending ↔ i ∈ live
  finalIds : ∀ i, IsFinal (results.statusOf i) ↔ i ∈ final
  liveNodup : live.Nodup
  finalNodup : final.Nodup
  finalLength : final.length ≤ kResultCapacity

namespace Books

variable {results : Results} {final live : List Nat} {i : Nat}

theorem not_mem_final (h : Books results final live) (hi : i ∈ live) : i ∉ final := by
  intro hfinal
  have hstatus := (h.finalIds i).mpr hfinal
  rw [(h.pendingIds i).mpr hi] at hstatus
  exact not_isFinal_pending hstatus

theorem unknown (h : Books results final live) (hlive : i ∉ live) (hfinal : i ∉ final) : results i = none := by
  cases hr : results i with
  | none => rfl
  | some result =>
    have hstatus : results.statusOf i = some result.status := by
      unfold Results.statusOf
      rw [hr]
      rfl
    by_cases hp : result.status = .pending
    · exact absurd ((h.pendingIds i).mp (by rw [hstatus, hp])) hlive
    · exact absurd ((h.finalIds i).mp (by rw [hstatus]; exact isFinal_some hp)) hfinal

end Books

/-! ## Eviction -/

/-- Both ways to erase agree on final ids. -/
def ClearsFinal (erase : Results → Nat → Results) : Prop :=
  ∀ results i, results.statusOf i ≠ some .pending → erase results i = update results i none

theorem clearsFinal_erase : ClearsFinal AudioPlayback.erase := fun _ _ _ => rfl

theorem clearsFinal_eraseFinal : ClearsFinal AudioPlayback.eraseFinal := by
  intro results i h
  unfold AudioPlayback.eraseFinal
  cases hr : results i with
  | none =>
    funext j
    by_cases hj : j = i
    · rw [hj, update_self]
      exact hr
    · rw [update_of_ne hj]
  | some result =>
    dsimp only
    rw [if_neg]
    · rfl
    · intro hp
      apply h
      unfold Results.statusOf
      rw [hr, map_some, hp]

theorem statusOf_update (results : Results) (i : Nat) (result : Option AudioPlaybackResult) (j : Nat) :
    Results.statusOf (update results i result) j =
      if j = i then result.map AudioPlaybackResult.status else results.statusOf j := by
  unfold Results.statusOf
  by_cases h : j = i
  · rw [if_pos h, h, update_self]
  · rw [if_neg h, update_of_ne h]

theorem evict_eq {erase : Results → Nat → Results} (herase : ClearsFinal erase) {ids : List Nat}
    (hids : ids.Nodup) (results : Results) (hresults : ∀ i ∈ ids, results.statusOf i ≠ some .pending) :
    (AudioPlayback.evict erase ids results).1 = keepLast kResultCapacity ids ∧
      ∀ i, (AudioPlayback.evict erase ids results).2.statusOf i =
        if i ∈ ids ∧ i ∉ keepLast kResultCapacity ids then none else results.statusOf i := by
  induction ids generalizing results with
  | nil => exact ⟨rfl, fun i => by simp [AudioPlayback.evict]⟩
  | cons oldest ids ih =>
    obtain ⟨holdest, hnodup⟩ := nodup_cons.mp hids
    unfold AudioPlayback.evict
    by_cases hfull : kResultCapacity < ids.length + 1
    · rw [if_pos hfull, keepLast_cons (by omega), herase _ _ (hresults oldest mem_cons_self)]
      obtain ⟨hkept, hstatus⟩ := ih hnodup (update results oldest none) (by
        intro i hi
        rw [statusOf_update]
        split
        · exact nofun
        · exact hresults i (mem_cons_of_mem oldest hi))
      refine ⟨hkept, fun i => ?_⟩
      rw [hstatus, statusOf_update]
      have hout : oldest ∉ keepLast kResultCapacity ids := fun h =>
        holdest ((keepLast_suffix _ ids).subset h)
      by_cases hi : i = oldest
      · simp [hi, hout, holdest]
      · simp [hi]
    · rw [if_neg hfull, keepLast_of_length_le (by rw [length_cons]; omega)]
      refine ⟨rfl, fun i => ?_⟩
      rw [if_neg fun h => h.2 h.1]

namespace AudioPlayback

@[simp] theorem status_eq (s : AudioPlayback) (i : Nat) : s.results.statusOf i = s.status i := rfl

/-- Active or queued. -/
def liveIds (s : AudioPlayback) : List Nat :=
  (s.active.toList ++ s.queue).map PlaybackRequest.playbackId

variable {s : AudioPlayback} {live : List Nat}

/-- **A result becomes final.** -/
theorem settle_spec {erase : Results → Nat → Results} (herase : ClearsFinal erase)
    (result : AudioPlaybackResult) (h : Books s.results s.finalResultIds live)
    (hnew : result.playbackId ∉ s.finalResultIds) (hfinal : result.status ≠ .pending) :
    (s.settle erase result).finalResultIds =
        keepLast kResultCapacity (s.finalResultIds ++ [result.playbackId]) ∧
      Books (s.settle erase result).results (s.settle erase result).finalResultIds
        (live.erase result.playbackId) ∧
      (s.settle erase result).status result.playbackId = some result.status ∧
      ∀ j, j ≠ result.playbackId →
        (s.settle erase result).status j = s.status j ∨ (s.settle erase result).status j = none := by
  have hnodup : (s.finalResultIds ++ [result.playbackId]).Nodup := ListUpdate.nodup_snoc h.finalNodup hnew
  obtain ⟨hevicted, hstatus⟩ := evict_eq herase hnodup
    (update s.results result.playbackId (some result)) (by
      intro i hi hp
      rw [statusOf_update] at hp
      split at hp
      · exact hfinal (Option.some.inj hp)
      · obtain hi | hi := ListUpdate.mem_snoc.mp hi
        · exact h.not_mem_final ((h.pendingIds i).mp hp) hi
        · contradiction)
  have hids : (s.settle erase result).finalResultIds =
      keepLast kResultCapacity (s.finalResultIds ++ [result.playbackId]) := hevicted
  have hkept : result.playbackId ∈
      keepLast kResultCapacity (s.finalResultIds ++ [result.playbackId]) :=
    mem_keepLast_append (m := [result.playbackId]) (Nat.le_of_ble_eq_true rfl) (mem_singleton.mpr rfl) _
  have hself : (s.settle erase result).status result.playbackId = some result.status := by
    refine (hstatus _).trans ?_
    rw [if_neg fun h => h.2 hkept, statusOf_update, if_pos rfl]
    rfl
  have hother : ∀ j, j ≠ result.playbackId → (s.settle erase result).status j =
      if j ∈ s.finalResultIds ∧ j ∉ keepLast kResultCapacity (s.finalResultIds ++ [result.playbackId])
      then none else s.status j := by
    intro j hj
    refine (hstatus j).trans ?_
    rw [statusOf_update, if_neg hj]
    simp only [ListUpdate.mem_snoc, hj, or_false]
    rfl
  refine ⟨hids, ⟨fun j => ?_, fun j => ?_, h.liveNodup.erase _, ?_, ?_⟩, hself, fun j hj => ?_⟩
  · change (s.settle erase result).status j = _ ↔ _
    rw [h.liveNodup.mem_erase_iff]
    by_cases hj : j = result.playbackId
    · rw [hj, hself]
      exact ⟨fun hp => absurd (Option.some.inj hp) hfinal, fun hp => absurd rfl hp.1⟩
    · rw [hother j hj]
      split
      · rename_i hout
        exact ⟨nofun, fun hp => absurd hout.1 (h.not_mem_final hp.2)⟩
      · exact (h.pendingIds j).trans ⟨fun hp => ⟨hj, hp⟩, And.right⟩
  · change IsFinal ((s.settle erase result).status j) ↔ j ∈ (s.settle erase result).finalResultIds
    rw [hids]
    by_cases hj : j = result.playbackId
    · rw [hj, hself]
      exact iff_of_true (isFinal_some hfinal) hkept
    · rw [hother j hj]
      by_cases hfin : j ∈ s.finalResultIds
      · by_cases hin : j ∈ keepLast kResultCapacity (s.finalResultIds ++ [result.playbackId])
        · rw [if_neg fun h => h.2 hin]
          exact iff_of_true ((h.finalIds j).mpr hfin) hin
        · rw [if_pos ⟨hfin, hin⟩]
          exact iff_of_false not_isFinal_none hin
      · rw [if_neg fun h => hfin h.1]
        refine iff_of_false (fun hp => hfin ((h.finalIds j).mp hp)) fun hin => ?_
        obtain hin | hin := ListUpdate.mem_snoc.mp ((keepLast_suffix _ _).subset hin)
        · exact hfin hin
        · exact hj hin
  · rw [hids]
    exact hnodup.sublist (keepLast_suffix _ _).sublist
  · rw [hids]
    exact length_keepLast_le _ _
  · rw [hother j hj]
    split
    · exact .inr rfl
    · exact .inl rfl

variable {id : Nat}

theorem finalizeLocked_eq (h : Books s.results s.finalResultIds live) (hid : id ∈ live)
    (status : AudioPlaybackStatus) (error : String) :
    s.finalizeLocked id status error =
      s.settle eraseFinal { playbackId := id, status := status, error := error } := by
  have hpending := (h.pendingIds id).mpr hid
  unfold Results.statusOf at hpending
  unfold finalizeLocked
  cases hr : s.results id with
  | none =>
    rw [hr] at hpending
    cases hpending
  | some found =>
    rw [hr] at hpending
    exact if_neg fun hne => hne (Option.some.inj hpending)

theorem finalizeLocked_frame (s : AudioPlayback) (id : Nat) (status : AudioPlaybackStatus)
    (error : String) : ∃ results final,
      s.finalizeLocked id status error = { s with results := results, finalResultIds := final } := by
  unfold finalizeLocked
  split
  · exact ⟨_, _, rfl⟩
  · split <;> exact ⟨_, _, rfl⟩

theorem dropQueued_frame (s : AudioPlayback) (requests : List PlaybackRequest) : ∃ results final,
    s.dropQueued requests = { s with results := results, finalResultIds := final } := by
  induction requests generalizing s with
  | nil => exact ⟨_, _, rfl⟩
  | cons request requests ih =>
    obtain ⟨results, final, hs⟩ := finalizeLocked_frame s request.playbackId .dropped
      "audio playback stopped before starting"
    obtain ⟨results', final', hs'⟩ := ih { s with results := results, finalResultIds := final }
    exact ⟨results', final', by rw [dropQueued, hs, hs']⟩

/-- Every queued request is dropped, in order. -/
theorem dropQueued_spec {requests : List PlaybackRequest}
    (h : Books s.results s.finalResultIds (requests.map PlaybackRequest.playbackId ++ live)) :
    (s.dropQueued requests).finalResultIds = keepLast kResultCapacity
        (s.finalResultIds ++ requests.map PlaybackRequest.playbackId) ∧
      Books (s.dropQueued requests).results (s.dropQueued requests).finalResultIds live ∧
      ∀ j, j ∉ requests.map PlaybackRequest.playbackId →
        (s.dropQueued requests).status j = s.status j ∨ (s.dropQueued requests).status j = none := by
  induction requests generalizing s with
  | nil =>
    rw [map_nil, append_nil, keepLast_of_length_le h.finalLength]
    exact ⟨rfl, h, fun j _ => .inl rfl⟩
  | cons request requests ih =>
    have hmem : request.playbackId ∈
        (request :: requests).map PlaybackRequest.playbackId ++ live := mem_cons_self
    obtain ⟨hids, hbooks, -, hkept⟩ := settle_spec clearsFinal_eraseFinal
      { playbackId := request.playbackId, status := .dropped,
        error := "audio playback stopped before starting" } h (h.not_mem_final hmem) nofun
    rw [← finalizeLocked_eq h hmem] at hids hbooks hkept
    rw [map_cons, cons_append, erase_cons_head] at hbooks
    obtain ⟨hids', hbooks', hkept'⟩ := ih hbooks
    refine ⟨?_, hbooks', fun j hj => ?_⟩
    · rw [dropQueued, hids', hids, keepLast_keepLast_append, append_assoc]
      rfl
    · rw [map_cons, mem_cons, not_or] at hj
      rw [dropQueued]
      obtain hj' | hj' := hkept' j hj.2
      · rw [hj']
        exact hkept j hj.1
      · exact .inr hj'

/-! ## The steps -/

/-- Pending ids are the live ones, final ids are listed. -/
structure Consistent (s : AudioPlayback) : Prop where
  books : Books s.results s.finalResultIds s.liveIds
  queueLength : s.queue.length ≤ kQueueCapacity
  playing : s.active.isSome = true ↔ s.worker = .playing
  nextId : s.nextPlaybackId < kPlaybackIds

/-- **What a step can do to the books**: the ids `pushed` become final, in this order; results that were
    final stay as they are or are evicted; an id comes alive only by being submitted. -/
structure Moves (s s' : AudioPlayback) (returned : Returned) (pushed : List Nat) : Prop where
  finalIds : s'.finalResultIds = keepLast kResultCapacity (s.finalResultIds ++ pushed)
  nodup : (s.finalResultIds ++ pushed).Nodup
  few : pushed.length ≤ kResultCapacity
  kept : ∀ j, IsFinal (s.status j) → s'.status j = s.status j ∨ s'.status j = none
  live : ∀ j ∈ s.liveIds, j ∈ s'.liveIds ∨ j ∈ pushed
  fresh : ∀ j ∈ s'.liveIds, j ∈ s.liveIds ∨ returned = .submitted (some j) ∧ s.status j = none

variable {s' : AudioPlayback} {returned : Returned}

theorem Moves.of_same (h : s.Consistent) (hfinal : s'.finalResultIds = s.finalResultIds)
    (hresults : s'.results = s.results) (hlive : s'.liveIds = s.liveIds) : Moves s s' returned [] where
  finalIds := by
    rw [hfinal, append_nil, keepLast_of_length_le h.books.finalLength]
  nodup := by
    rw [append_nil]
    exact h.books.finalNodup
  few := Nat.zero_le _
  kept := fun j _ => .inl (by unfold status; rw [hresults])
  live := fun j hj => .inl (hlive ▸ hj)
  fresh := fun j hj => .inl (hlive ▸ hj)

theorem Moves.of_settled (h : s.Consistent) (hid : id ∉ s.finalResultIds)
    (hfinal : s'.finalResultIds = keepLast kResultCapacity (s.finalResultIds ++ [id]))
    (hkept : ∀ j, j ≠ id → s'.status j = s.status j ∨ s'.status j = none) (hlive : s'.liveIds = s.liveIds.erase id) :
    Moves s s' returned [id] where
  finalIds := hfinal
  nodup := ListUpdate.nodup_snoc h.books.finalNodup hid
  few := Nat.le_of_ble_eq_true rfl
  kept := fun j hj => hkept j fun heq => hid (heq ▸ (h.books.finalIds j).mp hj)
  live := by
    intro j hj
    rw [hlive, h.books.liveNodup.mem_erase_iff]
    by_cases heq : j = id
    · exact .inr (mem_singleton.mpr heq)
    · exact .inl ⟨heq, hj⟩
  fresh := fun j hj => .inl (mem_of_mem_erase (hlive ▸ hj))

theorem consistent_create (device : String) (hasPlayer : Bool) : (create device hasPlayer).Consistent where
  books :=
    { pendingIds := fun _ => ⟨nofun, nofun⟩
      finalIds := fun _ => ⟨fun h => absurd h not_isFinal_none, nofun⟩
      liveNodup := nodup_nil
      finalNodup := nodup_nil
      finalLength := Nat.zero_le _ }
  queueLength := Nat.zero_le _
  playing := ⟨nofun, nofun⟩
  nextId := show 1 < 2 ^ 64 by decide

def IsTaken (results : Results) (id : Nat) : Prop := id = 0 ∨ (results id).isSome = true

theorem drawId_next_lt (results : Results) (tries next : Nat) : (drawId results tries next).2 < kPlaybackIds := by
  induction tries generalizing next with
  | zero => exact Nat.mod_lt _ (by decide)
  | succ tries ih =>
    unfold drawId
    split
    · exact ih _
    · exact Nat.mod_lt _ (by decide)

theorem taken_of_drawId {results : Results} {tries next : Nat} (hnext : next < kPlaybackIds)
    (h : IsTaken results (drawId results tries next).1) :
    ∀ k ≤ tries, IsTaken results ((next + k) % kPlaybackIds) := by
  induction tries generalizing next with
  | zero =>
    intro k hk
    obtain rfl := Nat.le_zero.mp hk
    rwa [Nat.add_zero, Nat.mod_eq_of_lt hnext]
  | succ tries ih =>
    unfold drawId at h
    by_cases htaken : next = 0 ∨ (results next).isSome = true
    · rw [if_pos htaken] at h
      intro k hk
      cases k with
      | zero => rwa [Nat.add_zero, Nat.mod_eq_of_lt hnext]
      | succ k =>
        have hrest := ih (Nat.mod_lt _ (by decide)) h k (by omega)
        rwa [Nat.mod_add_mod, Nat.add_assoc, Nat.add_comm 1 k] at hrest
    · rw [if_neg htaken] at h
      exact absurd h htaken

/-- **The drawn id is new**: fewer ids have a result than the loop may try. -/
theorem drawId_new (h : s.Consistent) : ¬IsTaken s.results
      (drawId s.results (s.queue.length + s.finalResultIds.length + 2) s.nextPlaybackId).1 := by
  intro htaken
  have hall := taken_of_drawId h.nextId htaken
  have hnodup : ((List.range (s.queue.length + s.finalResultIds.length + 3)).map
      fun k => (s.nextPlaybackId + k) % kPlaybackIds).Nodup := by
    refine List.Nodup.map_on (fun k hk k' hk' heq => ?_) nodup_range
    rw [mem_range] at hk hk'
    have hqueue := h.queueLength
    have hfinal := h.books.finalLength
    have hnext := h.nextId
    unfold kQueueCapacity at hqueue
    unfold kResultCapacity at hfinal
    unfold kPlaybackIds at heq hnext
    omega
  have hsubset : ((List.range (s.queue.length + s.finalResultIds.length + 3)).map
      fun k => (s.nextPlaybackId + k) % kPlaybackIds) ⊆ 0 :: (s.liveIds ++ s.finalResultIds) := by
    intro id hid
    obtain ⟨k, hk, rfl⟩ := mem_map.mp hid
    obtain hzero | hsome := hall k (Nat.le_of_lt_succ (mem_range.mp hk))
    · rw [hzero]
      exact mem_cons_self
    · refine mem_cons_of_mem 0 (mem_append.mpr ?_)
      by_contra hnot
      rw [not_or] at hnot
      rw [h.books.unknown hnot.1 hnot.2] at hsome
      cases hsome
  have hlen := (hnodup.subperm hsubset).length_le
  have hactive : s.active.toList.length ≤ 1 := by cases s.active <;> simp
  simp only [length_map, length_range, length_cons, length_append, liveIds] at hlen
  omega

/-- A step keeps the books, and pushes the oldest final ids out. -/
def Lawful (s s' : AudioPlayback) (returned : Returned) : Prop :=
  s'.Consistent ∧ ∃ pushed, Moves s s' returned pushed

theorem Lawful.of_same (h : s.Consistent) (hfinal : s'.finalResultIds = s.finalResultIds)
    (hresults : s'.results = s.results) (hlive : s'.liveIds = s.liveIds) (hqueue : s'.queue.length ≤ kQueueCapacity)
    (hplaying : s'.active.isSome = true ↔ s'.worker = .playing) (hnext : s'.nextPlaybackId = s.nextPlaybackId) :
    Lawful s s' returned :=
  ⟨{ books := by rw [hfinal, hresults, hlive]; exact h.books
     queueLength := hqueue
     playing := hplaying
     nextId := hnext ▸ h.nextId }, [], .of_same h hfinal hresults hlive⟩

theorem Lawful.refl (h : s.Consistent) (returned : Returned) : Lawful s s returned :=
  .of_same h rfl rfl rfl h.queueLength h.playing rfl

theorem liveIds_enqueue (samples : List Int) (id next : Nat) :
    ({ s with nextPlaybackId := next }.enqueue samples id).1.liveIds = s.liveIds ++ [id] := by
  simp [enqueue, liveIds]

theorem status_enqueue (samples : List Int) (id next j : Nat) :
    ({ s with nextPlaybackId := next }.enqueue samples id).1.status j =
      if j = id then some .pending else s.status j :=
  statusOf_update s.results id _ j

theorem lawful_enqueue (h : s.Consistent) {next : Nat} (samples : List Int) (hnew : s.results id = none)
    (hqueue : s.queue.length < kQueueCapacity) (hnext : next < kPlaybackIds) :
    Lawful s ({ s with nextPlaybackId := next }.enqueue samples id).1 (.submitted (some id)) := by
  have hstatus : s.status id = none := by
    unfold status
    rw [hnew]
    rfl
  have hlive : id ∉ s.liveIds := fun hmem => by
    have hp := (h.books.pendingIds id).mpr hmem
    rw [status_eq, hstatus] at hp
    cases hp
  have hfinal : id ∉ s.finalResultIds := fun hmem => by
    have hp := (h.books.finalIds id).mpr hmem
    rw [status_eq, hstatus] at hp
    exact not_isFinal_none hp
  refine ⟨⟨⟨fun j => ?_, fun j => ?_, ?_, h.books.finalNodup, h.books.finalLength⟩, ?_, h.playing, hnext⟩,
    [], ⟨?_, ?_, Nat.zero_le _, fun j hj => ?_, fun j hj => ?_, fun j hj => ?_⟩⟩
  · rw [status_eq, status_enqueue, liveIds_enqueue, ListUpdate.mem_snoc]
    split <;> rename_i hj
    · exact iff_of_true rfl (.inr hj)
    · exact (h.books.pendingIds j).trans ⟨.inl, fun hp => hp.resolve_right hj⟩
  · rw [status_eq, status_enqueue]
    split
    · rename_i hj
      exact iff_of_false not_isFinal_pending (hj ▸ hfinal)
    · exact h.books.finalIds j
  · rw [liveIds_enqueue]
    exact ListUpdate.nodup_snoc h.books.liveNodup hlive
  · change (s.queue ++ [_]).length ≤ _
    rw [length_append]
    exact hqueue
  · rw [append_nil, keepLast_of_length_le h.books.finalLength]
    rfl
  · rw [append_nil]
    exact h.books.finalNodup
  · rw [status_enqueue, if_neg]
    · exact .inl rfl
    · rintro rfl
      rw [hstatus] at hj
      exact not_isFinal_none hj
  · rw [liveIds_enqueue]
    exact .inl (mem_append_left _ hj)
  · rw [liveIds_enqueue] at hj
    obtain hj | rfl := ListUpdate.mem_snoc.mp hj
    · exact .inl hj
    · exact .inr ⟨rfl, hstatus⟩

theorem lawful_submit (h : s.Consistent) (samples : List Int) (playbackId : Nat) :
    Lawful s (s.submit samples playbackId).1 (s.submit samples playbackId).2 := by
  unfold submit
  by_cases hrefused : (!s.running || s.stopRequested || samples.isEmpty ||
      kQueueCapacity ≤ s.queue.length) = true
  · rw [if_pos hrefused]
    exact .refl h _
  · rw [if_neg hrefused]
    have hqueue : s.queue.length < kQueueCapacity := by
      simp only [Bool.or_eq_true, decide_eq_true_eq, not_or] at hrefused
      exact Nat.lt_of_not_le hrefused.2
    by_cases hzero : playbackId = 0
    · rw [if_pos hzero]
      have hnew := drawId_new h
      unfold IsTaken at hnew
      rw [not_or, Bool.not_eq_true, isSome_eq_false_iff, isNone_iff_eq_none] at hnew
      exact lawful_enqueue h samples hnew.2 hqueue (drawId_next_lt _ _ _)
    · rw [if_neg hzero]
      by_cases hknown : (s.results playbackId).isSome = true
      · rw [if_pos hknown]
        exact .refl h _
      · rw [if_neg hknown]
        rw [Bool.not_eq_true, isSome_eq_false_iff, isNone_iff_eq_none] at hknown
        exact lawful_enqueue h samples hknown hqueue h.nextId

theorem Lawful.of_settled {t : AudioPlayback} (s' : AudioPlayback) (returned : Returned)
    (h : s.Consistent) {erase : Results → Nat → Results} (herase : ClearsFinal erase) (result : AudioPlaybackResult)
    (hid : result.playbackId ∉ s.finalResultIds) (hstatus : result.status ≠ .pending)
    (hfinal : t.finalResultIds = s.finalResultIds) (hresults : t.results = s.results)
    (hfinal' : s'.finalResultIds = (t.settle erase result).finalResultIds)
    (hresults' : s'.results = (t.settle erase result).results)
    (hlive : s'.liveIds = s.liveIds.erase result.playbackId) (hqueue : s'.queue.length ≤ kQueueCapacity)
    (hplaying : s'.active.isSome = true ↔ s'.worker = .playing) (hnext : s'.nextPlaybackId = s.nextPlaybackId) :
    Lawful s s' returned ∧ s'.status result.playbackId = some result.status := by
  have hbooks : Books t.results t.finalResultIds s.liveIds := by
    rw [hfinal, hresults]
    exact h.books
  obtain ⟨hids, hbooks', hself, hkept⟩ := settle_spec herase result hbooks (by rw [hfinal]; exact hid) hstatus
  have hstatus' : ∀ j, s'.status j = (t.settle erase result).status j := fun j => by
    unfold status
    rw [hresults']
  have hstatus'' : ∀ j, t.status j = s.status j := fun j => by
    unfold status
    rw [hresults]
  refine ⟨⟨⟨?_, hqueue, hplaying, hnext ▸ h.nextId⟩, [result.playbackId],
    .of_settled h hid ?_ (fun j hj => ?_) hlive⟩, ?_⟩
  · rw [hfinal', hresults', hlive]
    exact hbooks'
  · rw [hfinal', hids, hfinal]
  · rw [hstatus', ← hstatus'']
    exact hkept j hj
  · rw [hstatus', hself]

/-- It can only become cancelled. -/
def Doomed (id : Nat) (s : AudioPlayback) : Prop :=
  s.status id = some .cancelled ∨
    ∃ request, s.active = some request ∧ request.playbackId = id ∧ request.cancelled = true

theorem map_eraseP_playbackId (queue : List PlaybackRequest) (id : Nat) :
    (queue.eraseP fun request => request.playbackId = id).map PlaybackRequest.playbackId =
      (queue.map PlaybackRequest.playbackId).erase id := by
  induction queue with
  | nil => rfl
  | cons request queue ih =>
    rw [map_cons, eraseP_cons]
    by_cases heq : request.playbackId = id
    · rw [heq, erase_cons_head]
      simp
    · rw [erase_cons_tail (by simpa using heq), ← ih]
      simp [heq]

/-- **The ways through `Cancel`.** -/
inductive Cancels (s : AudioPlayback) (id : Nat) : Prop
  | zero (hid : id = 0) (h : s.cancel id = (s, .cancelled false))
  | ended (status : AudioPlaybackStatus) (hstatus : s.status id = some status)
      (hpending : status ≠ .pending) (hcancelled : status ≠ .cancelled)
      (h : s.cancel id = (s, .cancelled false))
  | again (hstatus : s.status id = some .cancelled) (h : s.cancel id = (s, .cancelled true))
  | active (request : PlaybackRequest) (hactive : s.active = some request)
      (hid : request.playbackId = id)
      (h : s.cancel id = ({ s with active := some { request with cancelled := true } }, .cancelled true))
  | queued (hactive : id ∉ s.active.toList.map PlaybackRequest.playbackId)
      (hqueue : id ∈ s.queue.map PlaybackRequest.playbackId)
      (h : s.cancel id =
        ({ s with queue := s.queue.eraseP fun request => request.playbackId = id }.finalizeLocked id
          .cancelled "audio playback cancelled before starting", .cancelled true))
  | unknown (hlive : id ∉ s.liveIds) (hfinal : ¬IsFinal (s.status id))
      (h : s.cancel id =
        (s.settle erase
          { playbackId := id
            status := .cancelled
            error := "audio playback cancelled before submission" }, .cancelled true))

theorem cancels (s : AudioPlayback) (id : Nat) : s.Cancels id := by
  by_cases hid : id = 0
  · exact .zero hid (if_pos hid)
  · by_cases hfinal : IsFinal (s.status id)
    · obtain ⟨status, hstatus, hpending⟩ := hfinal
      cases status with
      | pending => exact absurd rfl hpending
      | cancelled => exact .again hstatus (by unfold cancel; rw [if_neg hid, hstatus])
      | completed | failed | dropped =>
        exact .ended _ hstatus nofun nofun (by unfold cancel; rw [if_neg hid, hstatus])
    · have hopen : s.status id = none ∨ s.status id = some .pending := by
        cases hstatus : s.status id with
        | none => exact .inl rfl
        | some status =>
          by_cases hpending : status = .pending
          · exact .inr (by rw [hpending])
          · exact absurd (hstatus ▸ isFinal_some hpending) hfinal
      cases hactive : s.active.filter fun request => request.playbackId = id with
      | some request =>
        obtain ⟨hreq, hmatch⟩ := filter_eq_some_iff.mp hactive
        refine .active request hreq (of_decide_eq_true hmatch) ?_
        unfold cancel
        obtain hnone | hpending := hopen
        · rw [if_neg hid, hnone, hactive]
        · rw [if_neg hid, hpending, hactive]
      | none =>
        have hnot : id ∉ s.active.toList.map PlaybackRequest.playbackId := by
          intro hmem
          obtain ⟨request, hreq, heq⟩ := mem_map.mp hmem
          rw [mem_toList] at hreq
          rw [hreq, filter_some, if_pos (decide_eq_true heq)] at hactive
          cases hactive
        cases hqueue : s.queue.any fun request => request.playbackId = id with
        | true =>
          obtain ⟨request, hreq, heq⟩ := any_eq_true.mp hqueue
          refine .queued hnot (mem_map.mpr ⟨request, hreq, of_decide_eq_true heq⟩) ?_
          unfold cancel
          obtain hnone | hpending := hopen
          · rw [if_neg hid, hnone, hactive]
            exact if_pos hqueue
          · rw [if_neg hid, hpending, hactive]
            exact if_pos hqueue
        | false =>
          refine .unknown (fun hmem => ?_) hfinal ?_
          · unfold liveIds at hmem
            rw [map_append, mem_append] at hmem
            obtain ⟨request, hreq, heq⟩ := mem_map.mp (hmem.resolve_left hnot)
            rw [List.any_eq_false] at hqueue
            exact hqueue request hreq (decide_eq_true heq)
          · unfold cancel
            obtain hnone | hpending := hopen
            · rw [if_neg hid, hnone, hactive]
              exact if_neg (by rw [hqueue]; decide)
            · rw [if_neg hid, hpending, hactive]
              exact if_neg (by rw [hqueue]; decide)

theorem lawful_cancel (h : s.Consistent) (id : Nat) :
    Lawful s (s.cancel id).1 (s.cancel id).2 ∧
      ((s.cancel id).2 = .cancelled false → id = 0 ∨
        ∃ status, s.status id = some status ∧ status ≠ .pending ∧ status ≠ .cancelled) ∧
      ((s.cancel id).2 = .cancelled true → (s.cancel id).1.Doomed id) := by
  cases cancels s id with
  | zero hid heq =>
    rw [heq]
    exact ⟨.refl h _, fun _ => .inl hid, nofun⟩
  | ended status hstatus hpending hcancelled heq =>
    rw [heq]
    exact ⟨.refl h _, fun _ => .inr ⟨status, hstatus, hpending, hcancelled⟩, nofun⟩
  | again hstatus heq =>
    rw [heq]
    exact ⟨.refl h _, nofun, fun _ => .inl hstatus⟩
  | active request hactive hid heq =>
    rw [heq]
    refine ⟨.of_same h rfl rfl ?_ h.queueLength ?_ rfl, nofun, fun _ => .inr ⟨_, rfl, hid, rfl⟩⟩
    · unfold liveIds
      rw [hactive]
      rfl
    · rw [← h.playing, hactive]
      exact iff_of_true rfl rfl
  | queued hactive hqueue heq =>
    have hmem : id ∈ s.liveIds := by
      unfold liveIds
      rw [map_append]
      exact mem_append_right _ hqueue
    have hfinalize := finalizeLocked_eq
      (s := { s with queue := s.queue.eraseP fun request => request.playbackId = id }) h.books hmem
      .cancelled "audio playback cancelled before starting"
    rw [heq, hfinalize]
    obtain ⟨hlawful, hstatus⟩ := Lawful.of_settled _ (.cancelled true) h clearsFinal_eraseFinal
      { playbackId := id, status := .cancelled, error := "audio playback cancelled before starting" }
      (t := { s with queue := s.queue.eraseP fun request => request.playbackId = id })
      (h.books.not_mem_final hmem) nofun rfl rfl rfl rfl (by
        change ((s.active.toList ++ _).map _) = (((s.active.toList ++ s.queue).map _).erase id)
        rw [map_append, map_append, erase_append_right _ hactive]
        exact congrArg (_ ++ ·) (map_eraseP_playbackId s.queue id))
      (Nat.le_trans length_eraseP_le h.queueLength) h.playing rfl
    exact ⟨hlawful, nofun, fun _ => .inl hstatus⟩
  | unknown hlive hfinal heq =>
    rw [heq]
    have hnot : id ∉ s.finalResultIds := fun hmem => hfinal ((h.books.finalIds id).mpr hmem)
    obtain ⟨hlawful, hstatus⟩ := Lawful.of_settled _ (.cancelled true) h clearsFinal_erase
      { playbackId := id, status := .cancelled,
        error := "audio playback cancelled before submission" }
      (t := s) hnot nofun rfl rfl rfl rfl (erase_of_not_mem hlive).symm h.queueLength h.playing rfl
    exact ⟨hlawful, nofun, fun _ => .inl hstatus⟩

theorem lawful_start (h : s.Consistent) (threadStarted : Bool) :
    Lawful s (s.start threadStarted).1 (s.start threadStarted).2 := by
  unfold start
  by_cases hrunning : s.running = true
  · rw [if_pos hrunning]
    exact .refl h _
  · rw [if_neg hrunning]
    by_cases hdevice : (s.device.isEmpty || !s.hasPlayer) = true
    · rw [if_pos hdevice]
      exact .refl h _
    · rw [if_neg hdevice]
      by_cases hworker : s.worker = .absent
      · rw [if_neg (not_not_intro hworker)]
        cases threadStarted with
        | false => exact .of_same h rfl rfl rfl h.queueLength h.playing rfl
        | true =>
          refine .of_same h rfl rfl rfl h.queueLength ?_ rfl
          exact h.playing.trans ⟨fun hw => absurd (hworker.symm.trans hw) nofun, nofun⟩
      · rw [if_pos hworker]
        exact .refl h _

theorem lawful_join (h : s.Consistent) (caller : Nat) : Lawful s (s.join caller) .nothing := by
  unfold join
  split
  · rename_i hjoin
    refine .of_same h rfl rfl rfl h.queueLength ?_ rfl
    refine h.playing.trans ⟨fun hw => ?_, nofun⟩
    obtain hworker | hworker := hjoin.2 <;> exact absurd (hworker.symm.trans hw) nofun
  · exact .refl h _

theorem lawful_stopped (h : s.Consistent) (caller : Nat) : Lawful s (s.stopped caller) .nothing := by
  unfold stopped
  split
  · exact .of_same h rfl rfl rfl h.queueLength h.playing rfl
  · exact .refl h _

/-- **The ways through the worker's first region.** -/
theorem take_cases (s : AudioPlayback) :
    s.take = (s, .nothing) ∨ s.worker = .waiting ∧ s.take = ({ s with worker := .exited }, .nothing) ∨
      ∃ request queue, s.worker = .waiting ∧ s.queue = request :: queue ∧
        s.take = ({ s with queue := queue, active := some request, worker := .playing },
          .playing request.playbackId) := by
  unfold take
  by_cases hworker : s.worker = .waiting
  · rw [if_neg (not_not_intro hworker)]
    cases hqueue : s.queue with
    | nil =>
      dsimp only
      split
      · exact .inr (.inl ⟨hworker, rfl⟩)
      · exact .inl rfl
    | cons request queue => exact .inr (.inr ⟨request, queue, hworker, rfl, rfl⟩)
  · rw [if_pos hworker]
    exact .inl rfl

theorem active_of_waiting (h : s.Consistent) (hworker : s.worker = .waiting) : s.active = none := by
  cases hactive : s.active with
  | none => rfl
  | some request =>
    have hplaying := h.playing.mp (by rw [hactive]; rfl)
    rw [hworker] at hplaying
    cases hplaying

theorem lawful_take (h : s.Consistent) : Lawful s s.take.1 s.take.2 := by
  obtain heq | ⟨hworker, heq⟩ | ⟨request, queue, hworker, hqueue, heq⟩ := take_cases s <;> rw [heq]
  · exact .refl h _
  · have hactive := active_of_waiting h hworker
    refine .of_same h rfl rfl rfl h.queueLength ?_ rfl
    rw [hactive]
    exact ⟨nofun, nofun⟩
  · have hactive := active_of_waiting h hworker
    refine .of_same h rfl rfl ?_ ?_ ⟨fun _ => rfl, fun _ => rfl⟩ rfl
    · unfold liveIds
      rw [hactive, hqueue]
      rfl
    · have hlen := h.queueLength
      rw [hqueue, length_cons] at hlen
      exact Nat.le_of_succ_le hlen

/-- What becomes of the active request. -/
def playedStatus (request : PlaybackRequest) (succeeded : Bool) : AudioPlaybackStatus :=
  if request.cancelled then .cancelled else if succeeded then .completed else .failed

theorem played_eq {request : PlaybackRequest} (hactive : s.active = some request) (succeeded : Bool)
    (error : String) : ∃ message, s.played succeeded error =
      { s.finalizeLocked request.playbackId (playedStatus request succeeded) message with
        active := none
        worker := .waiting } := by
  refine ⟨if request.cancelled then if error.isEmpty then "audio playback cancelled" else error
    else if succeeded then "" else if error.isEmpty then "audio playback failed" else error, ?_⟩
  unfold played playedStatus
  rw [hactive]
  dsimp only
  cases request.cancelled <;> cases succeeded <;> rfl

theorem lawful_played (h : s.Consistent) (succeeded : Bool) (error : String) :
    Lawful s (s.played succeeded error) .nothing ∧
      ∀ request, s.active = some request → (s.played succeeded error).status request.playbackId =
        some (playedStatus request succeeded) := by
  cases hactive : s.active with
  | none =>
    unfold played
    rw [hactive]
    exact ⟨.refl h _, nofun⟩
  | some request =>
    obtain ⟨message, heq⟩ := played_eq hactive succeeded error
    have hmem : request.playbackId ∈ s.liveIds := by
      unfold liveIds
      rw [hactive]
      exact mem_cons_self
    rw [heq, finalizeLocked_eq h.books hmem]
    obtain ⟨hlawful, hstatus⟩ := Lawful.of_settled
      { s.settle eraseFinal { playbackId := request.playbackId,
                              status := playedStatus request succeeded, error := message } with
        active := none, worker := .waiting } .nothing h clearsFinal_eraseFinal
      { playbackId := request.playbackId, status := playedStatus request succeeded, error := message }
      (t := s) (h.books.not_mem_final hmem) (by unfold playedStatus; split <;> [skip; split] <;> nofun)
      rfl rfl rfl rfl (by
        unfold liveIds
        rw [hactive]
        exact (erase_cons_head ..).symm) h.queueLength ⟨nofun, nofun⟩ rfl
    exact ⟨hlawful, fun request' hreq => by
      obtain rfl := Option.some.inj hreq
      exact hstatus⟩

theorem liveIds_flagged (s : AudioPlayback) :
    ((s.active.map fun request => { request with cancelled := true }).toList).map
      PlaybackRequest.playbackId = s.active.toList.map PlaybackRequest.playbackId := by
  cases s.active <;> rfl

theorem lawful_stop (h : s.Consistent) (caller : Nat) :
    Lawful s (s.stop caller) .nothing ∧
      (s.stop caller = s ∨ (s.stop caller).active =
        s.active.map fun request => { request with cancelled := true }) := by
  unfold stop
  by_cases hstopped : (s.stopCallers caller ≠ .outside || !s.running) = true
  · rw [if_pos hstopped]
    exact ⟨.refl h _, .inl rfl⟩
  · rw [if_neg hstopped]
    dsimp only
    obtain ⟨results, final, hframe⟩ := dropQueued_frame
      { s with stopRequested := true, stopCallers := update s.stopCallers caller .joining } s.queue
    have hperm : (s.queue.map PlaybackRequest.playbackId ++
        s.active.toList.map PlaybackRequest.playbackId).Perm s.liveIds := by
      unfold liveIds
      rw [map_append]
      exact perm_append_comm
    have hbooks : Books s.results s.finalResultIds (s.queue.map PlaybackRequest.playbackId ++
        s.active.toList.map PlaybackRequest.playbackId) :=
      { h.books with
        pendingIds := fun j => (h.books.pendingIds j).trans hperm.mem_iff.symm
        liveNodup := hperm.nodup_iff.mpr h.books.liveNodup }
    obtain ⟨hids, hbooks', hkept⟩ := dropQueued_spec
      (s := { s with
        stopRequested := true
        stopCallers := update s.stopCallers caller .joining }) hbooks
    rw [hframe] at hids hbooks' hkept ⊢
    refine ⟨⟨⟨?_, Nat.zero_le _, ?_, h.nextId⟩, s.queue.map PlaybackRequest.playbackId,
      ⟨hids, ?_, ?_, fun j hj => ?_, fun j hj => ?_, fun j hj => ?_⟩⟩, .inr rfl⟩
    · unfold liveIds
      rw [append_nil, liveIds_flagged]
      exact hbooks'
    · rw [isSome_map]
      exact h.playing
    · refine nodup_append.mpr ⟨h.books.finalNodup, hbooks.liveNodup.of_append_left, ?_⟩
      rintro i hi _ hj rfl
      exact hbooks.not_mem_final (mem_append_left _ hj) hi
    · rw [length_map]
      exact Nat.le_trans h.queueLength (by decide)
    · refine hkept j fun hmem => ?_
      have hp := (hbooks.pendingIds j).mpr (mem_append_left _ hmem)
      change s.status j = some .pending at hp
      rw [hp] at hj
      exact not_isFinal_pending hj
    · unfold liveIds
      rw [append_nil, liveIds_flagged]
      exact (mem_append.mp (hperm.mem_iff.mpr hj)).symm
    · unfold liveIds at hj ⊢
      rw [append_nil, liveIds_flagged] at hj
      rw [map_append]
      exact .inl (mem_append_left _ hj)

/-- **Every step keeps the books.** -/
theorem lawful_step (h : s.Consistent) (event : PlaybackEvent) : Lawful s (s.step event).1 (s.step event).2 := by
  cases event with
  | start threadStarted => exact lawful_start h threadStarted
  | submit samples playbackId => exact lawful_submit h samples playbackId
  | cancel playbackId => exact (lawful_cancel h playbackId).1
  | waitForResult playbackId expired => exact .refl h _
  | stop caller => exact (lawful_stop h caller).1
  | join caller => exact lawful_join h caller
  | stopped caller => exact lawful_stopped h caller
  | take => exact lawful_take h
  | played succeeded error => exact (lawful_played h succeeded error).1

variable {event : PlaybackEvent}

theorem step_submitted (h : s.Consistent) (hret : (s.step event).2 = .submitted (some id)) :
    s.status id = none ∧ (s.step event).1.status id = some .pending := by
  have hlawful := lawful_step h event
  cases event with
  | submit samples playbackId =>
    have henqueue : ∀ id' next, s.results id' = none →
        ({ s with nextPlaybackId := next }.enqueue samples id').2 = .submitted (some id) →
        s.status id = none ∧ ({ s with nextPlaybackId := next }.enqueue samples id').1.status id =
          some .pending := by
      intro id' next hnew heq
      cases heq
      exact ⟨by unfold status; rw [hnew]; rfl, by rw [status_enqueue, if_pos rfl]⟩
    simp only [step] at hret ⊢
    unfold submit at hret ⊢
    split at hret
    · cases hret
    · rename_i hopen
      rw [if_neg hopen]
      split at hret <;> rename_i hzero
      · rw [if_pos hzero]
        have hnew := drawId_new h
        unfold IsTaken at hnew
        rw [not_or, Bool.not_eq_true, isSome_eq_false_iff, isNone_iff_eq_none] at hnew
        exact henqueue _ _ hnew.2 hret
      · rw [if_neg hzero]
        split at hret
        · cases hret
        · rename_i hknown
          rw [if_neg hknown]
          rw [Bool.not_eq_true, isSome_eq_false_iff, isNone_iff_eq_none] at hknown
          exact henqueue _ _ hknown hret
  | start threadStarted =>
    simp only [step, start] at hret
    split at hret
    · cases hret
    · split at hret
      · cases hret
      · split at hret
        · cases hret
        · split at hret <;> cases hret
  | cancel playbackId =>
    simp only [step] at hret
    cases cancels s playbackId with
    | zero _ heq | ended _ _ _ _ heq | again _ heq | active _ _ _ heq | queued _ _ heq
    | unknown _ _ heq =>
      rw [heq] at hret
      cases hret
  | waitForResult playbackId expired =>
    simp only [step, waitForResult] at hret
    split at hret
    · cases hret
    · split at hret
      · cases hret
      · split at hret
        · cases hret
        · split at hret <;> cases hret
  | stop caller | join caller | stopped caller => cases hret
  | take =>
    simp only [step] at hret
    obtain heq | ⟨_, heq⟩ | ⟨_, _, _, _, heq⟩ := take_cases s <;> rw [heq] at hret <;>
      cases hret
  | played succeeded error => cases hret

/-- The active request stays until it was played. -/
theorem active_step (h : s.Consistent) (event : PlaybackEvent) {request : PlaybackRequest}
    (hactive : s.active = some request) :
    (∃ succeeded error, event = .played succeeded error) ∨
      ∃ request', (s.step event).1.active = some request' ∧
        request'.playbackId = request.playbackId ∧
        (request.cancelled = true → request'.cancelled = true) := by
  have hsame : ∀ s' : AudioPlayback, s'.active = s.active → ∃ request', s'.active = some request' ∧
      request'.playbackId = request.playbackId ∧
      (request.cancelled = true → request'.cancelled = true) :=
    fun s' hs' => ⟨request, hs'.trans hactive, rfl, id⟩
  cases event with
  | played succeeded error => exact .inl ⟨succeeded, error, rfl⟩
  | start threadStarted =>
    refine .inr (hsame _ ?_)
    simp only [step, start]
    split
    · rfl
    · split
      · rfl
      · split
        · rfl
        · split <;> rfl
  | submit samples playbackId =>
    refine .inr (hsame _ ?_)
    simp only [step, submit]
    split
    · rfl
    · split
      · rfl
      · split <;> rfl
  | cancel playbackId =>
    refine .inr ?_
    simp only [step]
    cases cancels s playbackId with
    | zero _ heq | ended _ _ _ _ heq | again _ heq | unknown _ _ heq =>
      rw [heq]
      exact hsame _ rfl
    | active request' hactive' _ heq =>
      rw [heq]
      obtain rfl := Option.some.inj (hactive.symm.trans hactive')
      exact ⟨_, rfl, rfl, fun _ => rfl⟩
    | queued _ _ heq =>
      rw [heq]
      obtain ⟨results, final, hframe⟩ := finalizeLocked_frame
        { s with queue := s.queue.eraseP fun request => request.playbackId = playbackId } playbackId
        .cancelled "audio playback cancelled before starting"
      rw [hframe]
      exact hsame _ rfl
  | waitForResult playbackId expired => exact .inr (hsame _ rfl)
  | stop caller =>
    refine .inr ?_
    simp only [step]
    obtain heq | heq := (lawful_stop h caller).2
    · rw [heq]
      exact hsame _ rfl
    · rw [heq, hactive]
      exact ⟨_, rfl, rfl, fun _ => rfl⟩
  | join caller =>
    refine .inr (hsame _ ?_)
    simp only [step, join]
    split <;> rfl
  | stopped caller =>
    refine .inr (hsame _ ?_)
    simp only [step, stopped]
    split <;> rfl
  | take =>
    refine .inr ?_
    simp only [step]
    obtain heq | ⟨_, heq⟩ | ⟨_, _, hworker, _, heq⟩ := take_cases s
    · rw [heq]
      exact hsame _ rfl
    · rw [heq]
      exact hsame _ rfl
    · rw [active_of_waiting h hworker] at hactive
      cases hactive

/-- **A doomed id stays doomed** until its result is evicted. -/
theorem doomed_step (h : s.Consistent) (hdoomed : s.Doomed id) (event : PlaybackEvent) :
    (s.step event).1.Doomed id ∨ (s.step event).1.status id = none := by
  obtain hstatus | ⟨request, hactive, hid, hcancelled⟩ := hdoomed
  · obtain ⟨_, _, hmoves⟩ := lawful_step h event
    obtain heq | heq := hmoves.kept id (by rw [hstatus]; exact isFinal_some nofun)
    · exact .inl (.inl (heq.trans hstatus))
    · exact .inr heq
  · obtain ⟨succeeded, error, rfl⟩ | ⟨request', hactive', hid', hcancelled'⟩ :=
      active_step h event hactive
    · have hplayed := (lawful_played h succeeded error).2 request hactive
      unfold playedStatus at hplayed
      rw [if_pos hcancelled, hid] at hplayed
      exact .inl (.inl hplayed)
    · exact .inl (.inr ⟨request', hactive', hid'.trans hid, hcancelled' hcancelled⟩)

/-- What is new in the queue was not known before. -/
theorem queue_step (h : s.Consistent) (event : PlaybackEvent) :
    ∀ j ∈ (s.step event).1.queue.map PlaybackRequest.playbackId,
      j ∈ s.queue.map PlaybackRequest.playbackId ∨ s.status j = none := by
  intro j hj
  by_cases hsubmitted : (s.step event).2 = .submitted (some j)
  · exact .inr (step_submitted h hsubmitted).1
  · refine .inl ?_
    have hlive : j ∈ (s.step event).1.liveIds := by
      unfold liveIds
      rw [map_append]
      exact mem_append_right _ hj
    obtain ⟨hconsistent, _, hmoves⟩ := lawful_step h event
    obtain hold | ⟨hnew, _⟩ := hmoves.fresh j hlive
    · unfold liveIds at hold
      rw [map_append, mem_append] at hold
      refine hold.resolve_left fun hmem => ?_
      -- an active request is not in the queue afterwards
      obtain ⟨request, hreq, heq⟩ := mem_map.mp hmem
      obtain ⟨succeeded, error, rfl⟩ | ⟨request', hactive', hid', _⟩ :=
        active_step h event (mem_toList.mp hreq)
      · have hplayed := (lawful_played h succeeded error).2 request (mem_toList.mp hreq)
        have hpending := (hconsistent.books.pendingIds j).mpr hlive
        change (s.played succeeded error).status j = _ at hpending
        rw [← heq, hplayed] at hpending
        unfold playedStatus at hpending
        split at hpending
        · cases hpending
        · split at hpending <;> cases hpending
      · have hnodup := hconsistent.books.liveNodup
        unfold liveIds at hnodup
        rw [hactive'] at hnodup
        refine (nodup_cons.mp hnodup).1 ?_
        change request'.playbackId ∈ (s.step event).1.queue.map PlaybackRequest.playbackId
        rwa [hid', heq]
    · exact absurd hnew hsubmitted

/-! ## Runs -/

/-- The books are right in every reachable state. -/
theorem consistent_run (h : s.Consistent) (events : List PlaybackEvent) : (StepRun.run step s events).Consistent :=
  StepRun.run_invariant (I := Consistent) (fun _ event hs => (lawful_step hs event).1) h events

/-- Some step made it final. -/
def BecameFinal (s : AudioPlayback) (events : List PlaybackEvent) (j : Nat) : Prop :=
  ∃ before event after, events = before ++ event :: after ∧
    ¬IsFinal ((StepRun.run step s before).status j) ∧
    IsFinal (((StepRun.run step s before).step event).1.status j)

theorem BecameFinal.cons {event : PlaybackEvent} {events : List PlaybackEvent} {j : Nat}
    (h : BecameFinal (s.step event).1 events j) : BecameFinal s (event :: events) j := by
  obtain ⟨before, event', after, heq, hbefore, hafter⟩ := h
  exact ⟨event :: before, event', after, by rw [heq, cons_append], hbefore, hafter⟩

theorem becameFinal_of_pushed (h : s.Consistent) {pushed : List Nat}
    (hmoves : Moves s (s.step event).1 (s.step event).2 pushed) {j : Nat} (hj : j ∈ pushed)
    (events : List PlaybackEvent) : BecameFinal s (event :: events) j := by
  refine ⟨[], event, events, rfl, fun hfinal => ?_, ?_⟩
  · exact (nodup_append.mp hmoves.nodup).2.2 j ((h.books.finalIds j).mp hfinal) j hj rfl
  · refine ((lawful_step h event).1.books.finalIds j).mpr ?_
    rw [hmoves.finalIds]
    exact mem_keepLast_append hmoves.few hj _

/-- **Where a final id is**: it is listed, and those after it became final since; or it was evicted, after
    as many others as the list may hold became final. -/
theorem listed_run (h : s.Consistent) {pre post : List Nat} (hlist : s.finalResultIds = pre ++ id :: post)
    (events : List PlaybackEvent) :
    (∃ pre' post', (StepRun.run step s events).finalResultIds = pre' ++ id :: post' ∧
        ∀ j ∈ post', j ∈ post ∨ BecameFinal s events j) ∨
      ∃ others : List Nat, others.Nodup ∧ kResultCapacity ≤ others.length ∧
        ∀ j ∈ others, j ≠ id ∧ (j ∈ post ∨ BecameFinal s events j) := by
  induction events generalizing s pre post with
  | nil => exact .inl ⟨pre, post, hlist, fun j hj => .inl hj⟩
  | cons event events ih =>
    obtain ⟨hconsistent, pushed, hmoves⟩ := lawful_step h event
    have hids := hmoves.finalIds
    rw [hlist, append_assoc, cons_append] at hids
    have hsource : ∀ j ∈ post ++ pushed, j ∈ post ∨ BecameFinal s (event :: events) j := by
      intro j hj
      obtain hj | hj := mem_append.mp hj
      · exact .inl hj
      · exact .inr (becameFinal_of_pushed h hmoves hj events)
    by_cases hroom : (post ++ pushed).length < kResultCapacity
    · obtain ⟨kept, hkept⟩ := keepLast_split hroom pre id
      have hstep := ih hconsistent (hids.trans hkept)
      have hwiden : ∀ j, j ∈ post ++ pushed ∨ BecameFinal (s.step event).1 events j →
          j ∈ post ∨ BecameFinal s (event :: events) j :=
        fun j hj => hj.elim (hsource j) fun hfinal => .inr hfinal.cons
      obtain ⟨pre', post', hlist', hpost'⟩ | ⟨others, hnodup, hlen, hothers⟩ := hstep
      · exact .inl ⟨pre', post', hlist', fun j hj => hwiden j (hpost' j hj)⟩
      · exact .inr ⟨others, hnodup, hlen,
          fun j hj => ⟨(hothers j hj).1, hwiden j (hothers j hj).2⟩⟩
    · rw [keepLast_push_out (Nat.not_lt.mp hroom)] at hids
      refine .inr ⟨_, hconsistent.books.finalNodup, ?_, fun j hj => ?_⟩
      · rw [hids, length_keepLast (Nat.not_lt.mp hroom)]
      · rw [hids] at hj
        have hmem := (keepLast_suffix _ _).subset hj
        refine ⟨?_, hsource j hmem⟩
        rintro rfl
        have hnodup := hmoves.nodup
        rw [hlist, append_assoc, cons_append] at hnodup
        exact (nodup_cons.mp hnodup.of_append_right).1 hmem

/-! ## The promises -/

/-- The results are the books. -/
def Agree (s : AudioPlayback) : Prop :=
  (∀ id, s.status id = some .pending ↔ id ∈ s.liveIds) ∧
    (∀ id, IsFinal (s.status id) ↔ id ∈ s.finalResultIds) ∧
    s.liveIds.Nodup ∧ s.finalResultIds.Nodup ∧ s.finalResultIds.length ≤ kResultCapacity

/-- One step of an id's life: unknown, pending, final, unknown again. -/
def Lives (s : AudioPlayback) (event : PlaybackEvent) (id : Nat) : Prop :=
  let s' := (s.step event).1
  ((s.step event).2 = .submitted (some id) → s.status id = none ∧ s'.status id = some .pending) ∧
    (s.status id = some .pending → s'.status id = some .pending ∨ IsFinal (s'.status id)) ∧
    (IsFinal (s.status id) → s'.status id = s.status id ∨ s'.status id = none)

/-- Not pushed out. -/
def Retained (id : Nat) (s : AudioPlayback) (events : List PlaybackEvent) : Prop :=
  StepRun.Along step (fun s _ => s.status id ≠ none) s events

/-- What a cancellation promises. -/
def CancelHolds (s : AudioPlayback) (id : Nat) : Prop :=
  let s' := (s.cancel id).1
  ((s.cancel id).2 = .cancelled false →
      id = 0 ∨ ∃ status, s.status id = some status ∧ status ≠ .pending ∧ status ≠ .cancelled) ∧
    ((s.cancel id).2 = .cancelled true → ∀ after, Retained id s' after →
      ∀ status, (StepRun.run step s' after).status id = some status →
        status = .cancelled ∨ status = .pending)

/-- An id that became final is drawn again only after as many others as the list holds. -/
def NotReused (s : AudioPlayback) (event : PlaybackEvent) (id : Nat) : Prop :=
  let s' := (s.step event).1
  ¬IsFinal (s.status id) → IsFinal (s'.status id) → ∀ after next,
    ((StepRun.run step s' after).step next).2 = .submitted (some id) →
      ∃ others : List Nat, others.Nodup ∧ kResultCapacity ≤ others.length ∧
        ∀ j ∈ others, j ≠ id ∧ BecameFinal s (event :: after) j

/-- It is not played again. -/
def PlayedOnce (s : AudioPlayback) (event : PlaybackEvent) (id : Nat) : Prop :=
  let s' := (s.step event).1
  (s.step event).2 = .playing id → ∀ after, Retained id s' after → ∀ next,
    ((StepRun.run step s' after).step next).2 ≠ .playing id

theorem Consistent.agree (h : s.Consistent) : s.Agree :=
  ⟨h.books.pendingIds, h.books.finalIds, h.books.liveNodup, h.books.finalNodup, h.books.finalLength⟩

theorem Consistent.lives (h : s.Consistent) (event : PlaybackEvent) (id : Nat) : s.Lives event id := by
  obtain ⟨hconsistent, pushed, hmoves⟩ := lawful_step h event
  refine ⟨step_submitted h, fun hpending => ?_, hmoves.kept id⟩
  obtain hlive | hpushed := hmoves.live id ((h.books.pendingIds id).mp hpending)
  · exact .inl ((hconsistent.books.pendingIds id).mpr hlive)
  · refine .inr ((hconsistent.books.finalIds id).mpr ?_)
    rw [hmoves.finalIds]
    exact mem_keepLast_append hmoves.few hpushed _

theorem Consistent.cancelHolds (h : s.Consistent) (id : Nat) : s.CancelHolds id := by
  obtain ⟨⟨hconsistent, _⟩, hrefused, hdoomed⟩ := lawful_cancel h id
  refine ⟨hrefused, fun hret after hretained status hstatus => ?_⟩
  have hrun : (StepRun.run step (s.cancel id).1 after).Consistent ∧
      ((StepRun.run step (s.cancel id).1 after).Doomed id ∨
        (StepRun.run step (s.cancel id).1 after).status id = none) := by
    refine StepRun.Along.invariant (I := fun t => t.Consistent ∧ (t.Doomed id ∨ t.status id = none))
      (fun t event ht hknown => ?_) ⟨hconsistent, .inl (hdoomed hret)⟩ hretained
    exact ⟨(lawful_step ht.1 event).1, doomed_step ht.1 (ht.2.resolve_right hknown) event⟩
  obtain ⟨hconsistent', (hcancelled | ⟨request, hactive, hid, _⟩) | hnone⟩ := hrun
  · exact .inl (Option.some.inj (hstatus.symm.trans hcancelled))
  · have hpending := (hconsistent'.books.pendingIds id).mpr (by
      unfold liveIds
      rw [hactive, ← hid]
      exact mem_cons_self)
    exact .inr (Option.some.inj (hstatus.symm.trans hpending))
  · rw [hnone] at hstatus
    cases hstatus

theorem Consistent.notReused (h : s.Consistent) (event : PlaybackEvent) (id : Nat) : s.NotReused event id := by
  intro hopen hfinal after next hsubmitted
  obtain ⟨hconsistent, pushed, hmoves⟩ := lawful_step h event
  -- `id` is among what the step pushed, and so listed with some of these after it
  have hlisted := (hconsistent.books.finalIds id).mp hfinal
  rw [hmoves.finalIds] at hlisted
  have hpushed := (mem_append.mp ((keepLast_suffix _ _).subset hlisted)).resolve_left
    fun hmem => hopen ((h.books.finalIds id).mpr hmem)
  obtain ⟨pre, post, rfl⟩ := append_of_mem hpushed
  have hfew := hmoves.few
  rw [length_append, length_cons] at hfew
  obtain ⟨kept, hkept⟩ := keepLast_split (show post.length < kResultCapacity by omega)
    (s.finalResultIds ++ pre) id
  have hids := hmoves.finalIds
  rw [← append_assoc, hkept] at hids
  have hwiden : ∀ j, j ∈ post ∨ BecameFinal (s.step event).1 after j →
      BecameFinal s (event :: after) j := fun j hj =>
    hj.elim (fun hpost => becameFinal_of_pushed h hmoves
      (mem_append_right _ (mem_cons_of_mem id hpost)) after) BecameFinal.cons
  obtain ⟨pre', post', hlist', _⟩ | ⟨others, hnodup, hlen, hothers⟩ :=
    listed_run hconsistent hids after
  · -- still listed: its result is final, so it is not new
    have hrun := consistent_run hconsistent after
    have hnew := (step_submitted hrun hsubmitted).1
    have hknown := (hrun.books.finalIds id).mpr (by
      rw [hlist']
      exact mem_append_right _ mem_cons_self)
    rw [status_eq, hnew] at hknown
    exact absurd hknown not_isFinal_none
  · exact ⟨others, hnodup, hlen, fun j hj => ⟨(hothers j hj).1, hwiden j (hothers j hj).2⟩⟩

/-- What is played was first in the queue. -/
theorem playing_step (hret : (s.step event).2 = .playing id) :
    ∃ request queue, event = .take ∧ s.worker = .waiting ∧ s.queue = request :: queue ∧
      request.playbackId = id ∧ (s.step event).1.queue = queue := by
  cases event with
  | take =>
    simp only [step] at hret ⊢
    obtain heq | ⟨_, heq⟩ | ⟨request, queue, hworker, hqueue, heq⟩ := take_cases s
    · rw [heq] at hret
      cases hret
    · rw [heq] at hret
      cases hret
    · rw [heq] at hret ⊢
      exact ⟨request, queue, trivial, hworker, hqueue, by cases hret; rfl, rfl⟩
  | start threadStarted =>
    simp only [step, start] at hret
    split at hret
    · cases hret
    · split at hret
      · cases hret
      · split at hret
        · cases hret
        · split at hret <;> cases hret
  | submit samples playbackId =>
    simp only [step, submit] at hret
    split at hret
    · cases hret
    · split at hret
      · cases hret
      · split at hret <;> cases hret
  | cancel playbackId =>
    simp only [step] at hret
    cases cancels s playbackId with
    | zero _ heq | ended _ _ _ _ heq | again _ heq | active _ _ _ heq | queued _ _ heq
    | unknown _ _ heq =>
      rw [heq] at hret
      cases hret
  | waitForResult playbackId expired =>
    simp only [step, waitForResult] at hret
    split at hret
    · cases hret
    · split at hret
      · cases hret
      · split at hret
        · cases hret
        · split at hret <;> cases hret
  | stop caller | join caller | stopped caller | played succeeded error => cases hret

theorem Consistent.playedOnce (h : s.Consistent) (event : PlaybackEvent) (id : Nat) : s.PlayedOnce event id := by
  intro hplaying after hretained next hnext
  obtain ⟨request, queue, _, _, hqueue, hid, hqueue'⟩ := playing_step hplaying
  have hout : id ∉ (s.step event).1.queue.map PlaybackRequest.playbackId := by
    have hnodup := h.books.liveNodup
    unfold liveIds at hnodup
    rw [map_append, hqueue, map_cons, hid] at hnodup
    rw [hqueue']
    exact (nodup_cons.mp hnodup.of_append_right).1
  -- while it is retained it is not queued again
  have hrun : (StepRun.run step (s.step event).1 after).Consistent ∧
      id ∉ (StepRun.run step (s.step event).1 after).queue.map PlaybackRequest.playbackId := by
    refine StepRun.Along.invariant
      (I := fun t => t.Consistent ∧ id ∉ t.queue.map PlaybackRequest.playbackId)
      (fun t event' ht hknown => ?_) ⟨(lawful_step h event).1, hout⟩ hretained
    exact ⟨(lawful_step ht.1 event').1, fun hmem =>
      (queue_step ht.1 event' id hmem).elim ht.2 hknown⟩
  obtain ⟨request', queue', _, _, hqueue'', hid', _⟩ := playing_step hnext
  refine absurd ?_ hrun.2
  rw [hqueue'', map_cons, hid']
  exact mem_cons_self

/-- **The promises of the playback service**, in every state of every run and of every step from there. -/
theorem playback_results (device : String) (hasPlayer : Bool) (events : List PlaybackEvent) :
    let s := StepRun.run step (create device hasPlayer) events
    s.Agree ∧ ∀ id, s.CancelHolds id ∧
      ∀ event, s.Lives event id ∧ s.NotReused event id ∧ s.PlayedOnce event id := by
  intro s
  have h := consistent_run (consistent_create device hasPlayer) events
  exact ⟨h.agree, fun id => ⟨h.cancelHolds id, fun event =>
    ⟨h.lives event id, h.notReused event id, h.playedOnce event id⟩⟩⟩

/-- The list of final ids is full. -/
def manyCancelled : AudioPlayback :=
  StepRun.run step (create "speaker" true)
    (.start true :: .cancel 5 :: (List.range 63).map fun i => .cancel (100 + i))

theorem cancelled_again_then_completed :
    (manyCancelled.cancel 5).2 = .cancelled true ∧
      ((StepRun.run step (manyCancelled.cancel 5).1 [.cancel 200]).step (.submit [1] 5)).2 =
        .submitted (some 5) ∧
      (StepRun.run step (manyCancelled.cancel 5).1
        [.cancel 200, .submit [1] 5, .take, .played true ""]).status 5 = some .completed := by
  decide +kernel

end AudioPlayback

end Cockpit.Audio
