/-
  Single-flight cancellation: what `RequestPlaybackCancellation` promises to its callers, and to the transport.
-/
import Cockpit.Voice.CancellationFlight

namespace Cockpit.Voice

open List Function

/-! ## Threads -/

/-- The request that a thread has, and its playback from its commit on. -/
def FlightThread.role : FlightThread → Option (Nat × Option Nat)
  | registered requestId _ | committing requestId _ _ => some (requestId, none)
  | playing requestId playbackId => some (requestId, some playbackId)
  | cancelling call _ => if call.requestId = 0 then none else some (call.requestId, some call.playbackId)
  | _ => none

/-- The thread is about to register or to commit. -/
def FlightThread.entering : FlightThread → Bool
  | registering _ _ | committing _ _ _ => true
  | _ => false

/-- The playback that an effect is about. -/
def FlightEffect.about : FlightEffect → Option Nat
  | none | numbered _ => .none
  | committed p | counted p | sent p | answered p _ | returned p _ | cleared p => some p

@[simp] theorem FlightThread.role_notify (t : FlightThread) : t.notify.role = t.role := by
  cases t with
  | cancelling call place => cases place <;> rfl
  | _ => rfl

variable {t : FlightThread} {call : CancellationCall}

theorem FlightThread.notify_cancelling {place : FlightPlace} (h : t.notify = .cancelling call place) :
    place ≠ .asleep false ∧ ∃ place', t = .cancelling call place' ∧ place'.flying = place.flying ∧
      (place.flying = true → place' = place) := by
  cases t with
  | cancelling call' place' =>
    cases place' <;> cases h <;> exact ⟨nofun, _, rfl, rfl, by first | exact fun _ => rfl | exact nofun⟩
  | _ => cases h

theorem FlightThread.notify_flying {place : FlightPlace} (h : place.flying = true) :
    (cancelling call place).notify = .cancelling call place := by
  cases place <;> first | rfl | cases h

theorem FlightThread.notify_committing {r g p : Nat} (h : t.notify = .committing r g p) : t = .committing r g p := by
  cases t with
  | cancelling call place => cases place <;> cases h
  | _ => exact h

theorem CancellationCall.role_behind (call : CancellationCall) (place : FlightPlace) :
    call.behind.role = (FlightThread.cancelling call place).role := by
  unfold behind
  by_cases h : call.requestId = 0
  · rw [if_pos h]
    exact (if_pos h).symm
  · rw [if_neg h]
    exact (if_neg h).symm

theorem FlightThread.notify_registering {r g : Nat} (h : t.notify = .registering r g) : t = .registering r g := by
  cases t with
  | cancelling call place => cases place <;> cases h
  | _ => exact h

namespace CancellationFlight

variable {s s' : CancellationFlight} {i j p q r : Nat} {c call : CancellationCall} {place : FlightPlace}
  {log : List FlightEffect} {e : FlightEffect}

/-- A step of thread `i` does no more to the others than wake them. -/
def Others (s s' : CancellationFlight) (i : Nat) : Prop :=
  ∀ j, j ≠ i → s'.threads j = s.threads j ∨ s'.threads j = (s.threads j).notify

theorem others_goTo (hsame : s'.threads = s.threads) (i : Nat) (t : FlightThread) : Others s (s'.goTo i t) i := by
  intro j hj
  left
  show update s'.threads i t j = _
  rw [update_of_ne hj, hsame]

theorem others_notify_goTo (hsame : s'.threads = s.threads) (i : Nat) (t : FlightThread) :
    Others s (s'.notifyAll.goTo i t) i := by
  intro j hj
  right
  show update (fun j => (s'.threads j).notify) i t j = _
  rw [update_of_ne hj, hsame]

theorem goTo_self (s : CancellationFlight) (i : Nat) (t : FlightThread) : (s.goTo i t).threads i = t := by
  show update s.threads i t i = t
  rw [update_self]

section

variable (h : Others s s' i)
include h

section

variable (hj : j ≠ i)
include hj

theorem Others.role : (s'.threads j).role = (s.threads j).role := by
  rcases h j hj with hsame | hwoken
  · rw [hsame]
  · rw [hwoken, FlightThread.role_notify]

theorem Others.cancelling (hcall : s'.threads j = .cancelling call place) :
    ∃ place', s.threads j = .cancelling call place' ∧ place'.flying = place.flying ∧
      (place.flying = true → place' = place) := by
  rcases h j hj with hsame | hwoken
  · exact ⟨place, by rw [← hsame, hcall], rfl, fun _ => rfl⟩
  · exact (FlightThread.notify_cancelling (hwoken.symm.trans hcall)).2

theorem Others.flying (hcall : s.threads j = .cancelling call place)
    (hfly : place.flying = true) : s'.threads j = .cancelling call place := by
  rcases h j hj with hsame | hwoken
  · rw [hsame, hcall]
  · rw [hwoken, hcall, FlightThread.notify_flying hfly]

theorem Others.asleep (hcall : s'.threads j = .cancelling call (.asleep false)) :
    s.threads j = .cancelling call (.asleep false) := by
  rcases h j hj with hsame | hwoken
  · rw [← hsame, hcall]
  · exact absurd rfl (FlightThread.notify_cancelling (hwoken.symm.trans hcall)).1

theorem Others.committing {g : Nat}
    (hcommit : s'.threads j = .committing r g p) : s.threads j = .committing r g p := by
  rcases h j hj with hsame | hwoken
  · rw [← hsame, hcommit]
  · exact FlightThread.notify_committing (hwoken.symm.trans hcommit)

theorem Others.registering {g : Nat}
    (hregister : s'.threads j = .registering r g) : s.threads j = .registering r g := by
  rcases h j hj with hsame | hwoken
  · rw [← hsame, hregister]
  · exact FlightThread.notify_registering (hwoken.symm.trans hregister)

end

end

/-! ## Who has what -/

/-- At most one thread has the active request, and what is active is what it has. -/
structure Held (s : CancellationFlight) : Prop where
  unique : ∀ i j, (s.threads i).role ≠ none → (s.threads j).role ≠ none → i = j
  active : ∀ i r q, (s.threads i).role = some (r, q) →
    r ≠ 0 ∧ s.activeRequestId = r ∧ s.activePlaybackId = q.getD 0 ∧ q ≠ some 0
  rest : (∀ i, (s.threads i).role = none) → s.activePlaybackId = 0

theorem Held.keep (h : Held s) (ho : Others s s' i) (hrole : (s'.threads i).role = (s.threads i).role)
    (hreq : s'.activeRequestId = s.activeRequestId) (hplayback : s'.activePlaybackId = s.activePlaybackId) :
    Held s' := by
  have hall : ∀ j, (s'.threads j).role = (s.threads j).role := by
    intro j
    by_cases hj : j = i
    · rw [hj, hrole]
    · exact ho.role hj
  refine ⟨?_, ?_, ?_⟩
  · intro j k hj hk
    rw [hall] at hj hk
    exact h.unique j k hj hk
  · intro j r p hj
    rw [hall] at hj
    rw [hreq, hplayback]
    exact h.active j r p hj
  · intro hnone
    rw [hplayback]
    exact h.rest fun j => (hall j).symm.trans (hnone j)

theorem Held.change (ho : Others s s' i) (hothers : ∀ j, j ≠ i → (s.threads j).role = none)
    (hactive : ∀ r q, (s'.threads i).role = some (r, q) →
      r ≠ 0 ∧ s'.activeRequestId = r ∧ s'.activePlaybackId = q.getD 0 ∧ q ≠ some 0)
    (hrest : (s'.threads i).role = none → s'.activePlaybackId = 0) : Held s' := by
  have hnone : ∀ j, (s'.threads j).role ≠ none → j = i := by
    intro j hj
    by_contra hne
    exact hj ((ho.role hne).trans (hothers j hne))
  refine ⟨?_, ?_, ?_⟩
  · intro j k hj hk
    rw [hnone j hj, hnone k hk]
  · intro j r p hj
    have hji : j = i := hnone j (by rw [hj]; nofun)
    rw [hji] at hj
    exact hactive r p hj
  · intro hall
    exact hrest (hall i)

theorem Held.others (h : Held s) (hi : (s.threads i).role ≠ none) (j : Nat) (hj : j ≠ i) :
    (s.threads j).role = none := by
  by_contra hne
  exact hj (h.unique j i hne hi)

theorem Held.nothing (h : Held s) (hzero : s.activeRequestId = 0) (j : Nat) : (s.threads j).role = none := by
  cases hrole : (s.threads j).role with
  | none => rfl
  | some role =>
    obtain ⟨hne, hactive, _⟩ := h.active j role.1 role.2 hrole
    exact absurd (hactive.symm.trans hzero) hne

/-! ## The life of a playback -/

/-- How many attempts for a playback have been counted, sent and answered. -/
def countedOf (log : List FlightEffect) (p : Nat) : Nat := log.count (.counted p)

/-- RPCs sent for a playback. -/
def sentOf (log : List FlightEffect) (p : Nat) : Nat := log.count (.sent p)

/-- RPCs answered. -/
def answeredOf (log : List FlightEffect) (p : Nat) : Nat :=
  log.count (.answered p true) + log.count (.answered p false)

/-- Nothing has happened for the playback yet, but that its number may have been handed out. -/
structure Fresh (p : Nat) (log : List FlightEffect) (s : CancellationFlight) : Prop where
  inactive : s.activePlaybackId ≠ p
  nobody : ∀ i call place, s.threads i = .cancelling call place → call.playbackId ≠ p
  silent : ∀ e ∈ log, e.about ≠ some p

/-- No thread owns the flight of the playback. -/
structure Resting (p : Nat) (log : List FlightEffect) (s : CancellationFlight) : Prop where
  committed : .committed p ∈ log
  grounded : ∀ i call place, s.threads i = .cancelling call place → call.playbackId = p →
    place.flying = false
  counts : countedOf log p = sentOf log p ∧ sentOf log p = answeredOf log p ∧ countedOf log p ≤ 2
  active : s.activePlaybackId = p → s.activeCancellationInFlight = false ∧ .cleared p ∉ log ∧
    s.activeCancellationAttempts = countedOf log p ∧
    (s.activeCancellationConfirmed = true ↔ .answered p true ∈ log)
  inactive : s.activePlaybackId ≠ p → .cleared p ∈ log

/-- Thread `i` owns the flight of the playback, and is at this place in it. -/
structure Flying (p : Nat) (log : List FlightEffect) (s : CancellationFlight) (i : Nat)
    (place : FlightPlace) : Prop where
  committed : .committed p ∈ log
  owner : ∃ call, s.threads i = .cancelling call place ∧ call.playbackId = p
  flying : place.flying = true
  only : ∀ j call place', s.threads j = .cancelling call place' → call.playbackId = p →
    place'.flying = true → j = i
  counts : countedOf log p = sentOf log p + (if place = .counted then 1 else 0) ∧
    sentOf log p = answeredOf log p + (if place = .calling then 1 else 0) ∧ countedOf log p ≤ 2
  accepted : .answered p true ∈ log ↔ place = .answered true
  active : s.activePlaybackId = p → s.activeCancellationInFlight = true ∧ .cleared p ∉ log ∧
    s.activeCancellationAttempts = countedOf log p ∧ s.activeCancellationConfirmed = false
  inactive : s.activePlaybackId ≠ p → .cleared p ∈ log

/-- The effect says nothing of what happens in a flight of the playback. -/
def Quiet (p : Nat) (e : FlightEffect) : Prop :=
  e ≠ .counted p ∧ e ≠ .sent p ∧ ∀ accepted, e ≠ .answered p accepted

@[simp] theorem countedOf_snoc (log : List FlightEffect) (e : FlightEffect) (p : Nat) :
    countedOf (log ++ [e]) p = countedOf log p + if e = .counted p then 1 else 0 := by
  unfold countedOf
  rw [count_append, count_singleton]
  simp only [beq_iff_eq]

@[simp] theorem sentOf_snoc (log : List FlightEffect) (e : FlightEffect) (p : Nat) :
    sentOf (log ++ [e]) p = sentOf log p + if e = .sent p then 1 else 0 := by
  unfold sentOf
  rw [count_append, count_singleton]
  simp only [beq_iff_eq]

@[simp] theorem answeredOf_snoc (log : List FlightEffect) (e : FlightEffect) (p : Nat) :
    answeredOf (log ++ [e]) p = answeredOf log p + if ∃ accepted, e = .answered p accepted then 1 else 0 := by
  unfold answeredOf
  rw [count_append, count_append, count_singleton, count_singleton]
  simp only [beq_iff_eq]
  by_cases htrue : e = .answered p true
  · rw [if_pos htrue, if_neg (by rw [htrue]; simp), if_pos ⟨true, htrue⟩]
    omega
  · by_cases hfalse : e = .answered p false
    · rw [if_neg htrue, if_pos hfalse, if_pos ⟨false, hfalse⟩]
      omega
    · rw [if_neg htrue, if_neg hfalse, if_neg]
      · omega
      · rintro ⟨accepted, heq⟩
        cases accepted with
        | true => exact htrue heq
        | false => exact hfalse heq

theorem counts_quiet (h : Quiet p e) (log : List FlightEffect) :
    countedOf (log ++ [e]) p = countedOf log p ∧ sentOf (log ++ [e]) p = sentOf log p ∧
      answeredOf (log ++ [e]) p = answeredOf log p := by
  obtain ⟨hcounted, hsent, hanswered⟩ := h
  rw [countedOf_snoc, sentOf_snoc, answeredOf_snoc, if_neg hcounted, if_neg hsent,
    if_neg (fun ⟨accepted, heq⟩ => hanswered accepted heq)]
  exact ⟨rfl, rfl, rfl⟩

theorem mem_quiet {e₁ e₂ : FlightEffect} (h : e₁ ≠ e₂) : e₂ ∈ log ++ [e₁] ↔ e₂ ∈ log := by
  rw [List.mem_append, List.mem_singleton]
  exact ⟨fun hmem => hmem.resolve_right fun heq => h heq.symm, Or.inl⟩

/-- What the active request says of the playback is as it was, or the playback has been cleared. -/
structure Kept (p : Nat) (e : FlightEffect) (s s' : CancellationFlight) : Prop where
  active : s'.activePlaybackId = p → s.activePlaybackId = p ∧ e ≠ .cleared p ∧
    s'.activeCancellationInFlight = s.activeCancellationInFlight ∧
    s'.activeCancellationAttempts = s.activeCancellationAttempts ∧
    s'.activeCancellationConfirmed = s.activeCancellationConfirmed
  inactive : s'.activePlaybackId ≠ p → s.activePlaybackId ≠ p ∨ e = .cleared p

theorem Kept.cleared (h : Kept p e s s') (hbefore : s.activePlaybackId ≠ p → .cleared p ∈ log)
    (hinactive : s'.activePlaybackId ≠ p) : .cleared p ∈ log ++ [e] := by
  rcases h.inactive hinactive with hne | rfl
  · exact mem_append_left _ (hbefore hne)
  · exact mem_append_right _ mem_cons_self

theorem Fresh.keep (h : Fresh p log s) (ho : Others s s' i) (hinactive : s'.activePlaybackId ≠ p)
    (hi : ∀ call place, s'.threads i = .cancelling call place → call.playbackId ≠ p)
    (he : e.about ≠ some p) : Fresh p (log ++ [e]) s' := by
  refine ⟨hinactive, ?_, ?_⟩
  · intro j call place hcall
    by_cases hj : j = i
    · rw [hj] at hcall
      exact hi call place hcall
    · obtain ⟨place', hbefore, _⟩ := ho.cancelling hj hcall
      exact h.nobody j call place' hbefore
  · intro e' he'
    rcases List.mem_append.mp he' with hmem | hmem
    · exact h.silent e' hmem
    · rw [List.mem_singleton.mp hmem]
      exact he

theorem Resting.keep (h : Resting p log s) (ho : Others s s' i)
    (hi : ∀ call place, s'.threads i = .cancelling call place → call.playbackId = p → place.flying = false)
    (hkept : Kept p e s s') (hquiet : Quiet p e) : Resting p (log ++ [e]) s' := by
  obtain ⟨hcounted, hsent, hanswered⟩ := counts_quiet hquiet log
  refine ⟨mem_append_left _ h.committed, ?_, ?_, ?_, hkept.cleared h.inactive⟩
  · intro j call place hcall hp
    by_cases hj : j = i
    · rw [hj] at hcall
      exact hi call place hcall hp
    · obtain ⟨place', hbefore, hsame, _⟩ := ho.cancelling hj hcall
      rw [← hsame]
      exact h.grounded j call place' hbefore hp
  · rw [hcounted, hsent, hanswered]
    exact h.counts
  · intro hactive
    obtain ⟨hbefore, hcleared, hinFlight, hattempts, hconf⟩ := hkept.active hactive
    rw [hinFlight, hattempts, hconf, hcounted, mem_quiet hcleared, mem_quiet (hquiet.2.2 true)]
    exact h.active hbefore

theorem Flying.keep (h : Flying p log s j place) (ho : Others s s' i) (hne : j ≠ i)
    (hi : ∀ call place, s'.threads i = .cancelling call place → call.playbackId = p → place.flying = false)
    (hkept : Kept p e s s') (hquiet : Quiet p e) : Flying p (log ++ [e]) s' j place := by
  obtain ⟨hcounted, hsent, hanswered⟩ := counts_quiet hquiet log
  obtain ⟨call, howner, hp⟩ := h.owner
  refine ⟨mem_append_left _ h.committed, ⟨call, ho.flying hne howner h.flying, hp⟩, h.flying, ?_, ?_, ?_,
    ?_, hkept.cleared h.inactive⟩
  · intro k call' place' hcall hp' hfly
    by_cases hk : k = i
    · rw [hk] at hcall
      rw [hi call' place' hcall hp'] at hfly
      cases hfly
    · obtain ⟨place'', hbefore, _, hsame⟩ := ho.cancelling hk hcall
      rw [hsame hfly] at hbefore
      exact h.only k call' place' hbefore hp' hfly
  · rw [hcounted, hsent, hanswered]
    exact h.counts
  · rw [mem_quiet (hquiet.2.2 true)]
    exact h.accepted
  · intro hactive
    obtain ⟨hbefore, hcleared, hinFlight, hattempts, hconf⟩ := hkept.active hactive
    rw [hinFlight, hattempts, hconf, hcounted, mem_quiet hcleared]
    exact h.active hbefore

/-- Where a playback is in its life. -/
def Stage (p : Nat) (log : List FlightEffect) (s : CancellationFlight) : Prop :=
  Fresh p log s ∨ Resting p log s ∨ ∃ i place, Flying p log s i place

theorem Stage.keep (h : Stage p log s) (ho : Others s s' i)
    (hbefore : ∀ call place, s.threads i = .cancelling call place → call.playbackId = p → place.flying = false)
    (hi : ∀ call place, s'.threads i = .cancelling call place → call.playbackId = p →
      place.flying = false ∧ ¬ Fresh p log s)
    (hkept : Kept p e s s') (hquiet : Quiet p e) (habout : Fresh p log s → e.about ≠ some p) :
    Stage p (log ++ [e]) s' := by
  rcases h with hfresh | hresting | ⟨j, place, hflying⟩
  · left
    refine hfresh.keep ho ?_ ?_ (habout hfresh)
    · intro hactive
      exact hfresh.inactive (hkept.active hactive).1
    · intro call place hcall hp
      exact (hi call place hcall hp).2 hfresh
  · exact Or.inr (Or.inl (hresting.keep ho (fun call place hcall hp => (hi call place hcall hp).1) hkept hquiet))
  · right
    right
    refine ⟨j, place, hflying.keep ho ?_ (fun call place hcall hp => (hi call place hcall hp).1) hkept hquiet⟩
    rintro rfl
    obtain ⟨call, howner, hp⟩ := hflying.owner
    have hgrounded := hbefore call place howner hp
    rw [hflying.flying] at hgrounded
    cases hgrounded

/-! ## The invariant -/

/-- Each playback is at one stage of its life, and each thread knows no more than is so. -/
structure Inv (log : List FlightEffect) (s : CancellationFlight) : Prop where
  held : Held s
  /-- Who sleeps and has not been woken waits for a flight of the active playback. -/
  asleep : ∀ i call, s.threads i = .cancelling call (.asleep false) →
    s.isOver call = false ∧ s.activeCancellationInFlight = true
  calls : ∀ i call place, s.threads i = .cancelling call place → 0 < call.playbackId
  registering : ∀ i r g, s.threads i = .registering r g → r ≠ 0
  committing : ∀ i r g p, s.threads i = .committing r g p → 0 < p ∧ p < s.nextPlaybackId ∧ Fresh p log s
  later : 0 < s.nextPlaybackId ∧ ∀ p, s.nextPlaybackId ≤ p → Fresh p log s
  stages : ∀ p, 0 < p → Stage p log s

theorem quiet_of_about (h : e.about ≠ some p) : Quiet p e ∧ e ≠ .cleared p := by
  refine ⟨⟨?_, ?_, ?_⟩, ?_⟩
  · rintro rfl
    exact h rfl
  · rintro rfl
    exact h rfl
  · rintro accepted rfl
    exact h rfl
  · rintro rfl
    exact h rfl

theorem isOver_eq_false (h : s.isOver call = false) : s.activePlaybackId = call.playbackId := by
  unfold isOver at h
  simp only [Bool.or_eq_false_iff, decide_eq_false_iff_not, not_not] at h
  exact h.1

theorem isOver_congr (hreq : s'.activeRequestId = s.activeRequestId)
    (hplayback : s'.activePlaybackId = s.activePlaybackId) (call : CancellationCall) :
    s'.isOver call = s.isOver call := by
  unfold isOver
  rw [hreq, hplayback]

/-- **A step within a call**: what it does to the other playbacks is nothing, so only the stage of its own one
    has to be looked at. -/
theorem Inv.within {t : FlightThread} (h : Inv log s) (hcall : s.threads i = .cancelling call place)
    (ho : Others s s' i) (hthread : s'.threads i = t) (hrole : t.role = (s.threads i).role)
    (hreq : s'.activeRequestId = s.activeRequestId) (hplayback : s'.activePlaybackId = s.activePlaybackId)
    (hnext : s'.nextPlaybackId = s.nextPlaybackId) (hi : ∀ call' place', t = .cancelling call' place' → call' = call ∧
      (place' = .asleep false → s.isOver call = false ∧ s'.activeCancellationInFlight = true))
    (hentering : t.entering = false) (hflags : s.activePlaybackId ≠ call.playbackId →
      s'.activeCancellationInFlight = s.activeCancellationInFlight ∧
        s'.activeCancellationAttempts = s.activeCancellationAttempts ∧
        s'.activeCancellationConfirmed = s.activeCancellationConfirmed)
    (hwake : s.activeCancellationInFlight = true → s'.activeCancellationInFlight = true ∨
      ∀ j c, s'.threads j ≠ .cancelling c (.asleep false)) (habout : ∀ p, p ≠ call.playbackId → e.about ≠ some p)
    (hstage : Stage call.playbackId (log ++ [e]) s') : Inv (log ++ [e]) s' := by
  subst hthread
  have hfresh : ∀ p, Fresh p log s → Fresh p (log ++ [e]) s' := by
    intro p hp
    have hne : p ≠ call.playbackId := fun heq => hp.nobody i call place hcall heq.symm
    refine hp.keep ho (by rw [hplayback]; exact hp.inactive) ?_ (habout p hne)
    intro call' place' hcall' heq
    rw [(hi call' place' hcall').1] at heq
    exact hne heq.symm
  refine ⟨h.held.keep ho hrole hreq hplayback, ?_, ?_, ?_, ?_, ?_, ?_⟩
  · intro j c hj
    rw [isOver_congr hreq hplayback]
    by_cases hji : j = i
    · rw [hji] at hj
      obtain ⟨rfl, hasleep⟩ := hi c _ hj
      exact hasleep rfl
    · obtain ⟨hover, hinFlight⟩ := h.asleep j c (ho.asleep hji hj)
      refine ⟨hover, (hwake hinFlight).resolve_right fun hwoken => hwoken j c hj⟩
  · intro j c place' hj
    by_cases hji : j = i
    · rw [hji] at hj
      rw [(hi c place' hj).1]
      exact h.calls i call place hcall
    · obtain ⟨place'', hbefore, _⟩ := ho.cancelling hji hj
      exact h.calls j c place'' hbefore
  · intro j r g hj
    have hji : j ≠ i := by
      rintro rfl
      rw [hj] at hentering
      cases hentering
    exact h.registering j r g (ho.registering hji hj)
  · intro j r g p hj
    have hji : j ≠ i := by
      rintro rfl
      rw [hj] at hentering
      cases hentering
    obtain ⟨hpos, hlt, hp⟩ := h.committing j r g p (ho.committing hji hj)
    rw [hnext]
    exact ⟨hpos, hlt, hfresh p hp⟩
  · rw [hnext]
    exact ⟨h.later.1, fun p hp => hfresh p (h.later.2 p hp)⟩
  · intro p hpos
    by_cases hp : p = call.playbackId
    · rw [hp]
      exact hstage
    · obtain ⟨hquiet, hcleared⟩ := quiet_of_about (habout p hp)
      refine (h.stages p hpos).keep ho ?_ ?_ ?_ hquiet fun _ => habout p hp
      · intro call' place' hcall' heq
        rw [hcall] at hcall'
        cases hcall'
        exact absurd heq.symm hp
      · intro call' place' hcall' heq
        rw [(hi call' place' hcall').1] at heq
        exact absurd heq.symm hp
      · refine ⟨?_, fun hinactive => Or.inl (by rwa [hplayback] at hinactive)⟩
        intro hactive
        rw [hplayback] at hactive
        exact ⟨hactive, hcleared, hflags (by rw [hactive]; exact hp)⟩

/-- **A step outside of the calls.** -/
theorem Inv.outside (h : Inv log s) (ho : Others s s' i) (hheld : Held s')
    (hasleep : ∀ j c, s.threads j = .cancelling c (.asleep false) →
      s'.threads j = .cancelling c (.asleep false) → s'.isOver c = false ∧ s'.activeCancellationInFlight = true)
    (hi : ∀ call place, s'.threads i = .cancelling call place → place = .looking ∧ 0 < call.playbackId)
    (hregistering : ∀ r g, s'.threads i = .registering r g → r ≠ 0)
    (hcommitting : ∀ r g p, s'.threads i = .committing r g p → 0 < p ∧ p < s'.nextPlaybackId ∧ Fresh p log s)
    (hnext : s.nextPlaybackId ≤ s'.nextPlaybackId) (hfresh : ∀ p, 0 < p → Fresh p log s →
      (s'.nextPlaybackId ≤ p ∨ ∃ j r g, s'.threads j = .committing r g p) → Fresh p (log ++ [e]) s')
    (hstages : ∀ p, 0 < p → Stage p (log ++ [e]) s') : Inv (log ++ [e]) s' := by
  have hpos := h.later.1
  refine ⟨hheld, ?_, ?_, ?_, ?_, ⟨by omega, ?_⟩, hstages⟩
  · intro j c hj
    by_cases hji : j = i
    · rw [hji] at hj
      cases (hi c _ hj).1
    · exact hasleep j c (ho.asleep hji hj) hj
  · intro j c place hj
    by_cases hji : j = i
    · rw [hji] at hj
      exact (hi c place hj).2
    · obtain ⟨place', hbefore, _⟩ := ho.cancelling hji hj
      exact h.calls j c place' hbefore
  · intro j r g hj
    by_cases hji : j = i
    · rw [hji] at hj
      exact hregistering r g hj
    · exact h.registering j r g (ho.registering hji hj)
  · intro j r g p hj
    by_cases hji : j = i
    · rw [hji] at hj
      obtain ⟨hp, hlt, hbefore⟩ := hcommitting r g p hj
      exact ⟨hp, hlt, hfresh p hp hbefore (Or.inr ⟨i, r, g, hj⟩)⟩
    · obtain ⟨hp, hlt, hbefore⟩ := h.committing j r g p (ho.committing hji hj)
      exact ⟨hp, by omega, hfresh p hp hbefore (Or.inr ⟨j, r, g, hj⟩)⟩
  · intro p hp
    exact hfresh p (by omega) (h.later.2 p (by omega)) (Or.inl hp)

/-! ## What an effect may follow -/

/-- An RPC is sent only while there have been less than two for the playback, none is under way, an attempt has
    been counted for it, and none was accepted; an attempt is counted only before one was accepted, and before the
    playback was cleared; and a caller learns of an accepted RPC only when there is one. -/
def Allowed (before : List FlightEffect) : FlightEffect → Prop
  | .sent p => sentOf before p < 2 ∧ sentOf before p = answeredOf before p ∧
    sentOf before p < countedOf before p ∧ .answered p true ∉ before
  | .counted p => .answered p true ∉ before ∧ .cleared p ∉ before
  | .returned p true => .answered p true ∈ before
  | _ => True

/-- The step keeps the invariant, and its effect is allowed. -/
def Goes (log : List FlightEffect) (result : CancellationFlight × FlightEffect) : Prop :=
  Inv (log ++ [result.2]) result.1 ∧ Allowed log result.2

/-! ## The steps of a call -/

theorem behind_ne_cancelling (call c : CancellationCall) (place : FlightPlace) :
    call.behind ≠ .cancelling c place := by
  unfold CancellationCall.behind
  split <;> nofun

theorem entering_behind (call : CancellationCall) : call.behind.entering = false := by
  unfold CancellationCall.behind
  split <;> rfl

theorem notified (s : CancellationFlight) (i : Nat) (call : CancellationCall) (j : Nat) (c : CancellationCall) :
    (s.notifyAll.goTo i call.behind).threads j ≠ .cancelling c (.asleep false) := by
  by_cases hj : j = i
  · rw [hj, goTo_self]
    exact behind_ne_cancelling call c _
  · intro hasleep
    have hwoken : (s.notifyAll.goTo i call.behind).threads j = (s.threads j).notify := by
      show update (fun j => (s.threads j).notify) i call.behind j = _
      rw [update_of_ne hj]
    exact absurd rfl (FlightThread.notify_cancelling (hwoken.symm.trans hasleep)).1

theorem Inv.not_fresh (hcall : s.threads i = .cancelling call place) : ¬ Fresh call.playbackId log s :=
  fun hfresh => hfresh.nobody i call place hcall rfl

theorem Inv.flying (h : Inv log s) (hcall : s.threads i = .cancelling call place)
    (hfly : place.flying = true) : Flying call.playbackId log s i place := by
  rcases h.stages _ (h.calls i call place hcall) with hfresh | hresting | ⟨j, place', hflying⟩
  · exact absurd hfresh (Inv.not_fresh hcall)
  · have hgrounded := hresting.grounded i call place hcall rfl
    rw [hfly] at hgrounded
    cases hgrounded
  · have hji := hflying.only i call place hcall rfl hfly
    subst hji
    obtain ⟨call', howner, _⟩ := hflying.owner
    rw [hcall] at howner
    cases howner
    exact hflying

theorem Inv.inactive (h : Inv log s) (hcall : s.threads i = .cancelling call place) (hover : s.isOver call = true) :
    s.activePlaybackId ≠ call.playbackId := by
  intro hactive
  unfold isOver at hover
  rw [hactive] at hover
  simp only [ne_eq, not_true_eq_false, decide_false, Bool.false_or, Bool.and_eq_true, decide_eq_true_eq] at hover
  obtain ⟨hreq, hother⟩ := hover
  have hrole : (s.threads i).role = some (call.requestId, some call.playbackId) := by
    rw [hcall]
    exact if_neg hreq
  exact hother (h.held.active i _ _ hrole).2.1

variable {t : FlightThread}

section

variable (h : Inv log s)
include h

section

variable (hcall : s.threads i = .cancelling call place)
include hcall

section

variable (hground : place.flying = false)
include hground

theorem Inv.move (hrole : t.role = (s.threads i).role)
    (hcancelling : ∀ c place', t = .cancelling c place' → c = call ∧ place'.flying = false ∧ (place' = .asleep
      false → s.isOver call = false ∧ s.activeCancellationInFlight = true)) (hentering : t.entering = false)
    (he : e = .none ∨ ∃ result, e = .returned call.playbackId result) : Inv (log ++ [e]) (s.goTo i t) := by
  have ho : Others s (s.goTo i t) i := others_goTo rfl i t
  have hquiet : Quiet call.playbackId e ∧ e ≠ .cleared call.playbackId := by
    rcases he with rfl | ⟨result, rfl⟩ <;> exact ⟨⟨nofun, nofun, nofun⟩, nofun⟩
  refine h.within hcall ho (goTo_self s i t) hrole rfl rfl rfl ?_ hentering (fun _ => ⟨rfl, rfl, rfl⟩) Or.inl ?_ ?_
  · intro c place' hc
    exact ⟨(hcancelling c place' hc).1, (hcancelling c place' hc).2.2⟩
  · intro p hp
    rcases he with rfl | ⟨result, rfl⟩
    · nofun
    · intro heq
      exact hp (Option.some.inj heq).symm
  · refine (h.stages _ (h.calls i call place hcall)).keep ho ?_ ?_ ?_ hquiet.1 ?_
    · intro c place' hc _
      rw [hcall] at hc
      cases hc
      exact hground
    · intro c place' hc _
      rw [goTo_self] at hc
      exact ⟨(hcancelling c place' hc).2.1, Inv.not_fresh hcall⟩
    · exact ⟨fun hactive => ⟨hactive, hquiet.2, rfl, rfl, rfl⟩, Or.inl⟩
    · intro hfresh
      exact absurd hfresh (Inv.not_fresh hcall)

theorem goes_leave {result : Bool}
    (hresult : result = true → .answered call.playbackId true ∈ log) : Goes log (s.leave i call result) := by
  refine ⟨h.move hcall hground ?_ ?_ (entering_behind call) (Or.inr ⟨result, rfl⟩), ?_⟩
  · rw [hcall]
    exact call.role_behind place
  · intro c place' hc
    exact absurd hc (behind_ne_cancelling call c place')
  · cases result with
    | true => exact hresult rfl
    | false => trivial

theorem goes_sleep (hover : s.isOver call = false) (hinFlight : s.activeCancellationInFlight = true) :
    Goes log (s.goTo i (.cancelling call (.asleep false)), .none) := by
  refine ⟨h.move hcall hground ?_ ?_ rfl (Or.inl rfl), trivial⟩
  · rw [hcall]
    rfl
  · intro c place' hc
    cases hc
    exact ⟨rfl, rfl, fun _ => ⟨hover, hinFlight⟩⟩

end

theorem goes_count (hactive : s.activePlaybackId = call.playbackId) {owns : Bool}
    (hflight : (s.activeCancellationInFlight || !owns) = true) (hconf : s.activeCancellationConfirmed = false)
    (hattempts : s.activeCancellationAttempts < 2) (hcommitted : .committed call.playbackId ∈ log)
    (honly : ∀ j c place', s.threads j = .cancelling c place' → c.playbackId = call.playbackId →
      place'.flying = true → j = i)
    (hcounts : countedOf log call.playbackId = sentOf log call.playbackId ∧
      sentOf log call.playbackId = answeredOf log call.playbackId)
    (hsame : s.activeCancellationAttempts = countedOf log call.playbackId)
    (hacc : .answered call.playbackId true ∉ log) (hcleared : .cleared call.playbackId ∉ log) :
    Goes log (s.count i call owns) := by
  have ho : Others s (s.count i call owns).1 i := others_goTo rfl i _
  have hthread : (s.count i call owns).1.threads i = .cancelling call .counted := goTo_self _ i _
  refine ⟨h.within hcall ho hthread ?_ rfl rfl rfl ?_ rfl (fun hne => absurd hactive hne) (fun _ => Or.inl hflight)
    ?_ ?_, hacc, hcleared⟩
  · rw [hcall]
    rfl
  · rintro c place' ⟨⟩
    exact ⟨rfl, nofun⟩
  · intro p hp heq
    exact hp (Option.some.inj heq).symm
  · show Stage call.playbackId (log ++ [.counted call.playbackId]) _
    refine Or.inr (Or.inr ⟨i, .counted, mem_append_left _ hcommitted, ⟨call, hthread, rfl⟩, rfl, ?_, ?_, ?_,
      ?_, fun hinactive => absurd hactive hinactive⟩)
    · intro j c place' hc hp hfly
      by_cases hj : j = i
      · exact hj
      · obtain ⟨place'', hbefore, hflies, _⟩ := ho.cancelling hj hc
        exact honly j c place'' hbefore hp (hflies.trans hfly)
    · simp only [countedOf_snoc, sentOf_snoc, answeredOf_snoc, reduceCtorEq, if_true, if_false, exists_false]
      omega
    · simp only [List.mem_append, List.mem_singleton, reduceCtorEq, or_false, iff_false]
      exact hacc
    · intro _
      simp only [List.mem_append, List.mem_singleton, reduceCtorEq, or_false, countedOf_snoc, if_true]
      refine ⟨hflight, hcleared, ?_, hconf⟩
      show s.activeCancellationAttempts + 1 = _
      omega

theorem goes_look (hground : place.flying = false) : Goes log (s.look i call) := by
  unfold look
  split
  case isTrue => exact goes_leave h hcall hground nofun
  case isFalse hover =>
    have hactive : s.activePlaybackId = call.playbackId := isOver_eq_false (Bool.eq_false_iff.mpr hover)
    have hpos := h.calls i call place hcall
    split
    case isTrue hconf =>
      refine goes_leave h hcall hground fun _ => ?_
      rcases h.stages _ hpos with hfresh | hresting | ⟨j, place', hflying⟩
      · exact absurd hfresh (Inv.not_fresh hcall)
      · exact (hresting.active hactive).2.2.2.mp hconf
      · rw [(hflying.active hactive).2.2.2] at hconf
        cases hconf
    case isFalse hconf =>
      have hconf := Bool.eq_false_iff.mpr hconf
      split
      case isTrue hinFlight => exact goes_sleep h hcall hground (Bool.eq_false_iff.mpr hover) hinFlight
      case isFalse hinFlight =>
        split
        case isTrue => exact goes_leave h hcall hground nofun
        case isFalse hattempts =>
          rcases h.stages _ hpos with hfresh | hresting | ⟨j, place', hflying⟩
          · exact absurd hfresh (Inv.not_fresh hcall)
          · obtain ⟨_, hcleared, hsame, hacc⟩ := hresting.active hactive
            refine goes_count h hcall hactive (Bool.or_true _) hconf (by omega) hresting.committed ?_
              ⟨hresting.counts.1, hresting.counts.2.1⟩ hsame ?_ hcleared
            · intro j c place' hc hp hfly
              rw [hresting.grounded j c place' hc hp] at hfly
              cases hfly
            · intro hmem
              rw [hacc.mpr hmem] at hconf
              cases hconf
          · exact absurd (hflying.active hactive).1 hinFlight

theorem goes_wake (hground : place.flying = false) : Goes log (s.wake i call) := by
  unfold wake
  split
  case isTrue => exact goes_look h hcall hground
  case isFalse hwaits =>
    simp only [Bool.or_eq_true, not_or, Bool.not_eq_true, Bool.not_eq_false'] at hwaits
    exact goes_sleep h hcall hground hwaits.1 hwaits.2

theorem Inv.proceed (hfly : place.flying = true)
    {place' : FlightPlace} (hfly' : place'.flying = true) (habout : e.about = some call.playbackId)
    (hcleared : e ≠ .cleared call.playbackId) (hcounted : e ≠ .counted call.playbackId)
    (hcounts : countedOf log call.playbackId =
        sentOf (log ++ [e]) call.playbackId + (if place' = .counted then 1 else 0) ∧
      sentOf (log ++ [e]) call.playbackId =
        answeredOf (log ++ [e]) call.playbackId + (if place' = .calling then 1 else 0))
    (hacc : .answered call.playbackId true ∈ log ++ [e] ↔ place' = .answered true) :
    Inv (log ++ [e]) (s.goTo i (.cancelling call place')) := by
  have ho : Others s (s.goTo i (.cancelling call place')) i := others_goTo rfl i _
  have hflying := h.flying hcall hfly
  have hsame : countedOf (log ++ [e]) call.playbackId = countedOf log call.playbackId := by
    rw [countedOf_snoc, if_neg hcounted]
    rfl
  refine h.within hcall ho (goTo_self s i _) ?_ rfl rfl rfl ?_ rfl (fun _ => ⟨rfl, rfl, rfl⟩) Or.inl ?_ ?_
  · rw [hcall]
    rfl
  · rintro c place'' ⟨⟩
    refine ⟨rfl, ?_⟩
    rintro rfl
    cases hfly'
  · intro p hp
    rw [habout]
    intro heq
    exact hp (Option.some.inj heq).symm
  · refine Or.inr (Or.inr ⟨i, place', mem_append_left _ hflying.committed, ⟨call, goTo_self s i _, rfl⟩, hfly',
      ?_, ?_, hacc, ?_, fun hinactive => mem_append_left _ (hflying.inactive hinactive)⟩)
    · intro j c place'' hc hp hflies
      by_cases hj : j = i
      · exact hj
      · obtain ⟨place₀, hbefore, hsame', _⟩ := ho.cancelling hj hc
        exact hflying.only j c place₀ hbefore hp (hsame'.trans hflies)
    · rw [hsame]
      exact ⟨hcounts.1, hcounts.2, hflying.counts.2.2⟩
    · intro hactive
      rw [hsame, mem_quiet hcleared]
      exact hflying.active hactive

end

theorem goes_send (hcall : s.threads i = .cancelling call .counted) :
    Goes log (s.goTo i (.cancelling call .calling), .sent call.playbackId) := by
  have hflying := h.flying hcall rfl
  obtain ⟨hcounted, hsent, hle⟩ := hflying.counts
  rw [if_pos rfl] at hcounted
  rw [if_neg nofun, Nat.add_zero] at hsent
  have hacc : .answered call.playbackId true ∉ log := fun hmem => nomatch hflying.accepted.mp hmem
  refine ⟨@Inv.proceed _ _ _ _ _ (.sent call.playbackId) h hcall rfl .calling rfl rfl nofun nofun ?_ ?_, by omega,
    hsent, by omega, hacc⟩
  · simp only [sentOf_snoc, answeredOf_snoc, reduceCtorEq, if_true, if_false, exists_false]
    omega
  · simp only [List.mem_append, List.mem_singleton, reduceCtorEq, or_false, iff_false]
    exact hacc

theorem goes_answer (hcall : s.threads i = .cancelling call .calling) (accepted : Bool) :
    Goes log (s.goTo i (.cancelling call (.answered accepted)), .answered call.playbackId accepted) := by
  have hflying := h.flying hcall rfl
  obtain ⟨hcounted, hsent, _⟩ := hflying.counts
  rw [if_neg nofun, Nat.add_zero] at hcounted
  rw [if_pos rfl] at hsent
  refine ⟨@Inv.proceed _ _ _ _ _ (.answered call.playbackId accepted) h hcall rfl (.answered accepted) rfl rfl nofun
    nofun ?_ ?_, trivial⟩
  · simp only [sentOf_snoc, answeredOf_snoc, reduceCtorEq, if_false, FlightEffect.answered.injEq, true_and,
      exists_eq', if_true]
    omega
  · simp only [List.mem_append, List.mem_singleton, FlightEffect.answered.injEq, true_and,
      FlightPlace.answered.injEq]
    constructor
    · intro hmem
      rcases hmem with hbefore | hnow
      · cases hflying.accepted.mp hbefore
      · exact hnow.symm
    · intro heq
      exact Or.inr heq.symm

theorem Inv.land (s' : CancellationFlight) {accepted : Bool}
    (hcall : s.threads i = .cancelling call (.answered accepted)) (hthreads : s'.threads = s.threads)
    (hreq : s'.activeRequestId = s.activeRequestId) (hplayback : s'.activePlaybackId = s.activePlaybackId)
    (hnext : s'.nextPlaybackId = s.nextPlaybackId)
    (hattempts : s'.activeCancellationAttempts = s.activeCancellationAttempts)
    (hflags : s.activePlaybackId ≠ call.playbackId →
      s'.activeCancellationInFlight = s.activeCancellationInFlight ∧
        s'.activeCancellationConfirmed = s.activeCancellationConfirmed)
    (hrest : s.activePlaybackId = call.playbackId →
      s'.activeCancellationInFlight = false ∧ (s'.activeCancellationConfirmed = true ↔ accepted = true))
    (result : Bool) : Inv (log ++ [.returned call.playbackId result]) (s'.notifyAll.goTo i call.behind) := by
  have ho : Others s (s'.notifyAll.goTo i call.behind) i := others_notify_goTo hthreads i _
  have hflying := h.flying hcall rfl
  obtain ⟨hcounted, hsent, hle⟩ := hflying.counts
  rw [if_neg nofun, Nat.add_zero] at hcounted hsent
  refine h.within hcall ho (goTo_self _ i _) ?_ hreq hplayback hnext ?_ (entering_behind call) ?_
    (fun _ => Or.inr (notified s' i call)) ?_ ?_
  · rw [hcall]
    exact call.role_behind _
  · intro c place' hc
    exact absurd hc (behind_ne_cancelling call c place')
  · intro hne
    exact ⟨(hflags hne).1, hattempts, (hflags hne).2⟩
  · intro p hp heq
    exact hp (Option.some.inj heq).symm
  · refine Or.inr (Or.inl ⟨mem_append_left _ hflying.committed, ?_, ?_, ?_, fun hinactive =>
      mem_append_left _ (hflying.inactive fun hactive => hinactive (hplayback.trans hactive))⟩)
    · intro j c place' hc hp
      by_cases hj : j = i
      · rw [hj, goTo_self] at hc
        exact absurd hc (behind_ne_cancelling call c place')
      · obtain ⟨place₀, hbefore, hsame, _⟩ := ho.cancelling hj hc
        rw [← hsame]
        by_contra hfly
        exact hj (hflying.only j c place₀ hbefore hp (Bool.not_eq_false _ ▸ hfly))
    · simp only [countedOf_snoc, sentOf_snoc, answeredOf_snoc, reduceCtorEq, if_false, exists_false]
      exact ⟨hcounted, hsent, hle⟩
    · intro hactive
      have hbefore : s.activePlaybackId = call.playbackId := hplayback.symm.trans hactive
      obtain ⟨hinFlight, hconf⟩ := hrest hbefore
      obtain ⟨_, hcleared, hsame, _⟩ := hflying.active hbefore
      simp only [List.mem_append, List.mem_singleton, reduceCtorEq, or_false, countedOf_snoc, if_false]
      refine ⟨hinFlight, hcleared, hattempts.trans hsame, hconf.trans ?_⟩
      rw [hflying.accepted, FlightPlace.answered.injEq]

theorem goes_settle {accepted : Bool}
    (hcall : s.threads i = .cancelling call (.answered accepted)) : Goes log (s.settle i call accepted) := by
  have hflying := h.flying hcall rfl
  unfold settle
  split
  case isTrue hover =>
    have hinactive := h.inactive hcall hover
    exact ⟨h.land s hcall rfl rfl rfl rfl rfl (fun _ => ⟨rfl, rfl⟩) (fun hactive => absurd hactive hinactive) false,
      trivial⟩
  case isFalse hover =>
    have hactive : s.activePlaybackId = call.playbackId := isOver_eq_false (Bool.eq_false_iff.mpr hover)
    obtain ⟨hinFlight, hcleared, hsame, hconf⟩ := hflying.active hactive
    split
    case isTrue hacc =>
      subst hacc
      refine ⟨h.land { s with activeCancellationConfirmed := true, activeCancellationInFlight := false } hcall rfl
        rfl rfl rfl rfl (fun hne => absurd hactive hne) (fun _ => ⟨rfl, ?_⟩) true, ?_⟩
      · exact ⟨fun _ => rfl, fun _ => rfl⟩
      · exact hflying.accepted.mpr rfl
    case isFalse hacc =>
      have hacc := Bool.eq_false_iff.mpr hacc
      subst hacc
      have hrejected : .answered call.playbackId true ∉ log := fun hmem => nomatch hflying.accepted.mp hmem
      obtain ⟨hcounted, hsent, _⟩ := hflying.counts
      rw [if_neg nofun, Nat.add_zero] at hcounted hsent
      split
      case isTrue =>
        refine ⟨h.land { s with activeCancellationInFlight := false } hcall rfl rfl rfl rfl rfl
          (fun hne => absurd hactive hne) (fun _ => ⟨rfl, ?_⟩) false, trivial⟩
        show s.activeCancellationConfirmed = true ↔ _
        rw [hconf]
      case isFalse hattempts =>
        rw [if_neg (Bool.eq_false_iff.mp hconf)]
        refine goes_count h hcall hactive ?_ hconf (by omega) hflying.committed hflying.only ⟨hcounted, hsent⟩
          hsame hrejected hcleared
        rw [hinFlight]
        rfl

/-- **A step of a call goes.** -/
theorem goes_requestPlaybackCancellation (hcall : s.threads i = .cancelling call place)
    (accepted : Bool) : Goes log (s.requestPlaybackCancellation i call accepted place) := by
  cases place with
  | looking => exact goes_look h hcall rfl
  | asleep notified => exact goes_wake h hcall rfl
  | counted => exact goes_send h hcall
  | calling => exact goes_answer h hcall accepted
  | answered accepted => exact goes_settle h hcall

end

/-! ## The other steps -/

theorem Inv.nobody_asleep (h : Inv log s) (hzero : s.activePlaybackId = 0) (j : Nat) (c : CancellationCall) :
    s.threads j ≠ .cancelling c (.asleep false) := by
  intro hj
  have hactive := isOver_eq_false (h.asleep j c hj).1
  have hpos := h.calls j c _ hj
  omega

theorem Inv.stay (h : Inv log s) (hplain : ∀ call place, s.threads i ≠ .cancelling call place)
    (ho : Others s s' i) (hthread : s'.threads i = t) (hrole : t.role = (s.threads i).role)
    (hi : ∀ call place, t = .cancelling call place →
      place = .looking ∧ call.playbackId = s.activePlaybackId ∧ 0 < call.playbackId := by nofun)
    (hregistering : ∀ r g, t = .registering r g → r ≠ 0 := by nofun)
    (hcommit : ∀ r g p, t ≠ .committing r g p := by nofun) (hreq : s'.activeRequestId = s.activeRequestId := by rfl)
    (hplayback : s'.activePlaybackId = s.activePlaybackId := by rfl)
    (hinFlight : s'.activeCancellationInFlight = s.activeCancellationInFlight := by rfl)
    (hattempts : s'.activeCancellationAttempts = s.activeCancellationAttempts := by rfl)
    (hconf : s'.activeCancellationConfirmed = s.activeCancellationConfirmed := by rfl)
    (hnext : s'.nextPlaybackId = s.nextPlaybackId := by rfl) : Inv (log ++ [.none]) s' := by
  subst hthread
  refine h.outside ho (h.held.keep ho hrole hreq hplayback) ?_ ?_ hregistering ?_ (Nat.le_of_eq hnext.symm) ?_ ?_
  · intro j c hj _
    rw [isOver_congr hreq hplayback, hinFlight]
    exact h.asleep j c hj
  · intro call place hcall
    exact ⟨(hi call place hcall).1, (hi call place hcall).2.2⟩
  · intro r g p hj
    exact absurd hj (hcommit r g p)
  · intro p _ hp _
    refine hp.keep ho (by rw [hplayback]; exact hp.inactive) ?_ nofun
    intro call place hcall heq
    exact hp.inactive ((hi call place hcall).2.1.symm.trans heq)
  · intro p hpos
    refine (h.stages p hpos).keep ho (fun call place hcall => absurd hcall (hplain call place)) ?_ ?_
      ⟨nofun, nofun, nofun⟩ nofun
    · intro call place hcall heq
      obtain ⟨rfl, hactive, _⟩ := hi call place hcall
      exact ⟨rfl, fun hfresh => hfresh.inactive (hactive.symm.trans heq)⟩
    · exact ⟨fun hactive => ⟨hplayback.symm.trans hactive, nofun, hinFlight, hattempts, hconf⟩,
        fun hinactive => Or.inl fun hactive => hinactive (hplayback.trans hactive)⟩

theorem Inv.silent (h : Inv log s) (hplain : ∀ call place, s.threads i ≠ .cancelling call place)
    (ho : Others s s' i) (hthread : s'.threads i = t) (hheld : Held s')
    (hzero : s'.activePlaybackId = 0) (hcleared : s.activePlaybackId = 0 ∨ e = .cleared s.activePlaybackId)
    (hasleep : ∀ j c, s.threads j = .cancelling c (.asleep false) →
      s'.threads j ≠ .cancelling c (.asleep false)) (hplain' : ∀ call place, t ≠ .cancelling call place := by nofun)
    (hregistering : ∀ r g, t ≠ .registering r g := by nofun)
    (hcommitting : ∀ r g p, t = .committing r g p → 0 < p ∧ p < s'.nextPlaybackId ∧ Fresh p log s := by nofun)
    (hnext : s.nextPlaybackId ≤ s'.nextPlaybackId := by exact Nat.le_refl _)
    (hquiet : ∀ p, Quiet p e := by exact fun _ => ⟨nofun, nofun, nofun⟩)
    (he : ∀ p, 0 < p → Fresh p log s → e.about ≠ some p := by nofun) : Inv (log ++ [e]) s' := by
  subst hthread
  refine h.outside ho hheld (fun j c hj hj' => absurd hj' (hasleep j c hj))
    (fun call place hcall => absurd hcall (hplain' call place)) (fun r g hj => absurd hj (hregistering r g))
    hcommitting hnext ?_ ?_
  · intro p hpos hp _
    exact hp.keep ho (by omega) (fun call place hcall => absurd hcall (hplain' call place)) (he p hpos hp)
  · intro p hpos
    refine (h.stages p hpos).keep ho (fun call place hcall => absurd hcall (hplain call place))
      (fun call place hcall => absurd hcall (hplain' call place)) ?_ (hquiet p) (he p hpos)
    refine ⟨fun hactive => absurd hactive (by omega), fun _ => ?_⟩
    by_cases hactive : s.activePlaybackId = p
    · rw [← hactive] at hpos ⊢
      exact Or.inr (hcleared.resolve_left (by omega))
    · exact Or.inl hactive

variable {requestId : Nat}

variable {generation : Nat}

theorem goes_register (h : Inv log s) (hi : s.threads i = .registering requestId generation) (refused : Bool) :
    Goes log (s.register i requestId generation refused, .none) := by
  have hreq := h.registering i _ _ hi
  have hplain : ∀ call place, s.threads i ≠ .cancelling call place := by
    rw [hi]
    nofun
  refine ⟨?_, trivial⟩
  unfold register
  split
  case isTrue =>
    exact h.stay hplain (others_goTo rfl i _) (goTo_self _ i _) (by rw [hi]; rfl)
  case isFalse hfree =>
    simp only [ne_eq, Bool.or_eq_true, decide_eq_true_eq, not_or, not_not] at hfree
    have hnothing := h.held.nothing hfree.1.2
    have hzero := h.held.rest hnothing
    have ho : Others s ({ s.resetCancellation with activeRequestId := requestId }.goTo i
        (.registered requestId generation)) i := others_goTo rfl i _
    refine h.silent hplain ho (goTo_self _ i _) ?_ hzero (Or.inl hzero)
      fun j c hj => absurd hj (h.nobody_asleep hzero j c)
    refine Held.change ho (fun j _ => hnothing j) ?_ fun _ => hzero
    intro r p hrole
    rw [goTo_self] at hrole
    cases hrole
    exact ⟨hreq, rfl, hzero, nofun⟩

theorem goes_number (h : Inv log s) (hi : s.threads i = .registered requestId generation)
    (hnext : s.nextPlaybackId ≤ (s.nextPlaybackId + 1) % 2 ^ 64) : Goes log (s.number i requestId generation) := by
  have hrole : (s.threads i).role = some (requestId, none) := by
    rw [hi]
    rfl
  obtain ⟨_, _, hzero, _⟩ := h.held.active i _ _ hrole
  have hone : (s.nextPlaybackId + 1) % 2 ^ 64 = s.nextPlaybackId + 1 := by omega
  have ho : Others s (s.number i requestId generation).1 i := others_goTo rfl i _
  have hthread : (s.number i requestId generation).1.threads i =
      .committing requestId generation s.nextPlaybackId := goTo_self _ i _
  refine ⟨h.silent (i := i) ?_ ho hthread ?_ hzero (Or.inl hzero)
    (fun j c hj => absurd hj (h.nobody_asleep hzero j c)) nofun nofun ?_ hnext, trivial⟩
  · rw [hi]
    nofun
  · refine h.held.keep ho ?_ rfl rfl
    rw [hthread, hrole]
    rfl
  · rintro r g p ⟨⟩
    refine ⟨h.later.1, ?_, h.later.2 _ (Nat.le_refl _)⟩
    show s.nextPlaybackId < (s.nextPlaybackId + 1) % 2 ^ 64
    omega

theorem goes_clear (h : Inv log s) (hi : s.threads i = t) (hplain : ∀ call place, t ≠ .cancelling call place)
    (hrole : ∃ p, t.role = some (requestId, p)) : Goes log (s.clear i requestId) := by
  obtain ⟨playbackId, hrole⟩ := hrole
  rw [← hi] at hrole hplain
  obtain ⟨_, hreq, _⟩ := h.held.active i _ _ hrole
  have hclear : s.clear i requestId =
      ({ s.resetCancellation with activeRequestId := 0, activePlaybackId := 0 }.notifyAll.goTo i .idle,
        .cleared s.activePlaybackId) := by
    unfold clear clearActiveRequest
    rw [if_pos hreq]
  rw [hclear]
  have ho : Others s
      ({ s.resetCancellation with activeRequestId := 0, activePlaybackId := 0 }.notifyAll.goTo i .idle) i :=
    others_notify_goTo rfl i _
  refine ⟨h.silent hplain ho (goTo_self _ i _) ?_ rfl (Or.inr rfl) ?_ nofun nofun nofun (Nat.le_refl _)
    (fun _ => ⟨nofun, nofun, nofun⟩) ?_, trivial⟩
  · refine Held.change ho (fun j hj => h.held.others (by rw [hrole]; nofun) j hj) ?_ fun _ => rfl
    rw [goTo_self]
    nofun
  · intro j c _
    exact notified { s.resetCancellation with activeRequestId := 0, activePlaybackId := 0 } i ⟨0, 0⟩ j c
  · intro p _ hfresh heq
    exact hfresh.inactive (Option.some.inj heq)

theorem Fresh.not_mem (h : Fresh p log s) (habout : e.about = some p) : e ∉ log :=
  fun hmem => h.silent e hmem habout

theorem Fresh.resting (h : Fresh p log s) (ho : Others s s' i)
    (hplain : ∀ call place, s'.threads i ≠ .cancelling call place) (hactive : s'.activePlaybackId = p)
    (hinFlight : s'.activeCancellationInFlight = false) (hattempts : s'.activeCancellationAttempts = 0)
    (hconf : s'.activeCancellationConfirmed = false) : Resting p (log ++ [.committed p]) s' := by
  have hcounted : countedOf log p = 0 := count_eq_zero.mpr (h.not_mem rfl)
  have hsent : sentOf log p = 0 := count_eq_zero.mpr (h.not_mem rfl)
  have hanswered : answeredOf log p = 0 := by
    unfold answeredOf
    rw [count_eq_zero.mpr (h.not_mem rfl), count_eq_zero.mpr (h.not_mem rfl)]
  refine ⟨mem_append_right _ mem_cons_self, ?_, ?_, ?_, fun hinactive => absurd hactive hinactive⟩
  · intro j call place hcall hp
    by_cases hj : j = i
    · rw [hj] at hcall
      exact absurd hcall (hplain call place)
    · obtain ⟨place', hbefore, _⟩ := ho.cancelling hj hcall
      exact absurd hp (h.nobody j call place' hbefore)
  · simp only [countedOf_snoc, sentOf_snoc, answeredOf_snoc, reduceCtorEq, if_false, exists_false]
    omega
  · intro _
    simp only [List.mem_append, List.mem_singleton, reduceCtorEq, or_false, countedOf_snoc, if_false]
    refine ⟨hinFlight, h.not_mem rfl, by omega, ?_⟩
    rw [hconf]
    exact ⟨nofun, fun hmem => absurd hmem (h.not_mem rfl)⟩

theorem goes_commit {playbackId : Nat} (h : Inv log s)
    (hi : s.threads i = .committing requestId generation playbackId) (refused : Bool) :
    Goes log (s.commit i requestId generation playbackId refused) := by
  have hplain : ∀ call place, s.threads i ≠ .cancelling call place := by
    rw [hi]
    nofun
  have hrole : (s.threads i).role = some (requestId, none) := by
    rw [hi]
    rfl
  have hothers : ∀ j, j ≠ i → (s.threads j).role = none :=
    fun j hj => h.held.others (by rw [hrole]; nofun) j hj
  obtain ⟨hne, hreq, hzero, _⟩ := h.held.active i _ _ hrole
  obtain ⟨hpos, hlt, hfresh⟩ := h.committing i _ _ _ hi
  unfold commit
  split
  case isTrue =>
    have ho : Others s ({ s with activeRequestId := 0 }.goTo i .idle) i := others_goTo rfl i _
    refine ⟨h.silent hplain ho (goTo_self _ i _) ?_ hzero (Or.inl hzero)
      fun j c hj => absurd hj (h.nobody_asleep hzero j c), trivial⟩
    refine Held.change ho hothers ?_ fun _ => hzero
    rw [goTo_self]
    nofun
  case isFalse =>
    have ho : Others s ({ s.resetCancellation with activePlaybackId := playbackId }.goTo i
        (.playing requestId playbackId)) i := others_goTo rfl i _
    have hplain' : ∀ call place, ({ s.resetCancellation with activePlaybackId := playbackId }.goTo i
        (.playing requestId playbackId)).threads i ≠ .cancelling call place := by
      rw [goTo_self]
      nofun
    refine ⟨h.outside ho ?_ (fun j c hj => absurd hj (h.nobody_asleep hzero j c))
      (fun call place hcall => absurd hcall (hplain' call place)) ?_ ?_ (Nat.le_refl _) ?_ ?_, trivial⟩
    · refine Held.change ho hothers ?_ ?_
      · intro r p hr
        rw [goTo_self] at hr
        cases hr
        refine ⟨hne, hreq, rfl, ?_⟩
        intro heq
        rw [Option.some.inj heq] at hpos
        cases hpos
      · rw [goTo_self]
        nofun
    · rw [goTo_self]
      nofun
    · rw [goTo_self]
      nofun
    · intro p _ hp hlater
      have hother : playbackId ≠ p := by
        rcases hlater with hle | ⟨j, r, g, hj⟩
        · have hle' : s.nextPlaybackId ≤ p := hle
          omega
        · exfalso
          have hji : j ≠ i := by
            rintro rfl
            rw [goTo_self] at hj
            cases hj
          have hnone := hothers j hji
          rw [ho.committing hji hj] at hnone
          cases hnone
      refine hp.keep ho hother (fun call place hcall => absurd hcall (hplain' call place)) ?_
      intro heq
      exact hother (Option.some.inj heq)
    · intro p hp
      by_cases hsame : p = playbackId
      · rw [hsame]
        exact Or.inr (Or.inl (hfresh.resting ho hplain' rfl rfl rfl rfl))
      · refine (h.stages p hp).keep ho (fun call place hcall => absurd hcall (hplain call place))
          (fun call place hcall => absurd hcall (hplain' call place)) ?_ ⟨nofun, nofun, nofun⟩ ?_
        · refine ⟨fun hactive => absurd (Eq.symm hactive) hsame, fun _ => Or.inl ?_⟩
          rw [hzero]
          exact Nat.ne_of_lt hp
        · intro _ heq
          exact hsame (Option.some.inj heq).symm

/-! ## Safety -/

/-- The counter of the playback ids does not come round in the step. -/
def CountsOn (s : CancellationFlight) (event : FlightEvent) : Prop :=
  s.nextPlaybackId ≤ (s.step event).1.nextPlaybackId

theorem goes_move {t' : FlightThread} (h : Inv log s) (hi : s.threads i = t) (hrole : t.role = none)
    (hcall : ∀ call place, t ≠ .cancelling call place) (hrole' : t'.role = none)
    (hcall' : ∀ call place, t' = .cancelling call place → place = .looking ∧ call.playbackId = s.activePlaybackId ∧
      0 < call.playbackId := by nofun) (hregistering : ∀ r g, t' = .registering r g → r ≠ 0 := by nofun)
    (hthreads : s'.threads = s.threads := by rfl) (hreq : s'.activeRequestId = s.activeRequestId := by rfl)
    (hplayback : s'.activePlaybackId = s.activePlaybackId := by rfl)
    (hinFlight : s'.activeCancellationInFlight = s.activeCancellationInFlight := by rfl)
    (hattempts : s'.activeCancellationAttempts = s.activeCancellationAttempts := by rfl)
    (hconf : s'.activeCancellationConfirmed = s.activeCancellationConfirmed := by rfl)
    (hnext : s'.nextPlaybackId = s.nextPlaybackId := by rfl) : Goes log (s'.goTo i t', .none) := by
  rw [← hi] at hrole hcall
  refine ⟨h.stay hcall (others_goTo hthreads i t') (goTo_self s' i t') (hrole'.trans hrole.symm) hcall' hregistering ?_
    hreq hplayback hinFlight hattempts hconf hnext, trivial⟩
  rintro r g p rfl
  cases hrole'

/-- **Every step keeps the invariant, and has an allowed effect.** -/
theorem goes_step (h : Inv log s) (event : FlightEvent) (hcounts : CountsOn s event) : Goes log (s.step event) := by
  unfold CountsOn at hcounts
  unfold step at hcounts ⊢
  dsimp only at hcounts ⊢
  generalize event.thread = i at hcounts ⊢
  have hnothing : s.threads i = .idle → Goes log (s, .none) := by
    intro hi
    exact ⟨h.stay (by rw [hi]; nofun) (fun j _ => Or.inl rfl) hi (by rw [hi]), trivial⟩
  split <;> rename_i hi
  · split
    · exact goes_move h hi rfl nofun rfl
    · exact goes_move h hi rfl nofun rfl
    · split
      case isTrue => exact hnothing hi
      case isFalse hreq =>
        refine goes_move h hi rfl nofun rfl nofun ?_
        intro r g heq
        cases heq
        exact hreq
    · exact hnothing hi
  · exact goes_move h hi rfl nofun rfl
  · unfold interrupt
    refine goes_move h hi rfl nofun ?_ ?_ ?_
    · split <;> rfl
    · intro call place heq
      split at heq
      case isTrue => cases heq
      case isFalse hactive =>
        cases heq
        exact ⟨rfl, rfl, Nat.pos_of_ne_zero hactive⟩
    · intro r g heq
      split at heq <;> cases heq
  · exact goes_register h hi event.refused
  · split
    case h_1 haction =>
      rw [hi] at hcounts
      dsimp only at hcounts
      rw [haction] at hcounts
      exact goes_number h hi hcounts
    case h_2 => exact goes_clear h hi nofun ⟨none, rfl⟩
  · exact goes_commit h hi event.refused
  · rename_i requestId playbackId
    split
    · obtain ⟨hreq, _, hactive, hpos⟩ := h.held.active i requestId (some playbackId) (by rw [hi]; rfl)
      refine ⟨h.stay (by rw [hi]; nofun) (others_goTo rfl i _) (goTo_self s i _) ?_ ?_, trivial⟩
      · rw [hi]
        exact if_neg hreq
      · rintro call place ⟨⟩
        exact ⟨rfl, hactive.symm, Nat.pos_of_ne_zero fun hzero => hpos (congrArg some hzero)⟩
    · exact goes_clear h hi nofun ⟨some playbackId, rfl⟩
  · exact goes_requestPlaybackCancellation h hi event.accepted

end CancellationFlight

end Cockpit.Voice
