/-
  What the subscribers of the chassis events get: up to its cursor each has been sent all events that were not
  evicted, an event that it was not sent could not have been sent any more, and what was published is sent after
  enough turns.
-/
import Cockpit.Lib.NumberedLog
import Cockpit.Vehicle.VehicleGrpcService

namespace Cockpit.Vehicle

open StepRun NumberedLog VehicleGrpcService List Function

/-! ## The law -/

namespace EventSubscriber

/-- The version that the subscriber has come to: that of the last event sent to it, or of its registration. -/
def reached (subscriber : EventSubscriber) : Nat :=
  match subscriber.sent.getLast? with
  | some entry => entry.version
  | none => subscriber.registeredAt.getD 0

/-- The event with this version was handed to `Write`. -/
def WasSent (subscriber : EventSubscriber) (version : Nat) : Prop :=
  ∃ entry ∈ subscriber.sent, entry.version = version

/-- All that was sent is older than this version. -/
def OlderSent (subscriber : EventSubscriber) (version : Nat) : Prop :=
  ∀ entry ∈ subscriber.sent, entry.version < version

end EventSubscriber

namespace EventSystem

/-- The event with this version is in the window. -/
def Retained (s : EventSystem) (version : Nat) : Prop := ∃ entry ∈ s.service.events, entry.version = version

/-- The event is one that a subscriber with this registration can still be sent. -/
def Unread (s : EventSystem) (i registration version : Nat) : Prop :=
  registration < version ∧ s.Retained version ∧ (s.subscribers i).OlderSent version

/-- A step of this subscriber. -/
def isTurn (i : Nat) : EventCall → Bool
  | .subscriber j _ => j = i
  | _ => false

/-- How many events the subscriber is behind. -/
def lag (s : EventSystem) (i : Nat) : Nat := s.service.eventVersion - (s.subscribers i).reached

/-- The event was pushed out of the window while the subscriber had come to older ones only. -/
def EvictedUnread (calls : List EventCall) (i version : Nat) : Prop :=
  ∃ before call rest, calls = before ++ call :: rest ∧
    (after before).Retained version ∧ ¬ (after (before ++ [call])).Retained version ∧
    (∃ registration, ((after before).subscribers i).registeredAt = some registration ∧ registration < version) ∧
    ((after before).subscribers i).OlderSent version

end EventSystem

/-! ## The window -/

/-- The window is the end of what was published. -/
structure Windowed (service : VehicleGrpcService) (published : List VersionedEvent) : Prop where
  numbered : Numbered VersionedEvent.version published
  length : published.length = service.eventVersion
  events : service.events = published.drop service.droppedEvents
  dropped : service.droppedEvents = service.eventVersion - kEventCapacity

namespace Windowed

variable {service : VehicleGrpcService} {published : List VersionedEvent}

theorem start : Windowed {} [] := ⟨Numbered.nil, rfl, rfl, rfl⟩

section

variable (h : Windowed service published)
include h

theorem counted : service.droppedEvents + service.events.length = service.eventVersion := by
  have hdropped := h.dropped
  rw [h.events, length_drop, h.length]
  omega

theorem publish (event : ChassisEvent) : Windowed (service.publishEvent event)
      (published ++ [{ version := service.eventVersion + 1, event := event.toProto }]) := by
  have hcounted := h.counted
  have hdropped := h.dropped
  have hlen := h.length
  have hcapacity : kEventCapacity = 64 := rfl
  refine ⟨h.numbered.snoc (by rw [hlen]), by simp [publishEvent, hlen], ?_, ?_⟩
  all_goals unfold publishEvent evict
  all_goals split
  · -- the oldest event goes
    simp only [h.events, tail_drop]
    rw [drop_append_of_le_length (by omega)]
  · simp only [h.events]
    rw [drop_append_of_le_length (by omega)]
  all_goals simp only
  all_goals omega

theorem of_eq {service' : VehicleGrpcService}
    (hver : service'.eventVersion = service.eventVersion) (hevents : service'.events = service.events)
    (hdropped : service'.droppedEvents = service.droppedEvents) : Windowed service' published := by
  constructor
  · exact h.numbered
  · rw [h.length, hver]
  · rw [hevents, h.events, hdropped]
  · rw [hdropped, h.dropped, hver]

theorem retained_iff {entry : VersionedEvent} :
    entry ∈ service.events ↔ entry ∈ published ∧ service.droppedEvents < entry.version := by
  rw [h.events]
  exact h.numbered.mem_drop_iff service.droppedEvents

theorem exists_retained_iff (version : Nat) :
    (∃ entry ∈ service.events, entry.version = version) ↔
      service.droppedEvents < version ∧ version ≤ service.eventVersion := by
  constructor
  · rintro ⟨entry, hentry, rfl⟩
    obtain ⟨hmem, hdropped⟩ := h.retained_iff.mp hentry
    have := h.numbered.key_le hmem
    rw [h.length] at this
    exact ⟨hdropped, this⟩
  · rintro ⟨hdropped, hle⟩
    obtain ⟨entry, hmem, rfl⟩ := h.numbered.exists_key (v := version) (by omega) (by rw [h.length]; exact hle)
    exact ⟨entry, h.retained_iff.mpr ⟨hmem, hdropped⟩, rfl⟩

theorem catchUp (observedVersion : Nat) :
    max (service.catchUp observedVersion) service.droppedEvents = max observedVersion service.droppedEvents := by
  unfold VehicleGrpcService.catchUp
  cases hfront : service.events.head? with
  | none => rfl
  | some front =>
    have hver : front.version = service.droppedEvents + 1 := by
      rw [h.events, List.head?_drop] at hfront
      exact h.numbered _ _ hfront
    simp only
    split <;> omega

/-- **What a subscriber finds**: the event behind its cursor, or the oldest that is left. -/
theorem findNext {observedVersion : Nat} (hobserved : observedVersion ≤ service.eventVersion) :
    (service.findNext observedVersion = .stop ∧ service.stopping = true) ∨
    (service.findNext observedVersion = .again observedVersion ∧ service.eventVersion = observedVersion) ∨
    ∃ entry ∈ published, service.findNext observedVersion = .send entry ∧
      entry.version = max observedVersion service.droppedEvents + 1 := by
  have hcounted := h.counted
  have hdropped := h.dropped
  have hcapacity : kEventCapacity = 64 := rfl
  unfold VehicleGrpcService.findNext
  split
  case isTrue hstop => exact .inl ⟨rfl, hstop⟩
  case isFalse =>
    split
    case isTrue hnothing =>
      refine .inr (.inl ⟨rfl, ?_⟩)
      simp only [Bool.or_eq_true, List.isEmpty_iff, decide_eq_true_eq] at hnothing
      rcases hnothing with hempty | hle
      · rw [hempty, List.length_nil] at hcounted
        omega
      · omega
    case isFalse hsome =>
      right; right
      simp only [Bool.or_eq_true, List.isEmpty_iff, decide_eq_true_eq, not_or] at hsome
      have hlt : max observedVersion service.droppedEvents < published.length := by
        rw [h.length]
        omega
      have hget := List.getElem?_eq_getElem hlt
      have hfound : service.events.find? (fun entry => service.catchUp observedVersion < entry.version) =
          some published[max observedVersion service.droppedEvents] := by
        rw [h.events, h.numbered.find?_beyond, h.catchUp, hget]
      rw [hfound]
      exact ⟨_, getElem_mem hlt, rfl, h.numbered _ _ hget⟩

end

end Windowed

/-! ## A subscriber -/

/-- A registered subscriber has been sent what was not evicted, up to its cursor. -/
structure Following (subscriber : EventSubscriber) (registration : Nat) (published : List VersionedEvent)
    (dropped version : Nat) : Prop where
  low : registration ≤ subscriber.observedVersion
  high : subscriber.observedVersion ≤ version
  reached : subscriber.reached = subscriber.observedVersion
  ordered : subscriber.sent.Pairwise (·.version < ·.version)
  sent : ∀ entry ∈ subscriber.sent, entry ∈ published ∧ registration < entry.version ∧
    entry.version ≤ subscriber.observedVersion
  complete : ∀ v, registration < v → v ≤ subscriber.observedVersion → subscriber.WasSent v ∨ v ≤ dropped

/-- What is known of one, by the time of its registration. -/
def SubscriberOk (subscriber : EventSubscriber) (published : List VersionedEvent) (dropped version : Nat) : Prop :=
  match subscriber.registeredAt with
  | none => subscriber.place = .registering ∧ subscriber.sent = []
  | some registration =>
    subscriber.place ≠ .registering ∧ Following subscriber registration published dropped version

namespace Following

variable {subscriber : EventSubscriber} {registration dropped version : Nat} {published : List VersionedEvent}

section

variable (h : Following subscriber registration published dropped version)
include h

theorem ok (hreg : subscriber.registeredAt = some registration) (hplace : subscriber.place ≠ .registering) :
    SubscriberOk subscriber published dropped version := by
  unfold SubscriberOk
  rw [hreg]
  exact ⟨hplace, h⟩

theorem grow {dropped' version' : Nat}
    {more : List VersionedEvent} (hdropped : dropped ≤ dropped') (hver : version ≤ version') :
    Following subscriber registration (published ++ more) dropped' version' where
  low := h.low
  high := Nat.le_trans h.high hver
  reached := h.reached
  ordered := h.ordered
  sent := by
    intro entry hentry
    obtain ⟨hmem, hbounds⟩ := h.sent entry hentry
    exact ⟨mem_append_left more hmem, hbounds⟩
  complete := by
    intro v hlow hhigh
    exact (h.complete v hlow hhigh).imp_right (Nat.le_trans · hdropped)

theorem goTo (place : SubscriberPlace) :
    Following { subscriber with place := place } registration published dropped version :=
  ⟨h.low, h.high, h.reached, h.ordered, h.sent, h.complete⟩

theorem send {entry : VersionedEvent}
    (hmem : entry ∈ published) (hnext : entry.version = max subscriber.observedVersion dropped + 1)
    (hver : entry.version ≤ version) :
    Following { subscriber with
      place := .writing, observedVersion := entry.version, sent := subscriber.sent ++ [entry] }
      registration published dropped version := by
  have hlow := h.low
  constructor
  · show registration ≤ entry.version
    omega
  · exact hver
  · simp [EventSubscriber.reached]
  · refine pairwise_append.mpr ⟨h.ordered, pairwise_singleton _ _, ?_⟩
    intro earlier hearlier last hlast
    rw [mem_singleton.mp hlast]
    have := (h.sent earlier hearlier).2.2
    omega
  · intro sent hsent
    show sent ∈ published ∧ registration < sent.version ∧ sent.version ≤ entry.version
    rcases mem_append.mp hsent with hold | hnew
    · obtain ⟨hpub, hregistration, hobserved⟩ := h.sent sent hold
      exact ⟨hpub, hregistration, by omega⟩
    · rw [mem_singleton.mp hnew]
      exact ⟨hmem, by omega, Nat.le_refl _⟩
  · intro v hregistration hv
    change v ≤ entry.version at hv
    rcases Nat.lt_or_ge subscriber.observedVersion v with hbehind | hold
    · rcases Nat.lt_or_ge dropped v with hleft | hgone
      · left
        exact ⟨entry, mem_append_right _ mem_cons_self, by omega⟩
      · exact .inr hgone
    · refine (h.complete v hregistration hold).imp_left ?_
      rintro ⟨sent, hsent, rfl⟩
      exact ⟨sent, mem_append_left _ hsent, rfl⟩

end

end Following

/-! ## The runs -/

namespace EventSystem

/-- Window and subscribers. -/
structure Inv (s : EventSystem) : Prop where
  window : Windowed s.service s.published
  subscribers : ∀ i,
    SubscriberOk (s.subscribers i) s.published s.service.droppedEvents s.service.eventVersion

theorem inv_start : Inv {} := ⟨Windowed.start, fun _ => ⟨rfl, rfl⟩⟩

variable {s : EventSystem}

theorem Inv.publish (h : s.Inv) (event : ChassisEvent) : (s.publish event).Inv := by
  have hwindow := h.window.publish event
  refine ⟨hwindow, ?_⟩
  intro i
  have hold := h.subscribers i
  unfold SubscriberOk at hold ⊢
  simp only [EventSystem.publish]
  cases hreg : (s.subscribers i).registeredAt with
  | none =>
    rw [hreg] at hold
    exact hold
  | some registration =>
    rw [hreg] at hold
    refine ⟨hold.1, hold.2.grow ?_ (Nat.le_succ _)⟩
    rw [hwindow.dropped, h.window.dropped]
    exact Nat.sub_le_sub_right (Nat.le_succ _) _

theorem Inv.subscriber (h : s.Inv) {i : Nat} {service : VehicleGrpcService} {moved : EventSubscriber}
    (hver : service.eventVersion = s.service.eventVersion) (hevents : service.events = s.service.events)
    (hdropped : service.droppedEvents = s.service.droppedEvents)
    (hmoved : SubscriberOk moved s.published s.service.droppedEvents s.service.eventVersion) :
    Inv { s with service := service, subscribers := update s.subscribers i moved } := by
  refine ⟨h.window.of_eq hver hevents hdropped, ?_⟩
  intro j
  simp only [hver, hdropped]
  rcases eq_or_ne j i with rfl | hji
  · rw [update_self]
    exact hmoved
  · rw [update_of_ne hji]
    exact h.subscribers j

theorem Inv.look (h : s.Inv) {i registration : Nat}
    (hok : Following (s.subscribers i) registration s.published s.service.droppedEvents s.service.eventVersion)
    (hreg : (s.subscribers i).registeredAt = some registration) :
    SubscriberOk ((s.subscribers i).look s.service) s.published s.service.droppedEvents s.service.eventVersion := by
  unfold EventSubscriber.look
  obtain ⟨hfound, -⟩ | ⟨hfound, -⟩ | ⟨entry, hmem, hfound, hnext⟩ := h.window.findNext hok.high <;>
    rw [hfound]
  · exact (hok.goTo .leaving).ok hreg (by simp)
  · exact (hok.goTo .checking).ok hreg (by simp)
  · have hver := h.window.numbered.key_le hmem
    rw [h.window.length] at hver
    exact (hok.send hmem hnext hver).ok hreg (by simp)

theorem step_service (subscriber : EventSubscriber) (service : VehicleGrpcService) (cancelled : Bool) :
    (subscriber.step service cancelled).1.eventVersion = service.eventVersion ∧
      (subscriber.step service cancelled).1.events = service.events ∧
      (subscriber.step service cancelled).1.droppedEvents = service.droppedEvents := by
  unfold EventSubscriber.step
  cases subscriber.place <;> exact ⟨rfl, rfl, rfl⟩

theorem Inv.moveSubscriber (h : s.Inv) (i : Nat) (cancelled : Bool) : (s.moveSubscriber i cancelled).Inv := by
  obtain ⟨hver, hevents, hdropped⟩ := step_service (s.subscribers i) s.service cancelled
  refine h.subscriber hver hevents hdropped ?_
  have hok := h.subscribers i
  unfold SubscriberOk at hok
  cases hreg : (s.subscribers i).registeredAt with
  | none =>
    rw [hreg] at hok
    obtain ⟨hplace, hsent⟩ := hok
    simp only [EventSubscriber.step, hplace, SubscriberOk, EventSubscriber.registered]
    refine ⟨by simp, Nat.le_refl _, Nat.le_refl _, ?_, ?_, ?_, ?_⟩
    · simp [EventSubscriber.reached, hsent]
    · simp [hsent]
    · simp [hsent]
    · intro v hlow hhigh
      simp only at hhigh
      omega
  | some registration =>
    rw [hreg] at hok
    obtain ⟨hplace, hfollowing⟩ := hok
    have hgoTo : ∀ place, place ≠ .registering →
        SubscriberOk { s.subscribers i with place := place } s.published s.service.droppedEvents
          s.service.eventVersion := by
      intro place hne
      exact (hfollowing.goTo place).ok hreg hne
    unfold EventSubscriber.step
    split
    case h_1 hat => exact absurd hat hplace
    case h_2 => exact hgoTo _ (by cases cancelled <;> simp)
    case h_3 => exact h.look hfollowing hreg
    case h_4 => exact hgoTo .checking (by simp)
    case h_5 => exact hgoTo .returned (by simp)
    case h_6 => exact hfollowing.ok hreg hplace

/-- Every step keeps window and subscribers. -/
theorem Inv.step (h : s.Inv) (call : EventCall) : (s.step call).1.Inv := by
  cases call with
  | publishEvent event => exact h.publish event
  | publishChassisState state | shutdown => exact ⟨h.window.of_eq rfl rfl rfl, h.subscribers⟩
  | subscriber i cancelled => exact h.moveSubscriber i cancelled

theorem inv_after (calls : List EventCall) : (after calls).Inv :=
  @run_invariant _ _ _ EventSystem.step Inv (fun _ call h => h.step call) _ inv_start calls

/-! ## What is published, sent and registered stays -/

theorem step_keeps (call : EventCall) (i : Nat) :
    (s.subscribers i).sent <+: ((s.step call).1.subscribers i).sent := by
  cases call with
  | publishEvent | publishChassisState | shutdown => exact prefix_refl _
  | subscriber j cancelled =>
    show _ <+: (update s.subscribers j _ i).sent
    rcases eq_or_ne i j with rfl | hij
    · rw [update_self]
      unfold EventSubscriber.step EventSubscriber.look
      cases (s.subscribers i).place with
      | waiting =>
        cases s.service.findNext (s.subscribers i).observedVersion with
        | send entry => exact prefix_append _ _
        | stop | again => exact prefix_refl _
      | _ => exact prefix_refl _
    · simp [update_of_ne hij]

/-- What was sent stays sent. -/
theorem run_keeps (calls : List EventCall) (i : Nat) :
    (s.subscribers i).sent <+: ((run step s calls).subscribers i).sent :=
  @run_invariant _ _ _ step (fun t => (s.subscribers i).sent <+: (t.subscribers i).sent)
    (fun _ call h => h.trans (step_keeps call i)) _ (prefix_refl _) calls

theorem step_version (call : EventCall) : (s.step call).1.service.eventVersion ≤ s.service.eventVersion + 1 := by
  cases call with
  | publishEvent => exact Nat.le_refl _
  | publishChassisState | shutdown => exact Nat.le_succ _
  | subscriber j cancelled =>
    obtain ⟨hver, -⟩ := step_service (s.subscribers j) s.service cancelled
    exact Nat.le_succ_of_le (Nat.le_of_eq hver)

theorem run_registered (calls : List EventCall) (i : Nat) {registration : Nat}
    (h : ((run step s calls).subscribers i).registeredAt = some registration) :
    (s.subscribers i).registeredAt = some registration ∨ s.service.eventVersion ≤ registration := by
  have hstep : ∀ (t : EventSystem) (call : EventCall),
      s.service.eventVersion ≤ t.service.eventVersion ∧ (∀ r, (t.subscribers i).registeredAt = some r →
        (s.subscribers i).registeredAt = some r ∨ s.service.eventVersion ≤ r) →
      s.service.eventVersion ≤ (t.step call).1.service.eventVersion ∧
        (∀ r, ((t.step call).1.subscribers i).registeredAt = some r →
          (s.subscribers i).registeredAt = some r ∨ s.service.eventVersion ≤ r) := by
    rintro t call ⟨hver, hreg⟩
    cases call with
    | publishEvent => exact ⟨Nat.le_succ_of_le hver, hreg⟩
    | publishChassisState | shutdown => exact ⟨hver, hreg⟩
    | subscriber j cancelled =>
      refine ⟨by rw [← (step_service (t.subscribers j) t.service cancelled).1] at hver; exact hver, ?_⟩
      intro r hr
      change (update t.subscribers j _ i).registeredAt = some r at hr
      rcases eq_or_ne i j with rfl | hij
      · rw [update_self] at hr
        unfold EventSubscriber.step EventSubscriber.look at hr
        cases hplace : (t.subscribers i).place with
        | registering =>
          rw [hplace] at hr
          cases hr
          exact .inr hver
        | waiting =>
          rw [hplace] at hr
          simp only at hr
          split at hr <;> exact hreg r hr
        | checking | writing | leaving | returned =>
          rw [hplace] at hr
          exact hreg r hr
      · rw [update_of_ne hij] at hr
        exact hreg r hr
  exact (@run_invariant _ _ _ step _ hstep _ ⟨Nat.le_refl _, fun r hr => .inl hr⟩ calls).2 registration h

theorem after_append (before rest : List EventCall) : after (before ++ rest) = run step (after before) rest :=
  run_append _ _ _

variable {calls : List EventCall} {i registration version : Nat}

theorem retained_iff (calls : List EventCall) (version : Nat) :
    (after calls).Retained version ↔
      (after calls).service.droppedEvents < version ∧ version ≤ (after calls).service.eventVersion :=
  (inv_after calls).window.exists_retained_iff version

section

variable (hreg : ((after calls).subscribers i).registeredAt = some registration)
include hreg

/-- **An event that is gone and was not sent was evicted before the subscriber came to it.** -/
theorem evictedUnread_of_gone
    (hver : registration < version) (hgone : version ≤ (after calls).service.droppedEvents)
    (hunsent : ¬ ((after calls).subscribers i).WasSent version) : EvictedUnread calls i version := by
  obtain ⟨before, call, rest, rfl, hbefore, hafter⟩ :=
    @exists_turn _ _ _ step (fun s => s.service.droppedEvents < version) {} calls
      (Nat.zero_lt_of_lt hver) (Nat.not_lt.mpr hgone)
  change (after before).service.droppedEvents < version at hbefore
  change ¬ (after (before ++ [call])).service.droppedEvents < version at hafter
  have hinv := inv_after before
  have hretained : (after before).Retained version := by
    -- the window loses one event at a time
    rw [(inv_after (before ++ [call])).window.dropped, after_append] at hafter
    have hstep : (run step (after before) [call]).service.eventVersion ≤ _ :=
      step_version (s := after before) call
    have hdropped := hinv.window.dropped
    have hcapacity : kEventCapacity = 64 := rfl
    rw [retained_iff]
    omega
  have hevicted : ¬ (after (before ++ [call])).Retained version := by
    rw [retained_iff]
    exact fun h => hafter h.1
  rw [after_append] at hreg hunsent
  have hearlier : ((after before).subscribers i).registeredAt = some registration := by
    rw [retained_iff] at hretained
    rcases run_registered _ i hreg with hsame | hlate
    · exact hsame
    · omega
  refine ⟨before, call, rest, rfl, hretained, hevicted, ⟨registration, hearlier, hver⟩, ?_⟩
  have hok := hinv.subscribers i
  unfold SubscriberOk at hok
  rw [hearlier] at hok
  intro entry hentry
  by_contra hnewer
  have hobserved := (hok.2.sent entry hentry).2.2
  rcases hok.2.complete version hver (by omega) with ⟨sent, hsent, hsame⟩ | hdropped
  · exact hunsent ⟨sent, (run_keeps _ i).subset hsent, hsame⟩
  · omega

end

section

variable (hreg : ((after calls).subscribers i).registeredAt = some registration)
include hreg

theorem following :
    Following ((after calls).subscribers i) registration (after calls).published (after calls).service.droppedEvents
      (after calls).service.eventVersion := by
  have hok := (inv_after calls).subscribers i
  unfold SubscriberOk at hok
  rw [hreg] at hok
  exact hok.2

/-- **What the cursor has passed** was sent, or evicted before it could be. -/
theorem sent_of_observed
    (hver : registration < version) (hobserved : version ≤ ((after calls).subscribers i).observedVersion) :
    ((after calls).subscribers i).WasSent version ∨ EvictedUnread calls i version := by
  by_cases hsent : ((after calls).subscribers i).WasSent version
  · exact .inl hsent
  · have hgone := ((following hreg).complete version hver hobserved).resolve_left hsent
    exact .inr (evictedUnread_of_gone hreg hver hgone hsent)

theorem looked {cancelled : Bool}
    (hplace : ((after calls).subscribers i).place = .waiting) (hrunning : (after calls).service.stopping = false) :
    (∃ entry ∈ (after calls).service.events,
      ((after (calls ++ [.subscriber i cancelled])).subscribers i).sent = ((after calls).subscribers i).sent ++ [entry] ∧
      (after calls).Unread i registration entry.version ∧
      ∀ version, (after calls).Unread i registration version → entry.version ≤ version) ∨
    (((after (calls ++ [.subscriber i cancelled])).subscribers i).sent = ((after calls).subscribers i).sent ∧
      ∀ version, registration < version → version ≤ (after calls).service.eventVersion →
        ((after calls).subscribers i).WasSent version ∨ EvictedUnread calls i version) := by
  have hfollowing := following hreg
  have hwindow := (inv_after calls).window
  have hlook : (after (calls ++ [.subscriber i cancelled])).subscribers i =
      ((after calls).subscribers i).look (after calls).service := by
    rw [after_append]
    show update _ i _ i = _
    rw [update_self]
    unfold EventSubscriber.step
    rw [hplace]
  rw [hlook]
  unfold EventSubscriber.look
  obtain ⟨-, hstop⟩ | ⟨hfound, hnothing⟩ | ⟨entry, hmem, hfound, hnext⟩ := hwindow.findNext hfollowing.high
  · cases hrunning.symm.trans hstop
  · right
    rw [hfound]
    refine ⟨rfl, fun version hver hpub => ?_⟩
    exact sent_of_observed hreg hver (by omega)
  · left
    rw [hfound]
    have hlow := hfollowing.low
    have hretained : entry ∈ (after calls).service.events := hwindow.retained_iff.mpr ⟨hmem, by omega⟩
    refine ⟨entry, hretained, rfl, ⟨by omega, ⟨entry, hretained, rfl⟩, fun sent hsent => ?_⟩, ?_⟩
    · have hobserved := (hfollowing.sent sent hsent).2.2
      omega
    · rintro version ⟨hver, hkept, holder⟩
      rw [retained_iff] at hkept
      -- the cursor has not passed an event that is unread
      have hahead : ((after calls).subscribers i).observedVersion < version := by
        by_contra hpassed
        rcases hfollowing.complete version hver (by omega) with ⟨sent, hsent, hsame⟩ | hdropped
        · have hlt := holder sent hsent
          omega
        · omega
      omega

end

theorem run_stopping (rest : List EventCall) (h : s.service.stopping = true) :
    (run step s rest).service.stopping = true := by
  refine @run_invariant _ _ _ step (fun s => s.service.stopping = true) (fun s call h => ?_) _ h rest
  cases call with
  | publishEvent event =>
    show (s.service.publishEvent event).stopping = true
    unfold publishEvent evict
    split <;> exact h
  | publishChassisState state => exact h
  | shutdown => rfl
  | subscriber j cancelled =>
    show ((s.subscribers j).step s.service cancelled).1.stopping = true
    unfold EventSubscriber.step
    cases (s.subscribers j).place <;> exact h

/-- The turns that a subscriber takes from its place to the next look. -/
def turnsToLook : SubscriberPlace → Nat
  | .writing => 2
  | .checking => 1
  | _ => 0

/-- **A turn takes a subscriber further**: to its next look, or by that look to the next event. -/
theorem turn_advances (h : s.Inv) (hreg : (s.subscribers i).registeredAt = some registration)
    (hleaving : (s.subscribers i).place ≠ .leaving) (hret : (s.subscribers i).place ≠ .returned)
    (hrunning : s.service.stopping = false) {target : Nat} (htarget : target ≤ s.service.eventVersion) :
    ∃ moved, ((s.subscribers i).step s.service false).2 = moved ∧ moved.registeredAt = some registration ∧
      moved.place ≠ .leaving ∧ moved.place ≠ .returned ∧
      3 * (target - moved.observedVersion) + turnsToLook moved.place ≤
        max 2 (3 * (target - (s.subscribers i).observedVersion) + turnsToLook (s.subscribers i).place - 1) := by
  have hok := h.subscribers i
  unfold SubscriberOk at hok
  rw [hreg] at hok
  refine ⟨_, rfl, ?_⟩
  unfold EventSubscriber.step
  cases hplace : (s.subscribers i).place with
  | registering => exact absurd hplace hok.1
  | leaving => exact absurd hplace hleaving
  | returned => exact absurd hplace hret
  | checking =>
    refine ⟨hreg, nofun, nofun, ?_⟩
    show 3 * (target - (s.subscribers i).observedVersion) + 0 ≤
      max 2 (3 * (target - (s.subscribers i).observedVersion) + 1 - 1)
    omega
  | writing =>
    refine ⟨hreg, nofun, nofun, ?_⟩
    show 3 * (target - (s.subscribers i).observedVersion) + 1 ≤
      max 2 (3 * (target - (s.subscribers i).observedVersion) + 2 - 1)
    omega
  | waiting =>
    simp only [EventSubscriber.look]
    obtain ⟨-, hstop⟩ | ⟨hfound, hnothing⟩ | ⟨entry, -, hfound, hnext⟩ := h.window.findNext hok.2.high
    · cases hrunning.symm.trans hstop
    · rw [hfound]
      refine ⟨hreg, nofun, nofun, ?_⟩
      show 3 * (target - (s.subscribers i).observedVersion) + 1 ≤ _
      omega
    · rw [hfound]
      refine ⟨hreg, nofun, nofun, ?_⟩
      show 3 * (target - entry.version) + 2 ≤ max 2 (3 * (target - (s.subscribers i).observedVersion) + 0 - 1)
      omega

/-- **Enough turns take a subscriber to the target.** -/
theorem run_reaches {rest : List EventCall} (h : s.Inv) (hreg : (s.subscribers i).registeredAt = some registration)
    (hleaving : (s.subscribers i).place ≠ .leaving) (hret : (s.subscribers i).place ≠ .returned)
    (hrunning : (run step s rest).service.stopping = false) (hclient : .subscriber i true ∉ rest) {target : Nat}
    (htarget : target ≤ s.service.eventVersion)
    (hturns : 3 * (target - (s.subscribers i).observedVersion) + turnsToLook (s.subscribers i).place ≤
      rest.countP (isTurn i) + 2) :
    ((run step s rest).subscribers i).registeredAt = some registration ∧
      target ≤ ((run step s rest).subscribers i).observedVersion := by
  induction rest generalizing s with
  | nil =>
    rw [countP_nil] at hturns
    rw [run_nil]
    exact ⟨hreg, by omega⟩
  | cons call rest ih =>
    have hrest : .subscriber i true ∉ rest := fun hmem => hclient (mem_cons_of_mem _ hmem)
    rw [run_cons] at hrunning ⊢
    have hver : target ≤ (s.step call).1.service.eventVersion := by
      cases call with
      | publishEvent event => exact Nat.le_succ_of_le htarget
      | publishChassisState | shutdown => exact htarget
      | subscriber j cancelled =>
        obtain ⟨hsame, -⟩ := step_service (s.subscribers j) s.service cancelled
        exact Nat.le_trans htarget (Nat.le_of_eq hsame.symm)
    cases hturn : isTurn i call with
    | false =>
      have hsame : (s.step call).1.subscribers i = s.subscribers i := by
        cases call with
        | publishEvent | publishChassisState | shutdown => rfl
        | subscriber j cancelled =>
          refine update_of_ne ?_ _ _
          rintro rfl
          exact of_decide_eq_false hturn rfl
      refine ih (h.step call) ?_ ?_ ?_ hrunning hrest hver ?_
      all_goals rw [hsame]
      · exact hreg
      · exact hleaving
      · exact hret
      · rwa [countP_cons_of_neg (by rw [hturn]; nofun)] at hturns
    | true =>
      obtain ⟨cancelled, rfl⟩ : ∃ cancelled, call = .subscriber i cancelled := by
        cases call with
        | publishEvent | publishChassisState | shutdown => cases hturn
        | subscriber j cancelled => exact ⟨cancelled, by rw [of_decide_eq_true hturn]⟩
      obtain rfl : cancelled = false := by
        cases cancelled with
        | false => rfl
        | true => exact absurd mem_cons_self hclient
      have hnow : s.service.stopping = false := by
        rw [← Bool.not_eq_true]
        intro hstop
        have hnext : (s.step (.subscriber i false)).1.service.stopping = true := run_stopping [.subscriber i false] hstop
        rw [run_stopping rest hnext] at hrunning
        cases hrunning
      obtain ⟨moved, hmoved, hmovedRegistered, hmovedLeaving, hmovedReturned, hcloser⟩ :=
        turn_advances h hreg hleaving hret hnow htarget
      have hsubscriber : (s.step (.subscriber i false)).1.subscribers i = moved := by
        show update _ i _ i = _
        rw [update_self, hmoved]
      rw [countP_cons_of_pos hturn] at hturns
      refine ih (h.step _) ?_ ?_ ?_ hrunning hrest hver ?_
      all_goals rw [hsubscriber]
      · exact hmovedRegistered
      · exact hmovedLeaving
      · exact hmovedReturned
      · omega

/-- A retained event is sent after enough turns. -/
theorem delivered {before rest : List EventCall}
    (hreg : ((after before).subscribers i).registeredAt = some registration)
    (hleaving : ((after before).subscribers i).place ≠ .leaving)
    (hret : ((after before).subscribers i).place ≠ .returned)
    (hrunning : (after (before ++ rest)).service.stopping = false) (hclient : .subscriber i true ∉ rest)
    (hturns : 3 * (after before).lag i ≤ rest.countP (isTurn i)) (hver : registration < version)
    (hpub : version ≤ (after before).service.eventVersion) :
    ((after (before ++ rest)).subscribers i).WasSent version ∨ EvictedUnread (before ++ rest) i version := by
  have hreached := (following hreg).reached
  unfold lag at hturns
  have hcost : turnsToLook ((after before).subscribers i).place ≤ 2 := by
    cases ((after before).subscribers i).place <;> decide
  have hruns := after_append before rest
  rw [hruns] at hrunning
  obtain ⟨hstays, hobserved⟩ := run_reaches (inv_after before) hreg hleaving hret hrunning hclient
    (Nat.le_refl _) (by omega)
  rw [← hruns] at hstays hobserved
  exact sent_of_observed hstays hver (Nat.le_trans hpub hobserved)

end EventSystem

end Cockpit.Vehicle
