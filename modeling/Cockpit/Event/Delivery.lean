/-
  What the `MessageBus` delivers, over all interleavings. The accounts of a single queue are those of
  `EventQueue.Balance`.
-/
import Cockpit.Event.BusEffect
import Cockpit.Lib.ListUpdate
import Mathlib.Data.List.Nodup

namespace Cockpit.Event

open StepRun List Option

namespace Holder

/-- The message under way. -/
def message : Holder → Option EventMessage
  | .sweeping message _ _ => some message
  | .publishing message _ _ => some message
  | .closing _ => none

/-- The queues that may still get it. -/
def pending : Holder → List Nat
  | .sweeping _ unchecked kept => (kept ++ unchecked).map (·.queue)
  | .publishing _ todo locked => locked.toList ++ todo.map (·.queue)
  | .closing _ => []

end Holder

namespace System

/-! ## The subscribers of the bus -/

/-- Whom the bus knows. -/
def registered (s : System) : List Subscriber :=
  match s.holder with
  | some (.sweeping _ unchecked kept) => kept ++ unchecked
  | _ => s.bus.subscribers

/-- The bus knows every subscription that is still there, once and under its own topic, and the publication in
    progress has each of them before it at most once. -/
structure WellFormed (s : System) : Prop where
  known : ∀ subscriber ∈ s.registered, ∃ subscription,
    s.subscriptions[subscriber.queue]? = some subscription ∧ subscription.topic = subscriber.topic
  once : (s.registered.map (·.queue)).Nodup
  complete : s.bus.closed = false →
    ∀ id, s.alive id = true → id ∈ s.registered.map (·.queue)
  reached : ∀ message todo locked, s.holder = some (.publishing message todo locked) →
    ∃ seen, s.bus.subscribers = seen ++ todo ∧ ∀ id ∈ locked, ∃ subscriber ∈ seen,
      subscriber.queue = id ∧ topicMatches subscriber.topic message.topic = true

theorem wellFormed_init (defaultQueueCapacity : Nat) :
    WellFormed { bus := { defaultQueueCapacity := defaultQueueCapacity } } := by
  constructor
  · intro subscriber hmem
    exact absurd hmem not_mem_nil
  · exact nodup_nil
  · intro _ id halive
    obtain ⟨_, hsome, _⟩ := exists_of_alive halive
    cases hsome
  · intro message todo locked hholder
    cases hholder

variable {s s' : System} {event : Option BusEvent}

theorem Effect.wellFormed_of_sublist (h : Effect s s' event) (hs : WellFormed s)
    (hsub : s'.registered.Sublist s.registered)
    (hgone : ∀ subscriber ∈ s.registered, s.alive subscriber.queue = true → subscriber ∈ s'.registered)
    (hnew : ∀ id topic, event = some (.subscribed id topic) → s'.bus.closed = true)
    (hclosed : s'.bus.closed = false → s.bus.closed = false)
    (hreached : ∀ message todo locked, s'.holder = some (.publishing message todo locked) → ∃ seen,
      s'.bus.subscribers = seen ++ todo ∧ ∀ id ∈ locked, ∃ subscriber ∈ seen, subscriber.queue = id ∧ topicMatches
      subscriber.topic message.topic = true) : WellFormed s' where
  known := by
    intro subscriber hmem
    obtain ⟨subscription, hsome, htopic⟩ := hs.known subscriber (hsub.subset hmem)
    obtain ⟨subscription', hsome', htopic', _⟩ := h.subscription hsome
    exact ⟨subscription', hsome', htopic'.trans htopic⟩
  once := hs.once.sublist (hsub.map _)
  complete := by
    intro hopen id halive
    rcases h.alive halive with hbefore | ⟨_, topic, hevent⟩
    · obtain ⟨subscriber, hmem, rfl⟩ := mem_map.mp (hs.complete (hclosed hopen) id hbefore)
      exact mem_map_of_mem (hgone subscriber hmem hbefore)
    · rw [hnew id topic hevent] at hopen
      cases hopen
  reached := hreached

variable {topic : String} {id : Nat}

theorem Effect.wellFormed_registered (h : Effect s s' (some (.subscribed id topic))) (hs : WellFormed s)
    (hholder : s'.holder = none) (hreg : s'.registered = s.registered ++ [⟨topic, id⟩])
    (hfresh : s.subscriptions[id]? = none) (hclosed : s'.bus.closed = false → s.bus.closed = false)
    (hthere : ∃ subscription, s'.subscriptions[id]? = some subscription ∧ subscription.topic = topic) :
    WellFormed s' := by
  constructor
  · intro subscriber hmem
    rw [hreg, mem_append, mem_singleton] at hmem
    rcases hmem with hmem | rfl
    · obtain ⟨subscription, hsome, htopic⟩ := hs.known subscriber hmem
      obtain ⟨subscription', hsome', htopic', _⟩ := h.subscription hsome
      exact ⟨subscription', hsome', htopic'.trans htopic⟩
    · exact hthere
  · rw [hreg, map_append, map_singleton]
    refine ListUpdate.nodup_snoc hs.once ?_
    intro hmem
    obtain ⟨subscriber, hold, rfl⟩ := mem_map.mp hmem
    obtain ⟨subscription, hsome, _⟩ := hs.known subscriber hold
    rw [hfresh] at hsome
    cases hsome
  · intro hopen id' halive
    rw [hreg, map_append, map_singleton, mem_append, mem_singleton]
    rcases h.alive halive with hbefore | ⟨_, topic', hevent⟩
    · exact .inl (hs.complete (hclosed hopen) id' hbefore)
    · cases hevent
      exact .inr rfl
  · intro message todo locked hpublishing
    rw [hholder] at hpublishing
    cases hpublishing

/-- **Every step keeps the subscribers in order.** -/
theorem Effect.wellFormed (h : Effect s s' event) (hs : WellFormed s) : WellFormed s' := by
  -- the steps after which the bus has the subscribers that it had
  have hsame : s'.registered = s.registered →
      (∀ id topic, event = some (.subscribed id topic) → s'.bus.closed = true) →
      (s'.bus.closed = false → s.bus.closed = false) →
      (∀ message todo locked, s'.holder = some (.publishing message todo locked) →
        ∃ seen, s'.bus.subscribers = seen ++ todo ∧ ∀ id ∈ locked, ∃ subscriber ∈ seen,
          subscriber.queue = id ∧ topicMatches subscriber.topic message.topic = true) →
      WellFormed s' := fun heq hnew hclosed hreached =>
    h.wellFormed_of_sublist hs (by rw [heq]) (fun subscriber hmem _ => by rw [heq]; exact hmem) hnew
      hclosed hreached
  have heffect := h
  cases h with
  | idle hevent => exact hs
  | subscribed topic queue registers hholder hclosed hempty hdrops metrics hsubscribers =>
    have hreg : s.registered = s.bus.subscribers := by rw [registered, hholder]
    cases registers with
    | true =>
      refine heffect.wellFormed_registered hs hholder ?_ ?_ (fun hopen => hopen) ?_
      · rw [hreg, registered, hholder]
        exact hsubscribers
      · exact List.getElem?_eq_none (Nat.le_refl _)
      · exact ⟨_, List.getElem?_concat_length, rfl⟩
    | false =>
      rw [if_neg Bool.false_ne_true, append_nil] at hsubscribers
      subst hsubscribers
      exact hsame rfl (fun _ _ _ => hclosed) (fun hopen => hopen) hs.reached
  | unsubscribed | called =>
    exact hsame rfl (fun _ _ hevent => nomatch hevent) (fun hopen => hopen) hs.reached
  | began message hholder hopen hseq metrics hmetrics =>
    refine hsame ?_ (fun _ _ hevent => nomatch hevent) (fun hopen => hopen)
      (fun _ _ _ hpublishing => nomatch hpublishing)
    rw [registered, registered, hholder]
    exact nil_append _
  | swept message subscriber unchecked kept hholder =>
    have hreg : s.registered = kept ++ subscriber :: unchecked := by rw [registered, hholder]
    refine heffect.wellFormed_of_sublist hs ?_ ?_ (fun _ _ hevent => nomatch hevent)
      (fun hopen => hopen) (fun _ _ _ hpublishing => nomatch hpublishing)
    · rw [hreg, registered]
      dsimp only
      rw [append_assoc]
      refine (List.Sublist.refl kept).append ?_
      split
      · exact List.Sublist.refl _
      · exact sublist_cons_self _ _
    · intro other hmem halive
      rw [hreg, mem_append, mem_cons] at hmem
      rw [registered]
      rw [mem_append, mem_append]
      rcases hmem with hmem | rfl | hmem
      · exact .inl (.inl hmem)
      · rw [if_pos halive]
        exact .inl (.inr mem_cons_self)
      · exact .inr hmem
  | sweptOut message kept hholder =>
    refine hsame ?_ (fun _ _ hevent => nomatch hevent) (fun hopen => hopen) ?_
    · rw [registered, registered, hholder]
      exact (append_nil _).symm
    · intro message' todo locked hpublishing
      cases hpublishing
      exact ⟨[], rfl, fun id hmem => nomatch hmem⟩
  | looked message subscriber todo locks hlocks hholder =>
    refine hsame ?_ (fun _ _ hevent => nomatch hevent) (fun hopen => hopen) ?_
    · rw [registered, registered, hholder]
    · intro message' todo' locked hpublishing
      cases hpublishing
      obtain ⟨seen, hseen, _⟩ := hs.reached message (subscriber :: todo) none hholder
      refine ⟨seen ++ [subscriber], ?_, ?_⟩
      · rw [hseen, append_assoc, singleton_append]
      · intro id hmem
        cases locks with
        | true =>
          obtain rfl : subscriber.queue = id := mem_some.mp hmem
          refine ⟨subscriber, mem_append_right _ mem_cons_self, rfl, ?_⟩
          exact (Bool.and_eq_true _ _ ▸ hlocks.symm : _ ∧ _).1
        | false => cases hmem
  | pushed message todo id subscription hholder hsubscription metrics hmetrics =>
    refine hsame ?_ (fun _ _ hevent => nomatch hevent) (fun hopen => hopen) ?_
    · rw [registered, registered, hholder]
    · intro message' todo' locked hpublishing
      cases hpublishing
      obtain ⟨seen, hseen, _⟩ := hs.reached message todo (some id) hholder
      exact ⟨seen, hseen, fun id hmem => nomatch hmem⟩
  | returned message hholder metrics hmetrics =>
    refine hsame ?_ (fun _ _ hevent => nomatch hevent) (fun hopen => hopen)
      (fun _ _ _ hpublishing => nomatch hpublishing)
    rw [registered, registered, hholder]
  | closed hholder =>
    refine hsame ?_ (fun _ _ hevent => nomatch hevent) (fun hopen => nomatch hopen)
      (fun _ _ _ hpublishing => nomatch hpublishing)
    rw [registered, registered, hholder]
  | closeSkipped subscriber todo hholder | closeCalled subscriber todo subscription hholder hsubscription
  | closeReturned hholder =>
    refine hsame ?_ (fun _ _ hevent => nomatch hevent) (fun hopen => hopen)
      (fun _ _ _ hpublishing => nomatch hpublishing)
    rw [registered, registered, hholder]

/-- The bus is well-formed in every reachable state. -/
theorem wellFormed_run (defaultQueueCapacity : Nat) (actions : List Action) :
    WellFormed (run step { bus := { defaultQueueCapacity := defaultQueueCapacity } } actions) :=
  run_invariant (fun s action hs => (s.step_effect action).wellFormed hs)
    (wellFormed_init defaultQueueCapacity) actions

/-! ## What a subscription gets -/

/-- The message that may still come to this queue. -/
def awaiting (s : System) (id : Nat) : Option EventMessage :=
  s.holder.bind fun holder => if id ∈ holder.pending then holder.message else none

def published : BusEvent → Option EventMessage
  | .published message => some message
  | _ => none

/-- `events` is what was shown since the subscription `id` to `topic`. -/
structure Delivers (id : Nat) (topic : String) (events : List BusEvent) (s : System) : Prop where
  queue : ∃ subscription, s.subscriptions[id]? = some subscription ∧ subscription.topic = topic
  order : ∃ earlier, events.filterMap published = earlier ++ (s.awaiting id).toList
    ∧ ((queueHistory id events).filterMap EventQueue.accepted).Sublist
      (earlier.filter fun message => topicMatches topic message.topic)
  increasing : (events.filterMap published).Pairwise (·.sequence < ·.sequence)
  past : ∀ message ∈ events.filterMap published, message.sequence < s.bus.nextSequence

theorem awaiting_of_subset {holder holder' : Holder} (hholder : s.holder = some holder)
    (hholder' : s'.holder = some holder') (hmessage : holder'.message = holder.message)
    (hpending : ∀ id ∈ holder'.pending, id ∈ holder.pending) (id : Nat) :
    s'.awaiting id = s.awaiting id ∨ s'.awaiting id = none := by
  rw [awaiting, awaiting, hholder, hholder', bind_some, bind_some, hmessage]
  by_cases hmem : id ∈ holder'.pending
  · left
    rw [if_pos hmem, if_pos (hpending id hmem)]
  · right
    rw [if_neg hmem]

theorem Effect.awaiting (h : Effect s s' event) (hbegan : ∀ message, event ≠ some (.published message))
    (hpushed : ∀ message answer, event ≠ some (.queue id (.push message) answer)) :
    s'.awaiting id = s.awaiting id ∨ s'.awaiting id = none := by
  cases h with
  | idle | subscribed | unsubscribed | called => exact .inl rfl
  | began message => exact absurd rfl (hbegan message)
  | swept message subscriber unchecked kept hholder =>
    refine awaiting_of_subset hholder rfl (by rfl) ?_ id
    intro id' hmem
    dsimp only [Holder.pending] at hmem ⊢
    rw [map_append, mem_append] at hmem ⊢
    rw [map_cons, mem_cons]
    rcases hmem with hmem | hmem
    · split at hmem
      · rw [map_append, map_singleton, mem_append, mem_singleton] at hmem
        exact hmem.imp_right .inl
      · rw [append_nil] at hmem
        exact .inl hmem
    · exact .inr (.inr hmem)
  | sweptOut message kept hholder =>
    refine awaiting_of_subset hholder rfl (by rfl) ?_ id
    intro id' hmem
    dsimp only [Holder.pending] at hmem ⊢
    rw [append_nil]
    exact hmem
  | looked message subscriber todo locks hlocks hholder =>
    refine awaiting_of_subset hholder rfl (by rfl) ?_ id
    intro id' hmem
    dsimp only [Holder.pending] at hmem ⊢
    cases locks with
    | true => exact hmem
    | false => exact mem_cons_of_mem _ hmem
  | pushed message todo called subscription hholder hsubscription =>
    have hne : called ≠ id := by
      rintro rfl
      exact hpushed message _ rfl
    refine awaiting_of_subset hholder rfl (by rfl) ?_ id
    intro id' hmem
    exact mem_cons_of_mem called hmem
  | returned | closed | closeSkipped | closeCalled | closeReturned => exact .inr rfl

theorem WellFormed.awaiting_pushed (hs : WellFormed s) {message : EventMessage} {todo : List Subscriber}
    (hholder : s.holder = some (.publishing message todo (some id))) :
    id ∉ (Holder.publishing message todo none).pending ∧ ∃ subscription, s.subscriptions[id]? = some subscription
      ∧ topicMatches subscription.topic message.topic = true := by
  obtain ⟨seen, hseen, hreached⟩ := hs.reached message todo (some id) hholder
  obtain ⟨subscriber, hmem, rfl, hmatches⟩ := hreached id rfl
  have hreg : s.registered = seen ++ todo := by rw [registered, hholder, hseen]
  constructor
  · intro htodo
    have honce := hs.once
    rw [hreg, map_append, nodup_append] at honce
    exact honce.2.2 subscriber.queue (mem_map_of_mem hmem) subscriber.queue htodo rfl
  · obtain ⟨subscription, hsome, htopic⟩ :=
      hs.known subscriber (hreg ▸ mem_append_left todo hmem)
    exact ⟨subscription, hsome, htopic ▸ hmatches⟩

variable {events : List BusEvent}

theorem Delivers.order_of_quiet {events' : List BusEvent} (hd : Delivers id topic events s)
    (hpub : events'.filterMap published = [])
    (hacc : (queueHistory id events').filterMap EventQueue.accepted = [])
    (hawaiting : s'.awaiting id = s.awaiting id ∨ s'.awaiting id = none) :
    ∃ earlier, (events ++ events').filterMap published = earlier ++ (s'.awaiting id).toList
      ∧ ((queueHistory id (events ++ events')).filterMap EventQueue.accepted).Sublist
        (earlier.filter fun message => topicMatches topic message.topic) := by
  obtain ⟨earlier, horder, hsub⟩ := hd.order
  rw [filterMap_append, hpub, append_nil, queueHistory_append, filterMap_append, hacc, append_nil]
  rcases hawaiting with hsame | hnone
  · exact ⟨earlier, by rw [horder, hsame], hsub⟩
  · refine ⟨earlier ++ (s.awaiting id).toList, ?_, ?_⟩
    · rw [horder, hnone, toList_none, append_nil]
    · rw [filter_append]
      exact hsub.trans (sublist_append_left _ _)

variable {call : EventQueue.Call EventMessage}

theorem accepted_of_not_push (hcall : ∀ message, call ≠ .push message) (answer : EventQueue.Answer EventMessage) :
    EventQueue.accepted (call, answer) = none := by
  cases call with
  | push message => exact absurd rfl (hcall message)
  | tryPop | waitPop | waitPopFor | discardPending | close => rfl

theorem accepted_queueHistory {called : Nat} (h : (∀ message, call ≠ .push message) ∨ called ≠ id)
    (answer : EventQueue.Answer EventMessage) :
    (queueHistory id [.queue called call answer]).filterMap EventQueue.accepted = [] := by
  rw [queueHistory_queue]
  split
  case isTrue heq =>
    rcases h with hcall | hne
    · rw [filterMap_cons, accepted_of_not_push hcall]
      rfl
    · exact absurd heq hne
  case isFalse => rfl

theorem accepted_push (queue : EventQueue EventMessage) (message : EventMessage) :
    ([(EventQueue.Call.push message, (queue.step (.push message)).2)].filterMap
      EventQueue.accepted).Sublist [message] := by
  dsimp only [EventQueue.step]
  cases (queue.push message).2 with
  | accepted => exact List.Sublist.refl _
  | closed | full => exact nil_sublist _

section

variable (h : Effect s s' event)
include h

theorem Effect.delivers_order (hs : WellFormed s) (hd : Delivers id topic events s) :
    ∃ earlier, (events ++ event.toList).filterMap published = earlier ++ (s'.awaiting id).toList
      ∧ ((queueHistory id (events ++ event.toList)).filterMap EventQueue.accepted).Sublist
        (earlier.filter fun message => topicMatches topic message.topic) := by
  have heffect := h
  cases h with
  | began message hholder =>
    obtain ⟨earlier, horder, hsub⟩ := hd.order
    have hbefore : s.awaiting id = none := by rw [System.awaiting, hholder, bind_none]
    rw [hbefore, toList_none, append_nil] at horder
    have hquiet : (queueHistory id (events ++ [.published message])).filterMap EventQueue.accepted
        = (queueHistory id events).filterMap EventQueue.accepted := by
      rw [queueHistory_append, filterMap_append]
      exact append_nil _
    rw [filterMap_append, horder, toList_some, hquiet, System.awaiting]
    dsimp only [bind_some]
    -- the new message is on its way to the queue, or it does not concern it
    split
    · exact ⟨earlier, rfl, hsub⟩
    · refine ⟨earlier ++ [message], (append_nil _).symm, ?_⟩
      rw [filter_append]
      exact hsub.trans (sublist_append_left _ _)
  | pushed message todo called subscription hholder hsubscription =>
    by_cases hid : called = id
    · subst hid
      obtain ⟨htodo, subscription', hsubscription', hmatches⟩ := hs.awaiting_pushed hholder
      obtain ⟨other, hother, htopic⟩ := hd.queue
      rw [hsubscription'] at hother
      cases hother
      obtain ⟨earlier, horder, hsub⟩ := hd.order
      have hbefore : s.awaiting called = some message := by
        rw [System.awaiting, hholder]
        exact if_pos mem_cons_self
      rw [hbefore, toList_some] at horder
      refine ⟨earlier ++ [message], ?_, ?_⟩
      · rw [filterMap_append, horder, System.awaiting]
        dsimp only [bind_some]
        rw [if_neg htodo]
        rfl
      · rw [queueHistory_append, filterMap_append, filter_append]
        refine hsub.append ?_
        rw [toList_some, queueHistory_queue, if_pos rfl, filter_cons_of_pos (htopic ▸ hmatches)]
        exact accepted_push subscription.queue message
    · refine hd.order_of_quiet rfl (accepted_queueHistory (.inr hid) _)
        (heffect.awaiting (fun _ hevent => nomatch hevent) ?_)
      intro message' answer hevent
      cases hevent
      exact hid rfl
  | called called call subscription hcall =>
    refine hd.order_of_quiet rfl (accepted_queueHistory (.inl hcall) _)
      (heffect.awaiting (fun _ hevent => nomatch hevent) ?_)
    intro message answer hevent
    cases hevent
    exact hcall message rfl
  | closeCalled subscriber todo subscription =>
    have hcall : ∀ message : EventMessage, EventQueue.Call.close ≠ .push message :=
      fun _ hcall => nomatch hcall
    refine hd.order_of_quiet rfl (accepted_queueHistory (.inl hcall) _)
      (heffect.awaiting (fun _ hevent => nomatch hevent) ?_)
    intro message answer hevent
    cases hevent
  | idle hevent =>
    rcases hevent with rfl | rfl <;> exact hd.order_of_quiet rfl rfl (.inl rfl)
  | subscribed | unsubscribed | swept | sweptOut | looked | returned | closed | closeSkipped
  | closeReturned =>
    exact hd.order_of_quiet rfl rfl (heffect.awaiting (fun _ hevent => nomatch hevent)
      (fun _ _ hevent => nomatch hevent))

theorem Effect.nextSequence_le : s.bus.nextSequence ≤ s'.bus.nextSequence := by
  cases h with
  | began => exact Nat.le_succ _
  | idle | subscribed | unsubscribed | swept | sweptOut | looked | pushed | returned | called | closed
  | closeSkipped | closeCalled | closeReturned => exact Nat.le_refl _

theorem Effect.published : event.toList.filterMap System.published = []
      ∨ ∃ message, event.toList.filterMap System.published = [message]
        ∧ message.sequence = s.bus.nextSequence ∧ s'.bus.nextSequence = s.bus.nextSequence + 1 := by
  cases h with
  | began message hholder hopen hseq => exact .inr ⟨message, rfl, hseq, rfl⟩
  | idle hevent =>
    rcases hevent with rfl | rfl <;> exact .inl rfl
  | subscribed | unsubscribed | swept | sweptOut | looked | pushed | returned | called | closed
  | closeSkipped | closeCalled | closeReturned => exact .inl rfl

/-- **Every step keeps what a subscription gets in order.** -/
theorem Effect.delivers (hs : WellFormed s) (hd : Delivers id topic events s) :
    Delivers id topic (events ++ event.toList) s' := by
  have hqueue : ∃ subscription, s'.subscriptions[id]? = some subscription
      ∧ subscription.topic = topic := by
    obtain ⟨subscription, hsome, htopic⟩ := hd.queue
    obtain ⟨subscription', hsome', htopic', _⟩ := h.subscription hsome
    exact ⟨subscription', hsome', htopic'.trans htopic⟩
  refine ⟨hqueue, h.delivers_order hs hd, ?_, ?_⟩
  · rw [filterMap_append]
    rcases h.published with hnone | ⟨message, hsome, hseq, _⟩
    · rw [hnone, append_nil]
      exact hd.increasing
    · rw [hsome]
      refine pairwise_append.mpr ⟨hd.increasing, pairwise_singleton _ _, ?_⟩
      intro earlier hmem later hlater
      rw [mem_singleton] at hlater
      rw [hlater, hseq]
      exact hd.past earlier hmem
  · intro message hmem
    rw [filterMap_append, mem_append] at hmem
    rcases hmem with hmem | hmem
    · exact Nat.lt_of_lt_of_le (hd.past message hmem) h.nextSequence_le
    · rcases h.published with hnone | ⟨message', hsome, hseq, hnext⟩
      · rw [hnone] at hmem
        cases hmem
      · rw [hsome, mem_singleton] at hmem
        rw [hmem, hseq, hnext]
        exact Nat.lt_succ_self _

end

/-- What the steps of a run show. -/
def shown (s : System) (actions : List Action) : List BusEvent :=
  (trace step s actions).filterMap Prod.snd

theorem shown_cons (s : System) (action : Action) (actions : List Action) :
    shown s (action :: actions) = (s.step action).2.toList ++ shown (s.step action).1 actions := by
  rw [shown, trace, filterMap_cons]
  cases (s.step action).2 <;> rfl

/-- A subscription gets what is published from then on. -/
theorem Delivers.run (hd : Delivers id topic events s) (hs : WellFormed s) (actions : List Action) :
    Delivers id topic (events ++ shown s actions) (run step s actions) := by
  induction actions generalizing s events with
  | nil =>
    rw [shown, trace, filterMap_nil, append_nil]
    exact hd
  | cons action actions ih =>
    have heffect := s.step_effect action
    rw [shown_cons, ← append_assoc]
    exact ih (heffect.delivers hs hd) (heffect.wellFormed hs)

variable {subscription : MessageSubscription}

/-- Each queue of the bus keeps its own balance. -/
theorem balance_along (h : s.subscriptions[id]? = some subscription) {q₀ : EventQueue EventMessage}
    {history : List (EventQueue.Call EventMessage × EventQueue.Answer EventMessage)}
    (hbalance : EventQueue.Balance q₀ history subscription.queue) (actions : List Action) :
    ∃ subscription', (run step s actions).subscriptions[id]? = some subscription'
      ∧ EventQueue.Balance q₀ (history ++ queueHistory id (shown s actions)) subscription'.queue := by
  induction actions generalizing s subscription history with
  | nil =>
    refine ⟨subscription, h, ?_⟩
    rw [shown, trace, filterMap_nil, queueHistory, filterMap_nil, append_nil]
    exact hbalance
  | cons action actions ih =>
    obtain ⟨subscription', hsome', _, _, hcalled⟩ := (s.step_effect action).subscription h
    rw [shown_cons, queueHistory_append, ← append_assoc]
    refine ih hsome' ?_
    rcases hcalled with ⟨hnone, hqueue⟩ | ⟨call, hone, hqueue⟩
    · rw [hnone, append_nil, hqueue]
      exact hbalance
    · rw [hone, hqueue]
      exact hbalance.step call

/-- **The accounts of a queue of the system**, from any state on. -/
theorem subscription_balance (h : s.subscriptions[id]? = some subscription) (actions : List Action) :
    ∃ subscription', (run step s actions).subscriptions[id]? = some subscription'
      ∧ EventQueue.Balance subscription.queue (queueHistory id (shown s actions)) subscription'.queue :=
  balance_along h (EventQueue.Balance.refl subscription.queue) actions

/-- A new subscription has nothing to its account. -/
theorem subscribe_delivers {topic' : String} {queueCapacity : Option Nat}
    (h : (s.step (.subscribe topic' queueCapacity)).2 = some (.subscribed id topic)) :
    Delivers id topic [] (s.step (.subscribe topic' queueCapacity)).1
      ∧ ∃ subscription, (s.step (.subscribe topic' queueCapacity)).1.subscriptions[id]? = some subscription
        ∧ subscription.queue.queue = [] ∧ subscription.queue.dropCount = 0 := by
  have heffect := s.step_effect (.subscribe topic' queueCapacity)
  rw [h] at heffect
  generalize (s.step (.subscribe topic' queueCapacity)).1 = s' at heffect ⊢
  cases heffect with
  | idle hevent => rcases hevent with hevent | hevent <;> cases hevent
  | subscribed topic queue registers hholder hclosed hempty hdrops =>
    have hthere : (s.subscriptions ++ [{ topic := topic, queue := queue }])[s.subscriptions.length]?
        = some { topic := topic, queue := queue } := List.getElem?_concat_length
    refine ⟨⟨⟨_, hthere, rfl⟩, ⟨[], ?_, List.Sublist.refl _⟩, List.Pairwise.nil, ?_⟩,
      ⟨_, hthere, hempty, hdrops⟩⟩
    · rw [System.awaiting, hholder]
      rfl
    · intro message hmem
      cases hmem

/-! ## What a publication counts -/

/-- The subscription is there and wants the topic. -/
def receives (s : System) (topic : String) (id : Nat) : Bool :=
  match s.subscriptions[id]? with
  | some subscription => subscription.owned && topicMatches subscription.topic topic
  | none => false

/-- A subscriber that a step comes to, and whether it receives. -/
def visit (topic : String) (s : System) : Option BusEvent → Option (Nat × Bool)
  | some (.swept id false) => some (id, s.receives topic id)
  | some (.looked id _) => some (id, s.receives topic id)
  | _ => none

/-- All of them. -/
def visits (topic : String) : System → List Action → List (Nat × Bool)
  | _, [] => []
  | s, action :: actions =>
    (visit topic s (s.step action).2).toList ++ visits topic (s.step action).1 actions

end System

namespace Holder

def remaining : Holder → List Nat
  | .sweeping _ unchecked kept => (kept ++ unchecked).map (·.queue)
  | .publishing _ todo _ => todo.map (·.queue)
  | .closing _ => []

/-- A message looked up and not pushed yet. -/
def owed : Holder → Nat
  | .publishing _ _ (some _) => 1
  | _ => 0

end Holder

namespace System

variable {s : System}

theorem receives_of_dead {id : Nat} (h : s.alive id = false) (topic : String) : s.receives topic id = false := by
  unfold receives
  unfold alive at h
  cases hsome : s.subscriptions[id]? with
  | some subscription =>
    rw [hsome] at h
    exact (congrArg (· && topicMatches subscription.topic topic) h).trans (Bool.false_and _)
  | none => rfl

theorem WellFormed.receives (hs : WellFormed s) {subscriber : Subscriber} (hmem : subscriber ∈ s.registered)
    (topic : String) : s.receives topic subscriber.queue
      = (topicMatches subscriber.topic topic && s.alive subscriber.queue) := by
  obtain ⟨subscription, hsome, htopic⟩ := hs.known subscriber hmem
  unfold System.receives alive
  rw [hsome, ← htopic]
  exact Bool.and_comm _ _

variable {message : EventMessage}

/-- **A publication in progress counts whom it comes to.** -/
theorem Effect.progress {s' : System} {event : Option BusEvent} (h : Effect s s' event) (hs : WellFormed s)
    {holder : Holder} (hholder : s.holder = some holder) (hmessage : holder.message = some message)
    (hret : event ≠ some .returned) : ∃ holder', s'.holder = some holder' ∧ holder'.message = some message
      ∧ holder.remaining.Perm ((visit message.topic s event).toList.map Prod.fst ++ holder'.remaining)
      ∧ s'.bus.metrics.delivered + s'.bus.metrics.dropped + holder'.owed
        = s.bus.metrics.delivered + s.bus.metrics.dropped + holder.owed
          + (visit message.topic s event).toList.countP Prod.snd := by
  cases h with
  | idle hevent =>
    refine ⟨holder, hholder, hmessage, ?_⟩
    rcases hevent with rfl | rfl <;> exact ⟨List.Perm.refl _, rfl⟩
  | subscribed _ _ _ hnone | began _ hnone | closed hnone =>
    rw [hnone] at hholder
    cases hholder
  | unsubscribed | called => exact ⟨holder, hholder, hmessage, List.Perm.refl _, rfl⟩
  | swept message' subscriber unchecked kept hsweeping =>
    rw [hsweeping] at hholder
    cases hholder
    cases hmessage
    refine ⟨_, rfl, rfl, ?_⟩
    cases halive : s.alive subscriber.queue with
    | true =>
      refine ⟨?_, rfl⟩
      dsimp only [Holder.remaining, visit]
      rw [if_pos rfl, append_assoc, singleton_append]
      exact List.Perm.refl _
    | false =>
      dsimp only [Holder.remaining, visit, toList_some, Holder.owed]
      rw [receives_of_dead halive, if_neg Bool.false_ne_true, append_nil, map_append, map_append, map_cons]
      exact ⟨perm_middle, rfl⟩
  | sweptOut message' kept hsweeping =>
    rw [hsweeping] at hholder
    cases hholder
    cases hmessage
    refine ⟨_, rfl, rfl, ?_, rfl⟩
    dsimp only [Holder.remaining]
    rw [append_nil]
    exact List.Perm.refl _
  | looked message' subscriber todo locks hlocks hpublishing =>
    rw [hpublishing] at hholder
    cases hholder
    cases hmessage
    refine ⟨_, rfl, rfl, List.Perm.refl _, ?_⟩
    obtain ⟨seen, hseen, _⟩ := hs.reached _ _ _ hpublishing
    have hmem : subscriber ∈ s.registered := by
      rw [registered, hpublishing, hseen]
      exact mem_append_right seen mem_cons_self
    dsimp only [visit, toList_some]
    rw [hs.receives hmem, ← hlocks]
    cases locks <;> rfl
  | pushed message' todo id subscription hpublishing hsubscription metrics hmetrics =>
    rw [hpublishing] at hholder
    cases hholder
    cases hmessage
    refine ⟨_, rfl, rfl, List.Perm.refl _, ?_⟩
    exact hmetrics
  | returned => exact absurd rfl hret
  | closeSkipped _ _ hclosing | closeCalled _ _ _ hclosing | closeReturned hclosing =>
    rw [hclosing] at hholder
    cases hholder
    cases hmessage

theorem visits_account (hs : WellFormed s) {holder : Holder} (hholder : s.holder = some holder)
    (hmessage : holder.message = some message) (actions : List Action) (hret : .returned ∉ shown s actions) :
    ∃ holder', (run step s actions).holder = some holder' ∧ holder'.message = some message ∧ holder.remaining.Perm
        ((visits message.topic s actions).map Prod.fst ++ holder'.remaining)
      ∧ (run step s actions).bus.metrics.delivered + (run step s actions).bus.metrics.dropped + holder'.owed
        = s.bus.metrics.delivered + s.bus.metrics.dropped + holder.owed
          + (visits message.topic s actions).countP Prod.snd := by
  induction actions generalizing s holder with
  | nil => exact ⟨holder, hholder, hmessage, List.Perm.refl _, rfl⟩
  | cons action actions ih =>
    rw [shown_cons, mem_append, not_or] at hret
    have heffect := s.step_effect action
    have hgoes : (s.step action).2 ≠ some .returned := by
      intro hevent
      rw [hevent] at hret
      exact hret.1 mem_cons_self
    obtain ⟨next, hnext, hmessage', hperm, hcount⟩ := heffect.progress hs hholder hmessage hgoes
    obtain ⟨last, hlast, hmessage'', hperm', hcount'⟩ :=
      ih (heffect.wellFormed hs) hnext hmessage' hret.2
    refine ⟨last, hlast, hmessage'', ?_, ?_⟩
    · rw [visits, map_append, append_assoc]
      exact hperm.trans (List.Perm.append_left _ hperm')
    · rw [visits, countP_append, run_cons, hcount', hcount]
      omega

theorem publish_begins {m : EventMessage} {wallMs : Int}
    (h : (s.step (.publish message wallMs)).2 = some (.published m)) : s.holder = none ∧ s.bus.closed = false
      ∧ (s.step (.publish message wallMs)).1.holder = some (.sweeping m s.bus.subscribers [])
      ∧ (s.step (.publish message wallMs)).1.bus.metrics.delivered
          + (s.step (.publish message wallMs)).1.bus.metrics.dropped
        = s.bus.metrics.delivered + s.bus.metrics.dropped := by
  have heffect := s.step_effect (.publish message wallMs)
  rw [h] at heffect
  generalize (s.step (.publish message wallMs)).1 = s' at heffect ⊢
  cases heffect with
  | idle hevent => rcases hevent with hevent | hevent <;> cases hevent
  | began _ hholder hopen hseq metrics hmetrics => exact ⟨hholder, hopen, rfl, hmetrics⟩

theorem publish_returns (h : (s.step .publishReturn).2 = some .returned) :
    ∃ message, s.holder = some (.publishing message [] none) ∧ (s.step .publishReturn).1.holder = none
      ∧ (s.step .publishReturn).1.bus.metrics.delivered + (s.step .publishReturn).1.bus.metrics.dropped
        = s.bus.metrics.delivered + s.bus.metrics.dropped := by
  have heffect := s.step_effect .publishReturn
  rw [h] at heffect
  generalize (s.step .publishReturn).1 = s' at heffect ⊢
  cases heffect with
  | idle hevent => rcases hevent with hevent | hevent <;> cases hevent
  | returned message hholder metrics hmetrics => exact ⟨message, hholder, rfl, hmetrics⟩

theorem metrics_of_free (h : s.holder = none) :
    s.metrics = some { s.bus.metrics with subscribers := s.bus.subscribers.length } := by
  unfold metrics
  rw [h]
  rfl

/-! ## The accounts of the bus -/

/-- **What is published reaches the subscriptions in order, and everything is counted**, whatever the
    interleaving: from its subscription on, a queue loses nothing but what it refuses as full or discards, and
    those it counts; and a publication that returns true has counted a message, delivered or dropped, for
    each subscription that was there when it came to it and that wants the topic. -/
theorem delivery_accounted (defaultQueueCapacity : Nat) (earlier : List Action) :
    let s := run step { bus := { defaultQueueCapacity := defaultQueueCapacity } } earlier
    (∀ topic queueCapacity id,
      (s.step (.subscribe topic queueCapacity)).2 = some (.subscribed id topic) → ∀ actions,
        let s' := (s.step (.subscribe topic queueCapacity)).1
        let history := queueHistory id (shown s' actions)
        (history.filterMap EventQueue.popped).Sublist
            (((shown s' actions).filterMap published).filter fun message =>
              topicMatches topic message.topic)
          ∧ (history.filterMap EventQueue.popped).Pairwise (·.sequence < ·.sequence)
          ∧ ∃ subscription, (run step s' actions).subscriptions[id]? = some subscription
            ∧ (history.filterMap EventQueue.accepted).length
              = (history.filterMap EventQueue.popped).length
                + (history.map EventQueue.discarded).sum + subscription.queue.queue.length
            ∧ subscription.queue.dropCount
              = history.countP EventQueue.foundFull + (history.map EventQueue.discarded).sum)
    ∧ ∀ message wallMs m, (s.step (.publish message wallMs)).2 = some (.published m) → ∀ actions,
        let s' := (s.step (.publish message wallMs)).1
        let t := run step s' actions
        .returned ∉ shown s' actions → (t.step .publishReturn).2 = some .returned →
          let visited := visits m.topic s' actions
          (visited.map Prod.fst).Nodup
            ∧ (∀ id, s.alive id = true → id ∈ visited.map Prod.fst)
            ∧ ∃ metrics metrics', s.metrics = some metrics
              ∧ (t.step .publishReturn).1.metrics = some metrics'
              ∧ metrics'.delivered + metrics'.dropped
                = metrics.delivered + metrics.dropped + visited.countP Prod.snd := by
  intro s
  have hs : WellFormed s := wellFormed_run defaultQueueCapacity earlier
  constructor
  · intro topic queueCapacity id hsubscribed actions s' history
    obtain ⟨hbegins, subscription, hsome, hempty, hdrops⟩ := subscribe_delivers hsubscribed
    have hd : Delivers id topic (shown s' actions) (run step s' actions) :=
      hbegins.run ((s.step_effect _).wellFormed hs) actions
    obtain ⟨subscription', hsome', hbalance⟩ := subscription_balance hsome actions
    obtain ⟨before, hpub, hacc⟩ := hd.order
    obtain ⟨left, horder, hpopped, hlen⟩ := hbalance.order
    rw [hempty, nil_append] at horder
    have hsub : (history.filterMap EventQueue.popped).Sublist
        (((shown s' actions).filterMap published).filter fun message =>
          topicMatches topic message.topic) := by
      rw [hpub, filter_append]
      have hleft : left.Sublist ((queueHistory id (shown s' actions)).filterMap EventQueue.accepted) := by
        rw [horder]
        exact sublist_append_left left _
      exact (hpopped.trans hleft).trans (hacc.trans (sublist_append_left _ _))
    refine ⟨hsub, ?_, subscription', hsome', ?_, ?_⟩
    · exact (hd.increasing.sublist filter_sublist).sublist hsub
    · rw [horder, length_append, hlen]
    · rw [hbalance.drops, hdrops, Nat.zero_add]
  · intro message wallMs m hpub actions s' t hret hends visited
    obtain ⟨hfree, hopen, hsweeping, hsame⟩ := publish_begins hpub
    obtain ⟨holder, hholder, hmessage, hperm, hcount⟩ :=
      visits_account ((s.step_effect _).wellFormed hs) hsweeping rfl actions hret
    obtain ⟨message', hlast, hfree', hsame'⟩ := publish_returns hends
    rw [hlast] at hholder
    cases hholder
    have hreg : s.registered = s.bus.subscribers := by rw [registered, hfree]
    have hvisited : (s.registered.map (·.queue)).Perm (visited.map Prod.fst) := by
      rw [hreg]
      rw [Holder.remaining, Holder.remaining, nil_append, map_nil, append_nil] at hperm
      exact hperm
    refine ⟨hvisited.nodup_iff.mp hs.once, ?_, _, _, metrics_of_free hfree, metrics_of_free hfree', ?_⟩
    · intro id halive
      exact hvisited.subset (hs.complete hopen id halive)
    · dsimp only
      rw [hsame', ← hsame]
      exact hcount

theorem delivery_accounted_closed_on_the_way :
    let message : EventMessage := { topic := "speed", payloadJson := "{}", timestampMs := 5 }
    let s := (step {} (.subscribe "*" none)).1
    let s' := run step {} [.subscribe "*" none, .subscribe "speed" (some 1)]
    let actions : List Action :=
      [.publishSweep, .publishSweep, .publishSweep, .publishNext, .publishPush, .queue 1 .close,
        .publishNext, .publishPush]
    let events := shown s (.subscribe "speed" (some 1) :: .publish message 1 ::
      (actions ++ [.publishReturn, .queue 0 .tryPop]))
    ((queueHistory 0 events).filterMap EventQueue.popped).Sublist
        ((events.filterMap published).filter fun message => topicMatches "*" message.topic)
      ∧ (queueHistory 0 events).filterMap EventQueue.popped = [{ message with sequence := 1 }]
      ∧ (visits "speed" (s'.step (.publish message 1)).1 actions).countP Prod.snd = 2
      ∧ ∃ metrics metrics', s'.metrics = some metrics
        ∧ ((run step (s'.step (.publish message 1)).1 actions).step .publishReturn).1.metrics
          = some metrics'
        ∧ metrics'.delivered + metrics'.dropped = metrics.delivered + metrics.dropped
          + (visits "speed" (s'.step (.publish message 1)).1 actions).countP Prod.snd := by
  have hdelivered := (delivery_accounted 128 []).1 "*" none 0 rfl
    [.subscribe "speed" (some 1),
      .publish { topic := "speed", payloadJson := "{}", timestampMs := 5 } 1, .publishSweep,
      .publishSweep, .publishSweep, .publishNext, .publishPush, .queue 1 .close, .publishNext,
      .publishPush, .publishReturn, .queue 0 .tryPop]
  have hcounted := (delivery_accounted 128 [.subscribe "*" none, .subscribe "speed" (some 1)]).2
    { topic := "speed", payloadJson := "{}", timestampMs := 5 } 1
    { topic := "speed", payloadJson := "{}", timestampMs := 5, sequence := 1 } rfl
    [.publishSweep, .publishSweep, .publishSweep, .publishNext, .publishPush, .queue 1 .close,
        .publishNext, .publishPush] (by decide) rfl
  obtain ⟨_, _, metrics, metrics', hbefore, hafter, hcount⟩ := hcounted
  exact ⟨hdelivered.1, by decide, by decide, metrics, metrics', hbefore, hafter, hcount⟩

theorem refusal_not_counted :
    let message : EventMessage := { topic := "speed", payloadJson := "{}" }
    let actions : List Action :=
      [.subscribe "speed" none, .queue 0 .close, .publish message 1, .publishSweep, .publishSweep,
        .publishNext, .publishPush, .publishReturn]
    let s := run step {} actions
    (queueHistory 0 (shown {} actions)).map Prod.snd = [.done, .pushed .closed]
      ∧ s.metrics.map (·.dropped) = some 1
      ∧ s.subscriptions[0]?.map (·.queue.dropCount) = some 0 := by
  decide

end System

end Cockpit.Event
