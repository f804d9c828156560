/-
  What a step of the `MessageBus` does: what was so before, what it shows, and what is as it was.
-/
import Cockpit.Event.MessageBus

namespace Cockpit.Event

open StepRun

namespace System

/-! ## What a step does -/

/-- A step of the system, with what it shows. -/
inductive Effect (s : System) : System → Option BusEvent → Prop
  | idle {event : Option BusEvent} (hevent : event = none ∨ event = some .refused) : Effect s s event
  | subscribed (topic : String) (queue : EventQueue EventMessage) (registers : Bool)
      (hholder : s.holder = none) (hclosed : s.bus.closed = !registers) (hempty : queue.queue = [])
      (hdrops : queue.dropCount = 0) {subscribers : List Subscriber} (metrics : MessageBusMetrics)
      (hsubscribers : subscribers = s.bus.subscribers
        ++ if registers then [⟨topic, s.subscriptions.length⟩] else []) :
      Effect s
        { s with
          subscriptions := s.subscriptions ++ [{ topic := topic, queue := queue }],
          bus := { s.bus with subscribers := subscribers, metrics := metrics } }
        (some (.subscribed s.subscriptions.length topic))
  | unsubscribed (id : Nat) :
      Effect s
        { s with
          subscriptions := s.subscriptions.modify id fun subscription =>
            { subscription with owned := false } } none
  | began (message : EventMessage) (hholder : s.holder = none) (hopen : s.bus.closed = false)
      (hseq : message.sequence = s.bus.nextSequence) (metrics : MessageBusMetrics)
      (hmetrics : metrics.delivered + metrics.dropped
        = s.bus.metrics.delivered + s.bus.metrics.dropped) :
      Effect s
        { s with
          bus := { s.bus with nextSequence := s.bus.nextSequence + 1, metrics := metrics },
          holder := some (.sweeping message s.bus.subscribers []) } (some (.published message))
  | swept (message : EventMessage) (subscriber : Subscriber) (unchecked kept : List Subscriber)
      (hholder : s.holder = some (.sweeping message (subscriber :: unchecked) kept)) :
      Effect s
        { s with
          holder := some (.sweeping message unchecked
            (kept ++ if s.alive subscriber.queue then [subscriber] else [])) }
        (some (.swept subscriber.queue (s.alive subscriber.queue)))
  | sweptOut (message : EventMessage) (kept : List Subscriber)
      (hholder : s.holder = some (.sweeping message [] kept)) :
      Effect s
        { s with
          bus := { s.bus with subscribers := kept },
          holder := some (.publishing message kept none) } none
  | looked (message : EventMessage) (subscriber : Subscriber) (todo : List Subscriber) (locks : Bool)
      (hlocks : locks = (topicMatches subscriber.topic message.topic && s.alive subscriber.queue))
      (hholder : s.holder = some (.publishing message (subscriber :: todo) none)) :
      Effect s
        { s with
          holder := some (.publishing message todo (if locks then some subscriber.queue else none)) }
        (some (.looked subscriber.queue locks))
  | pushed (message : EventMessage) (todo : List Subscriber) (id : Nat)
      (subscription : MessageSubscription)
      (hholder : s.holder = some (.publishing message todo (some id)))
      (hsub : s.subscriptions[id]? = some subscription) (metrics : MessageBusMetrics)
      (hmetrics : metrics.delivered + metrics.dropped
        = s.bus.metrics.delivered + s.bus.metrics.dropped + 1) :
      Effect s
        { s with
          subscriptions := s.subscriptions.set id
            { subscription with queue := (subscription.queue.step (.push message)).1 },
          bus := { s.bus with metrics := metrics },
          holder := some (.publishing message todo none) }
        (some (.queue id (.push message) (subscription.queue.step (.push message)).2))
  | returned (message : EventMessage) (hholder : s.holder = some (.publishing message [] none))
      (metrics : MessageBusMetrics)
      (hmetrics : metrics.delivered + metrics.dropped
        = s.bus.metrics.delivered + s.bus.metrics.dropped) :
      Effect s { s with bus := { s.bus with metrics := metrics }, holder := none } (some .returned)
  | called (id : Nat) (call : EventQueue.Call EventMessage) (subscription : MessageSubscription)
      (hcall : ∀ message, call ≠ .push message)
      (hsub : s.subscriptions[id]? = some subscription) :
      Effect s
        { s with
          subscriptions := s.subscriptions.set id
            { subscription with queue := (subscription.queue.step call).1 } }
        (some (.queue id call (subscription.queue.step call).2))
  | closed (hholder : s.holder = none) :
      Effect s
        { s with
          bus := { s.bus with closed := true }, holder := some (.closing s.bus.subscribers) } none
  | closeSkipped (subscriber : Subscriber) (todo : List Subscriber)
      (hholder : s.holder = some (.closing (subscriber :: todo))) :
      Effect s { s with holder := some (.closing todo) } none
  | closeCalled (subscriber : Subscriber) (todo : List Subscriber) (subscription : MessageSubscription)
      (hholder : s.holder = some (.closing (subscriber :: todo)))
      (hsub : s.subscriptions[subscriber.queue]? = some subscription) :
      Effect s
        { s with
          subscriptions := s.subscriptions.set subscriber.queue
            { subscription with queue := (subscription.queue.step .close).1 },
          holder := some (.closing todo) }
        (some (.queue subscriber.queue .close (subscription.queue.step .close).2))
  | closeReturned (hholder : s.holder = some (.closing [])) : Effect s { s with holder := none } none

theorem onQueue_eq {s : System} {id : Nat} {subscription : MessageSubscription}
    (h : s.subscriptions[id]? = some subscription) (call : EventQueue.Call EventMessage) : s.onQueue id call
      = ({ s with
          subscriptions := s.subscriptions.set id
            { subscription with queue := (subscription.queue.step call).1 } },
        some (subscription.queue.step call).2) := by
  unfold onQueue
  rw [h]

/-- A queue that is alive is there. -/
theorem exists_of_alive {s : System} {id : Nat} (h : s.alive id = true) :
    ∃ subscription, s.subscriptions[id]? = some subscription ∧ subscription.owned = true := by
  unfold alive at h
  split at h
  · rename_i subscription hsub
    exact ⟨subscription, hsub, h⟩
  · cases h

variable (s : System)

/-- A subscription is registered, with an empty queue. -/
theorem subscribe_effect (topic : String) (queueCapacity : Option Nat) :
    Effect s (s.subscribe topic queueCapacity).1 (s.subscribe topic queueCapacity).2 := by
  unfold subscribe
  dsimp only
  split
  · exact .idle (.inl rfl)
  · rename_i hholder
    rw [Option.not_isSome_iff_eq_none] at hholder
    split <;> rename_i hclosed
    · exact .subscribed topic _ false hholder hclosed (by rfl) (by rfl) s.bus.metrics
        (List.append_nil _).symm
    · rw [Bool.not_eq_true] at hclosed
      exact .subscribed topic _ true hholder hclosed (by rfl) (by rfl) _ rfl

theorem publish_effect (message : EventMessage) (wallMs : Int) :
    Effect s (s.publish message wallMs).1 (s.publish message wallMs).2 := by
  unfold publish
  split
  · exact .idle (.inr rfl)
  · dsimp only
    split
    · exact .idle (.inl rfl)
    · rename_i hholder
      rw [Option.not_isSome_iff_eq_none] at hholder
      split
      · exact .idle (.inr rfl)
      · rename_i hclosed
        rw [Bool.not_eq_true] at hclosed
        exact .began _ hholder hclosed (by rfl) _ (by rfl)

/-- A subscriber is kept, or swept out. -/
theorem publishSweep_effect : Effect s s.publishSweep.1 s.publishSweep.2 := by
  unfold publishSweep
  split
  · rename_i message subscriber unchecked kept hholder
    have heffect := Effect.swept message subscriber unchecked kept hholder
    split
    · rename_i halive
      rw [halive] at heffect
      exact heffect
    · rename_i hdead
      rw [Bool.not_eq_true] at hdead
      rw [hdead, if_neg Bool.false_ne_true, List.append_nil] at heffect
      exact heffect
  · rename_i message kept hholder
    exact .sweptOut message kept hholder
  · exact .idle (.inl rfl)

/-- A subscriber wants the message, or not. -/
theorem publishNext_effect : Effect s s.publishNext.1 s.publishNext.2 := by
  unfold publishNext
  split
  · rename_i message subscriber todo hholder
    have heffect := Effect.looked message subscriber todo _ rfl hholder
    split <;> rename_i hlocks
    · rw [hlocks] at heffect
      exact heffect
    · rw [Bool.not_eq_true] at hlocks
      rw [hlocks] at heffect
      exact heffect
  · exact .idle (.inl rfl)

/-- The message is accepted or dropped. -/
theorem publishPush_effect : Effect s s.publishPush.1 s.publishPush.2 := by
  unfold publishPush
  split
  · rename_i message todo id hholder
    cases hsub : s.subscriptions[id]? with
    | none =>
      have hnone : s.onQueue id (.push message) = (s, none) := by
        unfold onQueue
        rw [hsub]
      rw [hnone]
      exact .idle (.inl rfl)
    | some subscription =>
      have heffect := Effect.pushed message todo id subscription hholder hsub
      rw [onQueue_eq hsub]
      generalize (subscription.queue.step (.push message)).2 = answer at heffect
      dsimp only
      split <;> rename_i hanswer
      · cases hanswer
        exact heffect _ (by dsimp only; omega)
      · cases hanswer
        exact heffect _ (by dsimp only; omega)
      · cases hanswer
  · exact .idle (.inl rfl)

theorem publishReturn_effect : Effect s s.publishReturn.1 s.publishReturn.2 := by
  unfold publishReturn
  split
  · rename_i message hholder
    exact .returned message hholder _ rfl
  · exact .idle (.inl rfl)

theorem queueCall_effect (id : Nat) (call : EventQueue.Call EventMessage) :
    Effect s (s.queueCall id call).1 (s.queueCall id call).2 := by
  unfold queueCall
  split
  · exact .idle (.inl rfl)
  · rename_i hcall
    split
    · rename_i halive
      obtain ⟨subscription, hsub, _⟩ := exists_of_alive halive
      rw [onQueue_eq hsub]
      exact .called id call subscription (fun message heq => hcall message heq) hsub
    · exact .idle (.inl rfl)

theorem closeNext_effect : Effect s s.closeNext.1 s.closeNext.2 := by
  unfold closeNext
  split
  · rename_i subscriber todo hholder
    dsimp only
    split
    · rename_i halive
      obtain ⟨subscription, hsub, _⟩ := exists_of_alive halive
      rw [onQueue_eq hsub]
      exact .closeCalled subscriber todo subscription hholder hsub
    · exact .closeSkipped subscriber todo hholder
  · exact .idle (.inl rfl)

/-- **Every step has one of the effects.** -/
theorem step_effect (action : Action) : Effect s (s.step action).1 (s.step action).2 := by
  cases action with
  | subscribe topic queueCapacity => exact s.subscribe_effect topic queueCapacity
  | unsubscribe id => exact .unsubscribed id
  | publish message wallMs => exact s.publish_effect message wallMs
  | publishSweep => exact s.publishSweep_effect
  | publishNext => exact s.publishNext_effect
  | publishPush => exact s.publishPush_effect
  | publishReturn => exact s.publishReturn_effect
  | queue id call => exact s.queueCall_effect id call
  | close =>
    dsimp only [step, close]
    split
    · exact .idle (.inl rfl)
    · rename_i hholder
      exact .closed (Option.not_isSome_iff_eq_none.mp hholder)
  | closeNext => exact s.closeNext_effect
  | closeReturn =>
    dsimp only [step, closeReturn]
    split
    · rename_i hholder
      exact .closeReturned hholder
    · exact .idle (.inl rfl)

/-! ## A queue of the system -/

/-- The calls that a queue has seen, in order. -/
def queueHistory (id : Nat) (events : List BusEvent) :
    List (EventQueue.Call EventMessage × EventQueue.Answer EventMessage) :=
  events.filterMap fun
    | .queue id' call answer => if id' = id then some (call, answer) else none
    | _ => none

theorem queueHistory_append (id : Nat) (events events' : List BusEvent) :
    queueHistory id (events ++ events') = queueHistory id events ++ queueHistory id events' :=
  List.filterMap_append

theorem queueHistory_queue (id called : Nat) (call : EventQueue.Call EventMessage)
    (answer : EventQueue.Answer EventMessage) :
    queueHistory id [.queue called call answer] = if called = id then [(call, answer)] else [] := by
  by_cases hid : called = id <;> simp [queueHistory, hid]

/-- **A step leaves a queue as it is, or it is one call to the queue.**  The topic stays, and a subscription
    that is gone does not come back. -/
theorem Effect.subscription {s s' : System} {event : Option BusEvent} (h : Effect s s' event) {id : Nat}
    {subscription : MessageSubscription} (hold : s.subscriptions[id]? = some subscription) :
    ∃ subscription', s'.subscriptions[id]? = some subscription' ∧ subscription'.topic = subscription.topic
      ∧ (subscription'.owned = true → subscription.owned = true)
      ∧ ((queueHistory id event.toList = [] ∧ subscription'.queue = subscription.queue)
        ∨ ∃ call, queueHistory id event.toList = [(call, (subscription.queue.step call).2)]
          ∧ subscription'.queue = (subscription.queue.step call).1) := by
  have hlt : id < s.subscriptions.length := (List.getElem?_eq_some_iff.mp hold).1
  -- one call to the queue `called`
  have hcall : ∀ (called : Nat) (call : EventQueue.Call EventMessage) (other : MessageSubscription),
      s.subscriptions[called]? = some other → ∃ subscription',
        (s.subscriptions.set called { other with queue := (other.queue.step call).1 })[id]?
          = some subscription'
        ∧ subscription'.topic = subscription.topic
        ∧ (subscription'.owned = true → subscription.owned = true)
        ∧ ((queueHistory id [.queue called call (other.queue.step call).2] = []
            ∧ subscription'.queue = subscription.queue)
          ∨ ∃ call', queueHistory id [.queue called call (other.queue.step call).2]
              = [(call', (subscription.queue.step call').2)]
            ∧ subscription'.queue = (subscription.queue.step call').1) := by
    intro called call other hother
    by_cases hid : called = id
    · subst hid
      rw [hold] at hother
      cases hother
      refine ⟨_, List.getElem?_set_self hlt, rfl, fun howned => howned, .inr ⟨call, ?_, rfl⟩⟩
      rw [queueHistory_queue, if_pos rfl]
    · refine ⟨subscription, ?_, rfl, fun howned => howned, .inl ⟨?_, rfl⟩⟩
      · rw [List.getElem?_set_ne hid]
        exact hold
      · rw [queueHistory_queue, if_neg hid]
  cases h with
  | idle hevent =>
    refine ⟨subscription, hold, rfl, fun howned => howned, .inl ⟨?_, rfl⟩⟩
    rcases hevent with rfl | rfl <;> rfl
  | subscribed =>
    refine ⟨subscription, ?_, rfl, fun howned => howned, .inl ⟨rfl, rfl⟩⟩
    rw [List.getElem?_append_left hlt]
    exact hold
  | unsubscribed gone =>
    dsimp only
    by_cases hid : gone = id
    · subst hid
      refine ⟨{ subscription with owned := false }, ?_, rfl, (fun howned => nomatch howned),
        .inl ⟨rfl, rfl⟩⟩
      rw [List.getElem?_modify_eq, hold]
      rfl
    · refine ⟨subscription, ?_, rfl, fun howned => howned, .inl ⟨rfl, rfl⟩⟩
      rw [List.getElem?_modify_ne _ _ hid]
      exact hold
  | pushed message todo called other _ hother => exact hcall called (.push message) other hother
  | called called call other _ hother => exact hcall called call other hother
  | closeCalled subscriber _ other _ hother => exact hcall subscriber.queue .close other hother
  | began | swept | sweptOut | looked | returned | closed | closeSkipped | closeReturned =>
    exact ⟨subscription, hold, rfl, fun howned => howned, .inl ⟨rfl, rfl⟩⟩

theorem Effect.alive {s s' : System} {event : Option BusEvent} (h : Effect s s' event) {id : Nat}
    (halive : s'.alive id = true) :
    s.alive id = true ∨ (id = s.subscriptions.length ∧ ∃ topic, event = some (.subscribed id topic)) := by
  obtain ⟨subscription', hnew, howned⟩ := exists_of_alive halive
  by_cases hlt : id < s.subscriptions.length
  · left
    have hold : s.subscriptions[id]? = some s.subscriptions[id] := List.getElem?_eq_getElem hlt
    obtain ⟨subscription'', hnew', _, howned', _⟩ := h.subscription hold
    rw [hnew] at hnew'
    cases hnew'
    unfold System.alive
    rw [hold]
    exact howned' howned
  · have hlen : id < s'.subscriptions.length := (List.getElem?_eq_some_iff.mp hnew).1
    cases h with
    | subscribed topic =>
      right
      rw [List.length_append, List.length_singleton] at hlen
      obtain rfl : id = s.subscriptions.length := by omega
      exact ⟨rfl, topic, rfl⟩
    | unsubscribed =>
      rw [List.length_modify] at hlen
      exact absurd hlen hlt
    | pushed | called | closeCalled =>
      rw [List.length_set] at hlen
      exact absurd hlen hlt
    | idle | began | swept | sweptOut | looked | returned | closed | closeSkipped | closeReturned =>
      exact absurd hlen hlt

end System

end Cockpit.Event
