/-
  `MessageBus`: publications to the bounded queues of the subscriptions. Any number of threads publish,
  subscribe, pop and close. A publication holds the bus mutex while it takes those of the queues one after the
  other; a step is one section under a queue's mutex, or one part of what the holder of the bus mutex does in
  between.

  Sequence numbers and counters are `Nat`.
-/
import Cockpit.Event.EventQueue

namespace Cockpit.Event

open StepRun

/-! ## Messages and metrics -/

structure EventMessage where
  topic : String := ""
  type : String := ""
  source : String := ""
  payloadJson : String := ""
  timestampMs : Int := 0
  sequence : Nat := 0
  deriving DecidableEq

def EventMessage.isValid (message : EventMessage) : Bool :=
  !message.topic.isEmpty && !message.payloadJson.isEmpty

structure MessageBusMetrics where
  published : Nat := 0
  delivered : Nat := 0
  dropped : Nat := 0
  subscribers : Nat := 0
  deriving DecidableEq

/-- `TopicMatches`. -/
def topicMatches (subscription topic : String) : Bool := subscription == "*" || subscription == topic

/-! ## The bus and the queues -/

/-- A subscriber of the bus: `queue` is the place of its queue in the system. -/
structure Subscriber where
  topic : String
  queue : Nat
  deriving DecidableEq

structure MessageBus where
  defaultQueueCapacity : Nat := 128
  subscribers : List Subscriber := []
  metrics : MessageBusMetrics := {}
  closed : Bool := false
  nextSequence : Nat := 1
  deriving DecidableEq

/-- A `MessageSubscription` with its queue. -/
structure MessageSubscription where
  topic : String
  queue : EventQueue EventMessage
  owned : Bool := true
  deriving DecidableEq

/-- What the thread that has the bus mutex is doing. -/
inductive Holder where
  | sweeping (message : EventMessage) (unchecked kept : List Subscriber)
  | publishing (message : EventMessage) (todo : List Subscriber) (locked : Option Nat)
  | closing (todo : List Subscriber)
  deriving DecidableEq

/-- The bus, every queue ever handed out, and what the holder of the bus mutex is doing. -/
structure System where
  bus : MessageBus := {}
  subscriptions : List MessageSubscription := []
  holder : Option Holder := none
  deriving DecidableEq

/-! ## Steps -/

/-- A step that needs the bus mutex while another thread has it is no step. -/
inductive Action where
  | subscribe (topic : String) (queueCapacity : Option Nat)
  | unsubscribe (id : Nat)
  | publish (message : EventMessage) (wallMs : Int)
  | publishSweep
  | publishNext
  | publishPush
  | publishReturn
  | queue (id : Nat) (call : EventQueue.Call EventMessage)
  | close
  | closeNext
  | closeReturn

/-- What a step shows of itself. -/
inductive BusEvent where
  | subscribed (id : Nat) (topic : String)
  | refused
  | published (message : EventMessage)
  | swept (id : Nat) (kept : Bool)
  | looked (id : Nat) (locks : Bool)
  | queue (id : Nat) (call : EventQueue.Call EventMessage) (answer : EventQueue.Answer EventMessage)
  | returned
  deriving DecidableEq

namespace System

variable (s : System)

/-- The queue lives as long as the subscription that was handed out. -/
def alive (id : Nat) : Bool :=
  match s.subscriptions[id]? with
  | some subscription => subscription.owned
  | none => false

/-- A section under the mutex of one queue. -/
def onQueue (id : Nat) (call : EventQueue.Call EventMessage) : System × Option (EventQueue.Answer EventMessage) :=
  match s.subscriptions[id]? with
  | none => (s, none)
  | some subscription =>
    let result := subscription.queue.step call
    ({ s with subscriptions := s.subscriptions.set id { subscription with queue := result.1 } },
      some result.2)

def subscribe (topic : String) (queueCapacity : Option Nat) : System × Option BusEvent :=
  let id := s.subscriptions.length
  let queue : EventQueue EventMessage :=
    { capacity := queueCapacity.getD s.bus.defaultQueueCapacity }
  if s.holder.isSome then (s, none)
  else if s.bus.closed then
    ({ s with subscriptions := s.subscriptions ++ [{ topic := topic, queue := queue.close }] },
      some (.subscribed id topic))
  else
    let subscribers := s.bus.subscribers ++ [{ topic := topic, queue := id }]
    ({ s with
        subscriptions := s.subscriptions ++ [{ topic := topic, queue := queue }],
        bus :=
          { s.bus with
            subscribers := subscribers,
            metrics := { s.bus.metrics with subscribers := subscribers.length } } },
      some (.subscribed id topic))

def unsubscribe (id : Nat) : System × Option BusEvent :=
  ({ s with subscriptions := s.subscriptions.modify id fun subscription =>
      { subscription with owned := false } }, none)

def publish (message : EventMessage) (wallMs : Int) : System × Option BusEvent :=
  if !message.isValid then (s, some .refused)
  else
    let message :=
      if message.timestampMs = 0 then { message with timestampMs := wallMs } else message
    if s.holder.isSome then (s, none)
    else if s.bus.closed then (s, some .refused)
    else
      let message := { message with sequence := s.bus.nextSequence }
      ({ s with
          bus :=
            { s.bus with
              nextSequence := s.bus.nextSequence + 1,
              metrics := { s.bus.metrics with published := s.bus.metrics.published + 1 } },
          holder := some (.sweeping message s.bus.subscribers []) },
        some (.published message))

/-- Look at one subscriber, and drop it when its queue is gone. -/
def publishSweep : System × Option BusEvent :=
  match s.holder with
  | some (.sweeping message (subscriber :: unchecked) kept) =>
    if s.alive subscriber.queue then
      ({ s with holder := some (.sweeping message unchecked (kept ++ [subscriber])) },
        some (.swept subscriber.queue true))
    else
      ({ s with holder := some (.sweeping message unchecked kept) },
        some (.swept subscriber.queue false))
  | some (.sweeping message [] kept) =>
    ({ s with
        bus := { s.bus with subscribers := kept },
        holder := some (.publishing message kept none) }, none)
  | _ => (s, none)

/-- The next subscriber: its topic, and whether its queue is still there. -/
def publishNext : System × Option BusEvent :=
  match s.holder with
  | some (.publishing message (subscriber :: todo) none) =>
    if topicMatches subscriber.topic message.topic && s.alive subscriber.queue then
      ({ s with holder := some (.publishing message todo (some subscriber.queue)) },
        some (.looked subscriber.queue true))
    else
      ({ s with holder := some (.publishing message todo none) },
        some (.looked subscriber.queue false))
  | _ => (s, none)

/-- The queue is held, so it is there even if its subscription went away. -/
def publishPush : System × Option BusEvent :=
  match s.holder with
  | some (.publishing message todo (some id)) =>
    match s.onQueue id (.push message) with
    | (s, some (.pushed .accepted)) =>
      ({ s with
          bus :=
            { s.bus with
              metrics := { s.bus.metrics with delivered := s.bus.metrics.delivered + 1 } },
          holder := some (.publishing message todo none) },
        some (.queue id (.push message) (.pushed .accepted)))
    | (s, some answer) =>
      ({ s with
          bus :=
            { s.bus with metrics := { s.bus.metrics with dropped := s.bus.metrics.dropped + 1 } },
          holder := some (.publishing message todo none) },
        some (.queue id (.push message) answer))
    | (s, none) => (s, none)
  | _ => (s, none)

/-- The end of a publication. -/
def publishReturn : System × Option BusEvent :=
  match s.holder with
  | some (.publishing _ [] none) =>
    ({ s with
        bus :=
          { s.bus with
            metrics := { s.bus.metrics with subscribers := s.bus.subscribers.length } },
        holder := none }, some .returned)
  | _ => (s, none)

def queueCall (id : Nat) (call : EventQueue.Call EventMessage) : System × Option BusEvent :=
  match call with
  | .push _ => (s, none)
  | call =>
    if s.alive id then
      let result := s.onQueue id call
      (result.1, result.2.map (.queue id call))
    else (s, none)

def close : System × Option BusEvent :=
  if s.holder.isSome then (s, none)
  else
    ({ s with bus := { s.bus with closed := true }, holder := some (.closing s.bus.subscribers) }, none)

def closeNext : System × Option BusEvent :=
  match s.holder with
  | some (.closing (subscriber :: todo)) =>
    let s := { s with holder := some (.closing todo) }
    if s.alive subscriber.queue then
      let result := s.onQueue subscriber.queue .close
      (result.1, result.2.map (.queue subscriber.queue .close))
    else (s, none)
  | _ => (s, none)

def closeReturn : System × Option BusEvent :=
  match s.holder with
  | some (.closing []) => ({ s with holder := none }, none)
  | _ => (s, none)

/-- `Metrics` waits for the bus mutex. -/
def metrics (s : System) : Option MessageBusMetrics :=
  if s.holder.isSome then none
  else some { s.bus.metrics with subscribers := s.bus.subscribers.length }

def step : Action → System × Option BusEvent
  | .subscribe topic queueCapacity => s.subscribe topic queueCapacity
  | .unsubscribe id => s.unsubscribe id
  | .publish message wallMs => s.publish message wallMs
  | .publishSweep => s.publishSweep
  | .publishNext => s.publishNext
  | .publishPush => s.publishPush
  | .publishReturn => s.publishReturn
  | .queue id call => s.queueCall id call
  | .close => s.close
  | .closeNext => s.closeNext
  | .closeReturn => s.closeReturn

end System

end Cockpit.Event
