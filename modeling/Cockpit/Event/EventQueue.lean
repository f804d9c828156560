/-
  `EventQueue`: a bounded queue between threads. Every operation is one section under the queue's mutex, so a
  history is a list of calls with what each returned.
-/
import Mathlib.Algebra.GroupWithZero.Nat
import Cockpit.Lib.StepRun

namespace Cockpit.Event

open StepRun List

inductive EventQueuePushResult where
  | accepted
  | closed
  | full
  deriving DecidableEq

/-- `EventQueue`. -/
structure EventQueue (α : Type) where
  capacity : Nat
  queue : List α := []
  closed : Bool := false
  dropCount : Nat := 0
  deriving DecidableEq

namespace EventQueue

variable {α : Type}

/-! ## Operations -/

/-- A full queue refuses and counts, a closed one refuses only. -/
def push (q : EventQueue α) (event : α) : EventQueue α × EventQueuePushResult :=
  if q.closed then (q, .closed)
  else if q.capacity = 0 || q.capacity ≤ q.queue.length then
    ({ q with dropCount := q.dropCount + 1 }, .full)
  else ({ q with queue := q.queue ++ [event] }, .accepted)

/-- The section in which the call wakes up, also when its time is up. -/
def waitPopFor (q : EventQueue α) : EventQueue α × Option α :=
  ({ q with queue := q.queue.tail }, q.queue.head?)

def discardPending (q : EventQueue α) : EventQueue α :=
  { q with queue := [], dropCount := q.dropCount + q.queue.length }

def close (q : EventQueue α) : EventQueue α := { q with closed := true }

def tryPop (q : EventQueue α) : EventQueue α × Option α :=
  ({ q with queue := q.queue.tail }, q.queue.head?)

/-- What `WaitPop` waits for. -/
def ready (q : EventQueue α) : Bool := q.closed || !q.queue.isEmpty

/-- The section in which the call wakes up; `none` while it waits. -/
def waitPop (q : EventQueue α) : EventQueue α × Option (Option α) :=
  if q.ready then ({ q with queue := q.queue.tail }, some q.queue.head?) else (q, none)

theorem mem_push {q : EventQueue α} {event a : α} (h : a ∈ (q.push event).1.queue) : a ∈ q.queue ∨ a = event := by
  unfold push at h
  split at h
  · exact .inl h
  · split at h
    · exact .inl h
    · exact (mem_append.1 h).imp_right mem_singleton.1

/-! ## Histories -/

/-- The operations. -/
inductive Call (α : Type) where
  | push (event : α)
  | tryPop
  | waitPop
  | waitPopFor
  | discardPending
  | close
  deriving DecidableEq

/-- What a call returned; a `WaitPop` that has to wait has returned nothing yet. -/
inductive Answer (α : Type) where
  | pushed (result : EventQueuePushResult)
  | popped (event : Option α)
  | waits
  | discarded (count : Nat)
  | done
  deriving DecidableEq

def step (q : EventQueue α) : Call α → EventQueue α × Answer α
  | .push event => let (q, result) := q.push event; (q, .pushed result)
  | .tryPop => let (q, event) := q.tryPop; (q, .popped event)
  | .waitPop =>
    match q.waitPop with
    | (q, some event) => (q, .popped event)
    | (q, none) => (q, .waits)
  | .waitPopFor => let (q, event) := q.waitPopFor; (q, .popped event)
  | .discardPending => (q.discardPending, .discarded q.queue.length)
  | .close => (q.close, .done)

/-- The message that a call put in. -/
def accepted : Call α × Answer α → Option α
  | (.push event, .pushed .accepted) => some event
  | _ => none

/-- The message that a call took out. -/
def popped : Call α × Answer α → Option α
  | (_, .popped event) => event
  | _ => none

/-- How many messages a call threw away. -/
def discarded : Call α × Answer α → Nat
  | (_, .discarded count) => count
  | _ => 0

/-- The call was refused by a full queue. -/
def foundFull : Call α × Answer α → Bool
  | (_, .pushed .full) => true
  | _ => false

/-- The accounts of a history that began in `q₀` and led to `q`. -/
structure Balance (q₀ : EventQueue α) (history : List (Call α × Answer α)) (q : EventQueue α) :
    Prop where
  order : ∃ left, q₀.queue ++ history.filterMap accepted = left ++ q.queue
    ∧ (history.filterMap popped).Sublist left
    ∧ left.length = (history.filterMap popped).length + (history.map discarded).sum
  drops : q.dropCount = q₀.dropCount + history.countP foundFull + (history.map discarded).sum

theorem Balance.refl (q : EventQueue α) : Balance q [] q :=
  ⟨⟨[], append_nil _, List.Sublist.refl _, rfl⟩, rfl⟩

section Effects

variable {q₀ q : EventQueue α} {history : List (Call α × Answer α)}

variable {entry : Call α × Answer α}

section

variable (h : Balance q₀ history q)
include h

theorem Balance.keep {q' : EventQueue α} (hpopped : popped entry = none)
    (hdiscarded : discarded entry = 0) (hqueue : q'.queue = q.queue ++ (accepted entry).toList)
    (hdrops : q'.dropCount = q.dropCount + if foundFull entry then 1 else 0) :
    Balance q₀ (history ++ [entry]) q' := by
  obtain ⟨left, horder, hsub, hcount⟩ := h.order
  have hacc : (history ++ [entry]).filterMap accepted
      = history.filterMap accepted ++ (accepted entry).toList := by
    rw [filterMap_append, filterMap_cons, filterMap_nil]
    cases accepted entry <;> rfl
  have hpops : (history ++ [entry]).filterMap popped = history.filterMap popped := by
    rw [filterMap_append, filterMap_cons, hpopped, filterMap_nil, append_nil]
  have hdiscards : ((history ++ [entry]).map discarded).sum = (history.map discarded).sum := by
    rw [map_append, sum_append, map_cons, hdiscarded, map_nil, sum_cons, sum_nil]
    omega
  constructor
  · refine ⟨left, ?_, ?_, ?_⟩
    · rw [hacc, hqueue, ← append_assoc, horder, append_assoc]
    · rw [hpops]
      exact hsub
    · rw [hpops, hdiscards]
      exact hcount
  · have hdropped := h.drops
    rw [hdiscards, hdrops, countP_append, countP_singleton]
    omega

theorem Balance.take {q' : EventQueue α} (out : List α)
    (hacc : accepted entry = none) (hfull : foundFull entry = false) (hqueue : q.queue = out ++ q'.queue)
    (hpopped : (popped entry).toList.Sublist out)
    (hcount : out.length = (popped entry).toList.length + discarded entry)
    (hdrops : q'.dropCount = q.dropCount + discarded entry) : Balance q₀ (history ++ [entry]) q' := by
  obtain ⟨left, horder, hsub, hlen⟩ := h.order
  have hpops : (history ++ [entry]).filterMap popped
      = history.filterMap popped ++ (popped entry).toList := by
    rw [filterMap_append, filterMap_cons, filterMap_nil]
    cases popped entry <;> rfl
  have hdiscards : ((history ++ [entry]).map discarded).sum
      = (history.map discarded).sum + discarded entry := by
    rw [map_append, sum_append, map_cons, map_nil, sum_cons, sum_nil]
    omega
  constructor
  · refine ⟨left ++ out, ?_, ?_, ?_⟩
    · rw [filterMap_append, filterMap_cons, hacc, filterMap_nil, append_nil,
        horder, hqueue, append_assoc]
    · rw [hpops]
      exact hsub.append hpopped
    · rw [hpops, hdiscards, length_append, length_append, hlen, hcount]
      omega
  · have hdropped := h.drops
    rw [hdiscards, hdrops, countP_append, countP_singleton, hfull]
    simp only [Bool.false_eq_true, if_false]
    omega

theorem Balance.pop {call : Call α} (hcall : ∀ event, accepted (call, .popped event) = none) :
    Balance q₀ (history ++ [(call, .popped q.queue.head?)]) { q with queue := q.queue.tail } := by
  have hpopped : ∀ event, popped (call, .popped event) = event := fun event => by
    cases call <;> rfl
  have hother : discarded (call, .popped q.queue.head?) = 0
      ∧ foundFull (call, .popped q.queue.head?) = false := by
    cases call <;> exact ⟨rfl, rfl⟩
  refine h.take q.queue.head?.toList (hcall _) hother.2 ?_ ?_ ?_ ?_
  · cases q.queue <;> rfl
  · simp only [hpopped, List.Sublist.refl]
  · rw [hpopped, hother.1, Nat.add_zero]
  · rw [hother.1, Nat.add_zero]

/-- **Every call keeps the accounts.** -/
theorem Balance.step (call : Call α) : Balance q₀ (history ++ [(call, (q.step call).2)]) (q.step call).1 := by
  cases call with
  | push event =>
    dsimp only [EventQueue.step, push]
    split
    · exact h.keep rfl rfl (append_nil _).symm rfl
    · split
      · exact h.keep rfl rfl (append_nil _).symm rfl
      · exact h.keep rfl rfl rfl rfl
  | tryPop => exact h.pop fun _ => rfl
  | waitPop =>
    dsimp only [EventQueue.step, waitPop]
    cases q.ready with
    | true => exact h.pop fun _ => rfl
    | false => exact h.keep rfl rfl (append_nil _).symm rfl
  | waitPopFor => exact h.pop fun _ => rfl
  | discardPending =>
    exact h.take q.queue rfl rfl (append_nil _).symm (nil_sublist _)
      (Nat.zero_add _).symm rfl
  | close => exact h.keep rfl rfl (append_nil _).symm rfl

end

end Effects

end EventQueue

end Cockpit.Event
