/-
  Every output that `AsyncVoiceResponseSink` accepts completes exactly once.
-/
import Cockpit.Lib.ListUpdate
import Mathlib.Data.List.Nodup
import Cockpit.Voice.AsyncSink

namespace Cockpit.Voice

open List Function

/-! ## Places -/

/-- How far the output's `Complete` is. -/
inductive Stage where
  | pending
  | exchanged
  | counted

/-- How far `Complete` is. -/
def Completing.stage : Completing → Stage
  | .exchanging _ _ => .pending
  | .counting _ _ => .exchanged
  | .invoking _ _ => .counted

def Completing.status : Completing → VoiceOutputStatus
  | .exchanging status _ | .counting status _ | .invoking status _ => status

/-- A thread that has outputs. -/
inductive Holder where
  | worker
  | caller (i : Nat)
  | downstream (output : Nat)
  deriving DecidableEq

/-- Where an output is. -/
inductive Place where
  | fresh
  | queued
  | held (holder : Holder) (stage : Stage)
  | finished

namespace Place

/-- The flag of an output that is there. -/
def completed : Place → Bool
  | held _ .exchanged | held _ .counted | finished => true
  | _ => false

def isCounted : Place → Bool
  | held _ .counted | finished => true
  | _ => false

/-- Where an output can be that a caller took. -/
def isTaken : Place → Bool
  | held (.caller _) _ | finished => true
  | _ => false

end Place

/-- The output that the worker has to see to. -/
def SinkWorker.holds : SinkWorker → List (Nat × Stage)
  | .popped n | .calling n false | .refused n => [(n, .pending)]
  | .completing n place => [(n, place.stage)]
  | .waiting | .calling _ true | .clearing _ | .ended => []

/-- The output that the worker is about to hand downstream. -/
def SinkWorker.next : SinkWorker → List Nat
  | .popped n => [n]
  | _ => []

def SinkWorker.inCall : SinkWorker → Option Nat
  | .calling n _ => some n
  | _ => none

def Downstream.stage? : Downstream → Option Stage
  | .nothing => none
  | .owing | .completing _ _ => some .pending
  | .finishing place => some place.stage

def Cancelling.holds : Cancelling → List (Nat × Stage)
  | .idle => []
  | .interrupting pending | .draining pending => pending.map (·, .pending)
  | .completing n place pending => (n, place.stage) :: pending.map (·, .pending)

/-! ## Laws -/

namespace Downcall

/-- The call that is in progress behind a call or a return; none is while another one is. -/
def next : Option Nat → Downcall → Option (Option Nat)
  | none, call n => some (some n)
  | some m, returned n => if m = n then some none else none
  | _, _ => none

def called? : Downcall → Option Nat
  | call n => some n
  | returned _ => none

end Downcall

namespace AsyncVoiceResponseSink

variable {s s' : AsyncVoiceResponseSink}

def holds (s : AsyncVoiceResponseSink) : Holder → List (Nat × Stage)
  | .worker => s.worker.holds
  | .caller i => (s.callers i).holds
  | .downstream n => (s.downstream n).stage?.toList.map (n, ·)

/-- The outputs that were handed downstream. -/
def calls (s : AsyncVoiceResponseSink) : List Nat := s.downcalls.filterMap Downcall.called?

/-- Neither in the queue nor with the worker, a caller or the sink downstream. -/
def Handled (s : AsyncVoiceResponseSink) (output : Nat) : Prop :=
  output ∉ s.queue ∧ ∀ holder stage, (output, stage) ∉ s.holds holder

/-- Nothing queued, nothing held. -/
def Quiescent (s : AsyncVoiceResponseSink) : Prop := s.queue = [] ∧ ∀ holder, s.holds holder = []

/-- The output is at this place. -/
def At (s : AsyncVoiceResponseSink) (n : Nat) : Place → Prop
  | .fresh => s.outputs.length ≤ n
  | .queued => n ∈ s.queue
  | .held holder stage => (n, stage) ∈ s.holds holder
  | .finished => n ∈ s.completions.map Prod.fst

/-- The output is there and nowhere else, and its marks say so. -/
structure Located (s : AsyncVoiceResponseSink) (n : Nat) (place : Place) : Prop where
  at_iff : ∀ q, s.At n q ↔ q = place
  completed : s.completed n = place.completed
  counted : n ∈ s.counted ↔ place.isCounted = true

/-- `place` says where every output is. -/
structure Inv (s : AsyncVoiceResponseSink) (place : Nat → Place) : Prop where
  located : ∀ n, s.Located n (place n)
  distinct : ∀ holder, ((s.holds holder).map Prod.fst).Nodup
  once : (s.completions.map Prod.fst).Nodup
  countedOnce : s.counted.Nodup
  queued : s.queued = s.outputs.length
  accounts : s.played + s.failed + s.dropped = s.counted.length + s.refusals
  refusals : s.refusals ≤ s.dropped
  order : (s.calls ++ s.worker.next ++ s.queue ++ [s.outputs.length]).Pairwise (· < ·)
  inCall : s.downcalls.foldlM Downcall.next none = some s.worker.inCall
  /-- What a caller took is with it, or was completed as cancelled; it was never handed downstream. -/
  taken : ∀ n ∈ s.taken, (place n).isTaken = true ∧ n ∉ s.calls
  cancels : ∀ i n c pending, s.callers i = .completing n c pending → c.status = .cancelled
  cancelled : ∀ e ∈ s.completions, e.1 ∈ s.taken → e.2.status = .cancelled
  own : ∀ e ∈ s.completions, s.outputs[e.1]?.map PendingOutput.requestId = some e.2.requestId

/-! ## Moving one output -/

variable {place : Nat → Place} {n : Nat} {holder : Holder} {stage stage' : Stage} {rest : List (Nat × Stage)} {d : Downstream}

theorem Located.eq (h : s.Located n (place n)) {q : Place} (hq : s.At n q) : place n = q :=
  ((h.at_iff q).mp hq).symm

variable {p' : Place}

theorem Located.same {p : Place} (h : s.Located n p) (hat : ∀ q, s'.At n q ↔ s.At n q)
    (hcompleted : s'.completed n = s.completed n) (hcounted : n ∈ s'.counted ↔ n ∈ s.counted) : s'.Located n p :=
  ⟨fun q => (hat q).trans (h.at_iff q), hcompleted.trans h.completed, hcounted.trans h.counted⟩

/-- **One output moves**, and its marks are set; every other one stays where it was. -/
theorem located_moves {p : Place} (h : ∀ m, s.Located m (place m)) (hp : place n = p)
    (hat : ∀ m q, (m = n → q ≠ p ∧ q ≠ p') → (s'.At m q ↔ s.At m q)) (hold : p ≠ p' → ¬ s'.At n p)
    (hnew : s'.At n p') (hcompleted : ∀ m, m ≠ n → s'.completed m = s.completed m)
    (hcounted : ∀ m, m ≠ n → (m ∈ s'.counted ↔ m ∈ s.counted)) (hself : s'.completed n = p'.completed)
    (hself' : n ∈ s'.counted ↔ p'.isCounted = true) (m : Nat) : s'.Located m (update place n p' m) := by
  by_cases hm : m = n
  · subst hm
    rw [update_self]
    refine ⟨fun q => ?_, hself, hself'⟩
    by_cases hq' : q = p'
    · exact iff_of_true (hq' ▸ hnew) hq'
    · refine iff_of_false (fun hq => ?_) hq'
      by_cases hqp : q = p
      · exact hold (hqp ▸ hq') (hqp ▸ hq)
      · exact hqp ((((h m).at_iff q).mp ((hat m q fun _ => ⟨hqp, hq'⟩).mp hq)).trans hp)
  · rw [update_of_ne hm]
    exact (h m).same (fun q => hat m q fun hmn => absurd hmn hm) (hcompleted m hm) (hcounted m hm)

theorem located_advance (h : ∀ m, s.Located m (place m)) (hs : s.holds holder = (n, stage) :: rest)
    (hdistinct : ((s.holds holder).map Prod.fst).Nodup) (hs' : s'.holds holder = (n, stage') :: rest)
    (hothers : ∀ other, other ≠ holder → s'.holds other = s.holds other)
    (houtputs : s'.outputs = s.outputs) (hqueue : s'.queue = s.queue) (hcompletions : s'.completions = s.completions)
    (hcompleted : ∀ m, m ≠ n → s'.completed m = s.completed m)
    (hcounted : ∀ m, m ≠ n → (m ∈ s'.counted ↔ m ∈ s.counted))
    (hself : s'.completed n = (Place.held holder stage').completed)
    (hself' : n ∈ s'.counted ↔ (Place.held holder stage').isCounted = true) (m : Nat) :
    s'.Located m (update place n (.held holder stage') m) := by
  have hn : s.At n (.held holder stage) := by
    show (n, stage) ∈ s.holds holder
    rw [hs]
    exact mem_cons_self
  have hrest : ∀ st, (n, st) ∉ rest := by
    intro st hst
    rw [hs, map_cons, nodup_cons] at hdistinct
    exact hdistinct.1 (mem_map.mpr ⟨(n, st), hst, rfl⟩)
  refine located_moves h ((h n).eq hn) (fun m q hmq => ?_) (fun hne hat => ?_) ?_ hcompleted hcounted hself hself' m
  · cases q with
    | fresh => simp only [At, houtputs]
    | queued => simp only [At, hqueue]
    | finished => simp only [At, hcompletions]
    | held other st =>
      by_cases ho : other = holder
      · subst ho
        simp only [At, hs, hs', mem_cons, Prod.mk.injEq]
        exact or_congr_left (iff_of_false (fun he => (hmq he.1).2 (he.2 ▸ rfl)) fun he => (hmq he.1).1 (he.2 ▸ rfl))
      · simp only [At, hothers other ho]
  · simp only [At, hs', mem_cons, Prod.mk.injEq, true_and] at hat
    rcases hat with he | he
    · exact hne (he ▸ rfl)
    · exact hrest stage he
  · show (n, stage') ∈ s'.holds holder
    rw [hs']
    exact mem_cons_self

theorem located_finish (h : ∀ m, s.Located m (place m)) (hs : s.holds holder = (n, .counted) :: rest)
    (hdistinct : ((s.holds holder).map Prod.fst).Nodup) (hs' : s'.holds holder = rest)
    (hothers : ∀ other, other ≠ holder → s'.holds other = s.holds other)
    (houtputs : s'.outputs = s.outputs) (hqueue : s'.queue = s.queue) {r : VoiceOutputResult}
    (hcompletions : s'.completions = s.completions ++ [(n, r)]) (hcompleted : s'.completed = s.completed)
    (hcounted : s'.counted = s.counted) (m : Nat) : s'.Located m (update place n .finished m) := by
  have hn : s.At n (.held holder .counted) := by
    show (n, _) ∈ s.holds holder
    rw [hs]
    exact mem_cons_self
  have hrest : ∀ st, (n, st) ∉ rest := by
    intro st hst
    rw [hs, map_cons, nodup_cons] at hdistinct
    exact hdistinct.1 (mem_map.mpr ⟨(n, st), hst, rfl⟩)
  have hlocated := h n
  rw [(h n).eq hn] at hlocated
  refine located_moves h ((h n).eq hn) (fun m q hmq => ?_) (fun _ hat => ?_) ?_ (fun m _ => by rw [hcompleted])
    (fun m _ => by rw [hcounted]) ?_ ?_ m
  · cases q with
    | fresh => simp only [At, houtputs]
    | queued => simp only [At, hqueue]
    | finished =>
      have hm : m ≠ n := fun hmn => (hmq hmn).2 rfl
      simp only [At, hcompletions, map_append, mem_append, map_cons, map_nil, mem_singleton, hm, or_false]
    | held other st =>
      by_cases ho : other = holder
      · subst ho
        simp only [At, hs, hs', mem_cons, Prod.mk.injEq]
        refine (or_iff_right ?_).symm
        rintro ⟨hmn, rfl⟩
        exact (hmq hmn).1 rfl
      · simp only [At, hothers other ho]
  · simp only [At, hs'] at hat
    exact hrest _ hat
  · show n ∈ s'.completions.map Prod.fst
    rw [hcompletions, map_append]
    exact mem_append_right _ mem_cons_self
  · rw [hcompleted]
    exact hlocated.completed
  · rw [hcounted]
    exact hlocated.counted

/-! ## `Complete` -/

/-- Only the threads go on. -/
structure Moves (s s' : AsyncVoiceResponseSink) : Prop where
  outputs : s'.outputs = s.outputs
  completed : s'.completed = s.completed
  queue : s'.queue = s.queue
  queued : s'.queued = s.queued
  played : s'.played = s.played
  failed : s'.failed = s.failed
  dropped : s'.dropped = s.dropped
  completions : s'.completions = s.completions
  calls : s'.calls = s.calls
  counted : s'.counted = s.counted
  taken : s'.taken = s.taken
  refusals : s'.refusals = s.refusals

theorem Moves.of_threads
    (h : s' = { s with
      cancellation := s'.cancellation, active := s'.active, stopRequested := s'.stopRequested
      worker := s'.worker, downstream := s'.downstream, callers := s'.callers
      downcalls := s'.downcalls })
    (hcalls : s'.calls = s.calls) : Moves s s' := by
  constructor
  case calls => exact hcalls
  all_goals rw [h]

theorem isTaken_held {holder : Holder} (stage stage' : Stage) :
    (Place.held holder stage).isTaken = (Place.held holder stage').isTaken := by
  cases holder <;> rfl

theorem Inv.taken_update (h : s.Inv place) (hp : (place n).isTaken = true → p'.isTaken = true)
    (htaken : s'.taken = s.taken) (hcalls : s'.calls = s.calls) :
    ∀ m ∈ s'.taken, (update place n p' m).isTaken = true ∧ m ∉ s'.calls := by
  intro m hm
  rw [htaken] at hm
  rw [hcalls]
  refine ⟨?_, (h.taken m hm).2⟩
  by_cases hmn : m = n
  · subst hmn
    rw [update_self]
    exact hp (h.taken m hm).1
  · rw [update_of_ne hmn]
    exact (h.taken m hm).1

theorem Inv.advance (h : s.Inv place) (hs : s.holds holder = (n, stage) :: rest)
    (hs' : s'.holds holder = (n, stage') :: rest) (hothers : ∀ other, other ≠ holder → s'.holds other = s.holds other)
    (houtputs : s'.outputs = s.outputs) (hqueue : s'.queue = s.queue)
    (hcompletions : s'.completions = s.completions) (hqueued : s'.queued = s.queued)
    (hcalls : s'.calls = s.calls) (htaken : s'.taken = s.taken)
    (hcompleted : ∀ m, m ≠ n → s'.completed m = s.completed m)
    (hcounted : ∀ m, m ≠ n → (m ∈ s'.counted ↔ m ∈ s.counted))
    (hself : s'.completed n = (Place.held holder stage').completed)
    (hself' : n ∈ s'.counted ↔ (Place.held holder stage').isCounted = true) (hcountedOnce : s'.counted.Nodup)
    (haccounts : s'.played + s'.failed + s'.dropped = s'.counted.length + s'.refusals)
    (hrefusals : s'.refusals ≤ s'.dropped) (hnext : s'.worker.next = s.worker.next)
    (hinCall : s'.downcalls.foldlM Downcall.next none = some s'.worker.inCall)
    (hcancels : ∀ i m c pending, s'.callers i = .completing m c pending → c.status = .cancelled) :
    s'.Inv (update place n (.held holder stage')) where
  located := located_advance h.located hs (h.distinct holder) hs' hothers houtputs hqueue hcompletions
    hcompleted hcounted hself hself'
  distinct other := by
    by_cases ho : other = holder
    · have hbefore := h.distinct holder
      rw [hs] at hbefore
      rw [ho, hs']
      exact hbefore
    · rw [hothers other ho]
      exact h.distinct other
  once := hcompletions ▸ h.once
  countedOnce := hcountedOnce
  queued := by rw [hqueued, houtputs, h.queued]
  accounts := haccounts
  refusals := hrefusals
  order := by
    rw [hcalls, hnext, hqueue, houtputs]
    exact h.order
  inCall := hinCall
  taken := by
    refine h.taken_update (fun hp => ?_) htaken hcalls
    have hat : s.At n (.held holder stage) := by
      show (n, stage) ∈ s.holds holder
      rw [hs]
      exact mem_cons_self
    rw [(h.located n).eq hat] at hp
    rwa [isTaken_held stage' stage]
  cancels := hcancels
  cancelled := by
    rw [hcompletions, htaken]
    exact h.cancelled
  own := by
    rw [hcompletions, houtputs]
    exact h.own

theorem Inv.holds_self (h : s.Inv place) (hs : s.holds holder = (n, stage) :: rest) :
    place n = .held holder stage := by
  refine (h.located n).eq ?_
  show (n, stage) ∈ s.holds holder
  rw [hs]
  exact mem_cons_self

theorem Inv.lt_outputs (h : s.Inv place) (hn : place n ≠ .fresh) : n < s.outputs.length := by
  by_contra hle
  exact hn ((h.located n).eq (q := .fresh) (Nat.not_lt.mp hle))

theorem counting_keeps (s : AsyncVoiceResponseSink) (n : Nat) (status : VoiceOutputStatus) (error : String) :
    (s.complete n (.counting status error)).1.outputs = s.outputs ∧
      (s.complete n (.counting status error)).1.queue = s.queue ∧
      (s.complete n (.counting status error)).1.completions = s.completions ∧
      (s.complete n (.counting status error)).1.queued = s.queued ∧
      (s.complete n (.counting status error)).1.calls = s.calls ∧
      (s.complete n (.counting status error)).1.taken = s.taken ∧
      (s.complete n (.counting status error)).1.completed = s.completed := by
  unfold AsyncVoiceResponseSink.complete AsyncVoiceResponseSink.count
  cases status <;> exact ⟨rfl, rfl, rfl, rfl, rfl, rfl, rfl⟩

theorem Inv.complete (h : s.Inv place) (holder : Holder) (rest : List (Nat × Stage)) (c : Completing)
    (hs : s.holds holder = (n, c.stage) :: rest) (hmoves : Moves (s.complete n c).1 s')
    (hs' : s'.holds holder =
      match (s.complete n c).2 with
      | some c' => (n, c'.stage) :: rest
      | none => rest)
    (hothers : ∀ other, other ≠ holder → s'.holds other = s.holds other)
    (hnext : s'.worker.next = s.worker.next)
    (hinCall : s'.downcalls.foldlM Downcall.next none = some s'.worker.inCall)
    (hcancels : ∀ i m c pending, s'.callers i = .completing m c pending → c.status = .cancelled)
    (hstatus : ∀ i, holder = .caller i → c.status = .cancelled) : ∃ place', s'.Inv place' := by
  have hplace := h.holds_self hs
  have hlocated := h.located n
  rw [hplace] at hlocated
  cases c with
  | exchanging status error =>
    have hflag : s.completed n = false := hlocated.completed
    unfold AsyncVoiceResponseSink.complete at hmoves hs'
    dsimp only at hmoves hs'
    rw [if_neg (by rw [hflag]; exact Bool.false_ne_true)] at hmoves hs'
    refine ⟨_, h.advance hs hs' hothers hmoves.outputs hmoves.queue hmoves.completions hmoves.queued
      hmoves.calls hmoves.taken (fun m hm => ?_) (fun m _ => by rw [hmoves.counted]) ?_ ?_ ?_ ?_ ?_ hnext
      hinCall hcancels⟩
    · rw [hmoves.completed]
      exact update_of_ne hm _ _
    · rw [hmoves.completed]
      exact update_self ..
    · rw [hmoves.counted]
      exact hlocated.counted
    · rw [hmoves.counted]
      exact h.countedOnce
    · rw [hmoves.played, hmoves.failed, hmoves.dropped, hmoves.counted, hmoves.refusals]
      exact h.accounts
    · rw [hmoves.refusals, hmoves.dropped]
      exact h.refusals
  | counting status error =>
    have hno : n ∉ s.counted := fun hn => Bool.false_ne_true (hlocated.counted.mp hn)
    have hcount : s'.counted = s.counted ++ [n] := hmoves.counted
    have hkept := counting_keeps s n status error
    have hbooks : s'.played + s'.failed + s'.dropped = s.played + s.failed + s.dropped + 1 ∧
        s'.refusals = s.refusals ∧ s.dropped ≤ s'.dropped := by
      rw [hmoves.played, hmoves.failed, hmoves.dropped, hmoves.refusals]
      unfold AsyncVoiceResponseSink.complete AsyncVoiceResponseSink.count
      cases status <;> refine ⟨?_, rfl, ?_⟩ <;> dsimp only <;> omega
    refine ⟨_, h.advance hs hs' hothers ?_ ?_ ?_ ?_ ?_ ?_ (fun m _ => ?_) (fun m hm => ?_) ?_ ?_ ?_ ?_ ?_
      hnext hinCall hcancels⟩
    · exact hmoves.outputs.trans hkept.1
    · exact hmoves.queue.trans hkept.2.1
    · exact hmoves.completions.trans hkept.2.2.1
    · exact hmoves.queued.trans hkept.2.2.2.1
    · exact hmoves.calls.trans hkept.2.2.2.2.1
    · exact hmoves.taken.trans hkept.2.2.2.2.2.1
    · exact congrFun (hmoves.completed.trans hkept.2.2.2.2.2.2) m
    · rw [hcount, mem_append, mem_singleton, or_iff_left hm]
    · exact (congrFun (hmoves.completed.trans hkept.2.2.2.2.2.2) n).trans hlocated.completed
    · rw [hcount]
      exact iff_of_true (mem_append_right _ mem_cons_self) rfl
    · rw [hcount]
      exact ListUpdate.nodup_snoc h.countedOnce hno
    · have := h.accounts
      rw [hcount, length_append, length_singleton]
      omega
    · have := h.refusals
      omega
  | invoking status error =>
    have hcomp : s'.completions = s.completions ++
        [(n, ⟨(s.outputs[n]?.map PendingOutput.requestId).getD 0, status, error⟩)] := hmoves.completions
    have hlt := h.lt_outputs (by rw [hplace]; nofun)
    refine ⟨update place n .finished, ?_⟩
    exact {
      located := located_finish h.located hs (h.distinct holder) hs' hothers hmoves.outputs hmoves.queue
        hcomp hmoves.completed hmoves.counted
      distinct := fun other => by
        by_cases ho : other = holder
        · have hbefore := h.distinct holder
          rw [hs, map_cons] at hbefore
          rw [ho, hs']
          exact hbefore.of_cons
        · rw [hothers other ho]
          exact h.distinct other
      once := by
        rw [hcomp, map_append]
        refine ListUpdate.nodup_snoc h.once fun hfinished => ?_
        cases hplace.symm.trans ((h.located n).eq (q := .finished) hfinished)
      countedOnce := hmoves.counted ▸ h.countedOnce
      queued := by
        rw [hmoves.queued, hmoves.outputs]
        exact h.queued
      accounts := by
        rw [hmoves.played, hmoves.failed, hmoves.dropped, hmoves.counted, hmoves.refusals]
        exact h.accounts
      refusals := by
        rw [hmoves.refusals, hmoves.dropped]
        exact h.refusals
      order := by
        rw [hmoves.calls, hnext, hmoves.queue, hmoves.outputs]
        exact h.order
      inCall := hinCall
      taken := h.taken_update (fun _ => rfl) hmoves.taken hmoves.calls
      cancels := hcancels
      cancelled := by
        intro e he htaken
        have htaken : e.1 ∈ s.taken := hmoves.taken ▸ htaken
        rw [hcomp] at he
        rcases mem_append.mp he with he | he
        · exact h.cancelled e he htaken
        · rw [mem_singleton.mp he] at htaken ⊢
          have hcaller := (h.taken n htaken).1
          rw [hplace] at hcaller
          cases holder with
          | caller i => exact hstatus i rfl
          | worker | downstream m => cases hcaller
      own := by
        intro e he
        rw [hcomp] at he
        rw [hmoves.outputs]
        rcases mem_append.mp he with he | he
        · exact h.own e he
        · rw [mem_singleton.mp he]
          show s.outputs[n]?.map _ = some _
          rw [List.getElem?_eq_getElem hlt]
          rfl }

/-! ## The other steps -/

theorem Inv.moves {place' : Nat → Place} (h : s.Inv place) (hmoves : Moves { s with downcalls := s'.downcalls } s')
    (hlocated : ∀ m, s'.Located m (place' m)) (hdistinct : ∀ holder, ((s'.holds holder).map Prod.fst).Nodup)
    (horder : (s'.calls ++ s'.worker.next ++ s.queue ++ [s.outputs.length]).Pairwise (· < ·))
    (hinCall : s'.downcalls.foldlM Downcall.next none = some s'.worker.inCall)
    (htaken : ∀ m ∈ s'.taken, (place' m).isTaken = true ∧ m ∉ s'.calls)
    (hcancels : ∀ i m c pending, s'.callers i = .completing m c pending → c.status = .cancelled) :
    s'.Inv place' where
  located := hlocated
  distinct := hdistinct
  once := hmoves.completions ▸ h.once
  countedOnce := hmoves.counted ▸ h.countedOnce
  queued := by
    rw [hmoves.queued, hmoves.outputs]
    exact h.queued
  accounts := by
    rw [hmoves.played, hmoves.failed, hmoves.dropped, hmoves.counted, hmoves.refusals]
    exact h.accounts
  refusals := by
    rw [hmoves.refusals, hmoves.dropped]
    exact h.refusals
  order := by
    rw [hmoves.queue, hmoves.outputs]
    exact horder
  inCall := hinCall
  taken := htaken
  cancels := hcancels
  cancelled := by
    rw [hmoves.completions, hmoves.taken]
    exact h.cancelled
  own := by
    rw [hmoves.completions, hmoves.outputs]
    exact h.own

theorem Inv.quiet (h : s.Inv place) (hholds : ∀ holder, s'.holds holder = s.holds holder)
    (hmoves : Moves { s with downcalls := s'.downcalls } s')
    (horder : (s'.calls ++ s'.worker.next ++ s.queue ++ [s.outputs.length]).Pairwise (· < ·))
    (hinCall : s'.downcalls.foldlM Downcall.next none = some s'.worker.inCall)
    (hnot : ∀ n ∈ s.taken, n ∉ s'.calls)
    (hcancels : ∀ i m c pending, s'.callers i = .completing m c pending → c.status = .cancelled) : s'.Inv place := by
  refine h.moves hmoves (fun m => ?_) (fun other => ?_) horder hinCall ?_ hcancels
  · refine (h.located m).same (fun q => ?_) (by rw [hmoves.completed]) (by rw [hmoves.counted])
    cases q with
    | fresh => simp only [At, hmoves.outputs]
    | queued => simp only [At, hmoves.queue]
    | finished => simp only [At, hmoves.completions]
    | held other st => simp only [At, hholds other]
  · rw [hholds other]
    exact h.distinct other
  · rw [hmoves.taken]
    exact fun m hm => ⟨(h.taken m hm).1, hnot m hm⟩

theorem Inv.submit (requestId : Nat) (text : String) (completion : Bool) (h : s.Inv place) :
    ∃ place', (s.submit requestId text completion).1.Inv place' := by
  unfold AsyncVoiceResponseSink.submit
  split
  · refine ⟨place, { h with located := fun m => ?_, accounts := ?_, refusals := ?_ }⟩
    · exact (h.located m).same (fun q => by cases q <;> exact Iff.rfl) rfl Iff.rfl
    · have haccounts := h.accounts
      dsimp only
      omega
    · exact Nat.succ_le_succ h.refusals
  · -- the new output has the next number
    have hfresh : place s.outputs.length = .fresh := (h.located _).eq (q := .fresh) (Nat.le_refl _)
    have hnew := h.located s.outputs.length
    rw [hfresh] at hnew
    refine ⟨update place s.outputs.length .queued, ?_⟩
    have hlen : (s.outputs ++ [(⟨requestId, text⟩ : PendingOutput)]).length =
        s.outputs.length + 1 := length_append
    exact { h with
      located := by
        refine located_moves h.located hfresh (fun m q hmq => ?_) (fun _ hat => ?_) ?_ (fun _ _ => rfl)
          (fun _ _ => Iff.rfl) hnew.completed hnew.counted
        · cases q with
          | fresh =>
            have hm : m ≠ s.outputs.length := fun hmn => (hmq hmn).1 rfl
            show (s.outputs ++ [_]).length ≤ m ↔ s.outputs.length ≤ m
            omega
          | queued =>
            show m ∈ s.queue ++ [s.outputs.length] ↔ m ∈ s.queue
            rw [ListUpdate.mem_snoc, or_iff_left fun hmn => (hmq hmn).2 rfl]
          | finished | held other st => exact Iff.rfl
        · have hle : (s.outputs ++ [_]).length ≤ s.outputs.length := hat
          omega
        · exact mem_append_right _ mem_cons_self
      queued := by
        dsimp only
        rw [h.queued, hlen]
      order := by
        have horder := h.order
        rw [pairwise_append] at horder
        dsimp only
        rw [hlen, ← append_assoc, pairwise_append]
        refine ⟨h.order, pairwise_singleton .., fun a ha b hb => ?_⟩
        rw [mem_singleton.mp hb]
        rcases mem_append.mp ha with ha | ha
        · exact Nat.lt_succ_of_lt (horder.2.2 a ha _ mem_cons_self)
        · rw [mem_singleton.mp ha]
          exact Nat.lt_succ_self _
      taken := by
        intro m hm
        refine ⟨?_, (h.taken m hm).2⟩
        have hne : m ≠ s.outputs.length := by
          rintro rfl
          have htaken := (h.taken _ hm).1
          rw [hfresh] at htaken
          cases htaken
        rw [update_of_ne hne]
        exact (h.taken m hm).1
      own := by
        intro e he
        have hown := h.own e he
        have hlt : e.1 < s.outputs.length := by
          by_contra hle
          rw [List.getElem?_eq_none (Nat.not_lt.mp hle)] at hown
          cases hown
        dsimp only
        rw [List.getElem?_append_left hlt]
        exact hown }

theorem Inv.pop (h : s.Inv place) {queue : List Nat} (hw : s.worker = .waiting) (hqueue : s.queue = n :: queue) :
    Inv { s with queue := queue, active := some n, worker := .popped n }
      (update place n (.held .worker .pending)) := by
  have hplace : place n = .queued := (h.located n).eq (q := .queued) (by
    show n ∈ s.queue
    rw [hqueue]
    exact mem_cons_self)
  have hlocated := h.located n
  rw [hplace] at hlocated
  have horder := h.order
  rw [hw, hqueue] at horder
  have hbehind : n ∉ queue := by
    have := (pairwise_append.mp (pairwise_append.mp horder).1).2.1
    rw [pairwise_cons] at this
    exact fun hn => Nat.lt_irrefl n (this.1 n hn)
  have hheld : s.holds .worker = [] := by
    show s.worker.holds = []
    rw [hw]
    rfl
  exact { h with
    located := by
      refine located_moves h.located hplace (fun m q hmq => ?_) (fun _ => hbehind) mem_cons_self (fun _ _ => rfl)
        (fun _ _ => Iff.rfl) hlocated.completed hlocated.counted
      cases q with
      | fresh => exact Iff.rfl
      | queued =>
        show m ∈ queue ↔ m ∈ s.queue
        rw [hqueue, mem_cons, or_iff_right fun hmn => (hmq hmn).1 rfl]
      | finished => exact Iff.rfl
      | held other st =>
        cases other with
        | caller i | downstream k => exact Iff.rfl
        | worker =>
          show (m, st) ∈ [(n, Stage.pending)] ↔ (m, st) ∈ s.holds .worker
          rw [hheld, mem_singleton, Prod.mk.injEq]
          exact iff_of_false (fun he => (hmq he.1).2 (he.2 ▸ rfl)) not_mem_nil
    distinct := by
      intro other
      cases other with
      | worker => exact nodup_cons.mpr ⟨not_mem_nil, nodup_nil⟩
      | caller i => exact h.distinct (.caller i)
      | downstream k => exact h.distinct (.downstream k)
    order := by
      show (s.calls ++ [n] ++ queue ++ _).Pairwise _
      rw [append_assoc s.calls]
      rwa [show SinkWorker.waiting.next = [] from rfl, append_nil] at horder
    inCall := by
      have hinCall := h.inCall
      rw [hw] at hinCall
      exact hinCall
    taken := h.taken_update (fun hp => by rw [hplace] at hp; cases hp) rfl rfl }

theorem Inv.handOver (h : s.Inv place) (hw : s.worker.holds = [(n, .pending)])
    (hw' : s'.worker.holds = []) (hd : s'.downstream = update s.downstream n d)
    (hstage : d.stage? = some .pending) (hcallers : s'.callers = s.callers)
    (hmoves : Moves s s') (hnext : s'.worker.next = s.worker.next)
    (hinCall : s'.downcalls.foldlM Downcall.next none = some s'.worker.inCall) :
    s'.Inv (update place n (.held (.downstream n) .pending)) := by
  have hplace : place n = .held .worker .pending := h.holds_self hw
  have hlocated := h.located n
  rw [hplace] at hlocated
  have hothers : ∀ other, other ≠ .worker → other ≠ .downstream n → s'.holds other = s.holds other := by
    intro other ho ho'
    cases other with
    | worker => exact absurd rfl ho
    | caller i =>
      show (s'.callers i).holds = _
      rw [hcallers]
      rfl
    | downstream k =>
      show (s'.downstream k).stage?.toList.map _ = _
      rw [hd, update_of_ne fun hk => ho' (by rw [hk])]
      rfl
  have hnew : s'.holds (.downstream n) = [(n, .pending)] := by
    show (s'.downstream n).stage?.toList.map _ = _
    rw [hd, update_self, hstage]
    rfl
  have hheld : ∀ m st, (m, st) ∈ s'.holds (.downstream n) ↔ m = n ∧ st = .pending := by
    intro m st
    rw [hnew, mem_singleton, Prod.mk.injEq]
  have hnone : ∀ m st, (m, st) ∉ s.holds (.downstream n) := by
    intro m st hm
    have hmn : m = n := by
      obtain ⟨st', _, he⟩ := mem_map.mp hm
      cases he
      rfl
    subst hmn
    cases hplace.symm.trans ((h.located m).eq (q := .held _ st) hm)
  have hno : ∀ m st, (m, st) ∉ s'.holds .worker := by
    intro m st hm
    rw [show s'.holds .worker = [] from hw'] at hm
    cases hm
  refine h.moves { hmoves with calls := rfl } ?_ (fun other => ?_) ?_ hinCall ?_ ?_
  · refine located_moves h.located hplace (fun m q hmq => ?_) (fun _ => hno n _) ((hheld n _).mpr ⟨rfl, rfl⟩)
      (fun m _ => by rw [hmoves.completed]) (fun m _ => by rw [hmoves.counted]) ?_ ?_
    · cases q with
      | fresh => simp only [At, hmoves.outputs]
      | queued => simp only [At, hmoves.queue]
      | finished => simp only [At, hmoves.completions]
      | held other st =>
        by_cases ho : other = .worker
        · subst ho
          refine iff_of_false (hno m st) fun hm => ?_
          have hm : (m, st) ∈ s.worker.holds := hm
          rw [hw, mem_singleton, Prod.mk.injEq] at hm
          exact (hmq hm.1).1 (by rw [hm.2])
        · by_cases ho' : other = .downstream n
          · subst ho'
            refine iff_of_false (fun hm => ?_) (hnone m st)
            exact (hmq ((hheld m st).mp hm).1).2 (by rw [((hheld m st).mp hm).2])
          · simp only [At, hothers other ho ho']
    · rw [hmoves.completed]
      exact hlocated.completed
    · rw [hmoves.counted]
      exact hlocated.counted
  · by_cases ho : other = .worker
    · rw [ho, show s'.holds .worker = [] from hw']
      exact nodup_nil
    · by_cases ho' : other = .downstream n
      · rw [ho', hnew]
        exact nodup_cons.mpr ⟨not_mem_nil, nodup_nil⟩
      · rw [hothers other ho ho']
        exact h.distinct other
  · rw [hmoves.calls, hnext]
    exact h.order
  · exact h.taken_update (fun hp => by rw [hplace] at hp; cases hp) hmoves.taken hmoves.calls
  · rw [hcallers]
    exact h.cancels

theorem complete_threads (s : AsyncVoiceResponseSink) (n : Nat) (c : Completing) :
    (s.complete n c).1.worker = s.worker ∧ (s.complete n c).1.callers = s.callers ∧
      (s.complete n c).1.downstream = s.downstream ∧ (s.complete n c).1.downcalls = s.downcalls := by
  unfold AsyncVoiceResponseSink.complete AsyncVoiceResponseSink.count
  cases c with
  | exchanging status error =>
    dsimp only
    split <;> exact ⟨rfl, rfl, rfl, rfl⟩
  | counting status error => cases status <;> exact ⟨rfl, rfl, rfl, rfl⟩
  | invoking status error => exact ⟨rfl, rfl, rfl, rfl⟩

theorem complete_status {s : AsyncVoiceResponseSink} {n : Nat} {c c' : Completing}
    (hc : (s.complete n c).2 = some c') : c'.status = c.status := by
  unfold AsyncVoiceResponseSink.complete at hc
  cases c with
  | exchanging status error =>
    dsimp only at hc
    split at hc <;> cases hc
    rfl
  | counting status error =>
    cases hc
    rfl
  | invoking status error => cases hc

/-- **The worker goes on and holds what it held**, and no other thread moves. -/
theorem Inv.workerGoes (h : s.Inv place) (hmoves : Moves { s with downcalls := s'.downcalls } s')
    (hcallers : s'.callers = s.callers) (hdownstream : s'.downstream = s.downstream)
    (hholds : s'.worker.holds = s.worker.holds)
    (horder : (s'.calls ++ s'.worker.next ++ s.queue ++ [s.outputs.length]).Pairwise (· < ·))
    (hinCall : s'.downcalls.foldlM Downcall.next none = some s'.worker.inCall)
    (hnot : ∀ n ∈ s.taken, n ∉ s'.calls) : s'.Inv place := by
  refine h.quiet (fun holder => ?_) hmoves horder hinCall hnot (by rw [hcallers]; exact h.cancels)
  cases holder with
  | worker => exact hholds
  | caller i => exact congrArg (fun callers => (callers i).holds) hcallers
  | downstream n => exact congrArg (fun downstream => (downstream n).stage?.toList.map (n, ·)) hdownstream

theorem Inv.worker (answer : SubmitAnswer) (h : s.Inv place) : ∃ place', (s.workerStep answer).Inv place' := by
  have hinCall := h.inCall
  have horder := h.order
  unfold workerStep
  cases hw : s.worker with
  | waiting =>
    rw [hw] at hinCall horder
    dsimp only
    split
    · have hholds : s.worker.holds = [] := by rw [hw]; rfl
      exact ⟨place, h.workerGoes (.of_threads rfl rfl) rfl rfl hholds.symm horder hinCall
        fun n hn => (h.taken n hn).2⟩
    · split
      · exact ⟨place, h⟩
      · next n queue hqueue => exact ⟨_, h.pop hw hqueue⟩
  | popped n =>
    have hholds : s.worker.holds = [(n, .pending)] := by rw [hw]; rfl
    have hplace : place n = .held .worker .pending := h.holds_self hholds
    have hcalls : (s.downcalls ++ [Downcall.call n]).filterMap Downcall.called? = s.calls ++ [n] := by
      rw [filterMap_append]
      rfl
    refine ⟨place, h.workerGoes (.of_threads rfl rfl) rfl rfl hholds.symm ?_ ?_ fun m hm => ?_⟩
    · rw [hw] at horder
      show ((s.downcalls ++ [Downcall.call n]).filterMap Downcall.called? ++ [] ++ _ ++ _).Pairwise _
      rw [hcalls, append_nil]
      exact horder
    · rw [hw] at hinCall
      dsimp only
      rw [foldlM_append, hinCall]
      rfl
    · show m ∉ (s.downcalls ++ [Downcall.call n]).filterMap Downcall.called?
      rw [hcalls, ListUpdate.mem_snoc]
      rintro (hcalled | rfl)
      · exact (h.taken m hm).2 hcalled
      · have htaken := (h.taken m hm).1
        rw [hplace] at htaken
        cases htaken
  | calling n invoked =>
    rw [hw] at hinCall horder
    have hcalls : (s.downcalls ++ [Downcall.returned n]).filterMap Downcall.called? = s.calls := by
      rw [filterMap_append]
      exact append_nil _
    have hret : (s.downcalls ++ [Downcall.returned n]).foldlM Downcall.next none = some none := by
      rw [foldlM_append, hinCall]
      simp [SinkWorker.inCall, Downcall.next]
    have hmoves : ∀ w d, Moves { s with downcalls := s.downcalls ++ [.returned n] }
        { s with downcalls := s.downcalls ++ [.returned n], downstream := d, worker := w } := fun _ _ =>
      .of_threads rfl rfl
    have hnot : ∀ m ∈ s.taken, m ∉ (s.downcalls ++ [Downcall.returned n]).filterMap Downcall.called? := by
      rw [hcalls]
      exact fun m hm => (h.taken m hm).2
    -- the worker keeps the output, or has none of its own
    have hstays : ∀ w : SinkWorker, w.holds = s.worker.holds → w.next = [] → w.inCall = none →
        ∃ place', Inv { s with downcalls := s.downcalls ++ [.returned n], worker := w } place' := by
      intro w hholds hnext hnone
      refine ⟨place, h.workerGoes (hmoves w _) rfl rfl hholds ?_ ?_ hnot⟩
      · show ((s.downcalls ++ [Downcall.returned n]).filterMap Downcall.called? ++ w.next ++ _ ++ _).Pairwise _
        rw [hcalls, hnext]
        exact horder
      · exact hret.trans (congrArg some hnone.symm)
    cases invoked with
    | true =>
      cases answer with
      | accepted => exact hstays (.clearing n) (by rw [hw]; rfl) rfl rfl
      | refused | exception => exact ⟨place, h⟩
    | false =>
      cases answer with
      | accepted =>
        refine ⟨_, h.handOver (n := n) (d := .owing) (by rw [hw]; rfl) rfl rfl rfl rfl
          (.of_threads rfl hcalls) ?_ hret⟩
        rw [hw]
        rfl
      | refused => exact hstays (.refused n) (by rw [hw]; rfl) rfl rfl
      | exception =>
        exact hstays (.completing n (.exchanging .failed "voice output failed")) (by rw [hw]; rfl) rfl rfl
  | refused n =>
    rw [hw] at hinCall horder
    refine ⟨place, h.workerGoes (.of_threads rfl rfl) rfl rfl ?_ horder hinCall fun m hm => (h.taken m hm).2⟩
    show [(n, Completing.stage _)] = s.worker.holds
    rw [hw]
    split <;> rfl
  | completing n c =>
    have hthreads := complete_threads s n c
    have hnext : s.worker.next = [] := by rw [hw]; rfl
    rw [hw] at hinCall
    have hstep : ∀ w : SinkWorker, w.next = [] → w.inCall = none →
        w.holds = (match (s.complete n c).2 with | some c' => [(n, c'.stage)] | none => []) →
        ∃ place', Inv { (s.complete n c).1 with worker := w } place' := by
      intro w hwnext hwnone hholds
      refine h.complete .worker [] c (by rw [holds, hw]; rfl)
        (.of_threads rfl rfl) ?_ (fun other ho => ?_) ?_ ?_ ?_ nofun
      · refine Eq.trans hholds ?_
        cases (s.complete n c).2 <;> rfl
      · cases other with
        | worker => exact absurd rfl ho
        | caller i =>
          show ((s.complete n c).1.callers i).holds = _
          rw [hthreads.2.1]
          rfl
        | downstream k =>
          show ((s.complete n c).1.downstream k).stage?.toList.map _ = _
          rw [hthreads.2.2.1]
          rfl
      · exact hwnext.trans hnext.symm
      · show (s.complete n c).1.downcalls.foldlM _ _ = some w.inCall
        rw [hthreads.2.2.2, hwnone]
        exact hinCall
      · show ∀ i m c' pending, (s.complete n c).1.callers i = _ → _
        rw [hthreads.2.1]
        exact h.cancels
    dsimp only
    split
    · next s' c' heq =>
      have := hstep (.completing n c') rfl rfl (by rw [heq]; rfl)
      rwa [heq] at this
    · next s' heq =>
      have := hstep (.clearing n) rfl rfl (by rw [heq]; rfl)
      rwa [heq] at this
  | clearing n =>
    rw [hw] at hinCall horder
    have hholds : s.worker.holds = [] := by rw [hw]; rfl
    exact ⟨place, h.workerGoes (.of_threads rfl rfl) rfl rfl hholds.symm horder hinCall
      fun m hm => (h.taken m hm).2⟩
  | ended => exact ⟨place, h⟩

theorem Inv.downstreamGoes (h : s.Inv place) {d d' : Downstream} (hd : s.downstream n = d)
    (hstage : d'.stage? = d.stage?) : Inv { s with downstream := update s.downstream n d' } place := by
  refine h.quiet (fun holder => ?_) (.of_threads rfl rfl) h.order h.inCall
    (fun m hm => (h.taken m hm).2) h.cancels
  cases holder with
  | worker | caller i => rfl
  | downstream k =>
    show (update s.downstream n d' k).stage?.toList.map _ = (s.downstream k).stage?.toList.map _
    by_cases hk : k = n
    · rw [hk, update_self, hstage, hd]
    · rw [update_of_ne hk]

theorem Inv.downstream (n : Nat) (status : VoiceOutputStatus) (error : String) (h : s.Inv place) :
    ∃ place', (s.downstreamStep n status error).Inv place' := by
  unfold downstreamStep
  cases hd : s.downstream n with
  | nothing =>
    dsimp only
    split
    · next m hw =>
      split
      · next hm =>
        subst hm
        refine ⟨_, h.handOver (n := m) (d := .completing status error) (by rw [hw]; rfl) rfl rfl rfl rfl
          (.of_threads rfl rfl) (by rw [hw]; rfl) ?_⟩
        have hinCall := h.inCall
        rw [hw] at hinCall
        exact hinCall
      · exact ⟨place, h⟩
    · exact ⟨place, h⟩
  | owing | completing status' error' => exact ⟨place, h.downstreamGoes hd rfl⟩
  | finishing c =>
    have hthreads := complete_threads s n c
    have hstep : ∀ d : Downstream, d.stage? = (s.complete n c).2.map Completing.stage →
        ∃ place', Inv { (s.complete n c).1 with
          downstream := update (s.complete n c).1.downstream n d } place' := by
      intro d hstage
      refine h.complete (.downstream n) [] c (by rw [holds, hd]; rfl)
        (.of_threads rfl rfl) ?_ (fun other ho => ?_) ?_ ?_ ?_ nofun
      · show (update (s.complete n c).1.downstream n d n).stage?.toList.map _ = _
        rw [update_self, hstage]
        cases (s.complete n c).2 <;> rfl
      · cases other with
        | worker =>
          show (s.complete n c).1.worker.holds = _
          rw [hthreads.1]
          rfl
        | caller i =>
          show ((s.complete n c).1.callers i).holds = _
          rw [hthreads.2.1]
          rfl
        | downstream k =>
          have hk : k ≠ n := fun hk => ho (by rw [hk])
          show (update (s.complete n c).1.downstream n d k).stage?.toList.map _ = _
          rw [update_of_ne hk, hthreads.2.2.1]
          rfl
      · show (s.complete n c).1.worker.next = _
        rw [hthreads.1]
      · show (s.complete n c).1.downcalls.foldlM _ _ = some (s.complete n c).1.worker.inCall
        rw [hthreads.1, hthreads.2.2.2]
        exact h.inCall
      · show ∀ i m c' pending, (s.complete n c).1.callers i = _ → _
        rw [hthreads.2.1]
        exact h.cancels
    dsimp only
    split
    · next s' c' heq =>
      have := hstep (.finishing c') (by rw [heq]; rfl)
      rwa [heq] at this
    · next s' heq =>
      have := hstep .nothing (by rw [heq]; rfl)
      rwa [heq] at this

/-! ## The callers -/

theorem Inv.take (i : Nat) (stopping : Bool) (cancellation : Nat → Bool) (h : s.Inv place)
    (hi : s.callers i = .idle) :
    ∃ place', Inv { s with
      stopRequested := stopping, queue := [], taken := s.taken ++ s.queue, cancellation := cancellation
      callers := update s.callers i (.interrupting s.queue) } place' := by
  have hqueued : ∀ m, m ∈ s.queue ↔ place m = .queued := fun m =>
    ((h.located m).at_iff .queued).trans eq_comm
  have horder := pairwise_append.mp h.order
  have hheld : ∀ m st, (m, st) ∉ s.holds (.caller i) := by
    intro m st hm
    have hm : (m, st) ∈ (s.callers i).holds := hm
    rw [hi] at hm
    cases hm
  have hself : ∀ m st, (m, st) ∈ (update s.callers i (.interrupting s.queue) i).holds ↔
      m ∈ s.queue ∧ st = .pending := by
    intro m st
    rw [update_self]
    exact mem_map.trans ⟨fun ⟨k, hk, he⟩ => by cases he; exact ⟨hk, rfl⟩,
      fun ⟨hm, hst⟩ => ⟨m, hm, by rw [hst]⟩⟩
  refine ⟨fun m => if m ∈ s.queue then .held (.caller i) .pending else place m, ?_⟩
  exact { h with
    located := by
      intro m
      have hlocated := h.located m
      have hcaller : ∀ j st, (m ∈ s.queue → (Place.held (.caller j) st) ≠ .held (.caller i) .pending) →
          ((m, st) ∈ (update s.callers i (.interrupting s.queue) j).holds ↔ (m, st) ∈ s.holds (.caller j)) := by
        intro j st hother
        by_cases hj : j = i
        · subst hj
          exact iff_of_false (fun hn => hother ((hself m st).mp hn).1 (by rw [((hself m st).mp hn).2])) (hheld m st)
        · rw [update_of_ne hj]
          exact Iff.rfl
      split
      · next hm =>
        rw [(hqueued m).mp hm] at hlocated
        refine ⟨fun q => ?_, hlocated.completed, hlocated.counted⟩
        by_cases hq : q = .held (.caller i) .pending
        · subst hq
          exact iff_of_true ((hself m _).mpr ⟨hm, rfl⟩) rfl
        · refine iff_of_false (fun hat => ?_) hq
          cases q with
          | fresh => cases (hlocated.at_iff .fresh).mp hat
          | finished => cases (hlocated.at_iff .finished).mp hat
          | queued => cases hat
          | held other st =>
            cases other with
            | worker => cases (hlocated.at_iff (.held .worker st)).mp hat
            | downstream k => cases (hlocated.at_iff (.held (.downstream k) st)).mp hat
            | caller j => cases (hlocated.at_iff (.held (.caller j) st)).mp ((hcaller j st fun _ => hq).mp hat)
      · next hm =>
        refine hlocated.same (fun q => ?_) rfl Iff.rfl
        cases q with
        | fresh | finished => exact Iff.rfl
        | queued => exact iff_of_false not_mem_nil hm
        | held other st =>
          cases other with
          | worker | downstream k => exact Iff.rfl
          | caller j => exact hcaller j st fun hqueue => absurd hqueue hm
    distinct := by
      intro other
      cases other with
      | worker => exact h.distinct .worker
      | downstream k => exact h.distinct (.downstream k)
      | caller j =>
        show ((update s.callers i _ j).holds.map _).Nodup
        by_cases hj : j = i
        · rw [hj, update_self]
          show ((s.queue.map _).map _).Nodup
          rw [map_map]
          refine (map_id _).symm ▸ ?_
          exact (pairwise_append.mp horder.1).2.1.imp Nat.ne_of_lt
        · rw [update_of_ne hj]
          exact h.distinct (.caller j)
    order := by
      refine h.order.sublist ?_
      rw [append_nil]
      exact (sublist_append_left _ _).append_right _
    taken := by
      intro m hm
      rcases mem_append.mp hm with hm | hm
      · refine ⟨?_, (h.taken m hm).2⟩
        split
        · rfl
        · exact (h.taken m hm).1
      · refine ⟨by rw [if_pos hm]; rfl, fun hcalled => ?_⟩
        -- what was called is older than what is queued
        exact Nat.lt_irrefl m ((pairwise_append.mp horder.1).2.2 m
          (mem_append_left _ hcalled) m hm)
    cancels := by
      intro j m c pending hj
      dsimp only at hj
      by_cases hji : j = i
      · rw [hji, update_self] at hj
        cases hj
      · rw [update_of_ne hji] at hj
        exact h.cancels j m c pending hj
    cancelled := by
      intro e he hm
      rcases mem_append.mp hm with hm | hm
      · exact h.cancelled e he hm
      · have hfinished : place e.1 = .finished := (h.located e.1).eq (q := .finished)
          (mem_map.mpr ⟨e, he, rfl⟩)
        cases ((hqueued e.1).mp hm).symm.trans hfinished }

theorem Inv.callerGoes {i : Nat} {c' : Cancelling} (cancellation : Nat → Bool) (h : s.Inv place)
    (hholds : c'.holds = (s.callers i).holds)
    (hcancels : ∀ m c pending, c' = .completing m c pending → c.status = .cancelled) :
    Inv { s with cancellation := cancellation, callers := update s.callers i c' } place := by
  refine h.quiet (fun holder => ?_) (.of_threads rfl rfl) h.order h.inCall
    (fun m hm => (h.taken m hm).2) fun j m c pending hj => ?_
  · cases holder with
    | worker | downstream k => rfl
    | caller j =>
      show (update s.callers i c' j).holds = (s.callers j).holds
      by_cases hj : j = i
      · rw [hj, update_self, hholds]
      · rw [update_of_ne hj]
  · dsimp only at hj
    by_cases hji : j = i
    · rw [hji, update_self] at hj
      exact hcancels m c pending hj
    · rw [update_of_ne hji] at hj
      exact h.cancels j m c pending hj

theorem Inv.cancel (i : Nat) (stopping : Bool) (h : s.Inv place) :
    ∃ place', (s.cancelStep i stopping).Inv place' := by
  unfold cancelStep
  cases hi : s.callers i with
  | idle =>
    dsimp only
    split
    · exact ⟨place, h⟩
    · exact h.take i stopping _ hi
  | interrupting pending => exact ⟨place, h.callerGoes s.cancellation (by rw [hi]; rfl) nofun⟩
  | draining pending =>
    cases pending with
    | nil => exact ⟨place, h.callerGoes s.cancellation (by rw [hi]; rfl) nofun⟩
    | cons n pending =>
      refine ⟨place, h.callerGoes _ (by rw [hi]; rfl) fun m c pending' hc => ?_⟩
      cases hc
      rfl
  | completing n c pending =>
    have hthreads := complete_threads s n c
    have hcancelled := h.cancels i n c pending hi
    have hstep : ∀ c' : Cancelling,
        c'.holds = (match (s.complete n c).2 with
          | some place => (n, place.stage) :: pending.map (·, .pending)
          | none => pending.map (·, .pending)) →
        (∀ m place rest, c' = .completing m place rest → place.status = .cancelled) →
        ∃ place', Inv { (s.complete n c).1 with
          callers := update (s.complete n c).1.callers i c' } place' := by
      intro c' hholds hcancels
      refine h.complete (.caller i) (pending.map (·, .pending)) c
        (by rw [holds, hi]; rfl) (.of_threads rfl rfl) ?_ (fun other ho => ?_) ?_ ?_ ?_ fun _ _ => hcancelled
      · show (update (s.complete n c).1.callers i c' i).holds = _
        rw [update_self, hholds]
      · cases other with
        | worker =>
          show (s.complete n c).1.worker.holds = _
          rw [hthreads.1]
          rfl
        | caller j =>
          have hj : j ≠ i := fun hj => ho (by rw [hj])
          show (update (s.complete n c).1.callers i c' j).holds = _
          rw [update_of_ne hj, hthreads.2.1]
          rfl
        | downstream k =>
          show ((s.complete n c).1.downstream k).stage?.toList.map _ = _
          rw [hthreads.2.2.1]
          rfl
      · show (s.complete n c).1.worker.next = _
        rw [hthreads.1]
      · show (s.complete n c).1.downcalls.foldlM _ _ = some (s.complete n c).1.worker.inCall
        rw [hthreads.1, hthreads.2.2.2]
        exact h.inCall
      · intro j m place' rest hj
        dsimp only at hj
        rw [hthreads.2.1] at hj
        by_cases hji : j = i
        · rw [hji, update_self] at hj
          exact hcancels m place' rest hj
        · rw [update_of_ne hji] at hj
          exact h.cancels j m place' rest hj
    dsimp only
    split
    · next s' c' heq =>
      have hstatus : c'.status = .cancelled := by
        rw [complete_status (by rw [heq]), hcancelled]
      have := hstep (.completing n c' pending) (by rw [heq]; rfl) fun m place rest hc => by
        cases hc
        exact hstatus
      rwa [heq] at this
    · next s' heq =>
      have := hstep (.draining pending) (by rw [heq]; rfl) nofun
      rwa [heq] at this

/-! ## Whole runs -/

theorem inv_start (capacity : Nat) : Inv { capacity := capacity } fun _ => .fresh where
  located n := by
    refine ⟨fun q => ?_, rfl, iff_of_false not_mem_nil nofun⟩
    cases q with
    | fresh => exact iff_of_true (Nat.zero_le n) rfl
    | queued | finished => exact iff_of_false not_mem_nil nofun
    | held holder st =>
      refine iff_of_false (fun hn => ?_) nofun
      cases holder <;> cases hn
  distinct holder := by cases holder <;> exact nodup_nil
  once := nodup_nil
  countedOnce := nodup_nil
  queued := rfl
  accounts := rfl
  refusals := Nat.le_refl _
  order := pairwise_singleton ..
  inCall := rfl
  taken := nofun
  cancels := nofun
  cancelled := nofun
  own := nofun

/-- Each step moves at most one output to its next place. -/
theorem Inv.step (event : SinkEvent) (h : s.Inv place) : ∃ place', (s.step event).1.Inv place' := by
  cases event with
  | submit requestId text completion => exact h.submit requestId text completion
  | worker answer => exact h.worker answer
  | downstream n status error => exact h.downstream n status error
  | cancel i stopping => exact h.cancel i stopping

theorem inv_after (capacity : Nat) (events : List SinkEvent) : ∃ place, (after capacity events).Inv place :=
  StepRun.run_invariant (I := fun s => ∃ place, Inv s place) (fun _ event ⟨_, h⟩ => h.step event)
    ⟨_, inv_start capacity⟩ events

theorem Inv.finished (h : s.Inv place) (hn : n < s.outputs.length) (hhandled : s.Handled n) :
    place n = .finished := by
  have hat := ((h.located n).at_iff (place n)).mpr rfl
  cases hp : place n with
  | finished => rfl
  | fresh =>
    rw [hp] at hat
    exact absurd hat (Nat.not_le.mpr hn)
  | queued =>
    rw [hp] at hat
    exact absurd hat hhandled.1
  | held holder st =>
    rw [hp] at hat
    exact absurd hat (hhandled.2 holder st)

theorem Inv.balance (h : s.Inv place) (hq : s.Quiescent) :
    s.queued = s.played + s.failed + (s.dropped - s.refusals) := by
  have hfinished : ∀ n < s.outputs.length, place n = .finished := fun n hn =>
    h.finished hn ⟨by rw [hq.1]; exact not_mem_nil, fun holder st hst => by
      rw [hq.2 holder] at hst
      cases hst⟩
  have hmem : ∀ n, n ∈ s.counted ↔ n ∈ List.range s.outputs.length := by
    intro n
    rw [mem_range, (h.located n).counted]
    constructor
    · intro hc
      refine h.lt_outputs fun hp => ?_
      rw [hp] at hc
      cases hc
    · intro hn
      rw [hfinished n hn]
      rfl
  have hperm := (perm_ext_iff_of_nodup h.countedOnce nodup_range).mpr hmem
  have hlen := hperm.length_eq
  rw [length_range] at hlen
  have haccounts := h.accounts
  have hrefusals := h.refusals
  rw [h.queued]
  omega

/-! ### What was accepted -/

end AsyncVoiceResponseSink

end Cockpit.Voice
