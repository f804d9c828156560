/-
  `AudioStreamPublisher`: frames are put into a bounded queue, and a worker sends them to one client at a time.

  A step is what happens under one lock, or one call to the system by the worker. A packet stands for its frame.
  Every queued frame has a number, which the code does not keep: how many frames were published before it.
-/
import Mathlib.Data.List.Chain
import Cockpit.Audio.AudioFrame
import Cockpit.Lib.StepRun

namespace Cockpit.Audio

open StepRun List

def kAudioStreamHeaderBytes : Nat := 48

def kAudioStreamCapturePacketBytes : Nat := kAudioStreamHeaderBytes + kSampleCount * 2

structure AudioStreamPublisherMetrics where
  clientsAccepted : UInt64 := 0
  framesQueued : UInt64 := 0
  framesSent : UInt64 := 0
  framesDropped : UInt64 := 0
  clientDisconnects : UInt64 := 0

/-- A frame, with its number in the order of publication. -/
structure Queued where
  number : Nat
  frame : AudioFrame

/-- Where the worker is in `Run`. -/
inductive PublisherWorker where
  /-- There is no thread, or it has ended. -/
  | none
  /-- It has no client. -/
  | waiting
  /-- `accept4` has returned a client, and the flag is not set yet. -/
  | accepted
  | serving
  | sending (queued : Queued)

/-- A set `discontinuityPending` marks the next frame that the worker takes. -/
structure AudioStreamPublisher where
  queueCapacity : Nat := 64
  frames : List Queued := []
  discontinuityPending : Bool := false
  running : Bool := false
  worker : PublisherWorker := .none
  metrics : AudioStreamPublisherMetrics := {}
  /-- The calls of `Publish` that have seen `running` and do not have the lock yet. -/
  publishing : List AudioFrame := []
  /-- How many frames have been published. -/
  published : Nat := 0

/-- What `send` returns: the bytes that were sent, or why none were. -/
inductive SendResult where
  | sent (bytes : Nat)
  | wouldBlock
  | failed
  deriving DecidableEq

/-- What the system answers to the worker. -/
structure WorkerAnswers where
  accepted : Bool := false
  first : SendResult := .failed
  writable : Bool := false
  second : SendResult := .failed

inductive PublisherEvent where
  /-- `Publish` looks at `running`. -/
  | publish (frame : AudioFrame)
  /-- One of the calls of `Publish` gets the lock. -/
  | push (i : Nat)
  /-- `Start` sets `running`. -/
  | start
  /-- `Start` makes the thread. -/
  | spawn
  /-- `Stop` takes `running` down, or `Start` does when it fails. -/
  | stop
  /-- `Stop` clears the queue behind the `join`. -/
  | clear
  | worker (answers : WorkerAnswers)

inductive PublisherOutput where
  | nothing
  | refused
  | published (frame : AudioFrame)
  | accepted
  | delivered (queued : Queued)
  | closed

namespace AudioStreamPublisher

/-! ## The steps -/

variable (s : AudioStreamPublisher)

/-- The oldest frame of a full queue is dropped. -/
def makeRoom : AudioStreamPublisher :=
  if s.queueCapacity ≤ s.frames.length then
    { s with
      frames := s.frames.tail
      discontinuityPending := true
      metrics := { s.metrics with framesDropped := s.metrics.framesDropped + 1 } }
  else s

def push (frame : AudioFrame) : AudioStreamPublisher :=
  let s := s.makeRoom
  { s with
    frames := s.frames ++ [⟨s.published, frame⟩]
    metrics := { s.metrics with framesQueued := s.metrics.framesQueued + 1 }
    published := s.published + 1 }

/-- The worker takes the next frame, and the flag down. -/
def dequeue : AudioStreamPublisher :=
  match s.frames with
  | [] => s
  | queued :: frames =>
    let flags := queued.frame.flags
    let flags :=
      if s.discontinuityPending then
        flags ||| AudioFrameFlag.kDiscontinuity ||| AudioFrameFlag.kDroppedBefore
      else flags
    { s with
      frames := frames
      discontinuityPending := false
      worker := .sending ⟨queued.number, queued.frame.withFlags flags⟩ }

/-- A client that is not ready gets a second try. -/
def sendFrame (answers : WorkerAnswers) : Bool :=
  let sent :=
    if answers.first = .wouldBlock ∧ answers.writable = true then answers.second else answers.first
  sent = .sent kAudioStreamCapturePacketBytes

def workerStep (answers : WorkerAnswers) : AudioStreamPublisher × PublisherOutput :=
  match s.worker with
  | .none => (s, .nothing)
  | .waiting =>
    if s.running = false then ({ s with worker := .none }, .nothing)
    else if answers.accepted then ({ s with worker := .accepted }, .accepted)
    else (s, .nothing)
  | .accepted =>
    ({ s with
      discontinuityPending := true
      metrics := { s.metrics with clientsAccepted := s.metrics.clientsAccepted + 1 }
      worker := .serving }, .nothing)
  | .serving =>
    if s.running = false then ({ s with worker := .none }, .closed) else (s.dequeue, .nothing)
  | .sending queued =>
    if sendFrame answers then
      ({ s with
        metrics := { s.metrics with framesSent := s.metrics.framesSent + 1 }
        worker := .serving }, .delivered queued)
    else
      ({ s with
        metrics := { s.metrics with clientDisconnects := s.metrics.clientDisconnects + 1 }
        worker := .waiting }, .closed)

def step : PublisherEvent → AudioStreamPublisher × PublisherOutput
  | .publish frame =>
    if s.running then ({ s with publishing := s.publishing ++ [frame] }, .nothing) else (s, .refused)
  | .push i =>
    match s.publishing[i]? with
    | none => (s, .nothing)
    | some frame => ({ s with publishing := s.publishing.eraseIdx i }.push frame, .published frame)
  | .start =>
    if s.queueCapacity = 0 ∨ s.running = true then (s, .refused) else ({ s with running := true }, .nothing)
  | .spawn =>
    match s.worker with
    | .none => ({ s with worker := .waiting }, .nothing)
    | _ => (s, .nothing)
  | .stop => ({ s with running := false }, .nothing)
  | .clear =>
    match s.worker with
    | .none => ({ s with frames := [], discontinuityPending := false }, .nothing)
    | _ => (s, .nothing)
  | .worker answers => s.workerStep answers

/-! ## What the clients are sent -/

def published? : PublisherOutput → Option AudioFrame
  | .published frame => some frame
  | _ => none

def publications (log : List PublisherOutput) : List AudioFrame := log.filterMap published?

def record (clients : List (List Queued)) : PublisherOutput → List (List Queued)
  | .accepted => clients ++ [[]]
  | .delivered queued => clients.dropLast ++ [clients.getLast?.getD [] ++ [queued]]
  | _ => clients

/-- What each client was sent. -/
def deliveries (log : List PublisherOutput) : List (List Queued) := log.foldl record []

end AudioStreamPublisher

namespace Queued

/-- As one behind a gap. -/
def Marked (queued : Queued) : Prop :=
  queued.frame.hasFlag AudioFrameFlag.kDiscontinuity = true ∧
    queued.frame.hasFlag AudioFrameFlag.kDroppedBefore = true

/-- The published frame of its number, marked or not. -/
def IsPublication (published : List AudioFrame) (queued : Queued) : Prop :=
  ∃ frame, published[queued.number]? = some frame ∧
    (queued.frame = frame ∨ queued.frame = frame.withFlags
      (frame.flags ||| AudioFrameFlag.kDiscontinuity ||| AudioFrameFlag.kDroppedBefore))

end Queued

/-- Every frame that does not follow the one before it is marked, and the first one is. -/
structure GapsMarked (client : List Queued) : Prop where
  first : ∀ queued ∈ client.head?, queued.Marked
  next : client.IsChain fun a b => b.number = a.number + 1 ∨ b.Marked

def EndsBefore (client : List Queued) (number : Nat) : Prop :=
  ∃ last ∈ client.getLast?, number = last.number + 1

def Numbered : Nat → List Queued → Nat → Prop
  | n, [], m => n = m
  | n, queued :: frames, m => queued.number = n ∧ Numbered (n + 1) frames m

variable {client frames : List Queued} {queued : Queued} {n m : Nat} {published : List AudioFrame}

theorem GapsMarked.nil : GapsMarked [] := ⟨fun _ hmem => (nomatch hmem), isChain_nil⟩

theorem GapsMarked.concat (h : GapsMarked client) (hnext : queued.Marked ∨ EndsBefore client queued.number) :
    GapsMarked (client ++ [queued]) := by
  constructor
  · intro first hfirst
    cases client with
    | nil =>
      obtain rfl : queued = first := Option.some.inj hfirst
      rcases hnext with hmarked | ⟨last, hlast, -⟩
      · exact hmarked
      · cases hlast
    | cons head client => exact h.first first hfirst
  · rw [isChain_append]
    refine ⟨h.next, isChain_singleton queued, fun last hlast next hmem => ?_⟩
    obtain rfl : queued = next := Option.some.inj hmem
    rcases hnext with hmarked | ⟨last', hlast', hnum⟩
    · exact .inr hmarked
    · obtain rfl : last = last' := Option.mem_unique hlast hlast'
      exact .inl hnum

theorem Numbered.le (h : Numbered n frames m) : n ≤ m := by
  induction frames generalizing n with
  | nil => exact Nat.le_of_eq h
  | cons queued frames ih => exact Nat.le_of_succ_le (ih h.2)

theorem Numbered.concat (h : Numbered n frames m) (frame : AudioFrame) :
    Numbered n (frames ++ [⟨m, frame⟩]) (m + 1) := by
  induction frames generalizing n with
  | nil => exact ⟨h.symm, congrArg (· + 1) h⟩
  | cons queued frames ih => exact ⟨h.1, ih h.2⟩

theorem Numbered.tail (h : Numbered n frames m) : ∃ n', n ≤ n' ∧ Numbered n' frames.tail m := by
  cases frames with
  | nil => exact ⟨n, Nat.le_refl n, h⟩
  | cons queued frames => exact ⟨n + 1, Nat.le_succ n, h.2⟩

theorem Queued.IsPublication.concat (h : queued.IsPublication published) (frame : AudioFrame) :
    queued.IsPublication (published ++ [frame]) := by
  obtain ⟨original, horiginal, hframe⟩ := h
  refine ⟨original, ?_, hframe⟩
  obtain ⟨hlt, -⟩ := List.getElem?_eq_some_iff.mp horiginal
  rw [List.getElem?_append_left hlt]
  exact horiginal

theorem marked_withFlags (number : Nat) (frame : AudioFrame) (flags : AudioFrameFlag) :
    Queued.Marked ⟨number, frame.withFlags
      (flags ||| AudioFrameFlag.kDiscontinuity ||| AudioFrameFlag.kDroppedBefore)⟩ := by
  constructor
  · have hswap : flags ||| AudioFrameFlag.kDiscontinuity ||| AudioFrameFlag.kDroppedBefore =
        flags ||| AudioFrameFlag.kDroppedBefore ||| AudioFrameFlag.kDiscontinuity := by
      rw [UInt32.or_assoc, UInt32.or_assoc, UInt32.or_comm AudioFrameFlag.kDiscontinuity]
    rw [hswap]
    exact AudioFrame.hasFlag_withFlags_or frame _ (by decide)
  · exact AudioFrame.hasFlag_withFlags_or frame _ (by decide)

namespace AudioStreamPublisher

/-- The client that the worker has now. -/
def Connected (clients : List (List Queued)) (current : List Queued) : Prop :=
  ∃ past, clients = past ++ [current]

/-- What was sent comes before what is to be sent. -/
def Taken (published : List AudioFrame) (clients : List (List Queued)) (s : AudioStreamPublisher) (n : Nat) : Prop :=
  match s.worker with
  | .none | .waiting => ∀ sent ∈ clients.flatten, sent.number < n
  | .accepted => (∀ sent ∈ clients.flatten, sent.number < n) ∧ ∃ current, Connected clients current
  | .serving => (∀ sent ∈ clients.flatten, sent.number < n) ∧
      ∃ current, Connected clients current ∧ (s.discontinuityPending = true ∨ EndsBefore current n)
  | .sending queued => (∀ sent ∈ clients.flatten, sent.number < queued.number) ∧ queued.number < n ∧
      queued.IsPublication published ∧
      ∃ current, Connected clients current ∧ (queued.Marked ∨ EndsBefore current queued.number) ∧
        (s.discontinuityPending = true ∨ n = queued.number + 1)

/-- The invariant. -/
structure Law (published : List AudioFrame) (clients : List (List Queued)) (s : AudioStreamPublisher)
    (n : Nat) : Prop where
  queue : Numbered n s.frames s.published
  count : published.length = s.published
  frames : ∀ queued ∈ s.frames, published[queued.number]? = some queued.frame
  sorted : clients.flatten.Pairwise (·.number < ·.number)
  publication : ∀ sent ∈ clients.flatten, sent.IsPublication published
  marked : ∀ client ∈ clients, GapsMarked client
  taken : Taken published clients s n

variable {s : AudioStreamPublisher} {clients : List (List Queued)}

theorem Taken.lt (h : Taken published clients s n) : ∀ sent ∈ clients.flatten, sent.number < n := by
  unfold Taken at h
  cases hworker : s.worker with
  | none | waiting => rw [hworker] at h; exact h
  | accepted | serving => rw [hworker] at h; exact h.1
  | sending queued =>
    rw [hworker] at h
    exact fun sent hmem => Nat.lt_trans (h.1 sent hmem) h.2.1

variable {s' : AudioStreamPublisher}

theorem Taken.drop (h : Taken published clients s n) {n' : Nat} (hle : n ≤ n') (hworker : s'.worker = s.worker)
    (hpending : s'.discontinuityPending = true ∨ s'.discontinuityPending = s.discontinuityPending ∧ n' = n) :
    Taken published clients s' n' := by
  have hlt : ∀ sent ∈ clients.flatten, sent.number < n' :=
    fun sent hmem => Nat.lt_of_lt_of_le (h.lt sent hmem) hle
  unfold Taken at h ⊢
  rw [hworker]
  cases hphase : s.worker with
  | none | waiting => exact hlt
  | accepted =>
    rw [hphase] at h
    exact ⟨hlt, h.2⟩
  | serving =>
    rw [hphase] at h
    obtain ⟨-, current, hcur, hflag⟩ := h
    refine ⟨hlt, current, hcur, ?_⟩
    rcases hpending with hset | ⟨hsame, rfl⟩
    · exact .inl hset
    · rwa [hsame]
  | sending queued =>
    rw [hphase] at h
    obtain ⟨hsent, hnum, hpublication, current, hcur, hmark, hflag⟩ := h
    refine ⟨hsent, Nat.lt_of_lt_of_le hnum hle, hpublication, current, hcur, hmark, ?_⟩
    rcases hpending with hset | ⟨hsame, rfl⟩
    · exact .inl hset
    · rwa [hsame]

theorem Taken.concat (h : Taken published clients s n) (frame : AudioFrame) :
    Taken (published ++ [frame]) clients s n := by
  unfold Taken at h ⊢
  cases hphase : s.worker with
  | none | waiting | accepted | serving => rw [hphase] at h; exact h
  | sending queued =>
    rw [hphase] at h
    obtain ⟨hsent, hnum, hpublication, hrest⟩ := h
    exact ⟨hsent, hnum, hpublication.concat frame, hrest⟩

section

variable (h : Law published clients s n)
include h

theorem Law.makeRoom : ∃ n', Law published clients s.makeRoom n' := by
  unfold AudioStreamPublisher.makeRoom
  split
  case isTrue =>
    obtain ⟨n', hle, hqueue⟩ := h.queue.tail
    exact ⟨n', hqueue, h.count, fun queued hmem => h.frames queued (mem_of_mem_tail hmem), h.sorted,
      h.publication, h.marked, h.taken.drop hle rfl (.inl rfl)⟩
  case isFalse => exact ⟨n, h⟩

theorem Law.push (frame : AudioFrame) : ∃ n', Law (published ++ [frame]) clients (s.push frame) n' := by
  obtain ⟨n', hroom⟩ := h.makeRoom
  unfold AudioStreamPublisher.push
  generalize s.makeRoom = s at hroom
  refine ⟨n', hroom.queue.concat frame, ?_, ?_, hroom.sorted,
    fun sent hmem => (hroom.publication sent hmem).concat frame, hroom.marked,
    (hroom.taken.drop (Nat.le_refl n') rfl (.inr ⟨rfl, rfl⟩)).concat frame⟩
  · rw [length_append, hroom.count]
    rfl
  · intro queued hmem
    rcases mem_append.mp hmem with hold | hnew
    · have hframe := hroom.frames queued hold
      obtain ⟨hlt, -⟩ := List.getElem?_eq_some_iff.mp hframe
      rw [List.getElem?_append_left hlt]
      exact hframe
    · rw [mem_singleton.mp hnew, ← hroom.count]
      exact List.getElem?_concat_length

theorem Law.dequeue (hworker : s.worker = .serving) : ∃ n', Law published clients s.dequeue n' := by
  have htaken := h.taken
  unfold Taken at htaken
  rw [hworker] at htaken
  obtain ⟨hsent, current, hcur, hflag⟩ := htaken
  unfold AudioStreamPublisher.dequeue
  split
  case h_1 => exact ⟨n, h⟩
  case h_2 queued frames hframes =>
    have hqueue := h.queue
    rw [hframes] at hqueue
    have hpub := h.frames queued (hframes ▸ mem_cons_self)
    refine ⟨n + 1, hqueue.2, h.count,
      fun other hmem => h.frames other (hframes ▸ mem_cons_of_mem queued hmem), h.sorted,
      h.publication, h.marked, ?_⟩
    rw [hqueue.1]
    refine ⟨hsent, Nat.lt_succ_self n, ?_, current, hcur, ?_, .inr rfl⟩
    · refine ⟨queued.frame, hqueue.1 ▸ hpub, ?_⟩
      cases s.discontinuityPending with
      | true => exact .inr rfl
      | false => exact .inl rfl
    · rcases hflag with hset | hends
      · left
        rw [if_pos hset]
        exact marked_withFlags n queued.frame queued.frame.flags
      · exact .inr hends

theorem Law.deliver {queued : Queued} (hworker : s.worker = .sending queued) (metrics : AudioStreamPublisherMetrics) :
    Law published (record clients (.delivered queued)) { s with metrics := metrics, worker := .serving } n := by
  have htaken := h.taken
  unfold Taken at htaken
  rw [hworker] at htaken
  obtain ⟨hsent, hnum, hpublication, current, ⟨past, rfl⟩, hmark, hflag⟩ := htaken
  have hrecord : record (past ++ [current]) (.delivered queued) = past ++ [current ++ [queued]] := by
    unfold record
    rw [dropLast_concat, List.getLast?_concat]
    rfl
  have hflatten : (past ++ [current ++ [queued]]).flatten = (past ++ [current]).flatten ++ [queued] := by
    rw [flatten_append, flatten_append, flatten_singleton, flatten_singleton, append_assoc]
  rw [hrecord]
  refine ⟨h.queue, h.count, h.frames, ?_, ?_, ?_, ?_, current ++ [queued], ⟨past, rfl⟩, ?_⟩
  · rw [hflatten, pairwise_append]
    exact ⟨h.sorted, pairwise_singleton _ _,
      fun sent hmem other hother => mem_singleton.mp hother ▸ hsent sent hmem⟩
  · intro sent hmem
    rw [hflatten] at hmem
    rcases mem_append.mp hmem with hold | hnew
    · exact h.publication sent hold
    · rw [mem_singleton.mp hnew]
      exact hpublication
  · intro client hmem
    rcases mem_append.mp hmem with hold | hnew
    · exact h.marked client (mem_append_left _ hold)
    · rw [mem_singleton.mp hnew]
      exact (h.marked current (mem_append_right _ mem_cons_self)).concat hmark
  · intro sent hmem
    rw [hflatten] at hmem
    rcases mem_append.mp hmem with hold | hnew
    · exact Nat.lt_trans (hsent sent hold) hnum
    · rw [mem_singleton.mp hnew]
      exact hnum
  · exact hflag.imp id fun hnext => ⟨queued, List.getLast?_concat, hnext⟩

theorem Law.accept : Law published (record clients .accepted) { s with worker := .accepted } n := by
  have hflatten : (clients ++ [[]]).flatten = clients.flatten := by
    rw [flatten_append, flatten_singleton, append_nil]
  refine ⟨h.queue, h.count, h.frames, ?_, ?_, ?_, ?_, [], clients, rfl⟩
  · show (clients ++ [[]]).flatten.Pairwise _
    rw [hflatten]
    exact h.sorted
  · show ∀ sent ∈ (clients ++ [[]]).flatten, _
    rw [hflatten]
    exact h.publication
  · intro client hmem
    rcases mem_append.mp hmem with hold | hnew
    · exact h.marked client hold
    · rw [mem_singleton.mp hnew]
      exact .nil
  · show ∀ sent ∈ (clients ++ [[]]).flatten, _
    rw [hflatten]
    exact h.taken.lt

theorem Law.keep (hframes : s'.frames = s.frames)
    (hpub : s'.published = s.published) (htaken : Taken published clients s' n) :
    Law published clients s' n := by
  refine ⟨?_, ?_, ?_, h.sorted, h.publication, h.marked, htaken⟩
  · rw [hframes, hpub]
    exact h.queue
  · rw [hpub]
    exact h.count
  · rw [hframes]
    exact h.frames

theorem Law.workerStep (answers : WorkerAnswers) :
    ∃ n', Law (published ++ (published? (s.workerStep answers).2).toList)
      (record clients (s.workerStep answers).2) (s.workerStep answers).1 n' := by
  have hidle : published ++ (none : Option AudioFrame).toList = published := append_nil published
  unfold AudioStreamPublisher.workerStep
  cases hworker : s.worker with
  | none =>
    rw [← hidle] at h
    exact ⟨n, h⟩
  | waiting =>
    dsimp only
    split
    case isTrue => exact ⟨n, hidle.symm ▸ h.keep rfl rfl h.taken.lt⟩
    case isFalse =>
      split
      case isTrue => exact ⟨n, hidle.symm ▸ h.accept⟩
      case isFalse => exact ⟨n, hidle.symm ▸ h⟩
  | accepted =>
    have htaken := h.taken
    unfold Taken at htaken
    rw [hworker] at htaken
    obtain ⟨hsent, current, hcur⟩ := htaken
    exact ⟨n, hidle.symm ▸ h.keep rfl rfl ⟨hsent, current, hcur, .inl rfl⟩⟩
  | serving =>
    dsimp only
    split
    case isTrue => exact ⟨n, hidle.symm ▸ h.keep rfl rfl h.taken.lt⟩
    case isFalse =>
      obtain ⟨n', hnext⟩ := h.dequeue hworker
      exact ⟨n', hidle.symm ▸ hnext⟩
  | sending queued =>
    dsimp only
    split
    case isTrue => exact ⟨n, hidle.symm ▸ h.deliver hworker _⟩
    case isFalse => exact ⟨n, hidle.symm ▸ h.keep rfl rfl h.taken.lt⟩

/-- **Every step keeps the law.** -/
theorem Law.step (event : PublisherEvent) : ∃ n', Law (published ++ (published? (s.step event).2).toList)
      (record clients (s.step event).2) (s.step event).1 n' := by
  have hidle : published ++ (none : Option AudioFrame).toList = published := append_nil published
  have hsame : ∀ s' : AudioStreamPublisher, s'.worker = s.worker →
      s'.discontinuityPending = s.discontinuityPending → Taken published clients s' n :=
    fun s' hworker hpending => h.taken.drop (Nat.le_refl n) hworker (.inr ⟨hpending, rfl⟩)
  cases event with
  | publish frame =>
    unfold AudioStreamPublisher.step
    dsimp only
    split
    case isTrue => exact ⟨n, hidle.symm ▸ h.keep rfl rfl (hsame _ rfl rfl)⟩
    case isFalse => exact ⟨n, hidle.symm ▸ h⟩
  | push i =>
    unfold AudioStreamPublisher.step
    dsimp only
    split
    case h_1 => exact ⟨n, hidle.symm ▸ h⟩
    case h_2 frame _ =>
      have hless : Law published clients { s with publishing := s.publishing.eraseIdx i } n :=
        h.keep rfl rfl (hsame _ rfl rfl)
      exact hless.push frame
  | start =>
    unfold AudioStreamPublisher.step
    dsimp only
    split
    case isTrue => exact ⟨n, hidle.symm ▸ h⟩
    case isFalse => exact ⟨n, hidle.symm ▸ h.keep rfl rfl (hsame _ rfl rfl)⟩
  | spawn =>
    unfold AudioStreamPublisher.step
    dsimp only
    split
    case h_1 => exact ⟨n, hidle.symm ▸ h.keep rfl rfl h.taken.lt⟩
    case h_2 => exact ⟨n, hidle.symm ▸ h⟩
  | stop => exact ⟨n, hidle.symm ▸ h.keep rfl rfl (hsame _ rfl rfl)⟩
  | clear =>
    unfold AudioStreamPublisher.step
    dsimp only
    split
    case h_1 hnone =>
      -- nothing is left in the queue, and the worker has no client
      refine ⟨s.published, hidle.symm ▸ ⟨rfl, h.count, fun _ hmem => (nomatch hmem), h.sorted, h.publication,
        h.marked, ?_⟩⟩
      unfold Taken
      rw [hnone]
      exact fun sent hmem => Nat.lt_of_lt_of_le (h.taken.lt sent hmem) h.queue.le
    case h_2 => exact ⟨n, hidle.symm ▸ h⟩
  | worker answers => exact h.workerStep answers

end

def log (queueCapacity : Nat) (events : List PublisherEvent) : List PublisherOutput :=
  (trace step { queueCapacity := queueCapacity } events).map Prod.snd

/-- The invariant holds in every reachable state. -/
theorem law_run (queueCapacity : Nat) (events : List PublisherEvent) :
    ∃ n, Law (publications (log queueCapacity events)) (deliveries (log queueCapacity events))
      (run step { queueCapacity := queueCapacity } events) n := by
  have hstart : ∃ n, Law (publications []) (deliveries []) { queueCapacity := queueCapacity } n :=
    ⟨0, rfl, rfl, fun _ hmem => (nomatch hmem), List.Pairwise.nil, fun _ hmem => (nomatch hmem),
      fun _ hmem => (nomatch hmem), fun _ hmem => (nomatch hmem)⟩
  refine @trace_invariant _ _ _ _ (fun history s => ∃ n, Law (publications (history.map Prod.snd))
    (deliveries (history.map Prod.snd)) s n) ?_ [] _ hstart events
  rintro history s event ⟨n, h⟩
  obtain ⟨n', hnext⟩ := h.step event
  refine ⟨n', ?_⟩
  have hpublications : publications ((history ++ [(event, (s.step event).2)]).map Prod.snd) =
      publications (history.map Prod.snd) ++ (published? (s.step event).2).toList := by
    rw [map_append]
    exact filterMap_snoc published? _ _
  have hdeliveries : deliveries ((history ++ [(event, (s.step event).2)]).map Prod.snd) =
      record (deliveries (history.map Prod.snd)) (s.step event).2 := by
    unfold deliveries
    rw [map_append, foldl_append]
    rfl
  rw [hpublications, hdeliveries]
  exact hnext

/-- **No gap is hidden**: the clients are sent published frames in their order, each at most once, and a
    client's frame is marked when it is the first one, or does not follow the one before it. -/
theorem gaps_are_marked (queueCapacity : Nat) (events : List PublisherEvent) :
    (deliveries (log queueCapacity events)).flatten.Pairwise (·.number < ·.number) ∧
      ∀ client ∈ deliveries (log queueCapacity events),
        (∀ sent ∈ client, sent.IsPublication (publications (log queueCapacity events))) ∧
          GapsMarked client := by
  obtain ⟨n, h⟩ := law_run queueCapacity events
  refine ⟨h.sorted, fun client hclient => ⟨fun sent hsent => ?_, h.marked client hclient⟩⟩
  exact h.publication sent (mem_flatten_of_mem hclient hsent)

end AudioStreamPublisher

end Cockpit.Audio
