/-
  A recovering camera delivers no frame of a lost capture: a recovery can only end with a frame of the current
  generation, and only while a deadline is set.
-/
import Cockpit.Camera.SoftwareIspPreview
import Cockpit.Lib.NumberedLog

namespace Cockpit.Camera

open StepRun NumberedLog SoftwareIspPreviewSource List Option

/-! ## The law -/

namespace PreviewEvent

@[simp] def capturedFrame : PreviewEvent → Option PendingFrame
  | captured pending => some pending
  | _ => none

@[simp] def decision : PreviewEvent → Option (PendingFrame × Bool)
  | decided pending deliverFrame => some (pending, deliverFrame)
  | _ => none

@[simp] def deliveredFrame : PreviewEvent → Option PendingFrame
  | delivered pending => some pending
  | _ => none

@[simp] def lostGeneration : PreviewEvent → Option Nat
  | lost generation => some generation
  | _ => none

@[simp] def reopenedGeneration : PreviewEvent → Option Nat
  | reopened generation => some generation
  | _ => none

end PreviewEvent

namespace SoftwareIspPreviewSource

/-- What the steps of a run show. -/
def events (captureGeneration : Nat) (calls : List PreviewCall) : List PreviewEvent :=
  (trace step (started captureGeneration) calls).filterMap Prod.snd

/-- A frame of a newer capture is decided on within its deadline. -/
def ProcessesReplacement (generation : Nat) (s : SoftwareIspPreviewSource) (call : PreviewCall) : Prop :=
  ∃ world pending, call = .isp world ∧ s.ispLoop = .commit pending ∧ generation < pending.generation ∧
    pending.generation = s.captureGeneration ∧ s.recoveryDeadline ≠ 0 ∧ world.now < s.recoveryDeadline

/-- The frame gets through. -/
def DecidesToDeliver (s : SoftwareIspPreviewSource) (call : PreviewCall) : Prop :=
  ∃ pending, (step s call).2 = some (.decided pending true)

/-- What holds of the frames of a session. -/
structure DeliversNoLostFrame (captureGeneration : Nat) (calls : List PreviewCall) : Prop where
  current : ∀ before call rest pending, calls = before ++ call :: rest →
    (step (after captureGeneration before) call).2 = some (.decided pending true) →
    pending.generation = (after captureGeneration before).captureGeneration
  /-- The captured frames have the numbers 1, 2, 3 and so on, and are decided on in that order. -/
  ordered : Numbered PendingFrame.number
      ((events captureGeneration calls).filterMap PreviewEvent.capturedFrame) ∧
    (((events captureGeneration calls).filterMap PreviewEvent.decision).map Prod.fst).Sublist
      ((events captureGeneration calls).filterMap PreviewEvent.capturedFrame)
  /-- What is delivered is what was decided to be, in order. -/
  delivered : (events captureGeneration calls).filterMap PreviewEvent.deliveredFrame <+:
    (((events captureGeneration calls).filterMap PreviewEvent.decision).filter Prod.snd).map Prod.fst
  /-- From where a recovery begins, nothing is decided to be delivered before a frame of a replacement was processed
      in time. -/
  fenced : ∀ before call rest, calls = before ++ call :: rest →
    (step (after captureGeneration before) call).2 = some .recoveringSet →
    (events captureGeneration before).filterMap PreviewEvent.lostGeneration ≠ [] ∧
    ∀ lost ∈ (events captureGeneration before).filterMap PreviewEvent.lostGeneration,
      Along step (fun s call => ¬ ProcessesReplacement lost s call)
        (after captureGeneration (before ++ [call])) rest →
      Along step (fun s call => ¬ DecidesToDeliver s call) (after captureGeneration (before ++ [call])) rest
  room : (after captureGeneration calls).queue.length ≤ 2
  successes : (after captureGeneration calls).stats.reconnectSuccesses ≤
    ((events captureGeneration calls).filterMap PreviewEvent.reopenedGeneration).length

end SoftwareIspPreviewSource

/-! ## The machine behind it -/

/-- How far `CaptureLoop` is with a lost capture. -/
inductive CapturePhase where
  | watching
  /-- The capture is gone, and `recovering_` not stored yet. -/
  | losing
  | reopening
  /-- There is a new capture, and `recovering_` not stored again yet. -/
  | reopened
  | over
  deriving DecidableEq

@[simp] def CapturePlace.phase : CapturePlace → CapturePhase
  | storeRecovering | storeRecoveringAfterLoss => .losing
  | countFailure | backOff _ | testBackOff _ | blockBackOff _ | asleepBackOff _ | endBackOff _ | openCapture _
  | countAttempt _ _ | storeOpenError _ _ | storeReplacement _ => .reopening
  | storeReopened => .reopened
  | exited => .over
  | _ => .watching

@[simp] def IspPlace.developing : IspPlace → Option PendingFrame
  | process pending | commit pending => some pending
  | _ => none

@[simp] def IspPlace.delivering : IspPlace → Option PendingFrame
  | loadTimeout pending true | notifyTimeout pending true | deliver pending => some pending
  | _ => none

@[simp] theorem IspPlace.developing_notify (place : IspPlace) : place.notify.developing = place.developing := by
  cases place <;> rfl

@[simp] theorem IspPlace.delivering_notify (place : IspPlace) : place.notify.delivering = place.delivering := by
  cases place <;> rfl

/-- What the frames depend on. -/
structure Recovery where
  phase : CapturePhase
  capture : Bool
  recovering : Bool
  generation : Nat
  deadline : Int
  queue : List PendingFrame
  developing : Option PendingFrame
  delivering : Option PendingFrame
  captured : Nat
  successes : Nat

namespace Recovery

/-- Between the capture and the decision. -/
def waiting (v : Recovery) : List PendingFrame := v.developing.toList ++ v.queue

/-- What a step may do at a time. -/
inductive Move (now : Int) (v : Recovery) : Option PreviewEvent → Recovery → Prop
  | idle (phase : CapturePhase) (ended : v.phase = .over → phase = .over)
      (losing : phase = .losing → v.phase = .losing ∨ v.capture = false)
      (reopening : phase = .reopening → v.phase = .reopening)
      (reopened : phase = .reopened → v.phase = .reopened) : Move now v none { v with phase }
  | lose (phase : CapturePhase) (busy : v.phase ≠ .over) (next : phase = .watching ∨ phase = .losing) :
      Move now v (some (.lost v.generation)) { v with capture := false, deadline := 0, phase }
  | setRecovering (phase : CapturePhase)
      (next : v.phase = .losing ∧ (phase = .reopening ∨ phase = .watching) ∨
        v.phase = .reopened ∧ phase = .watching) :
      Move now v (some .recoveringSet) { v with recovering := true, phase }
  | reopen (deadline : Int) (lost : v.phase = .reopening) :
      Move now v (some (.reopened (v.generation + 1)))
        { v with capture := true, generation := v.generation + 1, deadline, phase := .reopened }
  | enqueue (pending : PendingFrame) (queue : List PendingFrame) (busy : v.phase = .watching)
      (generation : pending.generation = v.generation) (number : pending.number = v.captured + 1)
      (room : queue.length < 2) (kept : queue.Sublist v.queue) :
      Move now v (some (.captured pending))
        { v with queue := queue ++ [pending], captured := v.captured + 1 }
  | pop (pending : PendingFrame) (queue : List PendingFrame) (free : v.developing = none)
      (first : v.queue = pending :: queue) : Move now v none { v with queue, developing := some pending }
  /-- Also a frame without a callback. -/
  | drop (queue : List PendingFrame) (kept : queue.Sublist v.queue) :
      Move now v none { v with queue, developing := none }
  | withhold (pending : PendingFrame) (frame : v.developing = some pending) :
      Move now v (some (.decided pending false)) { v with developing := none }
  | pass (pending : PendingFrame) (frame : v.developing = some pending) (free : v.delivering = none)
      (steady : v.recovering = false) :
      Move now v (some (.decided pending true)) { v with developing := none, delivering := some pending }
  | recover (pending : PendingFrame) (frame : v.developing = some pending) (free : v.delivering = none)
      (generation : pending.generation = v.generation) (set : v.deadline ≠ 0) (inTime : now < v.deadline) :
      Move now v (some (.decided pending true))
        { v with
          developing := none, delivering := some pending, recovering := false, deadline := 0
          successes := v.successes + 1 }
  | deliver (pending : PendingFrame) (frame : v.delivering = some pending) :
      Move now v (some (.delivered pending)) { v with delivering := none }
  | finish (ended : v.phase = .over) (free : v.developing = none) :
      Move now v none { v with queue := [], capture := false, recovering := false, deadline := 0 }

/-! ## Outside of a recovery all waiting frames are current -/

/-- Outside of a recovery all waiting frames are of the current generation. -/
structure Sound (v : Recovery) : Prop where
  unset : v.capture = false → v.deadline = 0
  lost : v.phase = .losing ∨ v.phase = .reopening → v.capture = false
  recovering : v.phase = .reopening ∨ v.phase = .reopened → v.recovering = true
  /-- The capture just opened has given no frame yet. -/
  stale : v.phase = .reopened → ∀ pending ∈ v.waiting, pending.generation < v.generation
  sorted : v.waiting.Pairwise (·.generation ≤ ·.generation)
  known : ∀ pending ∈ v.waiting, pending.generation ≤ v.generation
  steady : v.recovering = false → ∀ pending ∈ v.waiting, pending.generation = v.generation
  room : v.queue.length ≤ 2

variable {v v' : Recovery}

theorem Sound.shrink (h : v.Sound) (hsub : v'.waiting.Sublist v.waiting) (hqueue : v'.queue.length ≤ v.queue.length)
    (hphase : v'.phase = v.phase := by rfl) (hcapture : v'.capture = v.capture := by rfl)
    (hrecovering : v'.recovering = v.recovering := by rfl) (hgen : v'.generation = v.generation := by rfl)
    (hdeadline : v'.deadline = v.deadline := by rfl) : v'.Sound where
  unset := by rw [hcapture, hdeadline]; exact h.unset
  lost := by rw [hphase, hcapture]; exact h.lost
  recovering := by rw [hphase, hrecovering]; exact h.recovering
  stale := by
    rw [hphase, hgen]
    intro hreopened pending hmem
    exact h.stale hreopened pending (hsub.subset hmem)
  sorted := h.sorted.sublist hsub
  known := by
    rw [hgen]
    intro pending hmem
    exact h.known pending (hsub.subset hmem)
  steady := by
    rw [hrecovering, hgen]
    intro hsteady pending hmem
    exact h.steady hsteady pending (hsub.subset hmem)
  room := Nat.le_trans hqueue h.room

variable {pending : PendingFrame}

theorem Sound.enqueued (h : v.Sound) {queue : List PendingFrame} (hwatching : v.phase = .watching)
    (hgen : pending.generation = v.generation) (hroom : queue.length < 2) (hkept : queue.Sublist v.queue) :
    ({ v with queue := queue ++ [pending], captured := v.captured + 1 } : Recovery).Sound := by
  have hsub : (v.developing.toList ++ queue).Sublist v.waiting := List.Sublist.append_left hkept _
  have hwaiting : ∀ other, other ∈ v.developing.toList ++ (queue ++ [pending]) →
      other ∈ v.waiting ∨ other = pending := by
    intro other hmem
    rw [← append_assoc, mem_append, mem_singleton] at hmem
    exact hmem.imp_left fun hmem => hsub.subset hmem
  constructor
  case unset => exact h.unset
  case lost => exact h.lost
  case recovering => exact h.recovering
  case stale =>
    intro hreopened
    rw [show v.phase = .watching from hwatching] at hreopened
    cases hreopened
  case sorted =>
    show (v.developing.toList ++ (queue ++ [pending])).Pairwise _
    rw [← append_assoc, pairwise_append]
    refine ⟨h.sorted.sublist hsub, pairwise_singleton _ _, ?_⟩
    intro other hmem last hlast
    rw [mem_singleton.mp hlast, hgen]
    exact h.known other (hsub.subset hmem)
  case known =>
    intro other hmem
    rcases hwaiting other hmem with hmem | rfl
    · exact h.known other hmem
    · exact Nat.le_of_eq hgen
  case steady =>
    intro hsteady other hmem
    rcases hwaiting other hmem with hmem | rfl
    · exact h.steady hsteady other hmem
    · exact hgen
  case room =>
    show (queue ++ [pending]).length ≤ 2
    simp
    omega

theorem Sound.all_current (h : v.Sound) (hframe : v.developing = some pending)
    (hgen : pending.generation = v.generation) : ∀ other ∈ v.queue, other.generation = v.generation := by
  intro other hmem
  have hsorted := h.sorted
  have hknown := h.known
  rw [waiting, hframe, toList_some, singleton_append] at hsorted hknown
  have hge := (pairwise_cons.mp hsorted).1 other hmem
  have hle := hknown other (mem_cons_of_mem _ hmem)
  omega

variable {event : Option PreviewEvent} {now : Int}

theorem Move.sound (h : v.Sound) (hmove : Move now v event v') : v'.Sound := by
  have hqueue : v.queue.Sublist v.waiting := sublist_append_right _ _
  cases hmove with
  | idle phase hover hlosing hreopening hreopened =>
    refine ⟨h.unset, ?_, ?_, ?_, h.sorted, h.known, h.steady, h.room⟩
    · rintro (hphase | hphase)
      · rcases hlosing hphase with hbefore | hcapture
        · exact h.lost (.inl hbefore)
        · exact hcapture
      · exact h.lost (.inr (hreopening hphase))
    · rintro (hphase | hphase)
      · exact h.recovering (.inl (hreopening hphase))
      · exact h.recovering (.inr (hreopened hphase))
    · intro hphase
      exact h.stale (hreopened hphase)
  | lose phase hbusy hnext =>
    refine ⟨fun _ => rfl, fun _ => rfl, ?_, ?_, h.sorted, h.known, h.steady, h.room⟩
    · rintro (hphase | hphase) <;> rcases hnext with hnext | hnext <;> cases hphase.symm.trans hnext
    · intro hphase
      rcases hnext with hnext | hnext <;> cases hphase.symm.trans hnext
  | setRecovering phase hnext =>
    refine ⟨h.unset, ?_, fun _ => rfl, ?_, h.sorted, h.known, ?_, h.room⟩
    · intro hphase
      rcases hnext with ⟨hlosing, -⟩ | ⟨-, hwatching⟩
      · exact h.lost (.inl hlosing)
      · rcases hphase with hphase | hphase <;> cases hphase.symm.trans hwatching
    · intro hphase
      rcases hnext with ⟨-, hnext | hnext⟩ | ⟨-, hnext⟩ <;> cases hphase.symm.trans hnext
    · rintro ⟨⟩
  | reopen deadline hlost =>
    have hstale : ∀ pending ∈ v.waiting, pending.generation < v.generation + 1 := fun pending hmem =>
      Nat.lt_succ_of_le (h.known pending hmem)
    have hrecovering := h.recovering (.inl hlost)
    refine ⟨?_, ?_, fun _ => hrecovering, fun _ => hstale, h.sorted, ?_, ?_, h.room⟩
    · rintro ⟨⟩
    · rintro (hphase | hphase) <;> cases hphase
    · intro pending hmem
      exact Nat.le_of_lt (hstale pending hmem)
    · intro hsteady
      cases hrecovering.symm.trans hsteady
  | enqueue pending queue hbusy hgen hnum hroom hkept =>
    exact h.enqueued hbusy hgen hroom hkept
  | pop pending queue hfree hfirst =>
    refine h.shrink ?_ ?_
    · simp [waiting, hfree, hfirst]
    · simp [hfirst]
  | drop queue hkept => exact h.shrink (hkept.trans hqueue) hkept.length_le
  | withhold pending hframe | pass pending hframe hfree hsteady => exact h.shrink hqueue (Nat.le_refl _)
  | recover pending hframe hfree hgen hset hinTime =>
    have hcur := h.all_current hframe hgen
    -- the capture is there, and has given a frame
    have hcapture : v.capture ≠ false := fun hcapture => hset (h.unset hcapture)
    have hmem : pending ∈ v.waiting := by simp [waiting, hframe]
    refine ⟨fun _ => rfl, h.lost, ?_, ?_, h.sorted.sublist hqueue, ?_, fun _ => hcur, h.room⟩
    · rintro (hphase | hphase)
      · exact absurd (h.lost (.inr hphase)) hcapture
      · have := h.stale hphase pending hmem
        omega
    · intro hphase
      have := h.stale hphase pending hmem
      omega
    · intro other hother
      exact Nat.le_of_eq (hcur other hother)
  | deliver pending hframe => exact h.shrink (List.Sublist.refl _) (Nat.le_refl _)
  | finish hover hfree =>
    have hwaiting : ∀ {pending : PendingFrame}, pending ∉ v.developing.toList ++ [] := by simp [hfree]
    refine ⟨fun _ => rfl, fun _ => rfl, ?_, ?_, ?_, ?_, ?_, Nat.zero_le 2⟩
    · rintro (hphase | hphase) <;> cases hover.symm.trans hphase
    · intro hphase
      cases hover.symm.trans hphase
    · simp [waiting, hfree]
    · intro pending hmem
      exact absurd hmem hwaiting
    · intro _ pending hmem
      exact absurd hmem hwaiting

/-- **What is decided to be delivered is of the current generation.** -/
theorem Move.decided_current (h : v.Sound) (hmove : Move now v (some (.decided pending true)) v') :
    pending.generation = v.generation := by
  cases hmove with
  | pass _ hframe hfree hsteady => exact h.steady hsteady pending (by simp [waiting, hframe])
  | recover _ hframe hfree hgen hset hinTime => exact hgen

/-! ## A recovery keeps all but the frames of a replacement -/

/-- Only a frame of a replacement gets through. -/
def Fenced (lost : Nat) (v : Recovery) : Prop :=
  v.recovering = true ∧ (v.deadline ≠ 0 → lost < v.generation) ∧ lost ≤ v.generation ∨
    v.phase = .over ∧ v.waiting = []

theorem Move.fenced {lost : Nat} (h : Fenced lost v) (hmove : Move now v event v')
    (hnot : ∀ pending, v.developing = some pending → lost < pending.generation → pending.generation = v.generation
      → v.deadline ≠ 0 → now < v.deadline → event ≠ some (.decided pending true)) :
    Fenced lost v' ∧ ∀ pending, event ≠ some (.decided pending true) := by
  rcases h with ⟨hrecovering, hdeadline, hle⟩ | ⟨hover, hnone⟩
  · cases hmove with
    | idle phase => exact ⟨.inl ⟨hrecovering, hdeadline, hle⟩, nofun⟩
    | lose phase => exact ⟨.inl ⟨hrecovering, fun hset => absurd rfl hset, hle⟩, nofun⟩
    | setRecovering phase => exact ⟨.inl ⟨rfl, hdeadline, hle⟩, nofun⟩
    | reopen deadline => exact ⟨.inl ⟨hrecovering, fun _ => Nat.lt_succ_of_le hle, Nat.le_succ_of_le hle⟩, nofun⟩
    | enqueue pending queue | pop pending queue | drop queue | withhold pending =>
      exact ⟨.inl ⟨hrecovering, hdeadline, hle⟩, nofun⟩
    | pass pending hframe hfree hsteady => cases hrecovering.symm.trans hsteady
    | recover pending hframe hfree hgen hset hinTime =>
      have hlater : lost < pending.generation := by rw [hgen]; exact hdeadline hset
      exact absurd rfl (hnot pending hframe hlater hgen hset hinTime)
    | deliver pending => exact ⟨.inl ⟨hrecovering, hdeadline, hle⟩, nofun⟩
    | finish hover hfree => exact ⟨.inr ⟨hover, by simp [waiting, hfree]⟩, nofun⟩
  · have hdeveloping : v.developing = none := by
      cases hd : v.developing with
      | none => rfl
      | some pending => simp [waiting, hd] at hnone
    have hqueue : v.queue = [] := by simpa [waiting, hdeveloping] using hnone
    cases hmove with
    | idle phase hstay => exact ⟨.inr ⟨hstay hover, hnone⟩, nofun⟩
    | lose phase hbusy => exact absurd hover hbusy
    | setRecovering phase hnext =>
      rcases hnext with ⟨hphase, -⟩ | ⟨hphase, -⟩ <;> cases hover.symm.trans hphase
    | reopen deadline hphase | enqueue pending queue hphase => cases hover.symm.trans hphase
    | pop pending queue hfree hfirst => cases hqueue.symm.trans hfirst
    | drop queue hkept =>
      refine ⟨.inr ⟨hover, ?_⟩, nofun⟩
      rw [hqueue, sublist_nil] at hkept
      simp [waiting, hkept]
    | withhold pending hframe | pass pending hframe | recover pending hframe => cases hdeveloping.symm.trans hframe
    | deliver pending => exact ⟨.inr ⟨hover, hnone⟩, nofun⟩
    | finish => exact ⟨.inr ⟨hover, by simp [waiting, hdeveloping]⟩, nofun⟩

/-! ## What happened so far -/

def capturedFrames (events : List PreviewEvent) : List PendingFrame := events.filterMap PreviewEvent.capturedFrame

def decisions (events : List PreviewEvent) : List (PendingFrame × Bool) := events.filterMap PreviewEvent.decision

def deliveredFrames (events : List PreviewEvent) : List PendingFrame := events.filterMap PreviewEvent.deliveredFrame

def lostGenerations (events : List PreviewEvent) : List Nat := events.filterMap PreviewEvent.lostGeneration

def reopenedGenerations (events : List PreviewEvent) : List Nat :=
  events.filterMap PreviewEvent.reopenedGeneration

/-- The frames on their way, and the counters, by what happened. -/
structure Recorded (events : List PreviewEvent) (v : Recovery) : Prop where
  numbered : Numbered PendingFrame.number (capturedFrames events)
  captured : (capturedFrames events).length = v.captured
  decided : ((decisions events).map Prod.fst ++ v.waiting).Sublist (capturedFrames events)
  delivered : deliveredFrames events ++ v.delivering.toList = ((decisions events).filter Prod.snd).map Prod.fst
  /-- The recovery that is on has its generation to itself. -/
  successes : v.successes + (if v.deadline = 0 then 0 else 1) ≤ (reopenedGenerations events).length
  lost : ∀ lost ∈ lostGenerations events, lost ≤ v.generation ∧ (v.phase = .reopened → lost < v.generation)
  lostOnce : v.phase = .reopened ∨ v.capture = false ∧ v.phase ≠ .over → lostGenerations events ≠ []

variable {events : List PreviewEvent}

theorem Recorded.silent (h : Recorded events v) (hwaiting : v'.waiting.Sublist v.waiting)
    (hlost : v'.capture = false ∧ v'.phase ≠ .over → v.capture = false ∧ v.phase ≠ .over)
    (hreopened : v'.phase = .reopened → v.phase = .reopened := by exact id)
    (hdeadline : v.deadline = 0 → v'.deadline = 0 := by exact id) (hcaptured : v'.captured = v.captured := by rfl)
    (hdelivering : v'.delivering = v.delivering := by rfl) (hsuccesses : v'.successes = v.successes := by rfl)
    (hgen : v'.generation = v.generation := by rfl) : Recorded events v' where
  numbered := h.numbered
  captured := by rw [hcaptured]; exact h.captured
  decided := (List.Sublist.append_left hwaiting _).trans h.decided
  delivered := by rw [hdelivering]; exact h.delivered
  successes := by
    have := h.successes
    rw [hsuccesses]
    split
    · omega
    · rename_i hset
      rw [if_neg fun hunset => hset (hdeadline hunset)] at this
      exact this
  lost := by
    intro lost hmem
    rw [hgen]
    exact ⟨(h.lost lost hmem).1, fun hphase => (h.lost lost hmem).2 (hreopened hphase)⟩
  lostOnce := fun hphase => h.lostOnce (hphase.imp hreopened hlost)

section Snoc

variable (events : List PreviewEvent)

@[simp] theorem capturedFrames_snoc (event : PreviewEvent) :
    capturedFrames (events ++ [event]) = capturedFrames events ++ event.capturedFrame.toList :=
  filterMap_snoc _ _ _

@[simp] theorem decisions_snoc (event : PreviewEvent) :
    decisions (events ++ [event]) = decisions events ++ event.decision.toList :=
  filterMap_snoc _ _ _

@[simp] theorem deliveredFrames_snoc (event : PreviewEvent) :
    deliveredFrames (events ++ [event]) = deliveredFrames events ++ event.deliveredFrame.toList :=
  filterMap_snoc _ _ _

@[simp] theorem lostGenerations_snoc (event : PreviewEvent) :
    lostGenerations (events ++ [event]) = lostGenerations events ++ event.lostGeneration.toList :=
  filterMap_snoc _ _ _

@[simp] theorem reopenedGenerations_snoc (event : PreviewEvent) :
    reopenedGenerations (events ++ [event]) = reopenedGenerations events ++ event.reopenedGeneration.toList :=
  filterMap_snoc _ _ _

end Snoc

theorem Recorded.decide (h : Recorded events v) {deliverFrame : Bool} (hframe : v.developing = some pending)
    (hdelivering : v'.delivering.toList = v.delivering.toList ++ if deliverFrame then [pending] else [])
    (hsuccesses : v'.successes + (if v'.deadline = 0 then 0 else 1) ≤ v.successes + if v.deadline = 0 then 0 else 1)
    (hdeveloping : v'.developing = none := by rfl) (hqueue : v'.queue = v.queue := by rfl)
    (hcaptured : v'.captured = v.captured := by rfl) (hgen : v'.generation = v.generation := by rfl)
    (hphase : v'.phase = v.phase := by rfl) (hcapture : v'.capture = v.capture := by rfl) :
    Recorded (events ++ [.decided pending deliverFrame]) v' where
  numbered := by simpa using h.numbered
  captured := by simpa [hcaptured] using h.captured
  decided := by
    have hdecided := h.decided
    rw [waiting, hframe] at hdecided
    simpa [waiting, hdeveloping, hqueue] using hdecided
  delivered := by
    have hdelivered := h.delivered
    rw [hdelivering, ← append_assoc]
    cases deliverFrame with
    | true | false => simp [hdelivered]
  successes := by
    have hsum := h.successes
    simp only [reopenedGenerations_snoc, PreviewEvent.reopenedGeneration, toList_none, append_nil]
    omega
  lost := by simpa [hgen, hphase] using h.lost
  lostOnce := by simpa [hcapture, hphase] using h.lostOnce

/-- For an event which is about the capture and not about a frame. -/
theorem Recorded.noted {event : PreviewEvent} (h : Recorded events v)
    (hsuccesses : v'.successes + (if v'.deadline = 0 then 0 else 1) ≤ (reopenedGenerations (events ++ [event])).length)
    (hlost : ∀ lost ∈ lostGenerations (events ++ [event]),
      lost ≤ v'.generation ∧ (v'.phase = .reopened → lost < v'.generation))
    (hlostOnce : lostGenerations (events ++ [event]) ≠ []) (hcaptures : event.capturedFrame = none := by rfl)
    (hdecides : event.decision = none := by rfl) (hdelivers : event.deliveredFrame = none := by rfl)
    (hwaiting : v'.waiting = v.waiting := by rfl) (hcaptured : v'.captured = v.captured := by rfl)
    (hdelivering : v'.delivering = v.delivering := by rfl) : Recorded (events ++ [event]) v' where
  numbered := by simpa only [capturedFrames_snoc, hcaptures, toList_none, append_nil] using h.numbered
  captured := by
    simpa only [capturedFrames_snoc, hcaptures, hcaptured, toList_none, append_nil] using h.captured
  decided := by
    simpa only [capturedFrames_snoc, decisions_snoc, hcaptures, hdecides, hwaiting, toList_none, append_nil]
      using h.decided
  delivered := by
    simpa only [deliveredFrames_snoc, decisions_snoc, hdelivers, hdecides, hdelivering, toList_none, append_nil]
      using h.delivered
  successes := hsuccesses
  lost := hlost
  lostOnce := fun _ => hlostOnce

theorem Move.recorded (hsound : v.Sound) (h : Recorded events v) (hmove : Move now v event v') :
    Recorded (events ++ event.toList) v' := by
  cases hmove with
  | idle phase hover hlosing hreopening hreopened =>
    rw [toList_none, append_nil]
    refine h.silent (List.Sublist.refl _) ?_ hreopened
    rintro ⟨hcapture, hphase⟩
    exact ⟨hcapture, fun hbefore => hphase (hover hbefore)⟩
  | lose phase hbusy hnext =>
    refine h.noted ?_ ?_ (by simp)
    · have hsum := h.successes
      simp
      omega
    · intro lost hmem
      have hphase : phase ≠ .reopened := by rcases hnext with rfl | rfl <;> decide
      simp only [toList_some, lostGenerations_snoc, PreviewEvent.lostGeneration, mem_append,
        mem_singleton] at hmem
      rcases hmem with hmem | rfl
      · exact ⟨(h.lost lost hmem).1, fun hreopened => absurd hreopened hphase⟩
      · exact ⟨Nat.le_refl _, fun hreopened => absurd hreopened hphase⟩
  | setRecovering phase hnext =>
    have hphase : phase ≠ .reopened := by rcases hnext with ⟨-, rfl | rfl⟩ | ⟨-, rfl⟩ <;> decide
    refine h.noted (by simpa using h.successes) ?_ ?_
    · intro lost hmem
      simp at hmem
      exact ⟨(h.lost lost hmem).1, fun hreopened => absurd hreopened hphase⟩
    · simp
      rcases hnext with ⟨hlosing, -⟩ | ⟨hreopened, -⟩
      · exact h.lostOnce (.inr ⟨hsound.lost (.inl hlosing), by rw [hlosing]; decide⟩)
      · exact h.lostOnce (.inl hreopened)
  | reopen deadline hlost =>
    have hcapture := hsound.lost (.inr hlost)
    refine h.noted ?_ ?_ ?_
    · have hsum := h.successes
      have hone : (if deadline = 0 then 0 else 1) ≤ 1 := by split <;> omega
      simp
      omega
    · intro lost hmem
      simp at hmem
      have hle := (h.lost lost hmem).1
      exact ⟨Nat.le_succ_of_le hle, fun _ => Nat.lt_succ_of_le hle⟩
    · simp
      exact h.lostOnce (.inr ⟨hcapture, by rw [hlost]; decide⟩)
  | enqueue pending queue hbusy hgen hnum hroom hkept =>
    have hcaptured := h.captured
    refine ⟨?_, by simpa using hcaptured, ?_, by simpa using h.delivered, by simpa using h.successes,
      by simpa using h.lost, by simpa using h.lostOnce⟩
    · simp only [toList_some, capturedFrames_snoc, PreviewEvent.capturedFrame]
      exact h.numbered.snoc (by rw [hnum, hcaptured])
    · have hsub : ((decisions events).map Prod.fst ++ (v.developing.toList ++ queue)).Sublist
          (capturedFrames events) :=
        (List.Sublist.append_left (List.Sublist.append_left hkept _) _).trans h.decided
      simpa [waiting] using hsub.append (List.Sublist.refl [pending])
  | pop pending queue hfree hfirst =>
    rw [toList_none, append_nil]
    exact h.silent (by simp [waiting, hfree, hfirst]) id
  | drop queue hkept =>
    rw [toList_none, append_nil]
    exact h.silent (hkept.trans (sublist_append_right _ _)) id
  | withhold pending hframe => exact h.decide hframe (by simp) (Nat.le_refl _)
  | pass pending hframe hfree hsteady =>
    exact h.decide hframe (by simp [hfree]) (Nat.le_refl _)
  | recover pending hframe hfree hgen hset hinTime =>
    -- the success takes the place of the recovery that was on
    exact h.decide hframe (by simp [hfree]) (by simp [hset])
  | deliver pending hframe =>
    have hdelivered := h.delivered
    rw [hframe] at hdelivered
    refine ⟨by simpa using h.numbered, by simpa using h.captured, by simpa [waiting] using h.decided,
      by simpa using hdelivered, by simpa using h.successes, by simpa using h.lost, by simpa using h.lostOnce⟩
  | finish hover hfree =>
    rw [toList_none, append_nil]
    refine h.silent (by simp [waiting, hfree]) ?_ id fun _ => rfl
    rintro ⟨-, hphase⟩
    exact absurd hover hphase

theorem Move.begins (hsound : v.Sound) (h : Recorded events v) (hmove : Move now v (some .recoveringSet) v') :
    lostGenerations events ≠ [] ∧ ∀ lost ∈ lostGenerations events, Fenced lost v' := by
  cases hmove with
  | setRecovering phase hnext =>
    rcases hnext with ⟨hlosing, -⟩ | ⟨hreopened, -⟩
    · have hcapture := hsound.lost (.inl hlosing)
      refine ⟨h.lostOnce (.inr ⟨hcapture, by rw [hlosing]; decide⟩), fun lost hmem => .inl ⟨rfl, ?_, ?_⟩⟩
      · intro hset
        exact absurd (hsound.unset hcapture) hset
      · exact (h.lost lost hmem).1
    · exact ⟨h.lostOnce (.inl hreopened),
        fun lost hmem => .inl ⟨rfl, fun _ => (h.lost lost hmem).2 hreopened, (h.lost lost hmem).1⟩⟩

end Recovery

/-! ## Every step of the source is a move -/

namespace SoftwareIspPreviewSource

open Recovery

/-- The source, as this machine. -/
def recovery (s : SoftwareIspPreviewSource) : Recovery where
  phase := s.captureLoop.phase
  capture := s.capture
  recovering := s.recovering
  generation := s.captureGeneration
  deadline := s.recoveryDeadline
  queue := s.queue
  developing := s.ispLoop.developing
  delivering := s.ispLoop.delivering
  captured := s.stats.capturedFrames
  successes := s.stats.reconnectSuccesses

/-- `Stop` goes on when the threads are gone. -/
structure Joined (s : SoftwareIspPreviewSource) : Prop where
  capture : s.stop = .joinedCapture ∨ s.stop = .joinedIsp ∨ s.stop = .returned → s.captureLoop = .exited
  isp : s.stop = .joinedIsp ∨ s.stop = .returned → s.ispLoop = .exited

def PreviewCall.now : PreviewCall → Int
  | .capture world | .isp world => world.now
  | .stop => 0

variable {s : SoftwareIspPreviewSource} {now : Int}

theorem move_idle {s' : SoftwareIspPreviewSource}
    (h : s'.recovery = { s.recovery with phase := s'.captureLoop.phase })
    (ended : s.captureLoop.phase = .over → s'.captureLoop.phase = .over)
    (losing : s'.captureLoop.phase = .losing → s.captureLoop.phase = .losing ∨ s.capture = false)
    (reopening : s'.captureLoop.phase = .reopening → s.captureLoop.phase = .reopening)
    (reopened : s'.captureLoop.phase = .reopened → s.captureLoop.phase = .reopened) :
    Move now s.recovery none s'.recovery := by
  rw [h]
  exact .idle _ ended losing reopening reopened

theorem move_refl (s : SoftwareIspPreviewSource) : Move now s.recovery none s.recovery :=
  move_idle rfl id .inl id id

variable {block : SoftwareIspPreviewSource × Option PreviewEvent}

theorem lockedCapture_move (h : Move now s.recovery block.2 block.1.recovery) :
    Move now s.recovery (s.lockedCapture block).2 (s.lockedCapture block).1.recovery := by
  unfold lockedCapture
  split
  · exact move_refl s
  · exact h

theorem lockedIsp_move (h : Move now s.recovery block.2 block.1.recovery) :
    Move now s.recovery (s.lockedIsp block).2 (s.lockedIsp block).1.recovery := by
  unfold lockedIsp
  split
  · exact move_refl s
  · exact h

theorem enqueueFrame_recovery (s : SoftwareIspPreviewSource) (raw : V4l2RawFrame) (receivedAtNs : Int)
    (hwatching : s.recovery.phase = .watching) :
    (s.enqueueFrame raw receivedAtNs).1.recovery =
      { s.recovery with
        queue := (if 2 ≤ s.queue.length then s.queue.tail else s.queue) ++
          [toPending raw receivedAtNs s.captureGeneration (s.stats.capturedFrames + 1)]
        captured := s.stats.capturedFrames + 1 } := by
  have hphase : s.captureLoop.phase = .watching := hwatching
  have hnext : CapturePlace.loadStop.phase = .watching := rfl
  simp only [enqueueFrame, recovery, IspPlace.developing_notify, IspPlace.delivering_notify, hphase, hnext]

theorem captureStep_move (s : SoftwareIspPreviewSource) (world : PreviewWorld) (hroom : s.queue.length ≤ 2) :
    Move now s.recovery (s.captureStep world).2 (s.captureStep world).1.recovery := by
  unfold captureStep
  cases hplace : s.captureLoop with
  | loadStop | exchangeTimeout | loadStopAfterFailure error running | asleepBackOff failures | loadRecovering
  | waitFrame =>
    apply move_idle
    case h => rfl
    all_goals simp only [hplace]
    all_goals repeat' split
    all_goals simp
  | countFailure | blockBackOff failures | openCapture failures =>
    apply move_idle
    case h => rfl
    all_goals simp [hplace]
  | getCapture | backOff failures | testBackOff failures | endBackOff failures | countAttempt failures opened =>
    apply lockedCapture_move
    apply move_idle
    case h => rfl
    all_goals simp only [hplace]
    all_goals split
    all_goals simp_all [CapturePlace.phase]
  | storeOpenError failures reopenError | storeLost error =>
    apply lockedCapture_move
    apply move_idle
    case h => rfl
    all_goals simp [hplace]
  | resetTimedOut =>
    exact lockedCapture_move (.lose .watching (by simp [recovery, hplace]) (.inl rfl))
  | resetLost =>
    exact lockedCapture_move (.lose .losing (by simp [recovery, hplace]) (.inr rfl))
  | checkDeadline =>
    apply lockedCapture_move
    split
    · exact .lose .watching (by simp [recovery, hplace]) (.inl rfl)
    · apply move_idle
      case h => rfl
      all_goals simp [hplace]
  | storeRecovering =>
    exact .setRecovering .reopening (.inl ⟨by simp [recovery, hplace], .inl rfl⟩)
  | storeRecoveringAfterLoss =>
    exact .setRecovering .watching (.inl ⟨by simp [recovery, hplace], .inr rfl⟩)
  | storeReopened =>
    exact .setRecovering .watching (.inr ⟨by simp [recovery, hplace], rfl⟩)
  | storeReplacement failures =>
    exact lockedCapture_move (.reopen _ (by simp [recovery, hplace]))
  | enqueue raw =>
    apply lockedCapture_move
    have hwatching : s.recovery.phase = .watching := by simp [recovery, hplace]
    show Move now s.recovery _ (s.enqueueFrame raw world.wallNs).1.recovery
    rw [s.enqueueFrame_recovery raw world.wallNs hwatching]
    refine .enqueue _ _ hwatching rfl rfl ?_ ?_
    · -- the oldest frame makes room
      split
      · rw [length_tail]
        omega
      · omega
    · split
      · exact tail_sublist _
      · exact List.Sublist.refl _
  | exited => exact move_refl s

theorem move_of_eq {v v' v'' : Recovery} {event : Option PreviewEvent} (h : Move now v event v') (heq : v'' = v') :
    Move now v event v'' := by
  rw [heq]
  exact h

variable {pending : PendingFrame}

theorem commitFrame_move (s : SoftwareIspPreviewSource) (now : Int) (hplace : s.ispLoop = .commit pending) :
    Move now s.recovery (some (.decided pending (s.commitFrame pending now).2))
      ({ (s.commitFrame pending now).1 with
          ispLoop := .loadTimeout pending (s.commitFrame pending now).2 } : SoftwareIspPreviewSource).recovery := by
  have hframe : s.recovery.developing = some pending := by simp [recovery, hplace]
  have hfree : s.recovery.delivering = none := by simp [recovery, hplace]
  unfold commitFrame
  dsimp only
  split
  · split
    · refine move_of_eq (.withhold pending hframe) ?_
      simp [recovery, hplace]
    · rename_i hlate
      split
      · rename_i hthis
        simp only [Bool.and_eq_true, decide_eq_true_eq, ne_eq, decide_not, Bool.not_eq_true',
          decide_eq_false_iff_not] at hthis
        have hinTime : now < s.recoveryDeadline := by
          simp [isOverdue, hthis.1, hthis.2] at hlate
          exact hlate
        exact .recover pending hframe hfree hthis.1 hthis.2 hinTime
      · refine move_of_eq (.withhold pending hframe) ?_
        simp [recovery, hplace]
  · rename_i hsteady
    exact .pass pending hframe hfree (Bool.eq_false_iff.mpr hsteady)

theorem ispStep_move (s : SoftwareIspPreviewSource) (world : PreviewWorld) :
    Move world.now s.recovery (s.ispStep world).2 (s.ispStep world).1.recovery := by
  unfold ispStep
  cases hplace : s.ispLoop with
  | loadStop | loadRecovering | asleepQueue notified =>
    refine move_of_eq (move_refl s) ?_
    dsimp only
    split <;> simp [recovery, hplace]
  | blockQueue | storeStopped =>
    exact move_of_eq (move_refl s) (by simp [recovery, hplace])
  | testQueue =>
    have hfree : s.recovery.developing = none := by simp [recovery, hplace]
    apply lockedIsp_move
    split
    · exact move_of_eq (move_refl s) (by simp [recovery, hplace])
    · exact move_of_eq (move_refl s) (by simp [recovery, hplace])
    · rename_i pending queue hqueue
      by_cases hcallback : s.callback = true
      · exact move_of_eq (.pop pending queue hfree hqueue) (by simp [recovery, hplace, hcallback])
      · refine move_of_eq (.drop queue ?_) ?_
        · rw [show s.recovery.queue = pending :: queue from hqueue]
          exact sublist_cons_self pending queue
        · simp [recovery, hplace, hcallback]
  | process pending =>
    by_cases hprocessed : world.processed = true
    · exact move_of_eq (move_refl s) (by simp [recovery, hplace, hprocessed])
    · exact move_of_eq (.drop s.queue (List.Sublist.refl _)) (by simp [recovery, hplace, hprocessed])
  | checkDeadline =>
    apply lockedIsp_move
    exact move_of_eq (move_refl s) (by simp [recovery, hplace])
  | commit pending => exact lockedIsp_move (commitFrame_move s world.now hplace)
  | loadTimeout pending deliverFrame =>
    refine move_of_eq (move_refl s) ?_
    cases deliverFrame <;> dsimp only <;> split <;> simp [recovery, hplace]
  | notifyTimeout pending deliverFrame =>
    refine move_of_eq (move_refl s) ?_
    cases deliverFrame <;> simp [recovery, hplace]
  | deliver pending =>
    have hframe : s.recovery.delivering = some pending := by simp [recovery, hplace]
    exact move_of_eq (.deliver pending hframe) (by simp [recovery, hplace])
  | exited => exact move_refl s

theorem stopStep_move (s : SoftwareIspPreviewSource) (hjoined : s.Joined) :
    Move now s.recovery none s.stopStep.recovery := by
  unfold stopStep
  cases hstop : s.stop with
  | notCalled | returned => exact move_refl s
  | stored => exact move_of_eq (move_refl s) (by simp [recovery, -IspPlace.developing, -IspPlace.delivering])
  | notified | joinedCapture =>
    dsimp only
    split <;> exact move_refl s
  | joinedIsp =>
    have hcapture := hjoined.capture (.inr (.inl hstop))
    have hisp := hjoined.isp (.inl hstop)
    exact .finish (by simp [recovery, hcapture]) (by simp [recovery, hisp])

theorem step_move (s : SoftwareIspPreviewSource) (call : PreviewCall) (hroom : s.queue.length ≤ 2)
    (hjoined : s.Joined) : Move call.now s.recovery (step s call).2 (step s call).1.recovery := by
  cases call with
  | capture world => exact captureStep_move s world hroom
  | isp world => exact ispStep_move s world
  | stop => exact stopStep_move s hjoined

/-! ## The law holds -/

theorem Joined.step (h : s.Joined) (call : PreviewCall) : (step s call).1.Joined := by
  cases call with
  | capture world =>
    constructor <;> intro hstop
    · have hexited := h.capture (by simpa [SoftwareIspPreviewSource.step] using hstop)
      simp [SoftwareIspPreviewSource.step, captureStep, hexited]
    · have hexited := h.isp (by simpa [SoftwareIspPreviewSource.step] using hstop)
      rcases captureStep_ispLoop s world with hisp | hisp <;>
        simp [SoftwareIspPreviewSource.step, hisp, hexited, IspPlace.notify]
  | isp world =>
    constructor <;> intro hstop
    · simpa [SoftwareIspPreviewSource.step] using h.capture (by simpa [SoftwareIspPreviewSource.step] using hstop)
    · have hexited := h.isp (by simpa [SoftwareIspPreviewSource.step] using hstop)
      simp [SoftwareIspPreviewSource.step, ispStep, hexited]
  | stop =>
    show s.stopStep.Joined
    unfold stopStep
    cases hstop : s.stop with
    | notCalled | stored => constructor <;> simp
    | notified =>
      cases hcapture : s.captureLoop <;> constructor <;> simp [hstop, hcapture]
    | joinedCapture =>
      have hcapture := h.capture (.inl hstop)
      cases hisp : s.ispLoop <;> constructor <;> simp [hstop, hcapture, hisp]
    | joinedIsp =>
      exact ⟨fun _ => h.capture (.inr (.inl hstop)), fun _ => h.isp (.inl hstop)⟩
    | returned => exact h

theorem commit_of_decided {call : PreviewCall} {deliverFrame : Bool}
    (h : (step s call).2 = some (.decided pending deliverFrame)) :
    ∃ world, call = .isp world ∧ s.ispLoop = .commit pending := by
  cases call with
  | capture world =>
    simp only [step, captureStep] at h
    cases hplace : s.captureLoop <;> simp only [hplace, lockedCapture] at h <;> revert h <;> repeat' split
    all_goals
      intro h
      cases h
  | isp world =>
    refine ⟨world, rfl, ?_⟩
    simp only [step, ispStep] at h
    cases hplace : s.ispLoop with
    | commit other =>
      simp only [hplace, lockedIsp] at h
      split at h
      · cases h
      · cases h
        rfl
    | _ =>
      simp only [hplace, lockedIsp] at h
      revert h
      repeat' split
      all_goals
        intro h
        cases h
  | stop => cases h

/-- What every step keeps. -/
structure Kept (history : List (PreviewCall × Option PreviewEvent)) (s : SoftwareIspPreviewSource) : Prop where
  sound : s.recovery.Sound
  joined : s.Joined
  recorded : Recorded (history.filterMap Prod.snd) s.recovery

theorem Kept.start (captureGeneration : Nat) : Kept [] (started captureGeneration) where
  sound := by constructor <;> simp [recovery, started, waiting]
  joined := by constructor <;> simp [started]
  recorded := by
    constructor
    case numbered => exact Numbered.nil
    all_goals
      simp [recovery, started, waiting, capturedFrames, decisions, deliveredFrames, lostGenerations]

variable {history : List (PreviewCall × Option PreviewEvent)}

theorem Kept.move (h : Kept history s) (call : PreviewCall) :
    Recovery.Move call.now s.recovery (step s call).2 (step s call).1.recovery :=
  step_move s call h.sound.room h.joined

theorem Kept.step (h : Kept history s) (call : PreviewCall) :
    Kept (history ++ [(call, (step s call).2)]) (step s call).1 where
  sound := (h.move call).sound h.sound
  joined := h.joined.step call
  recorded := by
    rw [filterMap_snoc]
    exact (h.move call).recorded h.sound h.recorded

theorem kept (captureGeneration : Nat) (calls : List PreviewCall) :
    Kept (trace step (started captureGeneration) calls) (after captureGeneration calls) :=
  trace_invariant (fun _ _ call h => h.step call) (Kept.start captureGeneration) calls

/-- Behind the beginning of a recovery. -/
structure Behind (lost : Nat) (s : SoftwareIspPreviewSource) : Prop where
  sound : s.recovery.Sound
  joined : s.Joined
  fenced : Fenced lost s.recovery

/-- While a lost frame may wait, a step delivers nothing unless it processes a replacement. -/
theorem Behind.step {lost : Nat} (h : Behind lost s) (call : PreviewCall) (hnot : ¬ ProcessesReplacement lost s call) :
    Behind lost (step s call).1 ∧ ¬ DecidesToDeliver s call := by
  have hmove := step_move s call h.sound.room h.joined
  have hfenced := hmove.fenced h.fenced (by
    intro pending hframe hlater hgen hset hinTime hdecided
    obtain ⟨world, rfl, hplace⟩ := commit_of_decided hdecided
    exact hnot ⟨world, pending, rfl, hplace, hlater, hgen, hset, hinTime⟩)
  refine ⟨⟨hmove.sound h.sound, h.joined.step call, hfenced.1⟩, ?_⟩
  rintro ⟨pending, hdecided⟩
  exact hfenced.2 pending hdecided

/-- So nothing is delivered before. -/
theorem Behind.along {lost : Nat} (h : Behind lost s) {calls : List PreviewCall}
    (hnot : Along SoftwareIspPreviewSource.step (fun s call => ¬ ProcessesReplacement lost s call) s calls) :
    Along SoftwareIspPreviewSource.step (fun s call => ¬ DecidesToDeliver s call) s calls :=
  Along.of_invariant (fun _ call hbehind hcall => (hbehind.step call hcall).1)
    (fun _ call hbehind hcall => (hbehind.step call hcall).2) h hnot

theorem after_snoc (captureGeneration : Nat) (before : List PreviewCall) (call : PreviewCall) :
    after captureGeneration (before ++ [call]) = (step (after captureGeneration before) call).1 :=
  run_append _ before [call]

/-- **A recovering camera delivers no frame of a lost capture**, however its threads are interleaved. -/
theorem delivers_no_lost_frame (captureGeneration : Nat) (calls : List PreviewCall) :
    DeliversNoLostFrame captureGeneration calls where
  current := by
    rintro before call rest pending - hdecided
    have hkept := kept captureGeneration before
    have hmove := hkept.move call
    rw [hdecided] at hmove
    exact hmove.decided_current hkept.sound
  ordered := by
    have hrecorded := (kept captureGeneration calls).recorded
    exact ⟨hrecorded.numbered, (sublist_append_left _ _).trans hrecorded.decided⟩
  delivered := ⟨_, (kept captureGeneration calls).recorded.delivered⟩
  fenced := by
    rintro before call rest - hset
    have hkept := kept captureGeneration before
    have hmove := hkept.move call
    rw [hset] at hmove
    obtain ⟨hlost, hfenced⟩ := hmove.begins hkept.sound hkept.recorded
    refine ⟨hlost, fun lost hmem hnot => ?_⟩
    rw [after_snoc] at hnot ⊢
    exact Behind.along ⟨hmove.sound hkept.sound, hkept.joined.step call, hfenced lost hmem⟩ hnot
  room := (kept captureGeneration calls).sound.room
  successes := Nat.le_trans (Nat.le_add_right _ _) (kept captureGeneration calls).recorded.successes

end SoftwareIspPreviewSource

end Cockpit.Camera
