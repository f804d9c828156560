/-
  The reported state of the camera preview and the source behind it, along the runs in which the calibration
  rejects a `StartPreview` only while the module is not started.
-/
import Cockpit.Camera.CameraService

namespace Cockpit.Camera.CameraService

/-- The source captures, under the module. -/
def Started (s : CameraService) : Prop :=
  s.module = { state := .running, inRunningModules := true, managerRunning := true } ∧
    s.source.capturing = true

/-- The module is neither running nor on the way, and nothing captures. -/
structure Halted (s : CameraService) : Prop where
  state : s.module.state = .created ∨ s.module.state = .stopped ∨ s.module.state = .failed
  inRunningModules : s.module.inRunningModules = false
  managerRunning : s.module.managerRunning = false
  capturing : s.source.capturing = false

/-- The status says that frames may come. -/
def Alive (s : CameraService) : Prop := s.status.state = .running ∨ s.status.state = .recovering

/-- At rest, either nothing captures, or the module is started and the health check looks after it. -/
def OpOk (s : CameraService) : Prop :=
  match s.op with
  | .idle =>
    s.Halted ∧ (s.status.state = .stopped ∨ s.status.state = .faulted) ∨
      s.Started ∧ s.Alive ∧ (s.status.framesReceived = 0 → s.previewStartedSteady.isSome)
  | .enterStart _ | .stopAll _ => s.Started ∨ s.Halted
  | .stopping _ => s.module.state = .stopping
  | .setError _ _ | .checkRequest _ _ | .reset _ _ | .finishStop => s.Halted
  | .startAll previous => s.Halted ∧ (previous = .faulted → s.Alive)
  | .starting previous => s.source.capturing = true ∧ (previous = .faulted → s.Alive)
  | .finishStart previous => s.Started ∧ (previous = .faulted → s.Alive)

/-- What every run keeps. -/
structure Inv (s : CameraService) : Prop where
  op : s.OpOk
  frames : s.status.framesReceived ≠ 0 → s.lastFrameReceivedSteady.isSome

variable {s s' : CameraService}

theorem inv_create (options : CameraServiceOptions) (available : Bool) :
    ({ options := options, available := available } : CameraService).Inv where
  op := .inl ⟨⟨.inl rfl, rfl, rfl, rfl⟩, .inl rfl⟩
  frames := fun h => absurd rfl h

/-! ## Frames -/

theorem recover_spec (s : CameraService) (receivedAtMs : Nat) :
    (s.recover receivedAtMs).op = s.op ∧ (s.recover receivedAtMs).module = s.module ∧
      (s.recover receivedAtMs).source = s.source ∧
        (s.recover receivedAtMs).previewStartedSteady = s.previewStartedSteady ∧
          (s.Alive → (s.recover receivedAtMs).Alive) := by
  unfold recover
  split
  · refine ⟨rfl, rfl, rfl, rfl, fun _ => .inl ?_⟩
    dsimp only
    split <;> rfl
  · exact ⟨rfl, rfl, rfl, rfl, id⟩

theorem countFrame_spec (status : CameraServiceStatus) (frame : CameraFrame) (receivedAtMs : Nat) :
    (countFrame status frame receivedAtMs).state = status.state ∧
      (countFrame status frame receivedAtMs).framesReceived = status.framesReceived + 1 := by
  unfold countFrame
  dsimp only
  split <;> exact ⟨rfl, rfl⟩

/-- What a frame that was delivered leaves as it is, and what it only improves. -/
structure SameRun (s s' : CameraService) : Prop where
  op : s'.op = s.op
  module : s'.module = s.module
  source : s'.source.capturing = s.source.capturing
  started : s'.previewStartedSteady = s.previewStartedSteady
  alive : s.Alive → s'.Alive
  counted : s'.status.framesReceived = 0 → s.status.framesReceived = 0

theorem SameRun.started_iff (h : SameRun s s') : s'.Started ↔ s.Started := by
  unfold Started
  rw [h.module, h.source]

theorem OpOk.sameRun (h : s.OpOk) (hsame : SameRun s s') (hcapturing : s.source.capturing = true) : s'.OpOk := by
  have hhalted : ¬ s.Halted := fun hh => absurd (hcapturing.symm.trans hh.capturing) nofun
  unfold OpOk at h ⊢
  rw [hsame.op]
  cases hop : s.op with
  | idle =>
    rw [hop] at h
    obtain ⟨hh, _⟩ | ⟨hs, halive, hreference⟩ := h
    · exact absurd hh hhalted
    · refine .inr ⟨hsame.started_iff.mpr hs, hsame.alive halive, fun hzero => ?_⟩
      rw [hsame.started]
      exact hreference (hsame.counted hzero)
  | enterStart | stopAll =>
    rw [hop] at h
    exact .inl (hsame.started_iff.mpr (h.resolve_right hhalted))
  | stopping next =>
    rw [hop] at h
    exact (congrArg PreviewModule.state hsame.module).trans h
  | setError | checkRequest | reset | finishStop =>
    rw [hop] at h
    exact absurd h hhalted
  | startAll previous =>
    rw [hop] at h
    exact absurd h.1 hhalted
  | starting previous =>
    rw [hop] at h
    exact ⟨hsame.source.trans h.1, fun hp => hsame.alive (h.2 hp)⟩
  | finishStart previous =>
    rw [hop] at h
    exact ⟨hsame.started_iff.mpr h.1, fun hp => hsame.alive (h.2 hp)⟩

theorem Inv.handleFrame {frame : CameraFrame} {published : Bool} {receivedAtMs : Nat} {now : Int}
    (h : s.Inv) (hcapturing : s.source.capturing = true) : (s.handleFrame frame published receivedAtMs now).Inv := by
  unfold CameraService.handleFrame
  split
  · exact ⟨h.op.sameRun ⟨rfl, rfl, rfl, rfl, id, id⟩ hcapturing, h.frames⟩
  · obtain ⟨hop, hmodule, hsource, hstarted, halive⟩ := recover_spec s receivedAtMs
    obtain ⟨hstate, hcount⟩ := countFrame_spec (s.recover receivedAtMs).status frame receivedAtMs
    refine ⟨h.op.sameRun ⟨hop, hmodule, ?_, hstarted, fun ha => ?_, fun hzero => ?_⟩ hcapturing,
      fun _ => rfl⟩
    · rw [hsource]
    · have := halive ha
      unfold Alive at this ⊢
      rw [hstate]
      exact this
    · dsimp only at hzero
      rw [hcount] at hzero
      cases hzero

theorem Inv.source {source : PreviewSource} (h : s.Inv) (hcapturing : s.source.capturing = true)
    (hsource : source.capturing = true) : Inv { s with source := source } :=
  ⟨h.op.sameRun ⟨rfl, rfl, hsource.trans hcapturing.symm, rfl, id, id⟩ hcapturing, h.frames⟩

/-! ## The operations -/

variable {next : AfterStop} {request : CameraStartPreviewRequest} {previous : CameraPreviewState}

theorem Halted.congr (h : s.Halted) (hmodule : s'.module = s.module) (hsource : s'.source = s.source) :
    s'.Halted where
  state := by rw [hmodule]; exact h.state
  inRunningModules := by rw [hmodule]; exact h.inRunningModules
  managerRunning := by rw [hmodule]; exact h.managerRunning
  capturing := by rw [hsource]; exact h.capturing

theorem opOk_afterStop (next : AfterStop) (hop : s.op = afterStop next) (h : s.Halted) : s.OpOk := by
  unfold OpOk
  rw [hop]
  cases next <;> exact h

section

variable (h : s.Inv)
include h

theorem Inv.enterStart (hop : s.op = .enterStart request) : (s.enterStart request).Inv := by
  have hmodule : s.Started ∨ s.Halted := by
    have := h.op
    unfold OpOk at this
    rw [hop] at this
    exact this
  refine ⟨?_, fun hcount => h.frames ?_⟩
  · exact hmodule.imp id fun hhalted => hhalted.congr rfl rfl
  · unfold CameraService.enterStart at hcount
    dsimp only at hcount
    split at hcount
    · exact hcount
    · split at hcount <;> exact hcount

theorem Inv.stopAll (hop : s.op = .stopAll next) : (s.stopAll next).Inv := by
  have hmodule : s.Started ∨ s.Halted := by
    have := h.op
    unfold OpOk at this
    rw [hop] at this
    exact this
  unfold CameraService.stopAll
  obtain ⟨hstarted, _⟩ | hhalted := hmodule
  · rw [hstarted]
    exact ⟨rfl, h.frames⟩
  · rw [if_neg (by rw [hhalted.inRunningModules]; exact nofun)]
    refine ⟨opOk_afterStop next rfl ⟨hhalted.state, rfl, rfl, hhalted.capturing⟩, h.frames⟩

theorem Inv.sourceStopped (next : AfterStop) : (s.sourceStopped next).Inv :=
  ⟨opOk_afterStop next rfl ⟨.inr (.inl rfl), rfl, rfl, rfl⟩, h.frames⟩

theorem Inv.checkRequest (hop : s.op = .checkRequest request previous) (answer : Answer) :
    (s.checkRequest request previous answer).Inv := by
  have hhalted : s.Halted := by
    have := h.op
    unfold OpOk at this
    rw [hop] at this
    exact this
  have hmove : ∀ op, (∀ s' : CameraService, s'.op = op → s'.Halted → s'.OpOk) → Inv { s with op := op } :=
    fun op hok => ⟨hok _ rfl (hhalted.congr rfl rfl), h.frames⟩
  have herror : ∀ kind error, Inv { s with op := .setError kind error } := fun kind error =>
    hmove _ fun s' hop' hh => by
      unfold OpOk
      rw [hop']
      exact hh
  unfold CameraService.checkRequest
  split
  · exact herror _ _
  · split
    · exact herror _ _
    · split
      · exact herror _ _
      · split
        · exact herror _ _
        · refine hmove _ fun s' hop' hh => ?_
          unfold OpOk
          rw [hop']
          exact hh

theorem Inv.reset (hop : s.op = .reset request previous) : (s.reset request previous).Inv := by
  have hhalted : s.Halted := by
    have := h.op
    unfold OpOk at this
    rw [hop] at this
    exact this
  refine ⟨⟨hhalted.congr rfl rfl, fun hprev => .inr ?_⟩, fun hcount => absurd rfl hcount⟩
  exact if_pos (.inr hprev)

theorem Inv.startAll (hop : s.op = .startAll previous) : (s.startAll previous).Inv := by
  obtain ⟨hhalted, halive⟩ : s.Halted ∧ (previous = .faulted → s.Alive) := by
    have := h.op
    unfold OpOk at this
    rw [hop] at this
    exact this
  unfold CameraService.startAll
  rw [if_neg (by rw [hhalted.managerRunning]; exact nofun)]
  obtain hstate | hstate | hstate := hhalted.state
  all_goals rw [hstate]
  all_goals exact ⟨⟨rfl, halive⟩, h.frames⟩

theorem Inv.sourceStarted (hop : s.op = .starting previous) (answer : Answer) :
    (s.sourceStarted previous answer).Inv := by
  obtain ⟨hcapturing, halive⟩ : s.source.capturing = true ∧ (previous = .faulted → s.Alive) := by
    have := h.op
    unfold OpOk at this
    rw [hop] at this
    exact this
  unfold CameraService.sourceStarted
  split
  · exact ⟨⟨⟨rfl, hcapturing⟩, halive⟩, h.frames⟩
  · exact ⟨⟨.inr (.inr rfl), rfl, rfl, rfl⟩, h.frames⟩

theorem Inv.finishStart (hop : s.op = .finishStart previous) (answer : Answer) :
    (s.finishStart previous answer).Inv := by
  obtain ⟨hstarted, halive⟩ : s.Started ∧ (previous = .faulted → s.Alive) := by
    have := h.op
    unfold OpOk at this
    rw [hop] at this
    exact this
  refine ⟨.inr ⟨hstarted, ?_, fun _ => rfl⟩, fun hcount => h.frames ?_⟩
  · unfold CameraService.finishStart Alive
    dsimp only
    split
    case isTrue hprev =>
      split
      · exact .inr rfl
      · exact halive hprev
    case isFalse => exact .inl rfl
  · unfold CameraService.finishStart at hcount
    dsimp only at hcount
    split at hcount
    · split at hcount <;> exact hcount
    · exact hcount

/-- **A step of the operation under `lifecycle_mutex_`.** -/
theorem Inv.advance (answer : Answer) : (s.advance answer).Inv := by
  unfold CameraService.advance
  have hop := h.op
  unfold OpOk at hop
  cases hs : s.op with
  | idle => exact h
  | setError kind error =>
    rw [hs] at hop
    exact ⟨.inl ⟨hop.congr rfl rfl, .inr rfl⟩, h.frames⟩
  | enterStart request => exact h.enterStart hs
  | stopAll next => exact h.stopAll hs
  | stopping next => exact h.sourceStopped next
  | checkRequest request previous => exact h.checkRequest hs answer
  | reset request previous => exact h.reset hs
  | startAll previous => exact h.startAll hs
  | starting previous => exact h.sourceStarted hs answer
  | finishStart previous => exact h.finishStart hs answer
  | finishStop =>
    rw [hs] at hop
    exact ⟨.inl ⟨hop.congr rfl rfl, .inl rfl⟩, h.frames⟩

theorem Inv.idle (hop : s.op = .idle) :
    s.Halted ∧ (s.status.state = .stopped ∨ s.status.state = .faulted) ∨
      s.Started ∧ s.Alive ∧ (s.status.framesReceived = 0 → s.previewStartedSteady.isSome) := by
  have := h.op
  unfold OpOk at this
  rw [hop] at this
  exact this

theorem Inv.stopPreview : s.stopPreview.Inv := by
  unfold CameraService.stopPreview
  split
  case h_1 hop =>
    exact ⟨(h.idle hop).elim (fun hh => .inr (hh.1.congr rfl rfl)) fun hs => .inl hs.1, h.frames⟩
  case h_2 => exact h

theorem Inv.checkPreviewHealth (now : Int) : (s.checkPreviewHealth now).Inv := by
  unfold CameraService.checkPreviewHealth
  split
  case h_2 => exact h
  case h_1 hop =>
    split
    case isTrue => exact h
    case isFalse hwatched =>
      have hfault : ∀ next, Inv { s with op := .stopAll next } := fun next =>
        ⟨(h.idle hop).elim (fun hh => .inr (hh.1.congr rfl rfl)) fun hs => .inl hs.1, h.frames⟩
      split
      · -- the state is one that the health check acts on, so the module is started
        obtain ⟨_, hstate⟩ | ⟨hstarted, _, hreference⟩ := h.idle hop
        · obtain hstate | hstate := hstate
          all_goals exact absurd (by rw [hstate]; exact ⟨nofun, nofun⟩) hwatched
        · refine ⟨?_, h.frames⟩
          unfold OpOk
          dsimp only
          rw [hop]
          exact .inr ⟨hstarted, .inr rfl, hreference⟩
      · split
        · exact hfault _
        · split
          · split <;> exact hfault _
          · exact h

end

/-! ## Runs -/

/-- A rejection does not stop the module. -/
def RejectsStopped (s : CameraService) : CameraEvent → Prop
  | .startPreview request =>
    s.op = .idle → rejection s.options request ≠ none → s.module.state ≠ .running
  | _ => True

instance (s : CameraService) : ∀ event, Decidable (s.RejectsStopped event)
  | .startPreview request => inferInstanceAs
      (Decidable (s.op = .idle → rejection s.options request ≠ none → s.module.state ≠ .running))
  | .stopPreview | .checkPreviewHealth _ | .advance _ | .frame .. | .source .. => isTrue trivial

theorem Inv.startPreview (h : s.Inv) (hrejects : s.RejectsStopped (.startPreview request)) :
    (s.startPreview request).Inv := by
  unfold CameraService.startPreview
  split
  case h_2 => exact h
  case h_1 hop =>
    split
    case h_1 kind error hrejection =>
      have hstopped := hrejects hop (by rw [hrejection]; exact nofun)
      obtain ⟨hhalted, _⟩ | ⟨hstarted, _⟩ := h.idle hop
      · exact ⟨hhalted.congr rfl rfl, h.frames⟩
      · exact absurd (congrArg PreviewModule.state hstarted.1) hstopped
    case h_2 =>
      exact ⟨(h.idle hop).elim (fun hh => .inr (hh.1.congr rfl rfl)) fun hs => .inl hs.1, h.frames⟩

/-- Every step keeps the invariant but a rejection while the module is started. -/
theorem Inv.step (h : s.Inv) (event : CameraEvent) (hrejects : s.RejectsStopped event) : (s.step event).1.Inv := by
  cases event with
  | startPreview request => exact h.startPreview hrejects
  | stopPreview => exact h.stopPreview
  | checkPreviewHealth now => exact h.checkPreviewHealth now
  | advance answer => exact h.advance answer
  | frame frame published receivedAtMs now =>
    unfold CameraService.step
    dsimp only
    split
    case isTrue hcapturing => exact h.handleFrame hcapturing
    case isFalse => exact h
  | source running recovering =>
    unfold CameraService.step
    dsimp only
    split
    case isTrue hcapturing => exact h.source hcapturing hcapturing
    case isFalse => exact h

/-- The health check looks after the source: it measures from some time, and if the source has stopped or
    been silent for too long, without recovering by itself, the next check goes on to stop the module. -/
structure Supervised (s : CameraService) : Prop where
  started : s.module.state = .running
  reference : s.reference.isSome
  checked : ∀ now, s.source.recovering = false → s.source.running = false ∨ s.isStale now = true →
    ∃ kind error, (s.checkPreviewHealth now).op = .stopAll (.fault kind error)

/-- The state tells the truth between two operations. -/
structure Truthful (s : CameraService) : Prop where
  stopped : s.op = .idle → s.status.state = .faulted ∨ s.status.state = .stopped →
    s.module.state ≠ .running ∧ s.source.capturing = false
  supervised : s.op = .idle → s.status.state = .running ∨ s.status.state = .recovering → s.Supervised

theorem exists_fault {now : Int} (hop : s.op = .idle) (halive : s.Alive)
    (hrecovering : s.source.recovering = false) (hbad : s.source.running = false ∨ s.isStale now = true) :
    ∃ kind error, (s.checkPreviewHealth now).op = .stopAll (.fault kind error) := by
  unfold CameraService.checkPreviewHealth
  rw [hop]
  dsimp only
  rw [if_neg fun hstate => halive.elim hstate.1 hstate.2, hrecovering, if_neg Bool.false_ne_true]
  cases hrunning : s.source.running with
  | false => exact ⟨_, _, rfl⟩
  | true =>
    have hstale := hbad.resolve_left (by rw [hrunning]; exact nofun)
    rw [hstale, Bool.not_true, if_neg Bool.false_ne_true, if_pos rfl]
    split <;> exact ⟨_, _, rfl⟩

theorem Inv.truthful (h : s.Inv) : s.Truthful where
  stopped := fun hop hstate => by
    obtain ⟨hhalted, _⟩ | ⟨_, halive, _⟩ := h.idle hop
    · refine ⟨?_, hhalted.capturing⟩
      obtain hs | hs | hs := hhalted.state
      all_goals rw [hs]
      all_goals exact nofun
    · unfold Alive at halive
      obtain hs | hs := hstate
      all_goals rw [hs] at halive
      all_goals obtain halive | halive := halive
      all_goals cases halive
  supervised := fun hop hstate => by
    obtain ⟨_, hstopped⟩ | ⟨hstarted, halive, hreference⟩ := h.idle hop
    · obtain hs | hs := hstopped
      all_goals rw [hs] at hstate
      all_goals obtain hstate | hstate := hstate
      all_goals cases hstate
    · refine ⟨congrArg PreviewModule.state hstarted.1, ?_, fun now => exists_fault hop halive⟩
      unfold CameraService.reference
      split
      case isTrue hzero => exact hreference hzero
      case isFalse hcount => exact h.frames hcount

open StepRun in
/-- **The preview state tells the truth**, in every run in which no `StartPreview` that the calibration
    rejects finds a started module. -/
theorem preview_truthful (options : CameraServiceOptions) (available : Bool) (events : List CameraEvent)
    (hrejects : Along CameraService.step RejectsStopped { options := options, available := available }
      events) :
    (run CameraService.step { options := options, available := available } events).Truthful :=
  (hrejects.invariant (fun _ event h => h.step event) (inv_create options available)).truthful

def calibratedOptions : CameraServiceOptions where
  capturePipeline := .synthetic
  calibration := some (1920, 1080)
  calibrationPipeline := "synthetic"
  calibrationDevice := "synthetic://0"

def startEvents (width height : Nat) : List CameraEvent :=
  .startPreview { device := "synthetic://0", width := width, height := height } ::
    List.replicate 7 (.advance { now := 1, wallMs := 1 })

open StepRun in
theorem preview_truthful_stopped :
    let events := startEvents 1920 1080 ++ .stopPreview :: List.replicate 3 (.advance {}) ++
      startEvents 1280 720
    let s := run CameraService.step { options := calibratedOptions, available := true } events
    s.status.state = .faulted ∧ s.Truthful :=
  ⟨by decide +kernel, preview_truthful calibratedOptions true _ (by decide +kernel)⟩

open StepRun in
theorem rejected_while_running :
    let started := run CameraService.step { options := calibratedOptions, available := true }
      (startEvents 1920 1080)
    let s := run CameraService.step started (startEvents 1280 720)
    started.status.state = .running ∧
      (s.op = .idle ∧ s.status.state = .faulted ∧ s.module.state = .running ∧
        s.source.capturing = true) ∧ ¬ s.Truthful := by
  intro started s
  have hs : s.op = .idle ∧ s.status.state = .faulted ∧ s.module.state = .running ∧
      s.source.capturing = true := by decide +kernel
  exact ⟨by decide +kernel, hs, fun h => (h.stopped hs.1 (.inl hs.2.1)).1 hs.2.2.1⟩

end Cockpit.Camera.CameraService
