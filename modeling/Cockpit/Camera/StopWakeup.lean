/-
  Whether stopping the camera wakes `IspLoop`: `Stop` stores `stop_requested_` and notifies without `mutex_`,
  under which `IspLoop` tests its predicate and blocks (`VehicleGrpcService::Shutdown` and
  `LlamaServerProcess::Stop` set their flags under the mutex of the waiter).
-/
import Cockpit.Camera.SoftwareIspPreview

namespace Cockpit.Camera

open StepRun

namespace SoftwareIspPreviewSource

/-- `Stop` is past its notification. -/
def hasNotified (s : SoftwareIspPreviewSource) : Bool :=
  match s.stop with
  | .notCalled | .stored => false
  | .notified | .joinedCapture | .joinedIsp | .returned => true

/-- `Stop` has notified, `CaptureLoop` is gone, and `IspLoop` is blocked without a notification: nobody is left to
    notify it. -/
structure Hung (s : SoftwareIspPreviewSource) : Prop where
  notified : s.hasNotified = true
  capture : s.captureLoop = .exited
  asleep : s.ispLoop = .asleepQueue false

/-- It falls between the test and the block. -/
def NotifiesTooEarly (s : SoftwareIspPreviewSource) : PreviewCall → Prop
  | .stop => s.stop = .stored ∧ s.ispLoop.isBlocking = true
  | _ => False

instance (s : SoftwareIspPreviewSource) (call : PreviewCall) : Decidable (NotifiesTooEarly s call) := by
  cases call
  all_goals
    unfold NotifiesTooEarly
    infer_instance

/-- Not blocked. -/
def IspPlace.isAwake : IspPlace → Bool
  | .blockQueue | .asleepQueue false => false
  | _ => true

/-- The flag stays once it is set, and nobody falls asleep behind the notification. -/
structure Awake (s : SoftwareIspPreviewSource) : Prop where
  flag : s.stop ≠ .notCalled → s.stopRequested = true
  isp : s.hasNotified = true → IspPlace.isAwake s.ispLoop = true

/-- Nobody is blocked at first. -/
theorem Awake.start (captureGeneration : Nat) : (started captureGeneration).Awake :=
  ⟨fun h => absurd rfl h, nofun⟩

@[simp] theorem captureStep_stopRequested (s : SoftwareIspPreviewSource) (world : PreviewWorld) :
    (s.captureStep world).1.stopRequested = s.stopRequested := by
  unfold captureStep
  cases s.captureLoop <;> simp only [lockedCapture, enqueueFrame, countFatal, resetCapture] <;> repeat' split
  all_goals rfl

@[simp] theorem ispStep_stopRequested (s : SoftwareIspPreviewSource) (world : PreviewWorld) :
    (s.ispStep world).1.stopRequested = s.stopRequested := by
  unfold ispStep
  cases s.ispLoop <;> simp only [lockedIsp, commitFrame] <;> repeat' split
  all_goals rfl

theorem isAwake_notify {place : IspPlace} (h : place.isBlocking = false) : IspPlace.isAwake place.notify = true := by
  cases place with
  | blockQueue => cases h
  | _ => rfl

theorem isAwake_notify_of_awake {place : IspPlace} (h : IspPlace.isAwake place = true) :
    IspPlace.isAwake place.notify = true := by
  cases place with
  | blockQueue => cases h
  | _ => rfl

variable {s : SoftwareIspPreviewSource}

theorem ispStep_isAwake (world : PreviewWorld) (hflag : s.stopRequested = true)
    (h : IspPlace.isAwake s.ispLoop = true) : IspPlace.isAwake (s.ispStep world).1.ispLoop = true := by
  unfold ispStep
  cases hplace : s.ispLoop with
  | blockQueue =>
    rw [hplace] at h
    cases h
  | asleepQueue notified =>
    cases notified with
    | false =>
      rw [hplace] at h
      cases h
    | true => rfl
  | testQueue =>
    simp only [lockedIsp, hflag]
    split
    · rw [hplace]
      rfl
    · split
      · contradiction
      · rfl
      · dsimp only
        split <;> rfl
  | loadStop | process | loadRecovering | loadTimeout | notifyTimeout =>
    dsimp only
    repeat' split
    all_goals rfl
  | checkDeadline | commit =>
    simp only [lockedIsp]
    split
    · rw [hplace]
      rfl
    · rfl
  | deliver | storeStopped => rfl
  | exited =>
    rw [hplace]
    rfl

/-- `IspLoop` stays awake behind the flag, unless `Stop` notifies too early. -/
theorem Awake.step (h : s.Awake) (call : PreviewCall) (hearly : ¬ NotifiesTooEarly s call) : (step s call).1.Awake := by
  cases call with
  | capture world =>
    have hstop : (s.captureStep world).1.hasNotified = s.hasNotified := by simp [hasNotified]
    constructor
    · intro hcalled
      simpa [SoftwareIspPreviewSource.step] using h.flag (by simpa [SoftwareIspPreviewSource.step] using hcalled)
    · intro hnotified
      have hawake := h.isp (hstop ▸ hnotified)
      rcases captureStep_ispLoop s world with hisp | hisp
      · exact (congrArg IspPlace.isAwake hisp).trans hawake
      · exact (congrArg IspPlace.isAwake hisp).trans (isAwake_notify_of_awake hawake)
  | isp world =>
    have hstop : (s.ispStep world).1.hasNotified = s.hasNotified := by simp [hasNotified]
    constructor
    · intro hcalled
      simpa [SoftwareIspPreviewSource.step] using h.flag (by simpa [SoftwareIspPreviewSource.step] using hcalled)
    · intro hnotified
      have hnotified : s.hasNotified = true := hstop ▸ hnotified
      have hflag : s.stopRequested = true := h.flag (by
        intro hnot
        simp [hasNotified, hnot] at hnotified)
      exact ispStep_isAwake world hflag (h.isp hnotified)
  | stop =>
    show s.stopStep.Awake
    unfold stopStep
    cases hstop : s.stop with
    | notCalled => exact ⟨fun _ => rfl, nofun⟩
    | stored =>
      have hflag : s.stopRequested = true := h.flag (by rw [hstop]; decide)
      have hblocking : s.ispLoop.isBlocking = false := by
        rw [Bool.eq_false_iff]
        exact fun hblocking => hearly ⟨hstop, hblocking⟩
      exact ⟨fun _ => hflag, fun _ => isAwake_notify hblocking⟩
    | notified | joinedCapture =>
      have hflag : s.stopRequested = true := h.flag (by rw [hstop]; decide)
      have hawake := h.isp (by rw [hasNotified, hstop])
      dsimp only
      split <;> exact ⟨fun _ => hflag, fun _ => hawake⟩
    | joinedIsp =>
      have hflag : s.stopRequested = true := h.flag (by rw [hstop]; decide)
      exact ⟨fun _ => hflag, fun _ => h.isp (by rw [hasNotified, hstop])⟩
    | returned => exact h

/-- **Where `Stop` notifies at no moment at which `IspLoop` is about to block, no thread sleeps for good.** -/
theorem stop_wakes (captureGeneration : Nat) (calls : List PreviewCall)
    (h : Along step (fun s call => ¬ NotifiesTooEarly s call) (started captureGeneration) calls) :
    ¬ (after captureGeneration calls).Hung := by
  have hawake : (after captureGeneration calls).Awake :=
    Along.invariant (fun _ call hawake hearly => hawake.step call hearly) (Awake.start captureGeneration) h
  intro hhung
  have hisp := hawake.isp hhung.notified
  rw [hhung.asleep] at hisp
  cases hisp

theorem stop_wakes_asleep :
    Along step (fun s call => ¬ NotifiesTooEarly s call) (started 0)
      [.isp {}, .isp {}, .isp {}, .stop, .stop, .capture {}] ∧
    ¬ (after 0 [.isp {}, .isp {}, .isp {}, .stop, .stop, .capture {}]).Hung :=
  ⟨by decide, stop_wakes 0 _ (by decide)⟩

/-! ## The moment between the test and the block -/

/-- A notification that nobody hears. -/
theorem not_stop_wakes : ¬ ∀ captureGeneration calls, ¬ (after captureGeneration calls).Hung := by
  intro h
  exact h 0 [.isp {}, .isp {}, .stop, .stop, .isp {}, .capture {}] ⟨rfl, rfl, rfl⟩

/-- `Stop` has notified, `IspLoop` is asleep or about to be, and `CaptureLoop` does not enqueue any more. -/
structure Stuck (s : SoftwareIspPreviewSource) : Prop where
  flag : s.stopRequested = true
  stop : s.stop = .notified ∨ s.stop = .joinedCapture
  capture : s.captureLoop = .loadStop ∨ s.captureLoop = .exited
  isp : s.ispLoop = .blockQueue ∨ s.ispLoop = .asleepQueue false

theorem hung_of_early (hearly : NotifiesTooEarly s .stop) (hflag : s.stopRequested = true)
    (hcapture : s.captureLoop = .loadStop ∨ s.captureLoop = .exited) : (step s .stop).1.Stuck := by
  obtain ⟨hstop, hblocking⟩ := hearly
  have hisp : s.ispLoop = .blockQueue := by
    cases hplace : s.ispLoop <;> simp_all [IspPlace.isBlocking]
  constructor <;> simp [step, stopStep, hstop, hflag, hcapture, hisp, IspPlace.notify]

/-- Nobody wakes the thread any more. -/
theorem hung_stays (h : s.Stuck) {call : PreviewCall} (hspurious : ∀ world, call = .isp world → world.elapsed = false) :
    (step s call).1.Stuck := by
  obtain ⟨hflag, hstop, hcapture, hisp⟩ := h
  cases call with
  | capture world =>
    rcases hcapture with hcapture | hcapture <;> constructor <;> simp [step, captureStep, hcapture, hflag, hstop, hisp]
  | isp world =>
    have helapsed := hspurious world rfl
    rcases hisp with hisp | hisp <;> constructor <;> simp [step, ispStep, hisp, helapsed, hflag, hstop, hcapture]
  | stop =>
    rcases hstop with hstop | hstop
    · rcases hcapture with hcapture | hcapture <;> constructor <;> simp [step, stopStep, hstop, hcapture, hflag, hisp]
    · -- it joins a thread that never ends
      rcases hisp with hisp | hisp <;> constructor <;> simp [step, stopStep, hstop, hisp, hflag, hcapture]

/-- **Where `Stop` notifies too early it never returns**, in whatever order the threads go on, if nothing wakes `IspLoop`
    for no reason. -/
theorem stop_hangs (s : SoftwareIspPreviewSource) (calls : List PreviewCall) (hearly : NotifiesTooEarly s .stop)
    (hflag : s.stopRequested = true) (hcapture : s.captureLoop = .loadStop ∨ s.captureLoop = .exited)
    (hspurious : ∀ call ∈ calls, ∀ world, call = .isp world → world.elapsed = false) :
    (run step s (.stop :: calls)).stop ≠ .returned ∧ (run step s (.stop :: calls)).ispLoop ≠ .exited := by
  have hstuck : (run step (step s .stop).1 calls).Stuck :=
    Along.invariant (fun _ _ hs hcall => hung_stays hs hcall) (hung_of_early hearly hflag hcapture)
      (along_of_forall (fun call hcall _ => hspurious call hcall) _)
  constructor
  · rcases hstuck.stop with hstop | hstop <;> rw [run_cons, hstop] <;> decide
  · rcases hstuck.isp with hisp | hisp <;> rw [run_cons, hisp] <;> nofun

theorem stop_hangs_atOnce :
    (run step (after 0 [.isp {}, .isp {}, .stop]) [.stop, .isp {}, .capture {}, .stop]).stop ≠ .returned :=
  (stop_hangs _ [.isp {}, .capture {}, .stop] ⟨rfl, rfl⟩ rfl (.inl rfl) (by simp)).1

end SoftwareIspPreviewSource

end Cockpit.Camera
