/-
  The byte budget over the calls of a session, whatever their operations answer. The existing bytes may be set
  while the session is not recording; the limit on the sum holds while it records, and throughout where nothing
  is set.
-/
import Cockpit.Recording.ArtifactBudget

namespace Cockpit.Recording

open ByteText Durable Durable.Program

variable {always : Prop} {w s : World} {answers : Operation → Answer}

/-! ## Appends -/

theorem requireActive_triple (f : RecordFile) : Triple answers (· = w) (requireActive f)
      (fun _ s => w.status.state = .recording ∧ s = w) (· = w) := by
  unfold requireActive
  refine .bind (M := fun a s => a = w ∧ s = w) (.get fun s hs => ⟨hs, hs⟩) fun a =>
    .of_pure ?_
  rintro rfl
  refine (Triple.require fun _ s hs => hs).mono (fun s hs => hs) ?_ fun s hs => hs
  rintro _ s ⟨hactive, rfl⟩
  rw [Bool.and_eq_true, decide_eq_true_eq] at hactive
  exact ⟨hactive.1, rfl⟩

theorem Refused.start (hw : Budget always w) : ∀ s, s = w → Refused always w s := by
  rintro s rfl
  exact ⟨hw, NoLine.refl _⟩

section

variable (hlive : ∀ op, answers op ≠ .crashed)
include hlive

/-- Within the budget, or refused. -/
theorem append_triple (hw : Budget always w) (state : VehicleState) (environment : LineEnvironment) :
    Triple answers (· = w) (append state environment) (fun _ => Budget always) (Refused always w) := by
  unfold append
  refine .bind ((requireActive_triple .vehicleState).mono (fun s hs => hs) (fun _ s hs => hs)
    (Refused.start hw)) fun _ => .of_pure fun _ => ?_
  refine .bind (appendLine_triple hw _ _ _ _ hlive) fun _ => .pure fun s hs => hs

theorem appendEvent_triple (hw : Budget always w) (event : RecordingEvent) (environment : LineEnvironment) :
    Triple answers (· = w) (appendEvent event environment) (fun _ => Budget always) (Refused always w) := by
  unfold appendEvent
  refine .bind ((requireActive_triple .events).mono (fun s hs => hs) (fun _ s hs => hs)
    (Refused.start hw)) fun _ => .of_pure fun _ => ?_
  refine .bind (.require fun _ => Refused.start hw) fun _ => .of_pure fun _ => ?_
  refine .bind (appendLine_triple hw _ _ _ _ hlive) fun _ => .pure fun s hs => hs

/-- The copy and its line. -/
theorem appendDataFile_triple (hw : Budget always w)
    (file : RecordingDataFile) (copy : CopyEnvironment) (environment : LineEnvironment) :
    Triple answers (· = w) (appendDataFile file copy environment) (fun _ => Budget always) (Refused always w) := by
  unfold appendDataFile
  refine .bind ((requireActive_triple .dataFiles).mono (fun s hs => hs) (fun _ s hs => hs)
    (Refused.start hw)) fun _ => .of_pure fun hrecording => ?_
  refine .bind (.require fun _ => Refused.start hw) fun _ => .of_pure fun _ => ?_
  -- The line of a data file may be refused with its copy counted already.
  have hline (recorded : RecordingDataFile) : Triple answers (Refused always w)
      (do
        appendLine .dataFiles recorded.toJson recorded.timestampMs environment
        pure (.dataFile recorded) : Call Record) (fun _ => Budget always) (Refused always w) := by
    refine .of_state fun t ht => ?_
    have hcounted : Triple answers (· = t)
        (appendLine .dataFiles recorded.toJson recorded.timestampMs environment)
        (fun _ => Budget always) (Refused always t) :=
      appendLine_triple ht.budget .dataFiles recorded.toJson recorded.timestampMs environment hlive
    refine .bind (hcounted.mono (fun s hs => hs) (fun _ s hs => hs) ?_) fun _ =>
      .pure fun s hs => hs
    intro s hs
    exact ⟨hs.budget, ht.noLine.trans hs.noLine⟩
  refine .ite (fun _ => ?_) fun _ => ?_
  · exact .bind (copyDataFile_triple hlive hw hrecording file copy) hline
  · exact .bind (M := fun _ => Refused always w) (.pure (Refused.start hw)) hline

end

/-! ## Start -/

/-- Nothing has been counted, and nothing has been put into the streams. -/
structure Fresh (w : World) : Prop where
  limited : w.session.limits.Limited
  wrapped : w.session.wrapped = false
  activeBytes : w.session.activeBytes = 0
  kept : w.session.kept = []
  lines : ∀ f, (w.output f).lines = []

theorem Fresh.budget (h : Fresh w)
    (here : w.status.state = .recording → w.temporary.isSome = true) : Budget always w where
  limited := h.limited
  wrapped := h.wrapped
  counted := by
    unfold World.linesBytes World.artifactBytes
    rw [h.activeBytes, h.lines, h.lines, h.lines, h.kept]
    rfl
  session := by
    rw [h.activeBytes]
    exact UInt64.zero_le
  total _ hle := by
    rw [h.activeBytes]
    exact UInt64.le_iff_toNat_le.1 hle
  kept := by
    rw [h.kept]
    exact fun _ hmem => absurd hmem List.not_mem_nil
  here := here

theorem Fresh.of_unchanged (hw : Fresh w) (h : Unchanged w s) : Fresh s where
  limited := h.limits ▸ hw.limited
  wrapped := h.wrapped.trans hw.wrapped
  activeBytes := h.activeBytes.trans hw.activeBytes
  kept := h.kept.trans hw.kept
  lines f := (h.lines f).trans (hw.lines f)

theorem Budget.begin (hw : Budget always w) (trigger : String) (clocks : StartClocks) :
    Fresh (w.begin trigger clocks) where
  limited := hw.limited
  wrapped := hw.wrapped
  activeBytes := rfl
  kept := rfl
  lines _ := rfl

theorem Fresh.createDirectory (h : Fresh w) (hid : w.status.sessionId.isSome = true) :
    Fresh w.createDirectory ∧ w.createDirectory.temporary.isSome = true := by
  obtain ⟨id, hid⟩ := Option.isSome_iff_exists.1 hid
  unfold World.createDirectory
  rw [hid]
  refine ⟨⟨h.limited, h.wrapped, h.activeBytes, h.kept, h.lines⟩, ?_⟩
  unfold World.temporary
  unfold World.status at hid ⊢
  dsimp only
  rw [hid, Option.bind_some, Function.update_self]
  rfl

theorem Fresh.openOutput (h : Fresh w) (htemporary : w.temporary.isSome = true) (f : RecordFile) :
    Fresh (w.openOutput f) ∧ (w.openOutput f).temporary.isSome = true := by
  unfold World.openOutput
  split
  · exact ⟨h.of_unchanged (unchanged_setOutput rfl), htemporary⟩
  · generalize hd : (fun d : Directory => { d with
      records := Function.update d.records f (some ((d.records f).getD [])) }) = change
    have hunchanged : Unchanged w (w.inTemporary change) :=
      unchanged_inTemporary (by rw [← hd]; exact fun _ => rfl) w
    refine ⟨(h.of_unchanged hunchanged).of_unchanged (unchanged_setOutput ?_),
      isSome_inTemporary change htemporary⟩
    show [] = _
    rw [hunchanged.lines]
    exact (h.lines f).symm

/-- The budget holds when the session is faulted here. -/
def Faultable (always : Prop) (w : World) : Prop := ∀ error, Budget always (w.setError error)

theorem Budget.faultable (hw : Budget always w) : Faultable always w :=
  fun error => hw.of_unchanged (unchanged_setError error w)

theorem Fresh.faultable (h : Fresh w) : Faultable always w :=
  fun error => (h.of_unchanged (unchanged_setError error w)).budget nofun

/-- Nothing is counted before the directory is there. -/
theorem openSession_triple (hw : Budget always w) (trigger : String) (clocks : StartClocks) :
    Triple answers (· = w) (openSession trigger clocks) (fun _ => Budget always) (Faultable always) := by
  have hopen (f : RecordFile) : Triple answers (fun s => Fresh s ∧ s.temporary.isSome = true)
      (act (.openOutput f) (World.openOutput f) ("open " ++ f.filename ++ " failed") : Call Unit)
      (fun _ s => Fresh s ∧ s.temporary.isSome = true) (Faultable always) := by
    exact .act (fun _ s hs => hs.1.openOutput hs.2 f) fun _ s hs => hs.1.faultable
  unfold openSession
  refine .bind (.check ?_) fun _ => ?_
  · rintro _ s rfl
    exact hw.faultable
  refine .bind (M := fun _ s => Fresh s ∧ s.status.sessionId.isSome = true) (.modify ?_)
    fun _ => ?_
  · rintro s rfl
    exact ⟨hw.begin trigger clocks, rfl⟩
  refine .bind (M := fun _ s => Fresh s ∧ s.temporary.isSome = true) (.act ?_ ?_)
    fun _ => ?_
  · exact fun _ s hs => hs.1.createDirectory hs.2
  · exact fun _ s hs => hs.1.faultable
  refine .bind (hopen .vehicleState) fun _ => ?_
  refine .bind (hopen .events) fun _ => ?_
  exact (hopen .dataFiles).mono (fun s hs => hs) (fun _ s hs => hs.1.budget fun _ => hs.2)
    fun s hs => hs

theorem Budget.inTemporary (hw : Budget always w) {f : Directory → Directory}
    (hf : ∀ d, (f d).artifacts = d.artifacts) : Budget always (w.inTemporary f) :=
  hw.of_unchanged (unchanged_inTemporary hf w)

theorem writeManifest_triple (state : ManifestState) :
    Triple answers (Budget always) (writeManifest state) (fun _ => Budget always) (Budget always) := by
  unfold writeManifest
  refine .bind (M := fun _ => Budget always) (.act ?_ fun _ s hs => hs) fun _ => ?_
  · exact fun _ s hs => hs.inTemporary (by intro d; rfl)
  refine .bind (M := fun _ => Budget always) (.act ?_ fun _ s hs => hs) fun _ => ?_
  · exact fun _ s hs => hs.inTemporary (by intro d; rfl)
  refine .bind (.check fun _ s hs => hs) fun _ => ?_
  exact .check fun _ s hs => hs

theorem unchanged_setStatus {status : RecordingStatus} (hid : status.sessionId = w.status.sessionId)
    (hstate : status.state = .recording → w.status.state = .recording) : Unchanged w (w.setStatus status) where
  limits := rfl
  existingBytes := rfl
  activeBytes := rfl
  wrapped := rfl
  kept := rfl
  lines _ := rfl
  artifacts := by
    funext name
    show (status.sessionId.bind _).bind _ = (w.status.sessionId.bind _).bind _
    rw [hid]
    rfl
  here hrecording := by
    refine ⟨hstate hrecording, fun hsome => ?_⟩
    show (status.sessionId.bind _).isSome = true
    rw [hid]
    exact hsome

theorem unchanged_closeOutputs (w : World) : Unchanged w w.closeOutputs :=
  ⟨rfl, rfl, rfl, rfl, rfl, fun _ => rfl, rfl, fun h => ⟨h, id⟩⟩

theorem start_triple (hlive : ∀ op, answers op ≠ .crashed) (hw : Budget always w) (trigger : String)
    (clocks : StartClocks) :
    Triple answers (· = w) (start trigger clocks) (fun _ => Budget always) (Budget always) := by
  have hsame : ∀ s, s = w → Budget always s := by
    rintro s rfl
    exact hw
  unfold start
  refine .bind (M := fun _ s => s = w) (.get fun s hs => hs) fun a => ?_
  refine .bind (.require fun _ => hsame) fun _ => .of_pure fun _ => ?_
  refine .bind (.require fun _ => hsame) fun _ => .of_pure fun _ => ?_
  refine .bind (M := fun _ => Budget always) (.onFail_live hlive
    (openSession_triple hw trigger clocks) fun error s hs => hs error) fun _ => ?_
  refine .onFail_live hlive (writeManifest_triple .recording) fun _ s hs => ?_
  exact hs.of_unchanged ((unchanged_closeOutputs s).trans (unchanged_setStatus rfl nofun))

/-! ## Stop -/

theorem closeOutput_triple (hlive : ∀ op, answers op ≠ .crashed) (f : RecordFile) :
    Triple answers (Budget always) (closeOutput f) (fun _ => Budget always) (Budget always) := by
  unfold closeOutput
  refine .bind (M := fun _ => Budget always) (.get fun s hs => hs) fun a => ?_
  refine .ite (fun _ => .pure fun s hs => hs) fun _ => ?_
  have hclose : Triple answers (Budget always)
      (do
        require (!(a.output f).failed) ("flush " ++ f.filename ++ " failed")
        act (.flushOutput f) (World.flush f) ("flush " ++ f.filename ++ " failed")
        act (.closeOutput f) (World.closeOutput f) ("close " ++ f.filename ++ " failed") : Call Unit)
      (fun _ => Budget always) (Budget always) := by
    refine .bind (.require fun _ s hs => hs) fun _ => .of_pure fun _ => ?_
    refine .bind (M := fun _ => Budget always) (.act ?_ fun _ s hs => hs) fun _ => ?_
    · exact fun _ s hs => hs.of_unchanged (unchanged_drain f _ s)
    · exact .act (fun _ s hs => hs.of_unchanged (unchanged_closeOutput f s)) fun _ s hs => hs
  exact .onFail_live hlive hclose fun _ s hs => hs.of_unchanged (unchanged_closeOutput f s)

/-- What is closed stays what it was. -/
theorem closeAll_triple (hlive : ∀ op, answers op ≠ .crashed) {stop : World → Prop} :
    Triple answers (Budget always) closeAll (fun _ => Budget always) stop := by
  have hclose (f : RecordFile) : Triple answers (Budget always)
      (attempt (closeOutput f) : Call (Except String Unit)) (fun _ => Budget always) stop :=
    .attempt_live hlive (closeOutput_triple hlive f) fun _ s hs => hs
  unfold closeAll
  refine .bind (hclose .vehicleState) fun _ => ?_
  refine .bind (hclose .events) fun _ => ?_
  refine .bind (hclose .dataFiles) fun _ => ?_
  exact .pure fun s hs => hs

theorem writeCompleteMarker_triple :
    Triple answers (Budget always) writeCompleteMarker (fun _ => Budget always) (Budget always) := by
  unfold writeCompleteMarker
  refine .bind (M := fun _ => Budget always) (.act ?_ fun _ s hs => hs) fun _ => ?_
  · exact fun _ s hs => hs.inTemporary (by intro d; rfl)
  refine .bind (.check fun _ s hs => hs) fun _ => ?_
  refine .bind (.check fun _ s hs => hs) fun _ => ?_
  exact .check fun _ s hs => hs

/-- `Stop` behind its rename: the budget holds as soon as the session is no longer recording. -/
def Settled (always : Prop) (w : World) : Prop :=
  ∀ status : RecordingStatus, status.sessionId = w.status.sessionId → status.state ≠ .recording →
    Budget always (w.setStatus status)

theorem Budget.settled (hw : Budget always w) : Settled always w :=
  fun _ hid hstate => hw.of_unchanged (unchanged_setStatus hid (absurd · hstate))

theorem Settled.setError (hw : Settled always w) (error : String) : Budget always (w.setError error) :=
  hw { w.status with state := .faulted, lastError := error } rfl nofun

theorem Budget.rename (hw : Budget always w) {id : SessionId} (hid : w.status.sessionId = some id)
    (hthere : (w.disk (.recording id)).isSome = true) :
    Settled always { w with disk := w.disk.rename (.recording id) (.session id) } := by
  obtain ⟨d, hd⟩ := Option.isSome_iff_exists.1 hthere
  intro status hstatus hstate
  refine hw.of_unchanged ⟨rfl, rfl, rfl, rfl, rfl, fun _ => rfl, ?_, (absurd · hstate)⟩
  have hnew : status.sessionId = some id := hstatus.trans hid
  have hold : w.directory = some d := by
    unfold World.directory
    rw [hid, Option.bind_some, hd]
    rfl
  funext name
  unfold World.artifacts
  rw [hold]
  show (status.sessionId.bind _).bind _ = _
  rw [hnew, Option.bind_some]
  unfold Disk.rename
  have hne : DirectoryName.session id ≠ .recording id := nofun
  dsimp only [World.setStatus]
  rw [Function.update_self, Function.update_of_ne hne, Function.update_self, hd]
  rfl

/-- The files go with their directory. -/
theorem renameToFinal_triple :
    Triple answers (Budget always) renameToFinal (fun _ => Settled always) (Budget always) := by
  unfold renameToFinal
  refine .of_state fun a ha => ?_
  refine .bind (M := fun b s => b = a ∧ s = a) (.get fun s hs => ⟨hs, hs⟩) fun b =>
    .of_pure ?_
  rintro rfl
  have hsame : ∀ s, s = b → Budget always s := by
    rintro s rfl
    exact ha
  cases hid : b.status.sessionId with
  | none => exact .fail hsame
  | some id =>
    refine .bind (.require fun _ => hsame) fun _ => .of_pure fun hthere => ?_
    refine .act (fun _ s hs => ?_) fun _ => hsame
    subst hs
    rw [Bool.and_eq_true] at hthere
    exact ha.rename hid hthere.1

theorem finish_triple (hlive : ∀ op, answers op ≠ .crashed) (stoppedAtMs : Int) :
    Triple answers (Budget always) (finish stoppedAtMs) (fun _ => Budget always) (Settled always) := by
  have hcheck (op : Operation) (error : String) : Triple answers (Budget always)
      (check op error : Call Unit) (fun _ => Budget always) (Settled always) :=
    .check fun _ s hs => hs.settled
  unfold finish
  refine .bind (closeAll_triple hlive) fun closed => ?_
  refine .bind (M := fun _ => Budget always) (.ofExcept (fun _ _ s hs => hs)
    fun _ _ s hs => hs.settled) fun _ => ?_
  refine .bind (hcheck _ _) fun _ => ?_
  refine .bind (hcheck _ _) fun _ => ?_
  refine .bind (hcheck _ _) fun _ => ?_
  refine .bind (M := fun _ => Budget always) (.modify ?_) fun _ => ?_
  · exact fun s hs => hs.of_unchanged (unchanged_setStatus rfl id)
  refine .bind ((writeManifest_triple .complete).mono (fun s hs => hs) (fun _ s hs => hs)
    fun s hs => hs.settled) fun _ => ?_
  refine .bind (writeCompleteMarker_triple.mono (fun s hs => hs) (fun _ s hs => hs)
    fun s hs => hs.settled) fun _ => ?_
  refine .bind (hcheck _ _) fun _ => ?_
  refine .bind (renameToFinal_triple.mono (fun s hs => hs) (fun _ s hs => hs)
    fun s hs => hs.settled) fun _ => ?_
  refine .bind (.check fun _ s hs => hs) fun _ => .modify ?_
  exact fun s hs => hs _ rfl nofun

theorem stop_triple (hlive : ∀ op, answers op ≠ .crashed) (hw : Budget always w) (stoppedAtMs : Int) :
    Triple answers (· = w) (stop stoppedAtMs) (fun _ => Budget always) (Budget always) := by
  have hsame : ∀ s, s = w → Budget always s := by
    rintro s rfl
    exact hw
  unfold stop
  refine .bind (M := fun _ s => s = w) (.get fun s hs => hs) fun a => ?_
  cases a.status.state with
  | idle => exact .pure hsame
  | faulted =>
    refine .bind ((closeAll_triple hlive).mono hsame (fun _ s hs => hs) fun s hs => hs)
      fun _ => ?_
    exact .fail fun s hs => hs
  | recording =>
    exact .onFail_live hlive ((finish_triple hlive stoppedAtMs).mono hsame (fun _ s hs => hs)
      fun s hs => hs) fun error s hs => hs.setError error

/-! ## The calls -/

theorem setExistingBytes_triple (hw : Budget always w) (hnot : ¬ always) (existingBytes : UInt64) :
    Triple answers (· = w) (setExistingBytes existingBytes) (fun _ => Budget always) (Budget always) := by
  unfold setExistingBytes
  refine .modify ?_
  rintro s rfl
  split
  · exact hw
  · rename_i hstate
    exact {
      limited := hw.limited
      wrapped := hw.wrapped
      counted := hw.counted
      session := hw.session
      total := fun h => absurd h (not_or.2 ⟨hnot, hstate⟩)
      kept := hw.kept
      here := hw.here }

namespace SessionCall

def isAppend : SessionCall → Bool
  | append _ _ => true
  | appendEvent _ _ => true
  | appendDataFile _ _ _ => true
  | _ => false

/-- The call sets them. -/
def setsExistingBytes : SessionCall → Bool
  | setExistingBytes _ => true
  | _ => false

end SessionCall

/-- What a call leaves behind that returns false. -/
structure CallRefused (always : Prop) (call : SessionCall) (w s : World) : Prop where
  budget : Budget always s
  noLine : call.isAppend = true → NoLine w s

/-- Every call keeps the budget. -/
theorem program_triple (hlive : ∀ op, answers op ≠ .crashed) (hw : Budget always w)
    (call : SessionCall) (hset : always → call.setsExistingBytes = false) :
    Triple answers (· = w) call.program (fun _ => Budget always) (CallRefused always call w) := by
  have happend {p : Call Record} (hp : Triple answers (· = w) p (fun _ => Budget always)
      (Refused always w)) : Triple answers (· = w)
        (do
          let record ← p
          pure (some record) : Call (Option Record))
        (fun _ => Budget always) (CallRefused always call w) :=
    .bind (hp.mono (fun s hs => hs) (fun _ s hs => hs) fun s hs => ⟨hs.budget, fun _ => hs.noLine⟩)
      fun _ => .pure fun s hs => hs
  have hother {p : Call Unit} (hcall : call.isAppend = false) (hp : Triple answers (· = w) p
      (fun _ => Budget always) (Budget always)) : Triple answers (· = w)
        (do
          p
          pure none : Call (Option Record))
        (fun _ => Budget always) (CallRefused always call w) := by
    refine .bind (hp.mono (fun s hs => hs) (fun _ s hs => hs) fun s hs => ⟨hs, fun h => ?_⟩)
      fun _ => .pure fun s hs => hs
    rw [hcall] at h
    cases h
  cases call with
  | setExistingBytes existingBytes =>
    refine hother rfl (setExistingBytes_triple hw (fun h => ?_) existingBytes)
    exact absurd (hset h) (by simp [SessionCall.setsExistingBytes])
  | start trigger clocks => exact hother rfl (start_triple hlive hw trigger clocks)
  | append state environment => exact happend (append_triple hlive hw state environment)
  | appendEvent event environment => exact happend (appendEvent_triple hlive hw event environment)
  | appendDataFile file copy environment =>
    exact happend (appendDataFile_triple hlive hw file copy environment)
  | stop stoppedAtMs => exact hother rfl (stop_triple hlive hw stoppedAtMs)

def answersOf (succeeds : Operation → Bool) (op : Operation) : Answer :=
  if succeeds op then .done else .failed

theorem answersOf_ne_crashed (succeeds : Operation → Bool) (op : Operation) : answersOf succeeds op ≠ .crashed := by
  unfold answersOf
  split <;> nofun

/-- A call, with the answer of every operation. -/
def World.call (w : World) (i : SessionCall × (Operation → Bool)) : World × Bool :=
  let (outcome, s) := i.1.program.run (answersOf i.2) w
  (s, outcome.isReturned)

/-- **A call keeps the budget**, and an append that returns false adds no line. -/
theorem call_budget (hw : Budget always w) (i : SessionCall × (Operation → Bool))
    (hset : always → i.1.setsExistingBytes = false) :
    Budget always (w.call i).1 ∧
      (i.1.isAppend = true → (w.call i).2 = false → NoLine w (w.call i).1) := by
  have hrun := program_triple (answersOf_ne_crashed i.2) hw i.1 hset w rfl
  unfold World.call
  rcases hres : i.1.program.run (answersOf i.2) w with ⟨outcome, s⟩
  rw [hres] at hrun
  cases outcome with
  | returned record => exact ⟨hrun, fun _ h => nomatch h⟩
  | failed error | crashed => exact ⟨hrun.budget, fun happend _ => hrun.noLine happend⟩

/-- The process starts. -/
def World.boot (disk : Disk) (pid sequence : Nat) (limits : RecordingSessionLimits)
    (existingBytes : UInt64) : World :=
  { disk := disk, pid := pid, sequence := sequence,
    session := { limits := limits, existingBytes := existingBytes } }

/-- What holds of the bytes after `calls`. -/
structure WithinBudget (calls : List (SessionCall × (Operation → Bool))) (w : World) : Prop where
  counted : w.session.activeBytes.toNat = w.linesBytes + w.artifactBytes
  session : w.session.activeBytes ≤ w.session.limits.maxSessionBytes
  total : (w.status.state = .recording ∨ ∀ call ∈ calls, call.1.setsExistingBytes = false) →
    w.session.existingBytes ≤ w.session.limits.maxTotalBytes →
    w.session.existingBytes.toNat + w.session.activeBytes.toNat ≤ w.session.limits.maxTotalBytes.toNat
  subtractions : w.session.wrapped = false
  refused : ∀ call : SessionCall × (Operation → Bool), call.1.isAppend = true →
    (w.call call).2 = false → NoLine w (w.call call).1

/-- **The byte budget**, in every state that the calls of a session with both limits reach. -/
theorem byte_budget (disk : Disk) (pid sequence : Nat) (limits : RecordingSessionLimits)
    (hlimited : limits.Limited) (existingBytes : UInt64)
    (calls : List (SessionCall × (Operation → Bool))) :
    WithinBudget calls
      (StepRun.run World.call (World.boot disk pid sequence limits existingBytes) calls) := by
  have hboot : Fresh (World.boot disk pid sequence limits existingBytes) :=
    ⟨hlimited, rfl, rfl, rfl, fun _ => rfl⟩
  have hrun : Budget (∀ call ∈ calls, call.1.setsExistingBytes = false)
      (StepRun.run World.call (World.boot disk pid sequence limits existingBytes) calls) := by
    refine StepRun.Along.invariant
      (I := Budget (∀ call ∈ calls, call.1.setsExistingBytes = false))
      (P := fun _ i => (∀ call ∈ calls, call.1.setsExistingBytes = false) →
        i.1.setsExistingBytes = false)
      (fun w i hw hset => (call_budget hw i hset).1) (hboot.budget nofun) ?_
    exact StepRun.along_of_forall (fun i hi _ hnone => hnone i hi) _
  -- The last clause is about the call after the run, which may set the existing bytes again.
  have hnext : Budget False
      (StepRun.run World.call (World.boot disk pid sequence limits existingBytes) calls) :=
    { hrun with total := fun h => hrun.total (.inr (h.resolve_left id)) }
  exact {
    counted := hrun.counted
    session := hrun.session
    total := fun h => hrun.total h.symm
    subtractions := hrun.wrapped
    refused := fun call happend hfalse => (call_budget hnext call False.elim).2 happend hfalse }

/-- Both limits are set, and there is no other. -/
def smallLimits : RecordingSessionLimits :=
  { maxSessionBytes := 90, maxTotalBytes := 200, maxDurationMs := 0, minFreeBytes := 0 }

/-- An event is recorded, and a second one is too much. -/
def twoEvents : List (SessionCall × (Operation → Bool)) :=
  let environment : LineEnvironment := ⟨⟨6, some (1, 1000)⟩, 0⟩
  [(.start "" ⟨5, 5, 5⟩, fun _ => true),
    (.appendEvent ⟨7, ascii "topic", ascii "[1]"⟩ environment, fun _ => true),
    (.appendEvent ⟨8, ascii "topic", ascii "[1]"⟩ environment, fun _ => true)]

theorem byte_budget_twoEvents :
    WithinBudget twoEvents
      (StepRun.run World.call (World.boot (fun _ => none) 1 0 smallLimits 9) twoEvents) ∧
    (StepRun.run World.call (World.boot (fun _ => none) 1 0 smallLimits 9)
      twoEvents).session.activeBytes = 49 :=
  ⟨byte_budget (fun _ => none) 1 0 smallLimits ⟨by decide, by decide⟩ 9 twoEvents, by decide +kernel⟩

end Cockpit.Recording
