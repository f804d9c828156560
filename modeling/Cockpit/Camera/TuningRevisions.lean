/-
  The tuning of the native camera is changed by compare-and-set. A revision is taken before its submission and
  never again, so what was current once never is again.
-/
import Cockpit.Camera.NativeTuning

namespace Cockpit.Camera

open StepRun List

/-! ## The law -/

/-- What is asked for. -/
def TuningChange.settings (session : TuningSession) : TuningChange → CameraTuning
  | set settings => settings
  | reset => session.tuning.defaults
  | applyProfile profile => profile.settings

namespace NativeArgusPreviewSource

/-- The session of the preview. -/
def session? (s : NativeArgusPreviewSource) : Option TuningSession := s.run.bind fun run => run.session

/-- What holds of the requests of a run. -/
structure CompareAndSet (calls : List TuningCall) : Prop where
  /-- A request that succeeds was made on the current session and revision, and leaves its settings with a later
      revision. -/
  applied : ∀ before session revision change world rest,
    calls = before ++ .change session revision change world :: rest →
    (step (after before) (.change session revision change world)).2.ok = true →
    ∃ current now, (after before).session? = some current ∧ current.tuning.sessionId = session ∧
      current.tuning.revision = revision ∧
      (step (after before) (.change session revision change world)).1.session? = some now ∧
      now.tuning.sessionId = session ∧ revision < now.tuning.revision ∧
      now.tuning.requested = change.settings current
  /-- Two requests on the same session and revision do not both succeed. -/
  once : ∀ before session revision change world middle change' world' rest,
    calls = before ++ .change session revision change world :: middle ++
      .change session revision change' world' :: rest →
    (step (after before) (.change session revision change world)).2.ok = true →
    (step (after (before ++ .change session revision change world :: middle))
      (.change session revision change' world')).2.ok = false
  failed : ∀ before session revision change world rest,
    calls = before ++ .change session revision change world :: rest →
    (step (after before) (.change session revision change world)).2.ok = false →
    (step (after before) (.change session revision change world)).1.session?.map TuningSession.tuning =
      (after before).session?.map TuningSession.tuning
  increasing : ∀ before rest current now, calls = before ++ rest → (after before).session? = some current →
    (after calls).session? = some now → now.tuning.sessionId = current.tuning.sessionId →
    current.tuning.revision ≤ now.tuning.revision
  /-- One revision number is never submitted with two settings. -/
  submitted : ∀ a ∈ (after calls).submitted, ∀ b ∈ (after calls).submitted, a.1 = b.1 →
    a.2.clientData = b.2.clientData → a.2.settings = b.2.settings
  /-- Without a fault the device repeats the settings of the revision. -/
  repeated : ∀ current, (after calls).session? = some current → current.tuningFault = "" →
    current.device = { settings := current.tuning.requested, clientData := current.tuning.revision }

end NativeArgusPreviewSource

/-! ## One request -/

theorem exists_of_bind_ok {α β : Type} {x : Except String α} {f : α → Except String β} {b : β}
    (h : (x >>= f) = .ok b) : ∃ a, x = .ok a ∧ f a = .ok b := by
  cases x with
  | error error => cases h
  | ok a => exact ⟨a, rfl, h⟩

theorem buildTuningRequest_ok {settings : CameraTuning} {revision : Nat} {world : ArgusWorld}
    {request : TuningRequest} (h : buildTuningRequest settings revision world = .ok request) :
    request = { settings, clientData := revision } := by
  unfold buildTuningRequest at h
  -- the calls before the white balance, and the two behind it
  iterate 17 obtain ⟨_, -, h⟩ := exists_of_bind_ok h
  split at h
  · iterate 2 obtain ⟨_, -, h⟩ := exists_of_bind_ok h
    cases h
    rfl
  · obtain ⟨_, -, h⟩ := exists_of_bind_ok h
    cases h
    rfl

namespace TuningSession

/-- What a session says of its tuning is what it has submitted, and what the device repeats. -/
structure Coherent (s : TuningSession) : Prop where
  request : s.request = { settings := s.tuning.requested, clientData := s.tuning.revision }
  device : s.tuningFault = "" → s.device = s.request
  next : s.tuning.revision < s.nextTuningRevision

/-- What a request for a tuning does. -/
structure Sets (s : TuningSession) (settings : CameraTuning) (outcome : Outcome) : Prop where
  coherent : outcome.session.Coherent
  failed : ∀ error, outcome.result = .error error → outcome.session.tuning = s.tuning
  ok : ∀ revision, outcome.result = .ok revision →
    s.active = true ∧ s.stopping = false ∧ outcome.session.active = true ∧ outcome.session.stopping = false ∧
    outcome.session.tuning.sessionId = s.tuning.sessionId ∧ outcome.session.tuning.requested = settings ∧
    s.tuning.revision < outcome.session.tuning.revision
  next : s.nextTuningRevision ≤ outcome.session.nextTuningRevision
  /-- It submits the candidate, with a number that was not used, and what was submitted before. -/
  submitted : ∃ candidate : TuningRequest, candidate.clientData = s.nextTuningRevision ∧
    (∀ request ∈ outcome.submitted, request = s.request ∨
      request = candidate ∧ candidate.clientData < outcome.session.nextTuningRevision) ∧
    (outcome.session.request = s.request ∨ outcome.session.request = candidate ∧ candidate ∈ outcome.submitted)

variable {s : TuningSession}

theorem Coherent.refuse {s' : TuningSession} (h : s.Coherent) (settings : CameraTuning) (error : String)
    (hs' : s' = s ∨ s' = { s with nextTuningRevision := s.nextTuningRevision + 1 }) :
    Sets s settings (s'.refuse error) := by
  have hcoherent : s'.Coherent := by
    rcases hs' with rfl | rfl
    · exact h
    · exact ⟨h.request, h.device, Nat.lt_succ_of_lt h.next⟩
  have htuning : s'.tuning = s.tuning := by rcases hs' with rfl | rfl <;> rfl
  have hreq : s'.request = s.request := by rcases hs' with rfl | rfl <;> rfl
  have hnext : s.nextTuningRevision ≤ s'.nextTuningRevision := by
    rcases hs' with rfl | rfl
    · exact Nat.le_refl _
    · exact Nat.le_succ _
  constructor
  case coherent => exact hcoherent
  case failed => exact fun _ _ => htuning
  case ok =>
    intro revision hok
    cases hok
  case next => exact hnext
  case submitted =>
    refine ⟨⟨settings, s.nextTuningRevision⟩, rfl, ?_, .inl hreq⟩
    intro request hmem
    cases hmem

@[simp] theorem submit_tuning (s : TuningSession) (request : TuningRequest) (submission : Submission) :
    (s.submit request submission).tuning = s.tuning := by
  unfold submit
  split <;> rfl

@[simp] theorem submit_request (s : TuningSession) (request : TuningRequest) (submission : Submission) :
    (s.submit request submission).request = s.request := by
  unfold submit
  split <;> rfl

@[simp] theorem submit_next (s : TuningSession) (request : TuningRequest) (submission : Submission) :
    (s.submit request submission).nextTuningRevision = s.nextTuningRevision := by
  unfold submit
  split <;> rfl

@[simp] theorem submit_active (s : TuningSession) (request : TuningRequest) (submission : Submission) :
    (s.submit request submission).active = s.active := by
  unfold submit
  split <;> rfl

@[simp] theorem submit_stopping (s : TuningSession) (request : TuningRequest) (submission : Submission) :
    (s.submit request submission).stopping = s.stopping := by
  unfold submit
  split <;> rfl

theorem submit_device {request : TuningRequest} {submission : Submission} (h : submission.status = 0) :
    (s.submit request submission).device = request := by
  unfold submit
  rw [if_pos (by rw [h]; rfl)]

theorem submitCandidate_sets (h : s.Coherent) (hactive : s.active = true) (hstopping : s.stopping = false)
    (settings accepted : CameraTuning) (world : ArgusWorld) :
    Sets s settings (({ s with nextTuningRevision := s.nextTuningRevision + 1 } : TuningSession).submitCandidate
      settings accepted { settings, clientData := s.nextTuningRevision } world) := by
  have hnext := h.next
  unfold submitCandidate
  dsimp only
  split
  · -- rejected: the old request is submitted again
    constructor
    case coherent =>
      refine ⟨by simpa using h.request, ?_, by simpa using Nat.lt_succ_of_lt hnext⟩
      intro hfault
      have hrestored : world.restore.status = 0 := by
        refine Decidable.byContradiction fun hfailed => ?_
        simp [hfailed] at hfault
      simpa using submit_device hrestored
    case failed =>
      intro error _
      simp
    case ok =>
      intro revision hok
      cases hok
    case next => simp
    case submitted =>
      refine ⟨⟨settings, s.nextTuningRevision⟩, rfl, ?_, .inl (by simp)⟩
      intro request hmem
      simp at hmem
      rcases hmem with rfl | rfl
      · exact .inr ⟨rfl, by simp⟩
      · exact .inl rfl
  · rename_i hstatus
    have hstatus : world.submit.status = 0 := Decidable.not_not.mp hstatus
    constructor
    case coherent =>
      refine ⟨rfl, fun _ => ?_, by simp⟩
      simpa using submit_device hstatus
    case failed =>
      intro error herror
      cases herror
    case ok =>
      intro revision hok
      refine ⟨hactive, hstopping, ?_, ?_, ?_, rfl, hnext⟩ <;> simp [hactive, hstopping]
    case next => simp
    case submitted =>
      refine ⟨⟨settings, s.nextTuningRevision⟩, rfl, ?_, .inr ⟨rfl, mem_singleton_self _⟩⟩
      intro request hmem
      exact .inr ⟨mem_singleton.mp hmem, by simp⟩

/-- **A request for a tuning leaves all of it or commits all of it.** -/
theorem setTuning_sets (h : s.Coherent) (settings : CameraTuning) (world : ArgusWorld) :
    Sets s settings (s.setTuning settings world) := by
  unfold setTuning
  split
  · exact h.refuse settings _ (.inl rfl)
  · rename_i hready
    have hactive : s.active = true := by simp at hready; exact hready.1.1.1
    have hstopping : s.stopping = false := by simp at hready; exact hready.1.1.2
    dsimp only
    split
    · exact h.refuse settings _ (.inl rfl)
    · split
      · exact h.refuse settings _ (.inl rfl)
      · split
        · exact h.refuse settings _ (.inl rfl)
        · cases hbuild : buildTuningRequest settings s.nextTuningRevision world with
          | error error => exact h.refuse settings error (.inr rfl)
          | ok candidate =>
            dsimp only
            cases world.read with
            | error error => exact h.refuse settings error (.inr rfl)
            | ok accepted =>
              rw [buildTuningRequest_ok hbuild]
              exact submitCandidate_sets h hactive hstopping settings accepted world

theorem change_sets (h : s.Coherent) (change : TuningChange) (world : ArgusWorld) :
    Sets s (change.settings s) (s.change world change) := by
  cases change with
  | set settings => exact setTuning_sets h settings world
  | reset => exact setTuning_sets h s.tuning.defaults world
  | applyProfile profile =>
    show Sets s profile.settings (ite _ _ _)
    split
    · exact h.refuse _ _ (.inl rfl)
    · split
      · exact h.refuse _ _ (.inl rfl)
      · exact setTuning_sets h profile.settings world

theorem initialized_coherent {id : Nat} {device : NativeCameraDescriptor} {capabilities : CameraTuningCapabilities}
    {sdkDefaults accepted : CameraTuning} {world : ArgusWorld} {session : TuningSession}
    (h : initialized id device capabilities sdkDefaults accepted world = .ok session) :
    session.Coherent ∧ session.tuning.sessionId = id := by
  unfold initialized at h
  obtain ⟨_, -, h⟩ := exists_of_bind_ok h
  obtain ⟨request, hbuild, h⟩ := exists_of_bind_ok h
  obtain ⟨_, -, h⟩ := exists_of_bind_ok h
  cases h
  exact ⟨⟨buildTuningRequest_ok hbuild, fun _ => rfl, Nat.lt_succ_self 1⟩, rfl⟩

end TuningSession

/-! ## All requests -/

namespace NativeArgusPreviewSource

open TuningSession

variable {s : NativeArgusPreviewSource}

/-- What is known of the submissions: a number stands for one setting, and the session has numbers left. -/
structure Known (s : NativeArgusPreviewSource) : Prop where
  coherent : ∀ session, s.session? = some session → session.Coherent
  id : ∀ session, s.session? = some session → session.tuning.sessionId < s.nextSessionId
  current : ∀ session, s.session? = some session → (session.tuning.sessionId, session.request) ∈ s.submitted
  fresh : ∀ session, s.session? = some session → ∀ a ∈ s.submitted, a.1 = session.tuning.sessionId →
    a.2.clientData < session.nextTuningRevision
  ids : ∀ a ∈ s.submitted, a.1 < s.nextSessionId
  unique : ∀ a ∈ s.submitted, ∀ b ∈ s.submitted, a.1 = b.1 → a.2.clientData = b.2.clientData → a.2 = b.2

theorem Known.of_session (h : Known s) {run : Option PreviewRun}
    (hrun : ∀ session, (run.bind fun run => run.session) = some session →
      ∃ old, s.session? = some old ∧ session.Coherent ∧ session.tuning = old.tuning ∧
        session.request = old.request ∧ session.nextTuningRevision = old.nextTuningRevision) :
    Known { s with run } := by
  constructor
  case coherent =>
    intro session hsess
    obtain ⟨old, -, hcoherent, -⟩ := hrun session hsess
    exact hcoherent
  case id =>
    intro session hsess
    obtain ⟨old, hold, -, htuning, -⟩ := hrun session hsess
    rw [htuning]
    exact h.id old hold
  case current =>
    intro session hsess
    obtain ⟨old, hold, -, htuning, hreq, -⟩ := hrun session hsess
    rw [htuning, hreq]
    exact h.current old hold
  case fresh =>
    intro session hsess
    obtain ⟨old, hold, -, htuning, -, hnext⟩ := hrun session hsess
    rw [htuning, hnext]
    exact h.fresh old hold
  case ids => exact h.ids
  case unique => exact h.unique

theorem Known.stop (h : Known s) (leasesOutstanding : Bool) : Known (s.stop leasesOutstanding) := by
  unfold NativeArgusPreviewSource.stop
  split
  · rename_i run hrun
    refine h.of_session ?_
    intro session hsess
    simp only [Option.bind_some, stopCapture] at hsess
    split at hsess
    · obtain ⟨old, hold, rfl⟩ := Option.map_eq_some_iff.mp hsess
      have hs : s.session? = some old := by simp [session?, hrun, hold]
      have hcoherent := h.coherent old hs
      exact ⟨old, hs, ⟨hcoherent.request, hcoherent.device, hcoherent.next⟩, rfl, rfl, rfl⟩
    · cases hsess
  · exact h

variable {session : TuningSession}

theorem Known.changeSession (h : Known s) (hsess : s.session? = some session) (running : Bool)
    (change : TuningChange) (world : ArgusWorld) : Known (s.changeSession running session change world).1 := by
  have hsets := change_sets (h.coherent session hsess) change world
  have hid : (session.change world change).session.tuning.sessionId = session.tuning.sessionId := by
    cases hresult : (session.change world change).result with
    | error error => rw [hsets.failed error hresult]
    | ok revision => exact (hsets.ok revision hresult).2.2.2.2.1
  obtain ⟨candidate, hcandidate, hsubmitted, hreq⟩ := hsets.submitted
  have hcur := h.current session hsess
  have hfresh := h.fresh session hsess
  have hnext := hsets.next
  have hmem : ∀ a ∈ (s.changeSession running session change world).1.submitted,
      a ∈ s.submitted ∨ a = (session.tuning.sessionId, candidate) ∧
        session.nextTuningRevision < (session.change world change).session.nextTuningRevision := by
    intro a ha
    rcases mem_append.mp ha with ha | ha
    · exact .inl ha
    · obtain ⟨request, hreq, rfl⟩ := mem_map.mp ha
      rcases hsubmitted request hreq with rfl | ⟨rfl, hlt⟩
      · exact .inl hcur
      · exact .inr ⟨rfl, hcandidate ▸ hlt⟩
  have hold : ∀ a ∈ s.submitted, a.1 = session.tuning.sessionId → a.2.clientData ≠ candidate.clientData := by
    intro a ha hsame
    rw [hcandidate]
    exact Nat.ne_of_lt (hfresh a ha hsame)
  constructor
  case coherent =>
    rintro new ⟨⟩
    exact hsets.coherent
  case id =>
    rintro new ⟨⟩
    rw [hid]
    exact h.id session hsess
  case current =>
    rintro new ⟨⟩
    rw [hid]
    rcases hreq with hreq | ⟨hreq, hin⟩ <;> rw [hreq]
    · exact mem_append_left _ hcur
    · exact mem_append_right _ (mem_map.mpr ⟨candidate, hin, rfl⟩)
  case fresh =>
    rintro new ⟨⟩ a ha hsame
    rw [hid] at hsame
    rcases hmem a ha with ha | ⟨rfl, hlt⟩
    · exact Nat.lt_of_lt_of_le (hfresh a ha hsame) hnext
    · rw [hcandidate]
      exact hlt
  case ids =>
    intro a ha
    rcases hmem a ha with ha | ⟨rfl, -⟩
    · exact h.ids a ha
    · exact h.id session hsess
  case unique =>
    intro a ha b hb hsame hdata
    rcases hmem a ha with ha | ⟨rfl, -⟩
    · rcases hmem b hb with hb | ⟨rfl, -⟩
      · exact h.unique a ha b hb hsame hdata
      · exact absurd hdata (hold a ha hsame)
    · rcases hmem b hb with hb | ⟨rfl, -⟩
      · exact absurd hdata.symm (hold b hb hsame.symm)
      · rfl

theorem Known.begin (h : Known s) (hcoherent : session.Coherent) (taken : Nat)
    (hid : session.tuning.sessionId = s.nextSessionId + taken) (running : Bool) : Known
      { run := some { running, session := some session }
        nextSessionId := s.nextSessionId + taken + 1
        submitted := s.submitted ++ [(s.nextSessionId + taken, session.request)] } := by
  have hmem : ∀ a ∈ s.submitted ++ [(s.nextSessionId + taken, session.request)],
      a ∈ s.submitted ∧ a.1 < s.nextSessionId + taken ∨ a = (s.nextSessionId + taken, session.request) := by
    intro a ha
    rcases mem_append.mp ha with ha | ha
    · exact .inl ⟨ha, Nat.lt_of_lt_of_le (h.ids a ha) (Nat.le_add_right _ _)⟩
    · exact .inr (mem_singleton.mp ha)
  constructor
  case coherent =>
    rintro new ⟨⟩
    exact hcoherent
  case id =>
    rintro new ⟨⟩
    rw [hid]
    exact Nat.lt_succ_self _
  case current =>
    rintro new ⟨⟩
    rw [hid]
    exact mem_append_right _ (mem_singleton_self _)
  case fresh =>
    rintro new ⟨⟩ a ha hsame
    rw [hid] at hsame
    rcases hmem a ha with ⟨-, hlt⟩ | rfl
    · omega
    · show session.request.clientData < session.nextTuningRevision
      rw [hcoherent.request]
      exact hcoherent.next
  case ids =>
    intro a ha
    rcases hmem a ha with ⟨-, hlt⟩ | rfl
    · exact Nat.lt_succ_of_lt hlt
    · exact Nat.lt_succ_self _
  case unique =>
    intro a ha b hb hsame hdata
    rcases hmem a ha with ⟨ha, hlt⟩ | rfl
    · rcases hmem b hb with ⟨hb, -⟩ | rfl
      · exact h.unique a ha b hb hsame hdata
      · simp only at hsame
        omega
    · rcases hmem b hb with ⟨-, hlt⟩ | rfl
      · simp only at hsame
        omega
      · rfl

variable {s' : NativeArgusPreviewSource}

theorem Known.absent (h : Known s) (hnone : s'.session? = none) (hids : s.nextSessionId ≤ s'.nextSessionId)
    (hsubmitted : s'.submitted = s.submitted) : Known s' := by
  have hno : ∀ session, s'.session? ≠ some session := by
    intro session hsess
    cases hnone.symm.trans hsess
  constructor
  case coherent => exact fun session hsess => absurd hsess (hno session)
  case id => exact fun session hsess => absurd hsess (hno session)
  case current => exact fun session hsess => absurd hsess (hno session)
  case fresh => exact fun session hsess => absurd hsess (hno session)
  case ids =>
    rw [hsubmitted]
    exact fun a ha => Nat.lt_of_lt_of_le (h.ids a ha) hids
  case unique =>
    rw [hsubmitted]
    exact h.unique

theorem Known.setRunning (h : Known s) (running : Bool) :
    Known { s with run := s.run.map fun run => { run with running } } := by
  refine h.of_session ?_
  intro session hsess
  have hs : s.session? = some session := by
    simp only [session?]
    cases hrun : s.run with
    | none =>
      rw [hrun] at hsess
      cases hsess
    | some run =>
      rw [hrun] at hsess
      exact hsess
  exact ⟨session, hs, h.coherent session hs, rfl, rfl, rfl⟩

theorem Known.finishStart (h : Known s) (applied : Except String Nat) (failure : Option String) :
    Known (s.finishStart applied failure).1 := by
  unfold NativeArgusPreviewSource.finishStart
  split
  · exact h.stop false
  · exact h.stop false
  · exact h.setRunning true

theorem Known.start (h : Known s) (taken : Nat) (device : NativeCameraDescriptor)
    (capabilities : CameraTuningCapabilities) (sdkDefaults accepted : CameraTuning) (world : ArgusWorld)
    (profile : Option (TuningProfile × ArgusWorld)) (failure : Option String) :
    Known (s.start taken device capabilities sdkDefaults accepted world profile failure).1 := by
  unfold NativeArgusPreviewSource.start
  dsimp only
  split
  · -- no session, and an id that is not used
    exact h.absent rfl (Nat.le_add_right_of_le (Nat.le_add_right _ _)) rfl
  · rename_i session hsess
    obtain ⟨hcoherent, hid⟩ := initialized_coherent hsess
    have hbegun := h.begin hcoherent taken hid false
    rcases profile with _ | ⟨profile, world⟩
    · exact hbegun.finishStart _ failure
    · exact (hbegun.changeSession rfl false (.applyProfile profile) world).finishStart _ failure

theorem check_ok {session revision : Nat} {run : PreviewRun} {current : TuningSession}
    (h : s.check session revision = .ok (run, current)) :
    s.session? = some current ∧ current.tuning.sessionId = session ∧ current.tuning.revision = revision := by
  unfold check at h
  split at h
  · cases h
  · rename_i run' hrun
    split at h
    · cases h
    · split at h
      · rename_i current' state hsess hstate
        split at h
        · cases h
        · rename_i hcur
          cases h
          have htuning : current.tuning = state := by
            rw [hsess] at hstate
            unfold captureGetTuning at hstate
            dsimp only at hstate
            split at hstate
            · exact Option.some.inj hstate
            · cases hstate
          rw [htuning]
          simp only [ne_eq, not_or, Decidable.not_not, Bool.or_eq_true, decide_eq_true_eq] at hcur
          refine ⟨by simp [session?, hrun, hsess], ?_, ?_⟩ <;> simp_all
      · cases h

/-- A request is refused, or it was for the current session and revision. -/
theorem changeTuning_cases (h : Known s) (session revision : Nat) (change : TuningChange) (world : ArgusWorld) :
    ((s.changeTuning session revision change world).1 = s ∧
      (s.changeTuning session revision change world).2.ok = false) ∨
    ∃ running current, s.session? = some current ∧ current.tuning.sessionId = session ∧
      current.tuning.revision = revision ∧
      (s.changeTuning session revision change world).1 = (s.changeSession running current change world).1 ∧
      ((∃ error, (current.change world change).result = .error error) ∧
          (s.changeTuning session revision change world).2.ok = false ∨
        (∃ next, (current.change world change).result = .ok next) ∧
          (s.changeTuning session revision change world).2.ok = true) := by
  unfold changeTuning
  cases hcheck : s.check session revision with
  | error error => exact .inl ⟨rfl, rfl⟩
  | ok found =>
    obtain ⟨run, current⟩ := found
    obtain ⟨hcur, hid, hrevision⟩ := check_ok hcheck
    refine .inr ⟨run.running, current, hcur, hid, hrevision, ?_⟩
    dsimp only
    have hresult : (s.changeSession run.running current change world).2 = (current.change world change).result := rfl
    cases houtcome : (current.change world change).result with
    | error error =>
      rw [hresult, houtcome]
      exact ⟨rfl, .inl ⟨⟨error, rfl⟩, rfl⟩⟩
    | ok next =>
      rw [hresult, houtcome]
      refine ⟨rfl, .inr ⟨⟨next, rfl⟩, ?_⟩⟩
      -- the session that took the change is there to be read
      obtain ⟨-, -, hactive, hstopping, -⟩ := (change_sets (h.coherent current hcur) change world).ok next houtcome
      show (captureGetTuning (some (current.change world change).session)).ok = true
      simp [captureGetTuning, hactive, hstopping]

/-- A number stands for one setting. -/
theorem Known.step (h : Known s) (call : TuningCall) : Known (step s call).1 := by
  cases call with
  | start taken device capabilities sdkDefaults accepted world profile failure =>
    exact h.start taken device capabilities sdkDefaults accepted world profile failure
  | stop leasesOutstanding => exact h.stop leasesOutstanding
  | fail => exact h.setRunning false
  | getTuning => exact h
  | change session revision change world =>
    show Known (s.changeTuning session revision change world).1
    rcases changeTuning_cases h session revision change world with
      ⟨hsame, -⟩ | ⟨running, current, hcur, -, -, hchanged, -⟩
    · rw [hsame]
      exact h
    · rw [hchanged]
      exact h.changeSession hcur running change world

/-! ## What was current never is again -/

/-- A later state has the session with the same or a later revision, or a session with a new id, or none. -/
structure Follows (s s' : NativeArgusPreviewSource) : Prop where
  ids : s.nextSessionId ≤ s'.nextSessionId
  session : ∀ now, s'.session? = some now → s.nextSessionId ≤ now.tuning.sessionId ∨
    ∃ old, s.session? = some old ∧ now.tuning.sessionId = old.tuning.sessionId ∧
      old.tuning.revision ≤ now.tuning.revision

theorem Follows.refl (s : NativeArgusPreviewSource) : Follows s s :=
  ⟨Nat.le_refl _, fun now hnow => .inr ⟨now, hnow, rfl, Nat.le_refl _⟩⟩

theorem Follows.trans {s s'' : NativeArgusPreviewSource} (h : Follows s s') (h' : Follows s' s'') :
    Follows s s'' := by
  refine ⟨Nat.le_trans h.ids h'.ids, ?_⟩
  intro now hnow
  rcases h'.session now hnow with hnew | ⟨old, hold, hid, hle⟩
  · exact .inl (Nat.le_trans h.ids hnew)
  · rcases h.session old hold with hnew | ⟨older, holder, hid', hle'⟩
    · exact .inl (hid ▸ hnew)
    · exact .inr ⟨older, holder, hid.trans hid', Nat.le_trans hle' hle⟩

theorem Follows.of_tuning {s : NativeArgusPreviewSource} (hids : s'.nextSessionId = s.nextSessionId)
    (h : ∀ now, s'.session? = some now → ∃ old, s.session? = some old ∧ now.tuning = old.tuning) : Follows s s' := by
  refine ⟨Nat.le_of_eq hids.symm, ?_⟩
  intro now hnow
  obtain ⟨old, hold, htuning⟩ := h now hnow
  exact .inr ⟨old, hold, by rw [htuning], Nat.le_of_eq (by rw [htuning])⟩

theorem stop_follows (s : NativeArgusPreviewSource) (leasesOutstanding : Bool) :
    Follows s (s.stop leasesOutstanding) := by
  unfold NativeArgusPreviewSource.stop
  split
  · rename_i run hrun
    refine Follows.of_tuning rfl ?_
    intro now hnow
    simp only [session?, Option.bind_some, stopCapture] at hnow
    split at hnow
    · obtain ⟨old, hold, rfl⟩ := Option.map_eq_some_iff.mp hnow
      exact ⟨old, by simp [session?, hrun, hold], rfl⟩
    · cases hnow
  · exact Follows.refl s

theorem setRunning_follows (s : NativeArgusPreviewSource) (running : Bool) :
    Follows s { s with run := s.run.map fun run => { run with running } } := by
  refine Follows.of_tuning rfl ?_
  intro now hnow
  refine ⟨now, ?_, rfl⟩
  simp only [session?] at hnow ⊢
  cases hrun : s.run with
  | none =>
    rw [hrun] at hnow
    cases hnow
  | some run =>
    rw [hrun] at hnow
    exact hnow

theorem finishStart_follows (s : NativeArgusPreviewSource) (applied : Except String Nat) (failure : Option String) :
    Follows s (s.finishStart applied failure).1 := by
  unfold NativeArgusPreviewSource.finishStart
  split
  · exact stop_follows s false
  · exact stop_follows s false
  · exact setRunning_follows s true

theorem changeSession_session (hcoherent : session.Coherent) (running : Bool) (change : TuningChange)
    (world : ArgusWorld) :
    (s.changeSession running session change world).1.session? = some (session.change world change).session ∧
      (session.change world change).session.tuning.sessionId = session.tuning.sessionId ∧
      session.tuning.revision ≤ (session.change world change).session.tuning.revision := by
  have hsets := change_sets hcoherent change world
  refine ⟨rfl, ?_⟩
  cases hresult : (session.change world change).result with
  | error error =>
    rw [hsets.failed error hresult]
    exact ⟨rfl, Nat.le_refl _⟩
  | ok revision =>
    obtain ⟨-, -, -, -, hid, -, hlt⟩ := hsets.ok revision hresult
    exact ⟨hid, Nat.le_of_lt hlt⟩

theorem changeSession_follows (hcoherent : session.Coherent) (hsess : s.session? = some session) (running : Bool)
    (change : TuningChange) (world : ArgusWorld) : Follows s (s.changeSession running session change world).1 := by
  refine ⟨Nat.le_refl _, ?_⟩
  intro now hnow
  obtain ⟨hnext, hid, hle⟩ := changeSession_session (s := s) hcoherent running change world
  cases hnow.symm.trans hnext
  exact .inr ⟨session, hsess, hid, hle⟩

theorem start_follows (s : NativeArgusPreviewSource) (taken : Nat) (device : NativeCameraDescriptor)
    (capabilities : CameraTuningCapabilities) (sdkDefaults accepted : CameraTuning) (world : ArgusWorld)
    (profile : Option (TuningProfile × ArgusWorld)) (failure : Option String) :
    Follows s (s.start taken device capabilities sdkDefaults accepted world profile failure).1 := by
  unfold NativeArgusPreviewSource.start
  dsimp only
  split
  · refine ⟨Nat.le_add_right_of_le (Nat.le_add_right _ _), ?_⟩
    intro now hnow
    cases hnow
  · rename_i session hsess
    obtain ⟨hcoherent, hid⟩ := initialized_coherent hsess
    have hbegun : Follows s
        { run := some { session := some session }
          nextSessionId := s.nextSessionId + taken + 1
          submitted := s.submitted ++ [(s.nextSessionId + taken, session.request)] } := by
      refine ⟨Nat.le_add_right_of_le (Nat.le_add_right _ _), ?_⟩
      intro now hnow
      cases hnow
      rw [hid]
      exact .inl (Nat.le_add_right _ _)
    rcases profile with _ | ⟨profile, world⟩
    · exact hbegun.trans (finishStart_follows _ _ failure)
    · exact (hbegun.trans (changeSession_follows hcoherent rfl false (.applyProfile profile) world)).trans
        (finishStart_follows _ _ failure)

theorem step_follows (h : Known s) (call : TuningCall) : Follows s (step s call).1 := by
  cases call with
  | start taken device capabilities sdkDefaults accepted world profile failure =>
    exact start_follows s taken device capabilities sdkDefaults accepted world profile failure
  | stop leasesOutstanding => exact stop_follows s leasesOutstanding
  | fail => exact setRunning_follows s false
  | getTuning => exact Follows.refl s
  | change session revision change world =>
    show Follows s (s.changeTuning session revision change world).1
    rcases changeTuning_cases h session revision change world with
      ⟨hsame, -⟩ | ⟨running, current, hcur, -, -, hchanged, -⟩
    · rw [hsame]
      exact Follows.refl s
    · rw [hchanged]
      exact changeSession_follows (h.coherent current hcur) hcur running change world

theorem run_known (h : Known s) (calls : List TuningCall) : Known (StepRun.run step s calls) :=
  run_invariant (fun _ call h => h.step call) h calls

theorem run_follows (h : Known s) (calls : List TuningCall) : Follows s (StepRun.run step s calls) := by
  induction calls generalizing s with
  | nil => exact Follows.refl s
  | cons call calls ih => exact (step_follows h call).trans (ih (h.step call))

theorem start_known : Known {} := by
  constructor <;> simp [session?]

theorem after_known (calls : List TuningCall) : Known (after calls) := run_known start_known calls

theorem after_append (before rest : List TuningCall) : after (before ++ rest) = StepRun.run step (after before) rest :=
  StepRun.run_append ({} : NativeArgusPreviewSource) before rest

/-! ## The law holds -/

theorem changeTuning_ok (h : Known s) {session revision : Nat} {change : TuningChange} {world : ArgusWorld}
    (hok : (s.changeTuning session revision change world).2.ok = true) :
    ∃ current now, s.session? = some current ∧ current.tuning.sessionId = session ∧
      current.tuning.revision = revision ∧
      (s.changeTuning session revision change world).1.session? = some now ∧ now.tuning.sessionId = session ∧
      revision < now.tuning.revision ∧ now.tuning.requested = change.settings current := by
  rcases changeTuning_cases h session revision change world with
    ⟨-, hfailed⟩ | ⟨running, current, hcur, hid, hrevision, hchanged, ⟨-, hfailed⟩ | ⟨⟨next, hnext⟩, -⟩⟩
  · cases hok.symm.trans hfailed
  · cases hok.symm.trans hfailed
  · obtain ⟨-, -, -, -, hsame, hrequested, hlt⟩ := (change_sets (h.coherent current hcur) change world).ok next hnext
    refine ⟨current, (current.change world change).session, hcur, hid, hrevision, ?_, hsame.trans hid,
      hrevision ▸ hlt, hrequested⟩
    rw [hchanged]
    rfl

/-- **The tuning is changed by compare-and-set**, whatever the clients ask for and the SDK answers. -/
theorem compare_and_set (calls : List TuningCall) : CompareAndSet calls := by
  constructor
  case applied =>
    intro before session revision change world rest _ hok
    exact changeTuning_ok (after_known before) hok
  case once =>
    intro before session revision change world middle change' world' rest _ hok
    obtain ⟨current, now, -, -, -, hnow, hid, hlt, -⟩ := changeTuning_ok (after_known before) hok
    rw [Bool.eq_false_iff]
    intro hok'
    obtain ⟨current', -, hcur', hid', hrevision', -⟩ := changeTuning_ok (after_known _) hok'
    -- the session of the first request has gone on, or there is a new one
    have hknown := (after_known before).step (.change session revision change world)
    have hfollows := run_follows hknown middle
    rw [after_append] at hcur'
    rcases hfollows.session current' hcur' with hnew | ⟨old, hold, -, hle⟩
    · have hused := hknown.id now hnow
      omega
    · cases hold.symm.trans hnow
      omega
  case failed =>
    intro before session revision change world rest _ hfailed
    have hfailed : ((after before).changeTuning session revision change world).2.ok = false := hfailed
    show ((after before).changeTuning session revision change world).1.session?.map _ = _
    rcases changeTuning_cases (after_known before) session revision change world with
      ⟨hsame, -⟩ | ⟨running, current, hcur, -, -, hchanged, ⟨⟨error, herror⟩, -⟩ | ⟨-, hok⟩⟩
    · rw [hsame]
    · have hsets := change_sets ((after_known before).coherent current hcur) change world
      rw [hchanged, hcur]
      show some (current.change world change).session.tuning = some current.tuning
      rw [hsets.failed error herror]
    · cases hfailed.symm.trans hok
  case increasing =>
    intro before rest current now hsplit hcur hnow hid
    rw [hsplit, after_append] at hnow
    have hknown := after_known before
    rcases (run_follows hknown rest).session now hnow with hnew | ⟨old, hold, -, hle⟩
    · have hused := hknown.id current hcur
      omega
    · cases hold.symm.trans hcur
      exact hle
  case submitted =>
    intro a ha b hb hsame hdata
    rw [(after_known calls).unique a ha b hb hsame hdata]
  case repeated =>
    intro current hcur hfault
    have hcoherent := (after_known calls).coherent current hcur
    rw [hcoherent.device hfault, hcoherent.request]

end NativeArgusPreviewSource

end Cockpit.Camera
