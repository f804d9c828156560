/-
  What is in the files of a session, while it records and when it is stopped. The artifact that a copy is
  written to is none of those that are kept, because it is created with `O_EXCL`; and a stream that has failed
  lets `Stop` return false.
-/
import Cockpit.Lib.LexicalPath
import Cockpit.Recording.SessionBudget

namespace Cockpit.Recording

open ByteText Durable Durable.Program List Option Function

/-! ## Records and copies -/

/-- The lines that records leave in one of the files. -/
def linesOf (f : RecordFile) (taken : List Record) : List Bytes :=
  (taken.filter fun record => decide (record.file = f)).map Record.toJson

theorem linesOf_snoc (f : RecordFile) (taken : List Record) (record : Record) :
    linesOf f (taken ++ [record]) =
      if record.file = f then linesOf f taken ++ [record.toJson] else linesOf f taken := by
  unfold linesOf
  rw [filter_append, map_append]
  by_cases hf : record.file = f <;> simp [hf]

/-- The checksum as it is written. -/
def digest (content : Bytes) : Bytes := ascii "fnv1a64:" ++ hexDigits 16 (fnv1a64 content).toNat

/-- What is recorded of a data file, with the artifacts that there are: the file that was given; or, where it is to be
    copied, its copy, with the size and the checksum of the content, or the checksum that came with the file. -/
def RecordingDataFile.RecordedAs (file : RecordingDataFile) (artifacts : Bytes → Option Bytes)
    (recorded : RecordingDataFile) : Prop :=
  if file.copyIntoSession then
    ∃ n content, artifacts (artifactName n (filename file.path)) = some content ∧
      recorded.sizeBytes.toNat = content.length ∧
      recorded = { file with
        path := ascii "artifacts/" ++ artifactName n (filename file.path), sizeBytes := recorded.sizeBytes
        checksum := if file.checksum.isEmpty then digest content else file.checksum }
  else recorded = file

/-- The artifacts that are kept are there. -/
def Holds (kept artifacts : Bytes → Option Bytes) : Prop :=
  ∀ name content, kept name = some content → artifacts name = some content

variable {file : RecordingDataFile}

theorem RecordingDataFile.RecordedAs.mono {recorded : RecordingDataFile} {kept artifacts : Bytes → Option Bytes}
    (h : file.RecordedAs kept recorded) (hholds : Holds kept artifacts) : file.RecordedAs artifacts recorded := by
  unfold RecordedAs at h ⊢
  split
  case isTrue hcopy =>
    rw [if_pos hcopy] at h
    obtain ⟨n, content, hcontent, hrest⟩ := h
    exact ⟨n, content, hholds _ _ hcontent, hrest⟩
  case isFalse hcopy =>
    rw [if_neg hcopy] at h
    exact h

variable {kept : Bytes → Option Bytes} {id : SessionId} {taken : List Record} {w s : World}
  {answers : Operation → Answer}

/-! ## The invariant -/

/-- What is in the streams and in the directory after the records `taken`, with the artifacts that are kept. -/
structure Written (kept : Bytes → Option Bytes) (id : SessionId) (taken : List Record) (w : World) : Prop where
  sessionId : w.status.sessionId = some id
  lines : ∀ f, (w.output f).lines = linesOf f taken
  drained : ∀ f, (w.output f).drained ≤ (w.output f).lines.length
  directory : ∃ d, w.disk (.recording id) = some d ∧
    (∀ f, (w.output f).failed = false → d.records f = some ((w.output f).lines.take (w.output f).drained)) ∧
    Holds kept d.artifacts

/-- The session has been started and not been stopped. -/
structure Active (kept : Bytes → Option Bytes) (id : SessionId) (taken : List Record) (w : World) : Prop
    extends Written kept id taken w where
  state : w.status.state ≠ .idle
  isOpen : w.status.state = .recording → ∀ f, (w.output f).isOpen = true

/-! ## Frame -/

theorem inTemporary_eq (h : w.status.sessionId = some id) (f : Directory → Directory) :
    w.inTemporary f = { w with disk := w.disk.alter (.recording id) f } := by
  unfold World.inTemporary
  rw [h]

theorem alter_self {disk : Disk} {name : DirectoryName} {d : Directory} (h : disk name = some d)
    (f : Directory → Directory) : disk.alter name f name = some (f d) := by
  unfold Disk.alter
  rw [update_self, h]
  rfl

/-- Nothing has changed but counts, errors, and that a stream may have failed. -/
structure SameFiles (w s : World) : Prop where
  disk : s.disk = w.disk
  sessionId : s.status.sessionId = w.status.sessionId
  state : s.status.state = w.status.state ∨ s.status.state = .faulted
  lines : ∀ f, (s.output f).lines = (w.output f).lines
  drained : ∀ f, (s.output f).drained = (w.output f).drained
  isOpen : ∀ f, (s.output f).isOpen = (w.output f).isOpen
  failed : ∀ f, (s.output f).failed = false → (w.output f).failed = false

theorem Written.same (h : Written kept id taken w) (hsame : SameFiles w s) : Written kept id taken s where
  sessionId := hsame.sessionId.trans h.sessionId
  lines f := (hsame.lines f).trans (h.lines f)
  drained f := by
    rw [hsame.drained, hsame.lines]
    exact h.drained f
  directory := by
    obtain ⟨d, hd, hrecords, hcopies⟩ := h.directory
    refine ⟨d, by rw [hsame.disk]; exact hd, fun f hf => ?_, hcopies⟩
    rw [hsame.drained, hsame.lines]
    exact hrecords f (hsame.failed f hf)

theorem Active.same (h : Active kept id taken w) (hsame : SameFiles w s) : Active kept id taken s := by
  refine ⟨h.toWritten.same hsame, ?_, fun hrecording f => ?_⟩
  · rcases hsame.state with hstate | hstate <;> rw [hstate]
    · exact h.state
    · exact nofun
  · rcases hsame.state with hstate | hstate
    · rw [hsame.isOpen]
      exact h.isOpen (hstate.symm.trans hrecording) f
    · rw [hstate] at hrecording
      cases hrecording

theorem output_setOutput (w : World) (f g : RecordFile) (output : Output) :
    (w.setOutput f output).output g = if g = f then output else w.output g := by
  show update w.session.outputs f output g = _
  by_cases hg : g = f
  · rw [if_pos hg, hg, update_self]
  · rw [if_neg hg, update_of_ne hg]
    rfl

theorem sameFiles_setError (error : String) (w : World) : SameFiles w (w.setError error) :=
  ⟨rfl, rfl, .inr rfl, fun _ => rfl, fun _ => rfl, fun _ => rfl, fun _ h => h⟩

theorem sameFiles_failOutput (f : RecordFile) (w : World) : SameFiles w (w.failOutput f) := by
  have houtput (g : RecordFile) : (w.failOutput f).output g =
      if g = f then { w.output f with failed := true } else w.output g := output_setOutput w f g _
  refine ⟨rfl, rfl, .inl rfl, fun g => ?_, fun g => ?_, fun g => ?_, fun g hg => ?_⟩
  · rw [houtput]
    split
    case isTrue h => rw [h]
    case isFalse => rfl
  · rw [houtput]
    split
    case isTrue h => rw [h]
    case isFalse => rfl
  · rw [houtput]
    split
    case isTrue h => rw [h]
    case isFalse => rfl
  · rw [houtput] at hg
    split at hg
    case isTrue => cases hg
    case isFalse => exact hg

/-- Steps that only count or note errors. -/
theorem SameFiles.trans {t : World} (h : SameFiles w s) (h' : SameFiles s t) : SameFiles w t where
  disk := h'.disk.trans h.disk
  sessionId := h'.sessionId.trans h.sessionId
  state := by
    rcases h'.state with hstate | hstate
    · rw [hstate]
      exact h.state
    · exact .inr hstate
  lines f := (h'.lines f).trans (h.lines f)
  drained f := (h'.drained f).trans (h.drained f)
  isOpen f := (h'.isOpen f).trans (h.isOpen f)
  failed f hf := h.failed f (h'.failed f hf)

theorem sameFiles_session {session : RecordingSession} (houtputs : session.outputs = w.session.outputs)
    (hid : session.status.sessionId = w.status.sessionId) (hstate : session.status.state = w.status.state) :
    SameFiles w { w with session := session } := by
  have houtput (f : RecordFile) : ({ w with session := session } : World).output f = w.output f :=
    congrFun houtputs f
  refine ⟨rfl, hid, .inl hstate, fun f => ?_, fun f => ?_, fun f => ?_, fun f h => ?_⟩
  · rw [houtput]
  · rw [houtput]
  · rw [houtput]
  · rw [← houtput]
    exact h

theorem Written.drain (h : Written kept id taken w) (f : RecordFile) (n : Nat) :
    Written kept id taken (w.drain f n) := by
  obtain ⟨d, hd, hrecords, hcopies⟩ := h.directory
  have hle := h.drained f
  generalize hupTo : min (max (w.output f).drained n) (w.output f).lines.length = upTo
  have hfrom : (w.output f).drained ≤ upTo := by omega
  have hto : upTo ≤ (w.output f).lines.length := by omega
  generalize hchange : (fun d : Directory => { d with
    records := update d.records f ((d.records f).map
      (· ++ ((w.output f).lines.take upTo).drop (w.output f).drained)) }) = change
  have hdrain : w.drain f n = ({ w with disk := w.disk.alter (.recording id) change } : World).setOutput f
      { w.output f with drained := upTo } := by
    unfold World.drain
    dsimp only
    rw [inTemporary_eq h.sessionId, hupTo, hchange]
  have houtput (g : RecordFile) : (w.drain f n).output g =
      if g = f then { w.output f with drained := upTo } else w.output g := by
    rw [hdrain, output_setOutput]
    rfl
  have hlines (g : RecordFile) : ((w.drain f n).output g).lines = (w.output g).lines := by
    rw [houtput]
    split
    case isTrue hg => rw [hg]
    case isFalse => rfl
  refine ⟨by rw [hdrain]; exact h.sessionId, ?_, ?_, ?_⟩
  · exact fun g => (hlines g).trans (h.lines g)
  · intro g
    rw [hlines, houtput]
    split
    case isTrue hg =>
      rw [hg]
      exact hto
    case isFalse => exact h.drained g
  · have hd' : (w.drain f n).disk (.recording id) = some (change d) := by
      rw [hdrain]
      exact alter_self hd change
    refine ⟨change d, hd', fun g => ?_, by rw [← hchange]; exact hcopies⟩
    rw [hlines, houtput, ← hchange]
    dsimp only
    by_cases hg : g = f
    · subst hg
      rw [if_pos rfl]
      intro hfailed
      have hjoin : (w.output g).lines.take (w.output g).drained ++
          ((w.output g).lines.take upTo).drop (w.output g).drained = (w.output g).lines.take upTo := by
        have htake : (w.output g).lines.take (w.output g).drained =
            ((w.output g).lines.take upTo).take (w.output g).drained := by
          rw [take_take, Nat.min_eq_left hfrom]
        rw [htake, take_append_drop]
      rw [update_self, hrecords g hfailed, map_some, hjoin]
    · rw [if_neg hg, update_of_ne hg]
      exact hrecords g

variable {kept' : Bytes → Option Bytes}

theorem Active.of_written (h : Active kept id taken w) {taken' : List Record}
    (hs : Written kept' id taken' s) (hstate : s.status.state = w.status.state)
    (hopen : ∀ f, (s.output f).isOpen = (w.output f).isOpen) : Active kept' id taken' s := by
  refine ⟨hs, ?_, fun hrecording f => ?_⟩
  · rw [hstate]
    exact h.state
  · rw [hopen]
    exact h.isOpen (hstate.symm.trans hrecording) f

theorem state_inTemporary (w : World) (f : Directory → Directory) :
    (w.inTemporary f).status.state = w.status.state := by
  unfold World.status
  rw [session_inTemporary]

theorem drain_frame (w : World) (f : RecordFile) (n : Nat) :
    (w.drain f n).status.state = w.status.state ∧ ∀ g, ((w.drain f n).output g).isOpen = (w.output g).isOpen := by
  unfold World.drain
  refine ⟨state_inTemporary w _, fun g => ?_⟩
  rw [output_setOutput]
  split
  case isTrue hg => rw [hg]
  case isFalse =>
    unfold World.output
    rw [session_inTemporary]

theorem Active.drain (h : Active kept id taken w) (f : RecordFile) (n : Nat) : Active kept id taken (w.drain f n) :=
  h.of_written (h.toWritten.drain f n) (drain_frame w f n).1 (drain_frame w f n).2

theorem directory_eq {d : Directory} (hid : w.status.sessionId = some id) (hd : w.disk (.recording id) = some d) :
    w.records = d.records ∧ w.artifacts = d.artifacts := by
  have htemporary : w.temporary = some d := by
    unfold World.temporary
    rw [hid]
    exact hd
  have hdir := directory_of_temporary htemporary
  constructor
  · funext f
    unfold World.records
    rw [hdir]
    rfl
  · funext name
    unfold World.artifacts
    rw [hdir]
    rfl

theorem Active.here (h : Active kept id taken w) : w.temporary.isSome = true := by
  obtain ⟨d, hd, -⟩ := h.directory
  unfold World.temporary
  rw [h.sessionId, bind_some, hd]
  rfl

/-- **What is done to an artifact that was not there** is nothing to the lines and to those that are kept. -/
theorem Active.elsewhere (h : Active kept id taken w) {name : Bytes} (hs : Elsewhere w name s)
    (hnone : w.artifacts name = none) : Active kept id taken s := by
  obtain ⟨d, hd, hrecords, hcopies⟩ := h.directory
  have hstatus : s.status = w.status := by
    unfold World.status
    rw [hs.session]
  have houtput (f : RecordFile) : s.output f = w.output f := by
    unfold World.output
    rw [hs.session]
  have hid : s.status.sessionId = some id := by
    rw [hstatus]
    exact h.sessionId
  obtain ⟨d', hd'⟩ : ∃ d', s.disk (.recording id) = some d' := by
    have hhere := hs.here
    unfold World.temporary at hhere
    rw [hid, bind_some] at hhere
    exact isSome_iff_exists.mp hhere
  obtain ⟨hrecordsOf, hartifactsOf⟩ := directory_eq h.sessionId hd
  obtain ⟨hrecordsOf', hartifactsOf'⟩ := directory_eq hid hd'
  have hwritten : Written kept id taken s := by
    refine ⟨hid, ?_, ?_, d', hd', ?_, ?_⟩
    · exact fun f => by rw [houtput]; exact h.lines f
    · exact fun f => by rw [houtput]; exact h.drained f
    · intro f
      rw [houtput, ← hrecordsOf', hs.records, hrecordsOf]
      exact hrecords f
    · intro other content hkept
      have hcontent := hcopies other content hkept
      rw [← hartifactsOf', hs.others other, hartifactsOf]
      · exact hcontent
      · -- The name was not there, and that of an artifact that is kept is.
        rintro rfl
        rw [hartifactsOf, hcontent] at hnone
        cases hnone
  exact h.of_written hwritten (by rw [hstatus]) fun f => by rw [houtput]

/-- All artifacts that are there may be kept. -/
theorem Active.keep (h : Active kept id taken w) : Active w.artifacts id taken w ∧ Holds kept w.artifacts := by
  obtain ⟨d, hd, hrecords, hholds⟩ := h.directory
  rw [(directory_eq h.sessionId hd).2]
  exact ⟨⟨⟨h.sessionId, h.lines, h.drained, d, hd, hrecords, fun _ _ hcontent => hcontent⟩, h.state, h.isOpen⟩, hholds⟩

theorem Active.forget (h : Active kept' id taken w) (hholds : Holds kept kept') : Active kept id taken w := by
  obtain ⟨d, hd, hrecords, hkept⟩ := h.directory
  exact ⟨⟨h.sessionId, h.lines, h.drained, d, hd, hrecords, fun name content hcontent =>
    hkept name content (hholds name content hcontent)⟩, h.state, h.isOpen⟩

/-! ## Lines -/

variable {f : RecordFile}

/-- A line that a stream has taken. -/
theorem Active.line (h : Active kept id taken w) {record : Record} (hf : record.file = f) (drained : Nat) :
    Active kept id (taken ++ [record]) (w.putLine f record.toJson drained) := by
  have houtput (g : RecordFile) : (w.setOutput f { w.output f with
      lines := (w.output f).lines ++ [record.toJson] }).output g =
        if g = f then { w.output f with lines := (w.output f).lines ++ [record.toJson] } else w.output g :=
    output_setOutput w f g _
  obtain ⟨d, hd, hrecords, hcopies⟩ := h.directory
  have hwritten : Written kept id (taken ++ [record]) (w.setOutput f { w.output f with
      lines := (w.output f).lines ++ [record.toJson] }) := by
    refine ⟨h.sessionId, fun g => ?_, fun g => ?_, d, hd, fun g => ?_, hcopies⟩
    · rw [houtput, linesOf_snoc, hf]
      by_cases hg : g = f
      · rw [if_pos hg, if_pos hg.symm, hg, h.lines]
      · rw [if_neg hg, if_neg (Ne.symm hg), h.lines]
    · rw [houtput]
      by_cases hg : g = f
      · rw [if_pos hg, length_append]
        exact Nat.le_add_right_of_le (h.drained f)
      · rw [if_neg hg]
        exact h.drained g
    · rw [houtput]
      by_cases hg : g = f
      · subst hg
        rw [if_pos rfl]
        intro hfailed
        rw [hrecords g hfailed, take_append_of_le_length (h.drained g)]
      · rw [if_neg hg]
        exact hrecords g
  refine Active.drain ?_ f drained
  refine h.of_written hwritten rfl fun g => ?_
  rw [houtput]
  split
  case isTrue hg => rw [hg]
  case isFalse => rfl

/-! ## Capacity -/

section Capacity

-- What a step keeps that counts or faults, the checks keep.
variable {I : World → Prop}

section

variable (hI : ∀ w s, I w → SameFiles w s → I s)
include hI

theorem fault_files {α : Type} {post : α → World → Prop} (error : String) :
    Triple answers I (fault error : Call α) post I := by
  refine .of_state fun t ht => (fault_triple error).mono (fun s hs => hs) (fun _ s hs => hs) ?_
  rintro s ⟨error', rfl⟩
  exact hI t _ ht (sameFiles_setError error' t)

theorem refuseIf_files (reached : Bool) (error : String) :
    Triple answers I (refuseIf reached error) (fun _ => I) I := by
  unfold refuseIf
  exact .ite (fun _ => fault_files hI error) fun _ => .pure fun s hs => hs

theorem subtract_files (a b : UInt64) : Triple answers I (subtract a b) (fun _ => I) I := by
  unfold subtract
  refine .bind (M := fun _ => I) (.modify fun s hs => ?_) fun _ => .pure fun s hs => hs
  exact hI s _ hs (sameFiles_session rfl rfl rfl)

theorem sessionLimitReached_files (n : Nat) : Triple answers I (sessionLimitReached n) (fun _ => I) I := by
  unfold sessionLimitReached
  refine .bind (M := fun _ => I) (.get fun s hs => hs) fun a => ?_
  dsimp only
  refine .ite (fun _ => .pure fun s hs => hs) fun _ => ?_
  refine .ite (fun _ => .pure fun s hs => hs) fun _ => ?_
  exact .bind (subtract_files hI _ _) fun _ => .pure fun s hs => hs

theorem totalLimitReached_files (n : Nat) : Triple answers I (totalLimitReached n) (fun _ => I) I := by
  unfold totalLimitReached
  refine .bind (M := fun _ => I) (.get fun s hs => hs) fun a => ?_
  dsimp only
  refine .ite (fun _ => .pure fun s hs => hs) fun _ => ?_
  refine .ite (fun _ => .pure fun s hs => hs) fun _ => ?_
  refine .bind (subtract_files hI _ _) fun _ => ?_
  refine .ite (fun _ => .pure fun s hs => hs) fun _ => ?_
  refine .bind (subtract_files hI _ _) fun _ => ?_
  exact .bind (subtract_files hI _ _) fun _ => .pure fun s hs => hs

theorem reserveReached_files (n : Nat) (available : UInt64) :
    Triple answers I (reserveReached n available) (fun _ => I) I := by
  unfold reserveReached
  refine .bind (M := fun _ => I) (.get fun s hs => hs) fun a => ?_
  refine .ite (fun _ => .pure fun s hs => hs) fun _ => ?_
  exact .bind (subtract_files hI _ _) fun _ => .pure fun s hs => hs

/-- The limits have no part in the files. -/
theorem ensureCapacity_files (n : Nat) (capacity : Capacity) :
    Triple answers I (ensureCapacity n capacity) (fun _ => I) I := by
  unfold ensureCapacity
  refine .bind (M := fun _ => I) (.get fun s hs => hs) fun a => ?_
  refine .bind (refuseIf_files hI _ _) fun _ => ?_
  refine .bind (sessionLimitReached_files hI n) fun _ => ?_
  refine .bind (refuseIf_files hI _ _) fun _ => ?_
  refine .bind (totalLimitReached_files hI n) fun _ => ?_
  refine .bind (refuseIf_files hI _ _) fun _ => ?_
  cases capacity.filesystem with
  | none => exact fault_files hI _
  | some filesystem =>
    refine .bind (reserveReached_files hI n _) fun _ => ?_
    exact refuseIf_files hI _ _

end

end Capacity

/-! ## Appends -/

theorem active_same (w s : World) (h : Active kept id taken w) (hsame : SameFiles w s) : Active kept id taken s :=
  h.same hsame

theorem flushLines_files (hlive : ∀ op, answers op ≠ .crashed) (f : RecordFile) {stop : World → Prop} :
    Triple answers (Active kept id taken) (flushLines f) (fun _ => Active kept id taken) stop := by
  unfold flushLines
  refine .bind (M := fun _ => Active kept id taken) (.get fun s hs => hs) fun a => ?_
  refine .ite (fun _ => ?_) fun _ => .pure fun s hs => hs
  refine .bind (M := fun _ => Active kept id taken) ?_ fun _ => .modify fun s hs => ?_
  · have hflush : Triple answers (Active kept id taken)
        (act .flushLine (World.flush f) ("flush " ++ f.filename ++ " failed") : Call Unit)
        (fun _ => Active kept id taken) (Active kept id taken) :=
      .act (fun _ s hs => hs.drain f _) fun _ s hs => hs
    have hnoted := Triple.onFail_live hlive hflush fun _ s hs => hs.same (sameFiles_failOutput f s)
    exact .attempt_live hlive hnoted fun _ s hs => hs
  · exact hs.same (sameFiles_session rfl rfl rfl)

/-- **The line of a record**: an append adds it when it returns true, and only then. -/
theorem appendLine_files (hlive : ∀ op, answers op ≠ .crashed) {record : Record} (hf : record.file = f)
    (timestampMs : Int64) (environment : LineEnvironment) :
    Triple answers (Active kept id taken) (appendLine f record.toJson timestampMs environment)
      (fun _ => Active kept id (taken ++ [record])) (Active kept id taken) := by
  unfold appendLine
  refine .bind (ensureCapacity_files active_same _ _) fun _ => ?_
  refine .bind (M := fun _ => Active kept id (taken ++ [record])) (.of_state fun s hs => ?_)
    fun _ => ?_
  · refine (writeLine_triple f record.toJson environment.drained).mono (fun t ht => ht) ?_ ?_
    · rintro _ t rfl
      exact hs.line hf environment.drained
    · rintro t (rfl | ⟨error, rfl⟩)
      · exact hs
      · exact hs.same ((sameFiles_failOutput f s).trans (sameFiles_setError error _))
  refine .bind (M := fun _ => Active kept id (taken ++ [record])) (.modify fun s hs => ?_)
    fun _ => flushLines_files hlive f
  exact hs.same (sameFiles_session rfl rfl rfl)

theorem requireActive_files (f : RecordFile) : Triple answers (Active kept id taken) (requireActive f)
      (fun _ s => Active kept id taken s) (Active kept id taken) := by
  refine .of_state fun t ht => (requireActive_triple f).mono (fun s hs => hs) ?_ ?_
  · rintro _ s ⟨-, rfl⟩
    exact ht
  · rintro s rfl
    exact ht

/-- A line that was appended is in the stream. -/
theorem append_files (hlive : ∀ op, answers op ≠ .crashed) (state : VehicleState) (environment : LineEnvironment) :
    Triple answers (Active kept id taken) (append state environment)
      (fun record s => record = .vehicleState state ∧ Active kept id (taken ++ [record]) s)
      (Active kept id taken) := by
  unfold append
  refine .bind (requireActive_files .vehicleState) fun _ => ?_
  have hline : Triple answers (Active kept id taken)
      (appendLine .vehicleState (Record.vehicleState state).toJson state.timestampMs environment)
      (fun _ => Active kept id (taken ++ [.vehicleState state])) (Active kept id taken) :=
    appendLine_files hlive rfl _ _
  exact .bind hline fun _ => .pure fun s hs => ⟨rfl, hs⟩

theorem appendEvent_files (hlive : ∀ op, answers op ≠ .crashed) (event : RecordingEvent)
    (environment : LineEnvironment) : Triple answers (Active kept id taken) (appendEvent event environment)
      (fun record s => (record = .event event ∧ event.isValid = true) ∧
        Active kept id (taken ++ [record]) s) (Active kept id taken) := by
  unfold appendEvent
  refine .bind (requireActive_files .events) fun _ => ?_
  refine .bind (.require fun _ s hs => hs) fun _ => .of_pure fun hvalid => ?_
  have hline : Triple answers (Active kept id taken)
      (appendLine .events (Record.event event).toJson event.timestampMs environment)
      (fun _ => Active kept id (taken ++ [.event event])) (Active kept id taken) :=
    appendLine_files hlive rfl _ _
  exact .bind hline fun _ => .pure fun s hs => ⟨⟨rfl, hvalid⟩, hs⟩

/-! ## Copies -/

theorem filename_no_slash (path : Bytes) : LexicalPath.slash ∉ filename path := by
  intro hmem
  unfold filename at hmem
  rw [mem_reverse] at hmem
  have hslash := all_eq_true.mp all_takeWhile _ hmem
  rw [decide_eq_true_eq] at hslash
  exact hslash rfl

theorem isName_artifactName (n : Nat) (path : Bytes) : LexicalPath.IsName (artifactName n (filename path)) := by
  unfold artifactName
  obtain ⟨b, digits, heq, -⟩ := natNumeral_eq_cons (n + 1)
  have hdigits := isDigit_of_mem_natNumeral (n := n + 1)
  have hb : isDigit b = true := hdigits b (by rw [heq]; exact mem_cons_self)
  have hdot : b ≠ 0x2E := by
    rintro rfl
    cases hb
  refine ⟨?_, ?_, ?_, fun hmem => ?_⟩
  · rw [heq]
    exact nofun
  · rw [heq]
    exact fun hname => hdot (List.cons.inj hname).1
  · rw [heq]
    exact fun hname => hdot (List.cons.inj hname).1
  · rcases mem_append.mp hmem with hmem | hmem
    · have hslash := hdigits _ hmem
      cases hslash
    · rcases mem_cons.mp hmem with hmem | hmem
      · cases hmem
      · exact filename_no_slash path hmem

/-- The checksum is that of the artifact. -/
theorem computeFnv1a64_files {P : World → Prop} (name : Bytes) : Triple answers P (computeFnv1a64 name)
      (fun checksum s => checksum = digest ((s.artifact name).getD []) ∧ P s) P := by
  unfold computeFnv1a64
  refine .bind (.check fun _ s hs => hs) fun _ => ?_
  refine .bind (M := fun a s => a = s ∧ P s) (.get fun s hs => ⟨rfl, hs⟩) fun a => .pure ?_
  rintro s ⟨rfl, hs⟩
  exact ⟨rfl, hs⟩

section

variable (hlive : ∀ op, answers op ≠ .crashed)
include hlive

/-- **The checksum of a copy** is that of its content, unless one was given. -/
theorem checksumCopy_files {name : Bytes} {n : Nat} (size : UInt64)
    (file : RecordingDataFile) : Triple answers (Copying w name n) (checksumCopy name size file)
      (fun recorded s => Copying w name n s ∧ ∃ content, s.artifacts name = some content ∧
        recorded = { file with checksum := if file.checksum.isEmpty then digest content else file.checksum })
      (fun s => ∃ t, Elsewhere w name t ∧ SameFiles t s) := by
  unfold checksumCopy
  refine .ite (fun hempty => ?_) fun hgiven => .pure fun s hs => ?_
  · refine .bind (M := fun digested s => Copying w name n s ∧ ∀ checksum, digested = .ok checksum →
      checksum = digest ((s.artifact name).getD [])) (.attempt_live hlive
        ((computeFnv1a64_files name).mono (fun s hs => hs) ?_ fun s hs => hs) ?_) fun digested => ?_
    · rintro _ s ⟨rfl, hs⟩
      exact ⟨hs, fun checksum hchecksum => (Except.ok.inj hchecksum).symm⟩
    · exact fun error s hs => ⟨hs, nofun⟩
    cases digested with
    | ok checksum =>
      refine .pure fun s hs => ⟨hs.1, ?_⟩
      obtain ⟨content, hcontent, hlen⟩ := hs.1.content
      have hchecksum := hs.2 checksum rfl
      rw [artifact_eq hs.1.here, hcontent, getD_some] at hchecksum
      exact ⟨content, hcontent, by rw [if_pos hempty, hchecksum]⟩
    | error error =>
      have hremove : Triple answers (Elsewhere w name) (removeArtifact name) (fun _ => Elsewhere w name)
          (fun s => ∃ t, Elsewhere w name t ∧ SameFiles t s) := removeArtifact_triple hlive
      refine .bind (hremove.mono (fun s hs => hs.1.toElsewhere) (fun _ s hs => hs) fun s hs => hs) fun _ => ?_
      refine .bind (M := fun _ => Elsewhere w name) (.get fun s hs => hs) fun a => ?_
      have hback : ∀ s t : World, (∃ u, Elsewhere w name u ∧ SameFiles u s) → SameFiles s t →
          ∃ u, Elsewhere w name u ∧ SameFiles u t := by
        rintro s t ⟨u, hu, hsame⟩ hsame'
        exact ⟨u, hu, hsame.trans hsame'⟩
      refine .bind ((subtract_files hback _ _).mono ?_ (fun _ s hs => hs) fun s hs => hs) fun left => ?_
      · exact fun s hs => ⟨s, hs, sameFiles_session rfl rfl rfl⟩
      refine .bind (M := fun _ s => ∃ t, Elsewhere w name t ∧ SameFiles t s) (.modify fun s hs => ?_)
        fun _ => .fail fun s hs => hs
      exact hback s _ hs (sameFiles_session rfl rfl rfl)
  · obtain ⟨content, hcontent, -⟩ := hs.content
    exact ⟨hs, content, hcontent, by rw [if_neg hgiven]⟩

/-- **A copy that succeeds is there** under its name, with the size of the source and its checksum; one that fails
    leaves the other copies alone. -/
theorem copyDataFile_files (hcopied : file.copyIntoSession = true) (environment : CopyEnvironment) :
    Triple answers (Active kept id taken) (copyDataFile file environment)
      (fun recorded s => file.RecordedAs s.artifacts recorded ∧ Active kept id taken s) (Active kept id taken) := by
  unfold copyDataFile
  refine .bind (M := fun _ => Active kept id taken) (.ofExcept (fun _ _ s hs => hs)
    fun _ _ s hs => hs) fun size => ?_
  refine .bind (ensureCapacity_files active_same _ _) fun _ => ?_
  dsimp only
  refine .bind (.require fun _ s hs => hs) fun _ => .of_pure fun _ => ?_
  refine .bind (.check fun _ s hs => hs) fun _ => ?_
  refine .of_state fun t ht => ?_
  refine .bind (M := fun a s => a = t ∧ s = t) (.get fun s hs => ⟨hs, hs⟩) fun a => .of_pure ?_
  rintro rfl
  generalize hname : artifactName a.status.dataFilesIndexed (filename file.path) = name
  have hisName : LexicalPath.IsName name := by
    rw [← hname]
    exact isName_artifactName _ _
  refine .bind ((createArtifact_triple ht.here).mono (fun s hs => hs) (fun _ s hs => hs) ?_) fun _ =>
    .of_pure fun hnone => ?_
  · rintro s rfl
    exact ht
  have hback : ∀ s, Elsewhere a name s → Active kept id taken s := fun s hs => ht.elsewhere hs hnone
  refine .bind (M := Attempted a name size.toNat)
    (.attempt_live hlive (copyContent_triple size environment.reads) fun _ s hs => hs) fun copied => ?_
  cases copied with
  | error error =>
    refine .bind (removeArtifact_triple hlive) fun _ => ?_
    exact .fail hback
  | ok =>
    -- Counting the bytes moves the state that the copy is compared with, but none of its files.
    refine .bind (M := fun _ s => ∃ u, Active kept id taken u ∧ u.artifacts name = none ∧
      Copying u name size.toNat s) (.modify fun s hs => ?_) fun _ => .of_state fun s hs => ?_
    · refine ⟨a.setActive (s.session.activeBytes + size), ht.same (sameFiles_session rfl rfl rfl), hnone, ?_⟩
      exact hs.setActive (s.session.activeBytes + size)
    obtain ⟨u, hu, hunone, hcopying⟩ := hs
    refine .bind (M := fun recorded t => Copying u name size.toNat t ∧ ∃ content,
      t.artifacts name = some content ∧ recorded = { file with
        path := ascii "artifacts/" ++ name, sizeBytes := size,
        checksum := if file.checksum.isEmpty then digest content else file.checksum })
      ((checksumCopy_files hlive size _).mono ?_ (fun _ t ht => ht) ?_) fun recorded => ?_
    · rintro t rfl
      exact hcopying
    · rintro t ⟨v, hv, hsame⟩
      exact (hu.elsewhere hv hunone).same hsame
    refine .bind (M := fun _ t => file.RecordedAs t.artifacts recorded ∧ Active kept id taken t)
      (.modify ?_) fun _ => .pure fun t ht => ht
    rintro t ⟨ht', content, hcontent, rfl⟩
    have hactive : Active kept id taken t := hu.elsewhere ht'.toElsewhere hunone
    obtain ⟨content', hcontent', hlen⟩ := ht'.content
    obtain rfl : content = content' := Option.some.inj (hcontent.symm.trans hcontent')
    refine ⟨?_, hactive.same (sameFiles_session rfl rfl rfl)⟩
    unfold RecordingDataFile.RecordedAs
    rw [if_pos hcopied, ← hname] at *
    exact ⟨_, content, hcontent, hlen.symm, rfl⟩

/-- The copy is there, and its line is in the stream. -/
theorem appendDataFile_files (file : RecordingDataFile) (copy : CopyEnvironment)
    (environment : LineEnvironment) : Triple answers (Active kept id taken) (appendDataFile file copy environment)
      (fun record s => (file.isValid = true ∧ ∃ recorded, record = .dataFile recorded ∧
        file.RecordedAs s.artifacts recorded) ∧ Active kept id (taken ++ [record]) s) (Active kept id taken) := by
  unfold appendDataFile
  refine .bind (requireActive_files .dataFiles) fun _ => ?_
  refine .bind (.require fun _ s hs => hs) fun _ => .of_pure fun hvalid => ?_
  have hline (recorded : RecordingDataFile) : Triple answers
      (fun s => file.RecordedAs s.artifacts recorded ∧ Active kept id taken s)
      (do
        appendLine .dataFiles recorded.toJson recorded.timestampMs environment
        pure (.dataFile recorded) : Call Record)
      (fun record s => (file.isValid = true ∧ ∃ recorded, record = .dataFile recorded ∧
        file.RecordedAs s.artifacts recorded) ∧ Active kept id (taken ++ [record]) s) (Active kept id taken) := by
    refine .of_state fun t ht => ?_
    obtain ⟨hrecorded, hactive⟩ := ht
    obtain ⟨hkeep, hholds⟩ := hactive.keep
    -- The copy is one of the artifacts that are kept while its line is appended.
    have hadded : Triple answers (· = t)
        (appendLine .dataFiles (Record.dataFile recorded).toJson recorded.timestampMs environment)
        (fun _ => Active t.artifacts id (taken ++ [.dataFile recorded])) (Active kept id taken) := by
      refine (appendLine_files hlive rfl _ _).mono ?_ (fun _ s hs => hs) fun s hs => hs.forget hholds
      rintro s rfl
      exact hkeep
    refine .bind hadded fun _ => .pure fun s hs => ⟨⟨hvalid, recorded, rfl, ?_⟩, hs.forget hholds⟩
    exact hrecorded.mono hs.keep.2
  refine .ite (fun hcopied => .bind (copyDataFile_files hlive hcopied copy) hline) fun hnot => ?_
  refine .bind (M := fun recorded s => file.RecordedAs s.artifacts recorded ∧ Active kept id taken s)
    (.pure fun s hs => ⟨?_, hs⟩) hline
  unfold RecordingDataFile.RecordedAs
  rw [if_neg hnot]

end

/-! ## Calls between `Start` and `Stop` -/

namespace SessionCall

/-- What a call records that returns true, with the artifacts that there are. -/
def Gives (artifacts : Bytes → Option Bytes) : SessionCall → Record → Prop
  | append state _, record => record = .vehicleState state
  | appendEvent event _, record => record = .event event ∧ event.isValid = true
  | appendDataFile file _ _, record =>
    file.isValid = true ∧ ∃ recorded, record = .dataFile recorded ∧ file.RecordedAs artifacts recorded
  | _, _ => False

theorem Gives.mono {artifacts : Bytes → Option Bytes} {call : SessionCall} {record : Record}
    (h : call.Gives kept record) (hholds : Holds kept artifacts) : call.Gives artifacts record := by
  cases call with
  | appendDataFile file copy environment =>
    obtain ⟨hvalid, recorded, hrecord, hrecorded⟩ := h
    exact ⟨hvalid, recorded, hrecord, hrecorded.mono hholds⟩
  | append | appendEvent | setExistingBytes | start | stop => exact h

/-- The call is `Stop`. -/
def isStop : SessionCall → Bool
  | stop _ => true
  | _ => false

end SessionCall

theorem start_files (trigger : String) (clocks : StartClocks) {post : Unit → World → Prop} :
    Triple answers (Active kept id taken) (start trigger clocks) post (Active kept id taken) := by
  refine .of_state fun t ht => ?_
  have hsame : ∀ s, s = t → Active kept id taken s := by
    rintro s rfl
    exact ht
  unfold start
  refine .bind (M := fun a s => a = t ∧ s = t) (.get fun s hs => ⟨hs, hs⟩) fun a => .of_pure ?_
  rintro rfl
  refine .bind (.require fun _ => hsame) fun _ => .of_pure fun hnot => ?_
  refine .bind (.require fun _ => hsame) fun _ => .of_pure fun hnot' => ?_
  -- It is neither recording nor faulted, and not idle.
  rw [decide_eq_true_eq] at hnot hnot'
  have hstate := ht.state
  cases hcase : a.status.state with
  | idle => exact absurd hcase hstate
  | recording => exact absurd hcase hnot
  | faulted => exact absurd hcase hnot'

theorem setExistingBytes_files (existingBytes : UInt64) :
    Triple answers (Active kept id taken) (setExistingBytes existingBytes)
      (fun _ => Active kept id taken) (Active kept id taken) := by
  unfold setExistingBytes
  refine .modify fun s hs => ?_
  split
  · exact hs
  · exact hs.same (sameFiles_session rfl rfl rfl)

/-- **A call of an active session** adds what it gives, and where it returns false it adds nothing. -/
theorem program_files (hlive : ∀ op, answers op ≠ .crashed) (call : SessionCall) (hstop : call.isStop = false) :
    Triple answers (Active kept id taken) call.program
      (fun record s => (∀ r ∈ record, call.Gives s.artifacts r) ∧ Active kept id (taken ++ record.toList) s)
      (Active kept id taken) := by
  have happend {p : Call Record} (hp : Triple answers (Active kept id taken) p
      (fun record s => call.Gives s.artifacts record ∧ Active kept id (taken ++ [record]) s) (Active kept id taken)) :
      Triple answers (Active kept id taken)
        (do
          let record ← p
          pure (some record) : Call (Option Record))
        (fun record s => (∀ r ∈ record, call.Gives s.artifacts r) ∧ Active kept id (taken ++ record.toList) s)
        (Active kept id taken) := by
    refine .bind hp fun record => .pure ?_
    rintro s ⟨hrecord, hs⟩
    refine ⟨fun r hr => ?_, hs⟩
    rw [← Option.some.inj hr]
    exact hrecord
  have hother {p : Call Unit} (hp : Triple answers (Active kept id taken) p
      (fun _ => Active kept id taken) (Active kept id taken)) :
      Triple answers (Active kept id taken)
        (do
          p
          pure none : Call (Option Record))
        (fun record s => (∀ r ∈ record, call.Gives s.artifacts r) ∧ Active kept id (taken ++ record.toList) s)
        (Active kept id taken) := by
    refine .bind hp fun _ => .pure fun s hs => ⟨fun r hr => absurd hr (not_mem_none r), ?_⟩
    show Active kept id (taken ++ []) s
    rw [append_nil]
    exact hs
  cases call with
  | setExistingBytes existingBytes => exact hother (setExistingBytes_files existingBytes)
  | start trigger clocks => exact hother (start_files trigger clocks)
  | append state environment => exact happend (append_files hlive state environment)
  | appendEvent event environment => exact happend (appendEvent_files hlive event environment)
  | appendDataFile file copy environment => exact happend (appendDataFile_files hlive file copy environment)
  | stop stoppedAtMs => cases hstop

/-- The record of a call that returns true. -/
def World.recordOf (w : World) (i : SessionCall × (Operation → Bool)) : Option Record :=
  match (i.1.program.run (answersOf i.2) w).1 with
  | .returned record => record
  | _ => none

/-- The records of calls. -/
def recordsOf : World → List (SessionCall × (Operation → Bool)) → List Record
  | _, [] => []
  | w, i :: calls => (w.recordOf i).toList ++ recordsOf (w.call i).1 calls

/-- A call adds its record, or none. -/
theorem call_files (h : Active kept id taken w) (i : SessionCall × (Operation → Bool)) (hstop : i.1.isStop = false) :
    Active kept id (taken ++ (w.recordOf i).toList) (w.call i).1 ∧
      ∀ record ∈ w.recordOf i, i.1.Gives (w.call i).1.artifacts record := by
  have hrun := program_files (answersOf_ne_crashed i.2) i.1 hstop w h
  unfold World.call World.recordOf
  rcases hres : i.1.program.run (answersOf i.2) w with ⟨outcome, s⟩
  rw [hres] at hrun
  cases outcome with
  | returned record => exact ⟨hrun.2, hrun.1⟩
  | failed error | crashed =>
    refine ⟨?_, fun r hr => absurd hr (not_mem_none r)⟩
    show Active kept id (taken ++ []) s
    rw [append_nil]
    exact hrun

/-- **The run**: a session that is not stopped has the lines of what was recorded, and each call has recorded what it was
    given, with the copies that are there at the end. -/
theorem run_files {calls : List (SessionCall × (Operation → Bool))} (h : Active kept id taken w)
    (hcalls : ∀ i ∈ calls, i.1.isStop = false) :
    Active kept id (taken ++ recordsOf w calls) (StepRun.run World.call w calls) ∧
      ∀ artifacts, Holds (StepRun.run World.call w calls).artifacts artifacts →
        StepRun.Along World.call (fun w i => ∀ record ∈ w.recordOf i, i.1.Gives artifacts record) w calls := by
  induction calls generalizing w taken kept with
  | nil =>
    refine ⟨?_, fun _ _ => trivial⟩
    show Active kept id (taken ++ []) w
    rw [append_nil]
    exact h
  | cons i calls ih =>
    obtain ⟨hactive, hgives⟩ := call_files h i (hcalls i mem_cons_self)
    obtain ⟨hkeep, hholds⟩ := hactive.keep
    obtain ⟨hend, halong⟩ := ih hkeep fun j hj => hcalls j (mem_cons_of_mem _ hj)
    rw [append_assoc] at hend
    refine ⟨hend.forget hholds, fun artifacts hartifacts => ⟨fun record hrecord => ?_, halong artifacts hartifacts⟩⟩
    refine (hgives record hrecord).mono fun name content hcontent => ?_
    exact hartifacts name content (hend.keep.2 name content hcontent)

/-! ## Start -/

/-- The streams that are opened already are empty, and the files of the others are not there. -/
structure Opening (id : SessionId) (opened : List RecordFile) (w : World) : Prop where
  sessionId : w.status.sessionId = some id
  state : w.status.state = .recording
  lines : ∀ f, (w.output f).lines = []
  drained : ∀ f, (w.output f).drained = 0
  directory : ∃ d, w.disk (.recording id) = some d ∧ (∀ f ∉ opened, d.records f = none) ∧
    ∀ f ∈ opened, (w.output f).isOpen = true ∧ ((w.output f).failed = false → d.records f = some [])

theorem Opening.createDirectory (hid : w.status.sessionId = some id) (hstate : w.status.state = .recording)
    (hlines : ∀ f, (w.output f).lines = []) (hdrained : ∀ f, (w.output f).drained = 0)
    (hfresh : w.disk (.recording id) = none) : Opening id [] w.createDirectory := by
  have hcreated : w.createDirectory = { w with disk := update w.disk (.recording id) (some {}) } := by
    unfold World.createDirectory
    rw [hid]
    dsimp only
    rw [hfresh]
    rfl
  rw [hcreated]
  refine ⟨hid, hstate, hlines, hdrained, {}, update_self _ _ _, fun _ _ => rfl, fun f hf => ?_⟩
  exact absurd hf not_mem_nil

variable {opened : List RecordFile}

theorem Opening.openOutput (h : Opening id opened w) (hf : f ∉ opened) :
    Opening id (f :: opened) (w.openOutput f) := by
  obtain ⟨d, hd, hclosed, hopened⟩ := h.directory
  unfold World.openOutput
  split
  case isTrue hopen =>
    have houtput := fun g => output_setOutput w f g { w.output f with failed := true }
    refine ⟨h.sessionId, h.state, fun g => ?_, fun g => ?_, d, hd, fun g hg => ?_, fun g hg => ?_⟩
    · rw [houtput]
      split
      · exact h.lines f
      · exact h.lines g
    · rw [houtput]
      split
      · exact h.drained f
      · exact h.drained g
    · exact hclosed g fun hmem => hg (mem_cons_of_mem f hmem)
    · rw [houtput]
      split
      case isTrue => exact ⟨hopen, nofun⟩
      case isFalse hne => exact hopened g ((mem_cons.mp hg).resolve_left hne)
  case isFalse =>
    generalize hchange : (fun d : Directory => { d with
      records := update d.records f (some ((d.records f).getD [])) }) = change
    have houtput := fun g => output_setOutput (w.inTemporary change) f g { isOpen := true }
    have hsame (g : RecordFile) : (w.inTemporary change).output g = w.output g := by
      unfold World.output
      rw [session_inTemporary]
    have hid : (w.inTemporary change).status.sessionId = some id := by
      unfold World.status
      rw [session_inTemporary]
      exact h.sessionId
    have hd' : (w.inTemporary change).disk (.recording id) = some (change d) := by
      rw [inTemporary_eq h.sessionId]
      exact alter_self hd change
    refine ⟨hid, ?_, fun g => ?_, fun g => ?_, change d, hd', fun g hg => ?_, fun g hg => ?_⟩
    · exact (state_inTemporary w change).trans h.state
    · rw [houtput, hsame]
      split
      · rfl
      · exact h.lines g
    · rw [houtput, hsame]
      split
      · rfl
      · exact h.drained g
    · rw [← hchange]
      show update d.records f _ g = none
      rw [update_of_ne fun heq => hg (by rw [heq]; exact mem_cons_self)]
      exact hclosed g fun hmem => hg (mem_cons_of_mem f hmem)
    · rw [houtput, hsame, ← hchange]
      split
      case isTrue heq =>
        refine ⟨rfl, fun _ => ?_⟩
        show update d.records f _ g = some []
        rw [heq, update_self, hclosed f hf]
        rfl
      case isFalse hne =>
        show _ ∧ (_ → update d.records f _ g = some [])
        rw [update_of_ne hne]
        exact hopened g ((mem_cons.mp hg).resolve_left hne)

theorem Opening.active (h : Opening id opened w) (hall : ∀ f, f ∈ opened) : Active (fun _ => none) id [] w := by
  obtain ⟨d, hd, -, hopened⟩ := h.directory
  refine ⟨⟨h.sessionId, h.lines, fun f => ?_, d, hd, fun f hf => ?_, fun _ _ => nofun⟩, ?_, ?_⟩
  · rw [h.drained]
    exact Nat.zero_le _
  · rw [h.lines, h.drained]
    exact (hopened f (hall f)).2 hf
  · rw [h.state]
    exact nofun
  · exact fun _ f => (hopened f (hall f)).1

variable {change : Directory → Directory}

theorem Active.inTemporary (h : Active kept id taken w) (hrecords : ∀ d, (change d).records = d.records)
    (hartifacts : ∀ d, (change d).artifacts = d.artifacts) : Active kept id taken (w.inTemporary change) := by
  obtain ⟨d, hd, hlines, hcopies⟩ := h.directory
  have hsess := session_inTemporary change w
  have houtput (f : RecordFile) : (w.inTemporary change).output f = w.output f := by
    unfold World.output
    rw [hsess]
  have hwritten : Written kept id taken (w.inTemporary change) := by
    refine ⟨?_, fun f => ?_, fun f => ?_, change d, ?_, fun f => ?_, ?_⟩
    · unfold World.status
      rw [hsess]
      exact h.sessionId
    · rw [houtput]
      exact h.lines f
    · rw [houtput]
      exact h.drained f
    · rw [inTemporary_eq h.sessionId]
      exact alter_self hd change
    · rw [houtput, hrecords]
      exact hlines f
    · rw [hartifacts]
      exact hcopies
  exact h.of_written hwritten (state_inTemporary w change) fun f => by rw [houtput]

/-- **A session that is started** in a directory of its own has nothing in its files. -/
theorem start_opens (trigger : String) (clocks : StartClocks)
    (hfresh : w.disk (.recording (w.makeSessionId clocks.idMs)) = none) :
    Triple answers (· = w) (start trigger clocks)
      (fun _ => Active (fun _ => none) (w.makeSessionId clocks.idMs) []) (fun _ => True) := by
  have htrivial : ∀ s : World, s = w → True := fun _ _ => trivial
  unfold start
  refine .bind (M := fun _ s => s = w) (.get fun s hs => hs) fun a => ?_
  refine .bind (.require fun _ => htrivial) fun _ => .of_pure fun _ => ?_
  refine .bind (.require fun _ => htrivial) fun _ => .of_pure fun _ => ?_
  refine .bind (M := fun _ => Active (fun _ => none) (w.makeSessionId clocks.idMs) [])
    (.onFail_any ?_) fun _ => ?_
  · unfold openSession
    refine .bind (.check fun _ => htrivial) fun _ => ?_
    refine .bind (M := fun _ s => s = w.begin trigger clocks) (.modify ?_) fun _ => ?_
    · rintro s rfl
      rfl
    refine .bind (M := fun _ => Opening (w.makeSessionId clocks.idMs) [])
      (.act (fun _ s hs => ?_) fun _ _ _ => trivial) fun _ => ?_
    · rw [hs]
      exact Opening.createDirectory rfl rfl (fun _ => rfl) (fun _ => rfl) hfresh
    refine .bind (M := fun _ => Opening (w.makeSessionId clocks.idMs) [.vehicleState])
      (.act (fun _ s hs => hs.openOutput not_mem_nil) fun _ _ _ => trivial) fun _ => ?_
    refine .bind (M := fun _ => Opening (w.makeSessionId clocks.idMs) [.events, .vehicleState])
      (.act (fun _ s hs => hs.openOutput (by decide)) fun _ _ _ => trivial) fun _ => ?_
    refine .act (fun _ s hs => (hs.openOutput (by decide)).active ?_) fun _ _ _ => trivial
    intro f
    cases f <;> decide
  · refine .onFail_any ?_
    unfold writeManifest
    refine .bind (M := fun _ => Active (fun _ => none) (w.makeSessionId clocks.idMs) [])
      (.act (fun _ s hs => ?_) fun _ _ _ => trivial) fun _ => ?_
    · exact hs.inTemporary (by intro d; rfl) (by intro d; rfl)
    refine .bind (M := fun _ => Active (fun _ => none) (w.makeSessionId clocks.idMs) [])
      (.act (fun _ s hs => ?_) fun _ _ _ => trivial) fun _ => ?_
    · exact hs.inTemporary (by intro d; rfl) (by intro d; rfl)
    refine .bind (.check fun _ _ _ => trivial) fun _ => ?_
    exact .check fun _ _ _ => trivial

/-! ## Stop -/

/-- All lines are in the directory, and the artifacts that are kept. -/
structure Complete (kept : Bytes → Option Bytes) (taken : List Record) (d : Directory) : Prop where
  records : ∀ f, d.records f = some (linesOf f taken)
  copies : Holds kept d.artifacts

/-- These streams are flushed, and the others are open. -/
structure Closing (kept : Bytes → Option Bytes) (id : SessionId) (taken : List Record) (closed : List RecordFile)
    (w : World) : Prop extends Written kept id taken w where
  flushed : ∀ f ∈ closed, (w.output f).failed = false ∧ (w.output f).drained = (w.output f).lines.length
  isOpen : ∀ f ∉ closed, (w.output f).isOpen = true

theorem drained_flush (f : RecordFile) (hle : (w.output f).drained ≤ (w.output f).lines.length) (g : RecordFile) :
    (w.flush f).output g = if g = f then { w.output f with drained := (w.output f).lines.length } else w.output g := by
  unfold World.flush World.drain
  dsimp only
  rw [output_setOutput, Nat.max_eq_right hle, Nat.min_self]
  unfold World.output
  rw [session_inTemporary]

variable {closed : List RecordFile}

theorem Closing.flush (h : Closing kept id taken closed w) (hfailed : (w.output f).failed = false) :
    Closing kept id taken (f :: closed) ((w.flush f).closeOutput f) := by
  have houtput := drained_flush f (h.drained f)
  have hclosed (g : RecordFile) : ((w.flush f).closeOutput f).output g =
      if g = f then { (w.flush f).output f with isOpen := false } else (w.flush f).output g :=
    output_setOutput (w.flush f) f g _
  have hwritten := h.toWritten.drain f (w.output f).lines.length
  have hflag (g : RecordFile) : ((w.flush f).closeOutput f).output g =
      { (w.flush f).output g with isOpen := ((w.flush f).closeOutput f).output g |>.isOpen } := by
    rw [hclosed]
    split
    case isTrue hg => rw [hg]
    case isFalse => rfl
  refine ⟨⟨hwritten.sessionId, fun g => ?_, fun g => ?_, ?_⟩, fun g hg => ?_, fun g hg => ?_⟩
  · rw [hflag]
    exact hwritten.lines g
  · rw [hflag]
    exact hwritten.drained g
  · obtain ⟨d, hd, hrecords, hcopies⟩ := hwritten.directory
    refine ⟨d, hd, fun g => ?_, hcopies⟩
    rw [hflag]
    exact hrecords g
  · rw [hflag, houtput]
    split
    case isTrue => exact ⟨hfailed, rfl⟩
    case isFalse hne => exact h.flushed g ((mem_cons.mp hg).resolve_left hne)
  · have hne : g ≠ f := by
      intro heq
      rw [heq] at hg
      exact hg mem_cons_self
    rw [hclosed, if_neg hne, houtput, if_neg hne]
    exact h.isOpen g fun hmem => hg (mem_cons_of_mem f hmem)

/-- A stream that is closed has all its lines in the file. -/
theorem closeOutput_files (hf : f ∉ closed) : Triple answers (Closing kept id taken closed) (closeOutput f)
      (fun _ => Closing kept id taken (f :: closed)) (fun _ => True) := by
  unfold closeOutput
  refine .of_state fun t ht => ?_
  refine .bind (M := fun a s => a = t ∧ s = t) (.get fun s hs => ⟨hs, hs⟩) fun a => .of_pure ?_
  rintro rfl
  rw [ht.isOpen f hf, if_neg (by decide)]
  refine .onFail_any ?_
  refine .bind (.require fun _ _ _ => trivial) fun _ => .of_pure fun hfailed => ?_
  rw [Bool.not_eq_true'] at hfailed
  refine .bind (M := fun _ s => s = a.flush f) (.act ?_ fun _ _ _ => trivial) fun _ => ?_
  · rintro _ s rfl
    rfl
  refine .act ?_ fun _ _ _ => trivial
  rintro _ s rfl
  exact ht.flush hfailed

theorem anything {α : Type} (p : Call α) : Triple answers (fun _ => True) p (fun _ _ => True) (fun _ => True) := by
  intro s _
  rcases p.run answers s with ⟨outcome, s'⟩
  cases outcome <;> trivial

/-- **All streams are flushed** where the closing reports no error. -/
theorem closeAll_files : Triple answers (Closing kept id taken []) closeAll
      (fun closed s => closed = .ok () → Closing kept id taken [.dataFiles, .events, .vehicleState] s)
      (fun _ => True) := by
  have hattempt {closed : List RecordFile} {f : RecordFile} (hf : f ∉ closed) :
      Triple answers (Closing kept id taken closed) (attempt (closeOutput f) : Call (Except String Unit))
        (fun r s => r = .ok () → Closing kept id taken (f :: closed) s) (fun _ => True) :=
    .attempt ((closeOutput_files hf).mono (fun s hs => hs) (fun _ s hs _ => hs) fun s hs => hs) fun _ _ _ => nofun
  unfold closeAll
  refine .bind (hattempt not_mem_nil) fun vehicleState => ?_
  cases vehicleState with
  | error error =>
    refine .bind (M := fun _ _ => True) ((anything _).mono (fun _ _ => trivial) (fun _ _ h => h) fun _ h => h)
      fun events => ?_
    refine .bind (anything _) fun dataFiles => .pure fun s _ hclosed => ?_
    cases hclosed
  | ok =>
    refine .bind ((hattempt (by decide)).mono (fun s hs => hs rfl) (fun _ s hs => hs) fun s hs => hs)
      fun events => ?_
    cases events with
    | error error =>
      refine .bind (M := fun _ _ => True)
        ((anything _).mono (fun _ _ => trivial) (fun _ _ h => h) fun _ h => h) fun dataFiles => ?_
      exact .pure fun s _ hclosed => by cases hclosed
    | ok =>
      refine .bind ((hattempt (by decide)).mono (fun s hs => hs rfl) (fun _ s hs => hs) fun s hs => hs)
        fun dataFiles => .pure fun s hs hclosed => ?_
      cases dataFiles with
      | error error => cases hclosed
      | ok => exact hs rfl

/-- The directory under the temporary name is complete. -/
def Flushed (kept : Bytes → Option Bytes) (id : SessionId) (taken : List Record) (w : World) : Prop :=
  w.status.sessionId = some id ∧ ∃ d, w.disk (.recording id) = some d ∧ Complete kept taken d

theorem Closing.complete (h : Closing kept id taken [.dataFiles, .events, .vehicleState] w) :
    Flushed kept id taken w := by
  obtain ⟨d, hd, hrecords, hcopies⟩ := h.directory
  refine ⟨h.sessionId, d, hd, fun f => ?_, hcopies⟩
  have hmem : f ∈ [RecordFile.dataFiles, .events, .vehicleState] := by
    cases f <;> decide
  obtain ⟨hfailed, hdrained⟩ := h.flushed f hmem
  rw [hrecords f hfailed, hdrained, take_length, h.lines]

theorem Flushed.inTemporary (h : Flushed kept id taken w) (hrecords : ∀ d, (change d).records = d.records)
    (hartifacts : ∀ d, (change d).artifacts = d.artifacts) : Flushed kept id taken (w.inTemporary change) := by
  obtain ⟨hid, d, hd, hcomplete⟩ := h
  rw [inTemporary_eq hid]
  refine ⟨hid, change d, alter_self hd change, fun f => ?_, ?_⟩
  · rw [hrecords]
    exact hcomplete.records f
  · rw [hartifacts]
    exact hcomplete.copies

/-- **A session that is stopped** has all lines and copies in the directory with its final name. -/
theorem finish_files (stoppedAtMs : Int) : Triple answers (Closing kept id taken []) (finish stoppedAtMs)
      (fun _ s => ∃ d, s.disk (.session id) = some d ∧ Complete kept taken d) (fun _ => True) := by
  have hcheck {I : World → Prop} (op : Operation) (error : String) :
      Triple answers I (check op error : Call Unit) (fun _ => I) (fun _ => True) :=
    .check fun _ _ _ => trivial
  have hact (op : Operation) (error : String) {effect : World → World}
      (heffect : ∀ s, Flushed kept id taken s → Flushed kept id taken (effect s)) :
      Triple answers (Flushed kept id taken) (act op effect error : Call Unit)
        (fun _ => Flushed kept id taken) (fun _ => True) :=
    .act (fun _ s hs => heffect s hs) fun _ _ _ => trivial
  unfold finish
  refine .bind closeAll_files fun closed => ?_
  refine .bind (M := fun _ => Flushed kept id taken) (.ofExcept ?_ fun _ _ _ _ => trivial) fun _ => ?_
  · rintro ⟨⟩ rfl s hs
    exact (hs rfl).complete
  refine .bind (hcheck _ _) fun _ => ?_
  refine .bind (hcheck _ _) fun _ => ?_
  refine .bind (hcheck _ _) fun _ => ?_
  refine .bind (M := fun _ => Flushed kept id taken) (.modify fun s hs => hs) fun _ => ?_
  refine .bind (M := fun _ => Flushed kept id taken) ?_ fun _ => ?_
  · unfold writeManifest
    refine .bind (hact _ _ fun s hs => hs.inTemporary (by intro d; rfl) (by intro d; rfl)) fun _ => ?_
    refine .bind (hact _ _ fun s hs => hs.inTemporary (by intro d; rfl) (by intro d; rfl)) fun _ => ?_
    exact .bind (hcheck _ _) fun _ => hcheck _ _
  refine .bind (M := fun _ => Flushed kept id taken) ?_ fun _ => ?_
  · unfold writeCompleteMarker
    refine .bind (hact _ _ fun s hs => hs.inTemporary (by intro d; rfl) (by intro d; rfl)) fun _ => ?_
    exact .bind (hcheck _ _) fun _ => .bind (hcheck _ _) fun _ => hcheck _ _
  refine .bind (hcheck _ _) fun _ => ?_
  refine .bind (M := fun _ s => ∃ d, s.disk (.session id) = some d ∧ Complete kept taken d) ?_ fun _ => ?_
  · unfold renameToFinal
    refine .of_state fun t ht => ?_
    refine .bind (M := fun a s => a = t ∧ s = t) (.get fun s hs => ⟨hs, hs⟩) fun a => .of_pure ?_
    rintro rfl
    obtain ⟨hid, d, hd, hcomplete⟩ := ht
    rw [hid]
    dsimp only
    refine .bind (.require fun _ _ _ => trivial) fun _ => .of_pure fun _ => ?_
    refine .act ?_ fun _ _ _ => trivial
    rintro _ s rfl
    refine ⟨d, ?_, hcomplete⟩
    have hne : DirectoryName.session id ≠ .recording id := nofun
    show s.disk.rename (.recording id) (.session id) (.session id) = some d
    unfold Disk.rename
    rw [update_of_ne hne, update_self]
    exact hd
  refine .bind (hcheck _ _) fun _ => .modify fun s hs => hs

/-- A session that is stopped has all lines in its files. -/
theorem stop_files (stoppedAtMs : Int) : Triple answers (Active kept id taken) (stop stoppedAtMs)
      (fun _ s => ∃ d, s.disk (.session id) = some d ∧ Complete kept taken d) (fun _ => True) := by
  unfold stop
  refine .of_state fun t ht => ?_
  refine .bind (M := fun a s => a = t ∧ s = t) (.get fun s hs => ⟨hs, hs⟩) fun a => .of_pure ?_
  rintro rfl
  cases hstate : a.status.state with
  | idle => exact absurd hstate ht.state
  | faulted =>
    refine .bind (M := fun _ _ => True) ((anything _).mono (fun _ _ => trivial) (fun _ _ h => h) fun _ h => h)
      fun _ => .fail fun _ _ => trivial
  | recording =>
    refine .onFail_any ((finish_files stoppedAtMs).mono ?_ (fun _ s hs => hs) fun s hs => hs)
    rintro s rfl
    refine ⟨ht.toWritten, fun f hf => absurd hf not_mem_nil, fun f _ => ht.isOpen hstate f⟩

end Cockpit.Recording
