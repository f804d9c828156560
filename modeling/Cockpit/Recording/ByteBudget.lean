/-
  The bytes of a recording session: `active_bytes_` is the bytes of the lines and of the artifacts that are
  kept, within both limits, and no subtraction goes below zero. The invariant and the lines are here.
-/
import Mathlib.Algebra.GroupWithZero.Nat
import Cockpit.Lib.StepRun
import Cockpit.Recording.RecordingSession

namespace Cockpit.Recording

open ByteText Durable Durable.Program Option Function

/-! ## The invariant -/

/-- Each with its newline. -/
def lineBytes (lines : List Bytes) : Nat := (lines.map fun line => line.length + 1).sum

namespace World

/-- Before or behind the rename of `Stop`. -/
def directory (w : World) : Option Directory :=
  w.status.sessionId.bind fun id => (w.disk (.recording id)).or (w.disk (.session id))

def artifacts (w : World) (name : Bytes) : Option Bytes := w.directory.bind fun d => d.artifacts name

def records (w : World) (f : RecordFile) : Option (List Bytes) := w.directory.bind fun d => d.records f

/-- The lines that the streams have taken. -/
def linesBytes (w : World) : Nat :=
  lineBytes (w.output .vehicleState).lines + lineBytes (w.output .events).lines +
    lineBytes (w.output .dataFiles).lines

/-- The artifacts that are kept. -/
def artifactBytes (w : World) : Nat :=
  (w.session.kept.map fun name => ((w.artifacts name).getD []).length).sum

end World

/-- Both limits are set. -/
structure RecordingSessionLimits.Limited (limits : RecordingSessionLimits) : Prop where
  session : 0 < limits.maxSessionBytes
  total : 0 < limits.maxTotalBytes

/-- `always` is whether the existing bytes are what they were at `Start` in other states than recording, too. -/
structure Budget (always : Prop) (w : World) : Prop where
  limited : w.session.limits.Limited
  wrapped : w.session.wrapped = false
  counted : w.session.activeBytes.toNat = w.linesBytes + w.artifactBytes
  session : w.session.activeBytes ≤ w.session.limits.maxSessionBytes
  total : always ∨ w.status.state = .recording →
    w.session.existingBytes ≤ w.session.limits.maxTotalBytes →
    w.session.existingBytes.toNat + w.session.activeBytes.toNat ≤ w.session.limits.maxTotalBytes.toNat
  kept : ∀ name ∈ w.session.kept, (w.artifacts name).isSome = true
  here : w.status.state = .recording → w.temporary.isSome = true

/-- What counts is as it was, and a session that is recording was recording. -/
structure Unchanged (w s : World) : Prop where
  limits : s.session.limits = w.session.limits
  existingBytes : s.session.existingBytes = w.session.existingBytes
  activeBytes : s.session.activeBytes = w.session.activeBytes
  wrapped : s.session.wrapped = w.session.wrapped
  kept : s.session.kept = w.session.kept
  lines : ∀ f, (s.output f).lines = (w.output f).lines
  artifacts : s.artifacts = w.artifacts
  here : s.status.state = .recording →
    w.status.state = .recording ∧ (w.temporary.isSome = true → s.temporary.isSome = true)

variable {always : Prop} {w s s' : World} {answers : Operation → Answer}

namespace Unchanged

theorem trans (h : Unchanged w s) (h' : Unchanged s s') : Unchanged w s' where
  limits := h'.limits.trans h.limits
  existingBytes := h'.existingBytes.trans h.existingBytes
  activeBytes := h'.activeBytes.trans h.activeBytes
  wrapped := h'.wrapped.trans h.wrapped
  kept := h'.kept.trans h.kept
  lines f := (h'.lines f).trans (h.lines f)
  artifacts := h'.artifacts.trans h.artifacts
  here hrecording := by
    obtain ⟨hs, hkeeps'⟩ := h'.here hrecording
    obtain ⟨hw, hkeeps⟩ := h.here hs
    exact ⟨hw, fun hsome => hkeeps' (hkeeps hsome)⟩

theorem linesBytes (h : Unchanged w s) : s.linesBytes = w.linesBytes := by
  unfold World.linesBytes
  rw [h.lines, h.lines, h.lines]

theorem artifactBytes (h : Unchanged w s) : s.artifactBytes = w.artifactBytes := by
  unfold World.artifactBytes
  rw [h.kept, h.artifacts]

end Unchanged

theorem Budget.of_unchanged (hw : Budget always w) (h : Unchanged w s) : Budget always s where
  limited := h.limits ▸ hw.limited
  wrapped := h.wrapped.trans hw.wrapped
  counted := by
    rw [h.activeBytes, h.linesBytes, h.artifactBytes]
    exact hw.counted
  session := by
    rw [h.activeBytes, h.limits]
    exact hw.session
  total hstate := by
    rw [h.existingBytes, h.activeBytes, h.limits]
    exact hw.total (hstate.imp id fun hrecording => (h.here hrecording).1)
  kept := by
    rw [h.kept, h.artifacts]
    exact hw.kept
  here hrecording := by
    obtain ⟨hw', hkeeps⟩ := h.here hrecording
    exact hkeeps (hw.here hw')

/-! ## Steps that count nothing -/

theorem directory_of_temporary {d : Directory} (h : w.temporary = some d) : w.directory = some d := by
  unfold World.temporary at h
  unfold World.directory
  cases hid : w.status.sessionId with
  | none =>
    rw [hid] at h
    cases h
  | some id =>
    rw [hid, bind_some] at h
    rw [bind_some, h]
    rfl

theorem temporary_inTemporary (f : Directory → Directory) (w : World) :
    (w.inTemporary f).temporary = w.temporary.map f := by
  unfold World.temporary World.inTemporary
  cases hid : w.status.sessionId with
  | none =>
    dsimp only
    rw [hid]
    rfl
  | some id =>
    dsimp only [World.status] at hid ⊢
    rw [hid, bind_some, bind_some]
    unfold Disk.alter
    rw [update_self]

variable {f : Directory → Directory}

theorem inTemporary_of_none (h : w.temporary = none) : w.inTemporary f = w := by
  unfold World.inTemporary
  unfold World.temporary at h
  cases hid : w.status.sessionId with
  | none => rfl
  | some id =>
    rw [hid, bind_some] at h
    dsimp only
    unfold Disk.alter
    rw [h, map_none, ← h, update_eq_self]

@[simp] theorem session_inTemporary (f : Directory → Directory) (w : World) :
    (w.inTemporary f).session = w.session := by
  unfold World.inTemporary
  split <;> rfl

theorem artifacts_inTemporary (hf : ∀ d, (f d).artifacts = d.artifacts) (w : World) :
    (w.inTemporary f).artifacts = w.artifacts := by
  cases hd : w.temporary with
  | none => rw [inTemporary_of_none hd]
  | some d =>
    have hd' : (w.inTemporary f).temporary = some (f d) := by
      rw [temporary_inTemporary, hd]
      rfl
    funext name
    unfold World.artifacts
    rw [directory_of_temporary hd, directory_of_temporary hd', bind_some, bind_some, hf]

theorem isSome_inTemporary (f : Directory → Directory) (h : w.temporary.isSome = true) :
    (w.inTemporary f).temporary.isSome = true := by
  rw [temporary_inTemporary, isSome_map]
  exact h

theorem unchanged_inTemporary (hf : ∀ d, (f d).artifacts = d.artifacts) (w : World) :
    Unchanged w (w.inTemporary f) where
  limits := by rw [session_inTemporary]
  existingBytes := by rw [session_inTemporary]
  activeBytes := by rw [session_inTemporary]
  wrapped := by rw [session_inTemporary]
  kept := by rw [session_inTemporary]
  lines g := by
    unfold World.output
    rw [session_inTemporary]
  artifacts := artifacts_inTemporary hf w
  here h := by
    unfold World.status at h
    rw [session_inTemporary] at h
    exact ⟨h, isSome_inTemporary f⟩

theorem unchanged_setOutput {f : RecordFile} {output : Output} (h : output.lines = (w.output f).lines) :
    Unchanged w (w.setOutput f output) where
  limits := rfl
  existingBytes := rfl
  activeBytes := rfl
  wrapped := rfl
  kept := rfl
  lines g := by
    show (update w.session.outputs f output g).lines = _
    rcases eq_or_ne g f with rfl | hne
    · rw [update_self]
      exact h
    · rw [update_of_ne hne]
      rfl
  artifacts := rfl
  here h := ⟨h, id⟩

theorem unchanged_setError (error : String) (w : World) : Unchanged w (w.setError error) where
  limits := rfl
  existingBytes := rfl
  activeBytes := rfl
  wrapped := rfl
  kept := rfl
  lines _ := rfl
  artifacts := rfl
  here h := nomatch h

theorem unchanged_drain (f : RecordFile) (n : Nat) (w : World) : Unchanged w (w.drain f n) := by
  unfold World.drain
  refine (unchanged_inTemporary ?_ w).trans (unchanged_setOutput ?_)
  · intro d
    rfl
  · show (w.output f).lines = _
    unfold World.output
    rw [session_inTemporary]

theorem unchanged_failOutput (f : RecordFile) (w : World) : Unchanged w (w.failOutput f) :=
  unchanged_setOutput rfl

theorem unchanged_closeOutput (f : RecordFile) (w : World) : Unchanged w (w.closeOutput f) :=
  unchanged_setOutput rfl

/-! ## Capacity -/

/-- What is counted of `n` bytes stays within the limits. -/
structure Room (w : World) (n : Nat) : Prop where
  session : w.session.activeBytes.toNat + n ≤ w.session.limits.maxSessionBytes.toNat
  total : w.session.existingBytes.toNat + w.session.activeBytes.toNat + n
    ≤ w.session.limits.maxTotalBytes.toNat

/-- No subtraction goes below zero. -/
theorem subtract_triple {a b : UInt64} {stop : World → Prop} (h : b ≤ a) :
    Triple answers (· = w) (subtract a b) (fun left s => s = w ∧ left.toNat = a.toNat - b.toNat) stop := by
  unfold subtract
  refine .bind (M := fun _ s => s = w) (.modify ?_) fun _ => .pure ?_ <;> rintro s rfl
  · rw [decide_eq_false (UInt64.not_lt.mpr h), Bool.or_false]
  · exact ⟨rfl, UInt64.toNat_sub_of_le a b h⟩

/-- Below the limit there is room. -/
theorem sessionLimitReached_triple (hlimited : w.session.limits.Limited) (n : Nat) :
    Triple answers (· = w) (sessionLimitReached n) (fun reached s => s = w ∧ (reached = false →
        w.session.activeBytes.toNat + n ≤ w.session.limits.maxSessionBytes.toNat))
      (fun s => ∃ error, s = w.setError error) := by
  unfold sessionLimitReached
  refine .bind (M := fun a s => a = w ∧ s = w) (.get fun s hs => ⟨hs, hs⟩) fun a =>
    .of_pure ?_
  rintro rfl
  dsimp only
  have hne : a.session.limits.maxSessionBytes ≠ 0 := by
    have := hlimited.session
    rintro h
    rw [h] at this
    exact absurd this (by decide)
  rw [if_neg hne]
  refine .ite (fun _ => .pure ?_) fun hle => ?_
  · rintro s rfl
    exact ⟨rfl, fun h => nomatch h⟩
  · rw [UInt64.not_lt] at hle
    refine .bind (subtract_triple hle) fun left => .pure ?_
    rintro s ⟨rfl, hleft⟩
    refine ⟨rfl, fun hreached => ?_⟩
    rw [decide_eq_false_iff_not] at hreached
    rw [UInt64.le_iff_toNat_le] at hle
    omega

/-- As for a session. -/
theorem totalLimitReached_triple (hlimited : w.session.limits.Limited) (n : Nat) :
    Triple answers (· = w) (totalLimitReached n) (fun reached s => s = w ∧ (reached = false →
        w.session.existingBytes.toNat + w.session.activeBytes.toNat + n ≤ w.session.limits.maxTotalBytes.toNat))
      (fun s => ∃ error, s = w.setError error) := by
  unfold totalLimitReached
  refine .bind (M := fun a s => a = w ∧ s = w) (.get fun s hs => ⟨hs, hs⟩) fun a =>
    .of_pure ?_
  rintro rfl
  dsimp only
  have hne : a.session.limits.maxTotalBytes ≠ 0 := by
    have := hlimited.total
    rintro h
    rw [h] at this
    exact absurd this (by decide)
  rw [if_neg hne]
  refine .ite (fun _ => .pure ?_) fun hexisting => ?_
  · rintro s rfl
    exact ⟨rfl, fun h => nomatch h⟩
  · rw [UInt64.not_lt] at hexisting
    refine .bind (subtract_triple hexisting) fun left => .of_state ?_
    rintro s ⟨rfl, hleft⟩
    refine .ite (fun _ => .pure ?_) fun hactive => ?_
    · rintro s rfl
      exact ⟨rfl, fun h => nomatch h⟩
    · refine .bind (subtract_triple hexisting) fun left' => .of_state ?_
      rintro s ⟨rfl, hleft'⟩
      have hle : s.session.activeBytes ≤ left' := by
        rw [UInt64.not_lt, UInt64.le_iff_toNat_le] at hactive
        rw [UInt64.le_iff_toNat_le]
        omega
      refine .bind (subtract_triple hle) fun rest => .pure ?_
      rintro s ⟨rfl, hrest⟩
      refine ⟨rfl, fun hreached => ?_⟩
      rw [decide_eq_false_iff_not] at hreached
      rw [UInt64.le_iff_toNat_le] at hexisting hle
      omega

theorem reserveReached_triple (n : Nat) (available : UInt64) :
    Triple answers (· = w) (reserveReached n available) (fun _ s => s = w)
      (fun s => ∃ error, s = w.setError error) := by
  unfold reserveReached
  refine .bind (M := fun _ s => s = w) (.get fun s hs => hs) fun a => ?_
  refine .ite (fun _ => .pure fun s hs => hs) fun hle => ?_
  have hle' : UInt64.ofNat n ≤ available := by
    have hsize : n < UInt64.size := Nat.lt_of_le_of_lt (Nat.not_lt.mp hle) available.toNat_lt
    rw [UInt64.le_iff_toNat_le, UInt64.toNat_ofNat_of_lt' hsize]
    exact Nat.not_lt.mp hle
  exact .bind (subtract_triple hle') fun left => .pure fun s hs => hs.1

theorem fault_triple {α : Type} {post : α → World → Prop} (error : String) :
    Triple answers (· = w) (fault error : Call α) post (fun s => ∃ error, s = w.setError error) := by
  unfold fault
  refine .bind (M := fun _ s => ∃ error, s = w.setError error) (.modify ?_)
    fun _ => .fail fun s hs => hs
  rintro s rfl
  exact ⟨error, rfl⟩

theorem refuseIf_triple (reached : Bool) (error : String) :
    Triple answers (· = w) (refuseIf reached error) (fun _ s => reached = false ∧ s = w)
      (fun s => ∃ error, s = w.setError error) := by
  unfold refuseIf
  cases reached with
  | true => exact fault_triple error
  | false => exact .pure fun s hs => ⟨rfl, hs⟩

/-- **A check that passes leaves the state as it is, and room**; one that does not faults the session. -/
theorem ensureCapacity_triple (hlimited : w.session.limits.Limited) (n : Nat) (capacity : Capacity) :
    Triple answers (· = w) (ensureCapacity n capacity) (fun _ s => s = w ∧ Room w n)
      (fun s => ∃ error, s = w.setError error) := by
  unfold ensureCapacity
  refine .bind (M := fun _ s => s = w) (.get fun s hs => hs) fun a => ?_
  refine .bind (refuseIf_triple _ _) fun _ => .of_pure fun _ => ?_
  refine .bind (sessionLimitReached_triple hlimited n) fun reached => .of_state ?_
  rintro s ⟨rfl, hsess⟩
  refine .bind (refuseIf_triple _ _) fun _ => .of_pure fun hreached => ?_
  refine .bind (totalLimitReached_triple hlimited n) fun reached' => .of_state ?_
  rintro s ⟨rfl, htotal⟩
  refine .bind (refuseIf_triple _ _) fun _ => .of_pure fun hreached' => ?_
  cases capacity.filesystem with
  | none => exact fault_triple _
  | some filesystem =>
    refine .bind (reserveReached_triple n _) fun reached'' => ?_
    refine (refuseIf_triple _ _).mono (fun _ hs => hs) ?_ (fun _ hs => hs)
    rintro _ s' ⟨_, rfl⟩
    exact ⟨rfl, hsess hreached, htotal hreached'⟩

/-! ## Lines -/

/-- No line was added. -/
def NoLine (w s : World) : Prop := ∀ f, (s.output f).lines = (w.output f).lines ∧ s.records f = w.records f

theorem NoLine.refl (w : World) : NoLine w w := fun _ => ⟨rfl, rfl⟩

theorem NoLine.trans (h : NoLine w s) (h' : NoLine s s') : NoLine w s' :=
  fun f => ⟨(h' f).1.trans (h f).1, (h' f).2.trans (h f).2⟩

theorem noLine_setError (error : String) (w : World) : NoLine w (w.setError error) := fun _ => ⟨rfl, rfl⟩

theorem noLine_failOutput (f : RecordFile) (w : World) : NoLine w (w.failOutput f) := by
  intro g
  refine ⟨(unchanged_failOutput f w).lines g, rfl⟩

/-- The end of an append that returns false. -/
structure Refused (always : Prop) (w s : World) : Prop where
  budget : Budget always s
  noLine : NoLine w s

theorem lineBytes_append (lines : List Bytes) (line : Bytes) :
    lineBytes (lines ++ [line]) = lineBytes lines + (line.length + 1) := by
  unfold lineBytes
  rw [List.map_append, List.sum_append, List.map_singleton, List.sum_singleton]

theorem linesBytes_of_lines {f : RecordFile} {line : Bytes} (hf : (s.output f).lines = (w.output f).lines ++ [line])
    (hother : ∀ g, g ≠ f → (s.output g).lines = (w.output g).lines) :
    s.linesBytes = w.linesBytes + (line.length + 1) := by
  unfold World.linesBytes
  cases f with
  | vehicleState =>
    rw [hf, hother .events (by decide), hother .dataFiles (by decide), lineBytes_append]
    omega
  | events =>
    rw [hf, hother .vehicleState (by decide), hother .dataFiles (by decide), lineBytes_append]
    omega
  | dataFiles =>
    rw [hf, hother .vehicleState (by decide), hother .events (by decide), lineBytes_append]
    omega

theorem Budget.line (hw : Budget always w) {f : RecordFile} {line : Bytes} {drained : Nat}
    {timestampMs : Int64} (hroom : Room w (line.length + 1)) :
    Budget always ((w.putLine f line drained).count f line timestampMs) := by
  have hset : ∀ g, ((w.setOutput f { w.output f with lines := (w.output f).lines ++ [line] }).output g).lines
      = if g = f then (w.output f).lines ++ [line] else (w.output g).lines := by
    intro g
    show (update w.session.outputs f _ g).lines = _
    by_cases hg : g = f
    · rw [if_pos hg, hg, update_self]
    · rw [if_neg hg, update_of_ne hg]
      rfl
  have hdrain := unchanged_drain f drained
    (w.setOutput f { w.output f with lines := (w.output f).lines ++ [line] })
  generalize hput : w.putLine f line drained = s
  have hs : (w.setOutput f { w.output f with lines := (w.output f).lines ++ [line] }).drain f drained = s :=
    hput
  rw [hs] at hdrain
  have hlines : s.linesBytes = w.linesBytes + (line.length + 1) := by
    refine linesBytes_of_lines (f := f) ?_ ?_
    · rw [hdrain.lines, hset, if_pos rfl]
    · intro g hg
      rw [hdrain.lines, hset, if_neg hg]
  have hartifacts : s.artifactBytes = w.artifactBytes := hdrain.artifactBytes
  have hactive : s.session.activeBytes = w.session.activeBytes := hdrain.activeBytes
  have hsum : (s.session.activeBytes + UInt64.ofNat (line.length + 1)).toNat
      = w.session.activeBytes.toNat + (line.length + 1) := by
    have hmax := w.session.limits.maxSessionBytes.toNat_lt
    have hsess := hroom.session
    rw [hactive, UInt64.toNat_add, UInt64.toNat_ofNat', Nat.mod_eq_of_lt (show line.length + 1 < 2 ^ 64 by omega)]
    exact Nat.mod_eq_of_lt (by omega)
  exact {
    limited := by
      show s.session.limits.Limited
      rw [hdrain.limits]
      exact hw.limited
    wrapped := hdrain.wrapped.trans hw.wrapped
    counted := by
      show (s.session.activeBytes + _).toNat = s.linesBytes + s.artifactBytes
      have := hw.counted
      omega
    session := by
      show s.session.activeBytes + _ ≤ s.session.limits.maxSessionBytes
      rw [UInt64.le_iff_toNat_le, hsum, hdrain.limits]
      exact hroom.session
    total := by
      intro _ _
      show s.session.existingBytes.toNat + (s.session.activeBytes + _).toNat
        ≤ s.session.limits.maxTotalBytes.toNat
      rw [hsum, hdrain.limits, hdrain.existingBytes]
      have := hroom.total
      show w.session.existingBytes.toNat + _ ≤ w.session.limits.maxTotalBytes.toNat
      omega
    kept := by
      show ∀ name ∈ s.session.kept, (s.artifacts name).isSome = true
      rw [hdrain.kept, hdrain.artifacts]
      exact hw.kept
    here := by
      intro hrecording
      obtain ⟨hw', hkeeps⟩ := hdrain.here hrecording
      exact hkeeps (hw.here hw') }

/-- A stream takes the line, or nothing of it. -/
theorem writeLine_triple (f : RecordFile) (line : Bytes) (drained : Nat) :
    Triple answers (· = w) (writeLine f line drained) (fun _ s => s = w.putLine f line drained)
      (fun s => s = w ∨ ∃ error, s = (w.failOutput f).setError error) := by
  unfold writeLine
  have hwrite : Triple answers (· = w)
      (do
        let a ← get
        require (!(a.output f).failed) ("write " ++ f.filename ++ " failed")
        act .writeLine (World.putLine f line drained) ("write " ++ f.filename ++ " failed") : Call Unit)
      (fun _ s => s = w.putLine f line drained) (· = w) := by
    refine .bind (M := fun _ s => s = w) (.get fun s hs => hs) fun a => ?_
    refine .bind (.require fun _ s hs => hs) fun _ => .of_pure fun _ => ?_
    refine .act (fun _ s hs => ?_) fun _ s hs => hs
    rw [hs]
  refine .onFail hwrite (fun s hs => Or.inl hs) ?_
  · rintro error s rfl
    exact Or.inr ⟨error, rfl⟩

theorem unchanged_resetSinceFlush (f : RecordFile) (w : World) : Unchanged w (w.resetSinceFlush f) :=
  ⟨rfl, rfl, rfl, rfl, rfl, fun _ => rfl, rfl, fun h => ⟨h, id⟩⟩

theorem flushLines_triple (hlive : ∀ op, answers op ≠ .crashed) (f : RecordFile) {stop : World → Prop} :
    Triple answers (Budget always) (flushLines f) (fun _ => Budget always) stop := by
  unfold flushLines
  refine .bind (M := fun _ => Budget always) (.get fun s hs => hs) fun a => ?_
  refine .ite (fun _ => ?_) fun _ => .pure fun s hs => hs
  refine .bind (M := fun _ => Budget always) ?_ fun _ => .modify ?_
  · have hflush : Triple answers (Budget always)
        (act .flushLine (World.flush f) ("flush " ++ f.filename ++ " failed") : Call Unit)
        (fun _ => Budget always) (Budget always) :=
      .act (fun _ s hs => hs.of_unchanged (unchanged_drain f _ s)) fun _ s hs => hs
    have hnoted := Triple.onFail_live hlive hflush fun _ s hs =>
      hs.of_unchanged (unchanged_failOutput f s)
    exact .attempt_live hlive hnoted fun _ s hs => hs
  · intro s hs
    exact hs.of_unchanged (unchanged_resetSinceFlush f s)

/-- **A line is counted when it is written**; where the append fails, no line is. -/
theorem appendLine_triple (hw : Budget always w) (f : RecordFile) (line : Bytes) (timestampMs : Int64) (environment : LineEnvironment)
    (hlive : ∀ op, answers op ≠ .crashed) :
    Triple answers (· = w) (appendLine f line timestampMs environment) (fun _ => Budget always)
      (Refused always w) := by
  unfold appendLine
  refine .bind (M := fun _ s => s = w ∧ Room w (line.length + 1)) ?_ fun _ => .of_state ?_
  · refine (ensureCapacity_triple hw.limited _ _).mono (fun s hs => hs) (fun _ s hs => hs) ?_
    rintro s ⟨error, rfl⟩
    exact ⟨hw.of_unchanged (unchanged_setError error w), noLine_setError error w⟩
  · rintro s ⟨rfl, hroom⟩
    refine .bind (M := fun _ t => t = s.putLine f line environment.drained) ?_ fun _ => ?_
    · refine (writeLine_triple f line _).mono (fun t ht => ht) (fun _ t ht => ht) ?_
      rintro t (rfl | ⟨error, rfl⟩)
      · exact ⟨hw, NoLine.refl _⟩
      · exact ⟨hw.of_unchanged ((unchanged_failOutput f _).trans (unchanged_setError error _)),
          (noLine_failOutput f _).trans (noLine_setError error _)⟩
    · refine .bind (M := fun _ => Budget always) (.modify ?_) fun _ =>
        flushLines_triple hlive f
      rintro t rfl
      exact hw.line hroom

end Cockpit.Recording
