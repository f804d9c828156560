/-
  Artifacts and the bytes of a session: a data file that is copied is counted when the copy is complete, and
  given back where its checksum cannot be computed.

  The name of a copy is not that of a kept one, because it is created with `O_EXCL`.
-/
import Cockpit.Recording.ByteBudget

namespace Cockpit.Recording

open ByteText Durable Durable.Program List Option

variable {always : Prop} {w s s' : World} {answers : Operation → Answer}

/-! ## Artifacts -/

/-- Nothing but the artifact of this name has changed. -/
structure Elsewhere (w : World) (name : Bytes) (s : World) : Prop where
  session : s.session = w.session
  records : s.records = w.records
  others : ∀ other, other ≠ name → s.artifacts other = w.artifacts other
  here : s.temporary.isSome = true

/-- The artifact has this many bytes. -/
structure Copying (w : World) (name : Bytes) (n : Nat) (s : World) : Prop extends Elsewhere w name s where
  content : ∃ content, s.artifacts name = some content ∧ content.length = n

/-- What a copy leaves when it succeeds, and when it fails. -/
def Attempted (w : World) (name : Bytes) (n : Nat) : Except String Unit → World → Prop
  | .ok _, s => Copying w name n s
  | .error _, s => Elsewhere w name s

theorem artifact_eq (h : w.temporary.isSome = true) (name : Bytes) : w.artifact name = w.artifacts name := by
  obtain ⟨d, hd⟩ := isSome_iff_exists.mp h
  unfold World.artifact World.artifacts
  rw [directory_of_temporary hd, hd]

theorem directory_inTemporary (f : Directory → Directory) {d : Directory} (h : w.temporary = some d) :
    (w.inTemporary f).directory = some (f d) := by
  refine directory_of_temporary ?_
  rw [temporary_inTemporary, h]
  rfl

variable {name : Bytes}

theorem Elsewhere.setArtifact (h : Elsewhere w name s) (content : Option Bytes) :
    Elsewhere w name (s.setArtifact name content) ∧ (s.setArtifact name content).artifacts name = content := by
  obtain ⟨d, hd⟩ := isSome_iff_exists.mp h.here
  have hdir := directory_inTemporary
    (fun d => { d with artifacts := Function.update d.artifacts name content }) hd
  refine ⟨⟨?_, ?_, ?_, isSome_inTemporary _ h.here⟩, ?_⟩
  · exact (session_inTemporary _ s).trans h.session
  · rw [← h.records]
    funext f
    unfold World.records World.setArtifact
    rw [hdir, directory_of_temporary hd]
    rfl
  · intro other hne
    rw [← h.others other hne]
    unfold World.artifacts World.setArtifact
    rw [hdir, directory_of_temporary hd, bind_some, bind_some]
    exact Function.update_of_ne hne _ _
  · unfold World.artifacts World.setArtifact
    rw [hdir, bind_some]
    exact Function.update_self _ _ _

theorem Copying.extend {n : Nat} (h : Copying w name n s) (bytes : Bytes) :
    Copying w name (n + bytes.length) (s.extendArtifact name bytes) := by
  obtain ⟨content, hcontent, hlen⟩ := h.content
  unfold World.extendArtifact
  rw [artifact_eq h.here, hcontent, getD_some]
  obtain ⟨helsewhere, hset⟩ := h.toElsewhere.setArtifact (some (content ++ bytes))
  exact ⟨helsewhere, content ++ bytes, hset, by rw [length_append, hlen]⟩

/-- What was read is written. -/
theorem writeChunk_triple (reads : Nat) (chunk : Bytes) (writes : List WriteOutcome) (n : Nat) :
    Triple answers (Copying w name n) (writeChunk name reads chunk writes)
      (fun _ => Copying w name (n + chunk.length)) (Elsewhere w name) := by
  induction writes generalizing chunk n with
  | nil =>
    cases chunk with
    | nil => exact .pure fun s hs => hs
    | cons b chunk => exact .fail fun s hs => hs.toElsewhere
  | cons write writes ih =>
    cases chunk with
    | nil => exact .pure fun s hs => hs
    | cons b chunk =>
      cases write with
      | interrupted => exact ih (b :: chunk) n
      | failed error => exact .fail fun s hs => hs.toElsewhere
      | wrote size =>
        unfold writeChunk
        refine .ite (fun _ => .fail fun s hs => hs.toElsewhere) fun _ => ?_
        refine .bind (M := fun _ => Copying w name (n + ((b :: chunk).take size).length))
          (.act (fun _ s hs => hs.extend _) fun _ s hs => hs.toElsewhere) fun _ => ?_
        refine (ih ((b :: chunk).drop size) _).mono (fun s hs => hs) ?_ (fun s hs => hs)
        intro _ s hs
        have htotal : n + ((b :: chunk).take size).length + ((b :: chunk).drop size).length
            = n + (b :: chunk).length := by
          rw [Nat.add_assoc, ← length_append, take_append_drop]
        rwa [htotal] at hs

/-- **A copy that succeeds has the size of the source.** -/
theorem copyChunks_triple (remaining : Nat) (reads : List ReadOutcome) (n : Nat) :
    Triple answers (Copying w name n) (copyChunks name remaining reads)
      (fun _ => Copying w name (n + remaining)) (Elsewhere w name) := by
  induction reads generalizing remaining n with
  | nil =>
    cases remaining with
    | zero => exact .pure fun s hs => hs
    | succ remaining => exact .fail fun s hs => hs.toElsewhere
  | cons read reads ih =>
    cases remaining with
    | zero => exact .pure fun s hs => hs
    | succ remaining =>
      cases read with
      | interrupted => exact ih (remaining + 1) n
      | failed error => exact .fail fun s hs => hs.toElsewhere
      | bytes chunk writes =>
        unfold copyChunks
        dsimp only
        refine .ite (fun _ => .fail fun s hs => hs.toElsewhere) fun _ => ?_
        have hle := length_take_le (min (remaining + 1) kCopyBufferBytes) chunk
        generalize chunk.take (min (remaining + 1) kCopyBufferBytes) = chunk at hle
        refine .bind (writeChunk_triple _ _ _ _) fun _ => ?_
        refine (ih (remaining + 1 - chunk.length) _).mono (fun s hs => hs) ?_ (fun s hs => hs)
        intro _ s hs
        rwa [show n + chunk.length + (remaining + 1 - chunk.length) = n + (remaining + 1) by omega] at hs

/-- All of the source is in the copy. -/
theorem copyContent_triple (size : UInt64) (reads : List ReadOutcome) :
    Triple answers (Copying w name 0) (copyContent name size reads)
      (fun _ => Copying w name size.toNat) (Elsewhere w name) := by
  unfold copyContent
  have hcopied : Triple answers (Copying w name 0) (copyChunks name size.toNat reads)
      (fun _ => Copying w name (0 + size.toNat)) (Elsewhere w name) :=
    copyChunks_triple size.toNat reads 0
  rw [Nat.zero_add] at hcopied
  refine .bind hcopied fun _ => ?_
  exact .bind (.check fun _ s hs => hs.toElsewhere) fun _ =>
    .check fun _ s hs => hs.toElsewhere

theorem removeArtifact_triple (hlive : ∀ op, answers op ≠ .crashed) {stop : World → Prop} :
    Triple answers (Elsewhere w name) (removeArtifact name) (fun _ => Elsewhere w name) stop := by
  unfold removeArtifact
  refine .bind (M := fun _ => Elsewhere w name) ?_ fun _ => .pure fun s hs => hs
  have hremove : Triple answers (Elsewhere w name)
      (act .removeArtifact (World.setArtifact name none) "remove failed" : Call Unit)
      (fun _ => Elsewhere w name) (Elsewhere w name) :=
    .act (fun _ s hs => (hs.setArtifact none).1) fun _ s hs => hs
  exact .attempt_live hlive hremove fun _ s hs => hs

/-- `O_EXCL`: there is no artifact of this name. -/
theorem createArtifact_triple (hw : w.temporary.isSome = true) : Triple answers (· = w) (createArtifact name)
      (fun _ s => w.artifacts name = none ∧ Copying w name 0 s) (· = w) := by
  unfold createArtifact
  refine .bind (M := fun a s => a = w ∧ s = w) (.get fun s hs => ⟨hs, hs⟩) fun a =>
    .of_pure ?_
  rintro rfl
  refine .bind (.require fun _ s hs => hs) fun _ => .of_pure fun hnone => ?_
  rw [artifact_eq hw, isNone_iff_eq_none] at hnone
  refine .act (fun _ s hs => ?_) fun _ s hs => hs
  subst hs
  have hsame : Elsewhere s name s := ⟨rfl, rfl, fun _ _ => rfl, hw⟩
  obtain ⟨helsewhere, hset⟩ := hsame.setArtifact (some [])
  exact ⟨hnone, helsewhere, [], hset, rfl⟩

theorem Elsewhere.artifactBytes (h : Elsewhere w name s) (hname : name ∉ w.session.kept) :
    s.artifactBytes = w.artifactBytes := by
  unfold World.artifactBytes
  rw [h.session]
  refine congrArg List.sum (map_congr_left fun other hother => ?_)
  rw [h.others other fun heq => hname (heq ▸ hother)]

theorem Elsewhere.noLine (h : Elsewhere w name s) : NoLine w s := by
  intro f
  refine ⟨?_, congrFun h.records f⟩
  unfold World.output
  rw [h.session]

theorem Elsewhere.budget (hw : Budget always w) (h : Elsewhere w name s) (hname : name ∉ w.session.kept) :
    Budget always s where
  limited := by
    rw [h.session]
    exact hw.limited
  wrapped := by
    rw [h.session]
    exact hw.wrapped
  counted := by
    have hlines : s.linesBytes = w.linesBytes := by
      unfold World.linesBytes World.output
      rw [h.session]
    rw [h.artifactBytes hname, hlines, h.session]
    exact hw.counted
  session := by
    rw [h.session]
    exact hw.session
  total := by
    unfold World.status
    rw [h.session]
    exact hw.total
  kept := by
    rw [h.session]
    intro other hother
    rw [h.others other fun heq => hname (heq ▸ hother)]
    exact hw.kept other hother
  here _ := h.here

theorem Elsewhere.refused (hw : Budget always w) (h : Elsewhere w name s) (hname : name ∉ w.session.kept) :
    Refused always w s :=
  ⟨h.budget hw hname, h.noLine⟩

/-! ## Data files -/

namespace World

def setActive (activeBytes : UInt64) (w : World) : World :=
  { w with session := { w.session with activeBytes := activeBytes } }

/-- The artifact is kept. -/
def keep (name : Bytes) (w : World) : World :=
  { w with session := { w.session with kept := w.session.kept ++ [name] } }

end World

theorem Elsewhere.setActive (h : Elsewhere w name s) (activeBytes : UInt64) :
    Elsewhere (w.setActive activeBytes) name (s.setActive activeBytes) where
  session := by
    show { s.session with activeBytes := activeBytes } = { w.session with activeBytes := activeBytes }
    rw [h.session]
  records := h.records
  others := h.others
  here := h.here

theorem Copying.setActive {n : Nat} (h : Copying w name n s) (activeBytes : UInt64) :
    Copying (w.setActive activeBytes) name n (s.setActive activeBytes) :=
  ⟨h.toElsewhere.setActive activeBytes, h.content⟩

theorem computeFnv1a64_triple {P : World → Prop} (name : Bytes) :
    Triple answers P (computeFnv1a64 name) (fun _ => P) P := by
  unfold computeFnv1a64
  refine .bind (.check fun _ s hs => hs) fun _ => ?_
  exact .bind (M := fun _ => P) (.get fun s hs => hs) fun _ => .pure fun s hs => hs

/-- **A copy without a checksum is given back**, and there is enough to give. -/
theorem checksumCopy_triple (hlive : ∀ op, answers op ≠ .crashed) {n : Nat} {size : UInt64}
    (hsize : size ≤ w.session.activeBytes) (file : RecordingDataFile) :
    Triple answers (Copying w name n) (checksumCopy name size file) (fun _ => Copying w name n)
      (Elsewhere (w.setActive (w.session.activeBytes - size)) name) := by
  unfold checksumCopy
  refine .ite (fun _ => ?_) fun _ => .pure fun s hs => hs
  refine .bind (M := fun _ => Copying w name n) (.attempt_live hlive
    (computeFnv1a64_triple name) fun _ s hs => hs) fun digest => ?_
  cases digest with
  | ok checksum => exact .pure fun s hs => hs
  | error error =>
    have hremove : Triple answers (Elsewhere w name) (removeArtifact name)
        (fun _ => Elsewhere w name) (Elsewhere (w.setActive (w.session.activeBytes - size)) name) :=
      removeArtifact_triple hlive
    refine .bind (hremove.mono (fun s hs => hs.toElsewhere) (fun _ s hs => hs) fun s hs => hs)
      fun _ => ?_
    refine .bind (M := fun a s => a = s ∧ Elsewhere w name s) (.get fun s hs => ⟨rfl, hs⟩)
      fun a => .of_state ?_
    rintro s ⟨rfl, hs⟩
    have hle : size ≤ a.session.activeBytes := hs.session ▸ hsize
    refine .bind (subtract_triple hle) fun left => ?_
    refine .bind (M := fun _ => Elsewhere (w.setActive (w.session.activeBytes - size)) name)
      (.modify ?_) fun _ => .fail fun t ht => ht
    rintro t ⟨rfl, hleft⟩
    have heq : left = w.session.activeBytes - size := by
      rw [← UInt64.toNat_inj, hleft, UInt64.toNat_sub_of_le _ _ hsize, hs.session]
    rw [heq]
    exact hs.setActive (w.session.activeBytes - size)

theorem Budget.keep (hw : Budget always w) {size : UInt64} (hroom : Room w size.toNat)
    (hfresh : name ∉ w.session.kept) (hs : Copying (w.setActive (w.session.activeBytes + size)) name size.toNat s) :
    Budget always (s.keep name) := by
  have hsess : (s.keep name).session = { w.session with
      activeBytes := w.session.activeBytes + size, kept := w.session.kept ++ [name] } := by
    show { s.session with kept := s.session.kept ++ [name] } = _
    rw [hs.session]
    rfl
  obtain ⟨content, hcontent, hlen⟩ := hs.content
  have hsum : (w.session.activeBytes + size).toNat = w.session.activeBytes.toNat + size.toNat := by
    have hmax := w.session.limits.maxSessionBytes.toNat_lt
    have hle := hroom.session
    rw [UInt64.toNat_add]
    exact Nat.mod_eq_of_lt (by omega)
  have hlines : (s.keep name).linesBytes = w.linesBytes := by
    unfold World.linesBytes World.output
    rw [hsess]
  have hothers : ∀ other ∈ w.session.kept, (s.keep name).artifacts other = w.artifacts other := by
    intro other hother
    exact hs.others other fun heq => hfresh (heq ▸ hother)
  have hartifacts : (s.keep name).artifactBytes = w.artifactBytes + size.toNat := by
    unfold World.artifactBytes
    rw [hsess, map_append, sum_append, map_singleton, sum_singleton]
    have hname : (s.keep name).artifacts name = some content := hcontent
    rw [hname, getD_some, hlen]
    congr 2
    refine map_congr_left fun other hother => ?_
    rw [hothers other hother]
  exact {
    limited := by
      rw [hsess]
      exact hw.limited
    wrapped := by
      rw [hsess]
      exact hw.wrapped
    counted := by
      rw [hlines, hartifacts, hsess]
      show (w.session.activeBytes + size).toNat = _
      have := hw.counted
      omega
    session := by
      rw [hsess, UInt64.le_iff_toNat_le, hsum]
      exact hroom.session
    total := by
      intro _ _
      rw [hsess, hsum, ← Nat.add_assoc]
      exact hroom.total
    kept := by
      rw [hsess]
      intro other hother
      rcases mem_append.1 hother with hother | hother
      · rw [hothers other hother]
        exact hw.kept other hother
      · obtain rfl := mem_singleton.1 hother
        show (s.artifacts other).isSome = true
        rw [hcontent]
        rfl
    here := fun _ => hs.here }

/-- A copy keeps the budget and adds no line, whether it succeeds or not. -/
theorem copyDataFile_triple (hlive : ∀ op, answers op ≠ .crashed) (hw : Budget always w)
    (hrecording : w.status.state = .recording) (file : RecordingDataFile) (environment : CopyEnvironment) :
    Triple answers (· = w) (copyDataFile file environment) (fun _ => Refused always w) (Refused always w) := by
  have hsame : ∀ t, t = w → Refused always w t := by
    rintro t rfl
    exact ⟨hw, NoLine.refl _⟩
  unfold copyDataFile
  refine .bind (M := fun _ t => t = w) (.ofExcept (fun _ _ t ht => ht)
    fun _ _ t ht => hsame t ht) fun size => ?_
  refine .bind (M := fun _ t => t = w ∧ Room w size.toNat) ?_ fun _ => .of_state ?_
  · refine (ensureCapacity_triple hw.limited _ _).mono (fun t ht => ht) (fun _ t ht => ht) ?_
    rintro t ⟨error, rfl⟩
    exact ⟨hw.of_unchanged (unchanged_setError error w), noLine_setError error w⟩
  rintro t ⟨rfl, hroom⟩
  refine .bind (.require fun _ => hsame) fun _ => .of_pure fun _ => ?_
  refine .bind (.check fun _ => hsame) fun _ => ?_
  refine .bind (M := fun a u => a = t ∧ u = t) (.get fun u hu => ⟨hu, hu⟩) fun a =>
    .of_pure ?_
  rintro rfl
  dsimp only
  generalize artifactName a.status.dataFilesIndexed (filename file.path) = name
  refine .bind ((createArtifact_triple (hw.here hrecording)).mono (fun u hu => hu)
    (fun _ u hu => hu) hsame) fun _ => .of_pure fun hnone => ?_
  have hfresh : name ∉ a.session.kept := by
    intro hmem
    have hsome := hw.kept name hmem
    rw [hnone] at hsome
    cases hsome
  have hrefused : ∀ u, Elsewhere a name u → Refused always a u := fun u hu => hu.refused hw hfresh
  refine .bind (M := Attempted a name size.toNat)
    (.attempt_live hlive (copyContent_triple size environment.reads) fun _ u hu => hu)
    fun copied => ?_
  cases copied with
  | error error =>
    refine .bind (removeArtifact_triple hlive) fun _ => ?_
    exact .fail hrefused
  | ok =>
    -- The bytes are counted first, and given back where the checksum fails.
    refine .bind (M := fun _ u => Copying (a.setActive (a.session.activeBytes + size)) name
      size.toNat u) (.modify ?_) fun _ => ?_
    · intro u hu
      have hactive : u.session.activeBytes = a.session.activeBytes := by rw [hu.session]
      have hset := hu.setActive (a.session.activeBytes + size)
      rw [← hactive] at hset
      rw [← hactive]
      exact hset
    have hback : a.session.activeBytes + size - size = a.session.activeBytes :=
      UInt64.add_sub_cancel _ _
    have hsize : size ≤ (a.setActive (a.session.activeBytes + size)).session.activeBytes := by
      have hmax := a.session.limits.maxSessionBytes.toNat_lt
      have hle := hroom.session
      rw [UInt64.le_iff_toNat_le]
      show size.toNat ≤ (a.session.activeBytes + size).toNat
      rw [UInt64.toNat_add, Nat.mod_eq_of_lt (by omega)]
      omega
    refine .bind ((checksumCopy_triple hlive hsize _).mono (fun u hu => hu) (fun _ u hu => hu)
      ?_) fun recorded => ?_
    · intro u hu
      refine hrefused u ?_
      have hsetback : (a.setActive (a.session.activeBytes + size)).setActive
          ((a.setActive (a.session.activeBytes + size)).session.activeBytes - size) = a := by
        show a.setActive (a.session.activeBytes + size - size) = a
        rw [hback]
        rfl
      rwa [hsetback] at hu
    · refine .bind (M := fun _ u => Refused always a u) (.modify ?_) fun _ =>
        .pure fun u hu => hu
      intro u hu
      exact ⟨hw.keep hroom hfresh hu, hu.toElsewhere.noLine⟩

end Cockpit.Recording
