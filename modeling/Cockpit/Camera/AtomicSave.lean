/-
  A saved profile is there whole or not at all, and the caller is told which. A destination that held the same
  bytes before the call holds them whatever the flags say, so committed is that the destination is a new file.
-/
import Cockpit.Camera.TuningProfileSave

namespace Cockpit.Camera.ProfileSave

open CrashDisk List

/-! ## What stands -/

/-- What can become of the directory `d`, with the name of the temporary file, and what the caller would be told. -/
inductive Kept (encoded : Except String (List UInt8)) (filename : String) (d : Disk String UInt8) :
    Disk String UInt8 → Option String → Bool → Bool → Prop
  | untouched : Kept encoded filename d d none false false
  | staged {name : String} (hname : filename ≠ name) (hfree : d.entry name = none) (file : File UInt8) :
      Kept encoded filename d (d.add name file) (some name) false false
  | unlinked {name : String} (hname : filename ≠ name) (hfree : d.entry name = none) (file : File UInt8) :
      Kept encoded filename d ((d.add name file).unlink name) (some name) false false
  | replaced {name : String} {text : List UInt8} (hname : filename ≠ name) (hfree : d.entry name = none)
      (htext : encoded = .ok text) :
      Kept encoded filename d (d.replace name filename { bytes := text, synced := true }) none true false
  | synced {name : String} {text : List UInt8} (hname : filename ≠ name) (hfree : d.entry name = none)
      (htext : encoded = .ok text) :
      Kept encoded filename d (d.replace name filename { bytes := text, synced := true }).syncDirectory none true true

/-- What has become of the directory so far. -/
def Save.Keeps (encoded : Except String (List UInt8)) (filename : String) (d : Disk String UInt8) (s : Save) : Prop :=
  Kept encoded filename d s.disk s.temporary s.result.committed s.result.durable

/-- The states at each call. -/
inductive Shape (encoded : Except String (List UInt8)) (filename : String) (d : Disk String UInt8)
    (history : List (Answer × Place)) : Save → Prop
  | opening {text : List UInt8} (htext : encoded = .ok text) :
      Shape encoded filename d history { place := .openDirectory, text, disk := d }
  | creating {text : List UInt8} (htext : encoded = .ok text) :
      Shape encoded filename d history { place := .mkstemp, text, disk := d, directory := true }
  | flagging {text : List UInt8} {name : String} (htext : encoded = .ok text) (hname : filename ≠ name)
      (hfree : d.entry name = none) :
      Shape encoded filename d history
        { place := .fcntl, text, disk := d.add name { bytes := [], synced := false }, directory := true,
          file := some d.files.length, temporary := some name }
  | writing {text : List UInt8} {name : String} {offset : Nat} (htext : encoded = .ok text) (hname : filename ≠ name)
      (hfree : d.entry name = none) (hoffset : offset < text.length) :
      Shape encoded filename d history
        { place := .write offset, text, disk := d.add name { bytes := text.take offset, synced := false },
          directory := true, file := some d.files.length, temporary := some name }
  | syncing {text : List UInt8} {name : String} (htext : encoded = .ok text) (hname : filename ≠ name)
      (hfree : d.entry name = none) :
      Shape encoded filename d history
        { place := .fsyncFile, text, disk := d.add name { bytes := text, synced := false }, directory := true,
          file := some d.files.length, temporary := some name }
  | closing {text : List UInt8} {name : String} (htext : encoded = .ok text) (hname : filename ≠ name)
      (hfree : d.entry name = none) :
      Shape encoded filename d history
        { place := .close, text, disk := d.add name { bytes := text, synced := true }, directory := true,
          file := some d.files.length, temporary := some name }
  | replacing {text : List UInt8} {name : String} (htext : encoded = .ok text) (hname : filename ≠ name)
      (hfree : d.entry name = none) :
      Shape encoded filename d history
        { place := .rename, text, disk := d.add name { bytes := text, synced := true }, directory := true,
          temporary := some name }
  | syncingDirectory {text : List UInt8} {name : String} (htext : encoded = .ok text) (hname : filename ≠ name)
      (hfree : d.entry name = none) :
      Shape encoded filename d history
        { place := .fsyncDirectory, text, disk := d.replace name filename { bytes := text, synced := true },
          directory := true, result := { committed := true } }
  -- on the way out a temporary name is still there
  | leaving {s : Save} (hkept : s.Keeps encoded filename d)
      (hthere : ∀ name, s.temporary = some name → s.disk.entry name ≠ none) (hplace : (settle s).place ≠ .returned) :
      Shape encoded filename d history (settle s)
  -- a name that is left is one that could not be unlinked
  | returned {s : Save} (hplace : s.place = .returned) (hclosed : s.file = none ∧ s.directory = false)
      (hkept : s.Keeps encoded filename d)
      (hleft : ∀ name, s.temporary = some name → s.disk.entry name ≠ none →
        ∃ answer, (answer, Place.unlink) ∈ history ∧ answer.ok = false) :
      Shape encoded filename d history s

section Shapes

variable {encoded : Except String (List UInt8)} {filename : String} {d : Disk String UInt8}
  {history : List (Answer × Place)}

variable {s : Save}

theorem Shape.kept (h : Shape encoded filename d history s) : s.Keeps encoded filename d := by
  cases h with
  | opening htext | creating htext => exact .untouched
  | flagging htext hname hfree | writing htext hname hfree hoffset | syncing htext hname hfree
  | closing htext hname hfree | replacing htext hname hfree => exact .staged hname hfree _
  | syncingDirectory htext hname hfree => exact .replaced hname hfree htext
  | leaving hkept hthere hplace | returned hplace hclosed hkept hleft => exact hkept

/-! ## A call keeps the shape -/

/-- The file is closed, then the directory, then the name is unlinked. -/
theorem settle_cases (s : Save) :
    (s.file.isSome = true ∧ (settle s).place = .closeFile) ∨
    (s.file = none ∧ s.directory = true ∧ (settle s).place = .closeDirectory) ∨
    (s.file = none ∧ s.directory = false ∧ (∃ name, s.temporary = some name) ∧ (settle s).place = .unlink) ∨
    (s.file = none ∧ s.directory = false ∧ s.temporary = none ∧ (settle s).place = .returned) := by
  cases hfile : s.file with
  | some number => simp [settle, hfile]
  | none =>
    cases hdir : s.directory with
    | true => simp [settle, hfile, hdir]
    | false =>
      cases htemporary : s.temporary with
      | some name | none => simp [settle, hfile, hdir, htemporary]

/-- **The way out.** -/
theorem settle_shape (hkept : s.Keeps encoded filename d)
    (hthere : ∀ name, s.temporary = some name → s.disk.entry name ≠ none) :
    Shape encoded filename d history (settle s) := by
  by_cases hplace : (settle s).place = .returned
  · rcases settle_cases s with ⟨-, h⟩ | ⟨-, -, h⟩ | ⟨-, -, -, h⟩ | ⟨hfile, hdir, htemporary, -⟩
    · rw [h] at hplace
      cases hplace
    · rw [h] at hplace
      cases hplace
    · rw [h] at hplace
      cases hplace
    · refine .returned hplace ⟨hfile, hdir⟩ hkept ?_
      intro name hname
      cases htemporary.symm.trans hname
  · exact .leaving hkept hthere hplace

variable {name : String}

/-- From whatever stands, the temporary name is unlinked. -/
theorem settle_staged {file : File UInt8} (hname : filename ≠ name) (hfree : d.entry name = none)
    (hdisk : s.disk = d.add name file) (htemporary : s.temporary = some name)
    (hresult : s.result.committed = false ∧ s.result.durable = false) :
    Shape encoded filename d history (settle s) := by
  apply settle_shape
  · unfold Save.Keeps
    rw [hdisk, htemporary, hresult.1, hresult.2]
    exact .staged hname hfree file
  · intro other hother
    rw [htemporary] at hother
    cases hother
    rw [hdisk, Disk.entry_add, if_pos rfl]
    exact Option.some_ne_none _

theorem writeFrom_shape {text : List UInt8} {offset : Nat} {place : Place} (htext : encoded = .ok text)
    (hname : filename ≠ name) (hfree : d.entry name = none) : Shape encoded filename d history (writeFrom
      { place, text, disk := d.add name { bytes := text.take offset, synced := false }, directory := true,
        file := some d.files.length, temporary := some name } offset) := by
  by_cases hlt : offset < text.length
  · rw [writeFrom, if_pos hlt]
    exact .writing htext hname hfree hlt
  · rw [writeFrom, if_neg hlt, take_of_length_le (Nat.le_of_not_lt hlt)]
    exact .syncing htext hname hfree

theorem temporaryName_ne (filename : String) (answer : Answer) : filename ≠ temporaryName filename answer := by
  intro h
  have hlen := congrArg String.length h
  rw [temporaryName, String.length_append, String.length_append] at hlen
  have hdot : ".tmp.".length = 5 := rfl
  omega

theorem take_written (text : List UInt8) (offset count : Nat) :
    text.take offset ++ (text.drop offset).take count =
      text.take (offset + ((text.drop offset).take count).length) := by
  rw [take_add, ← prefix_iff_eq_take.1 (List.take_prefix count (text.drop offset))]

theorem Kept.there {disk : Disk String UInt8} {committed durable : Bool}
    (h : Kept encoded filename d disk (some name) committed durable) (hthere : disk.entry name ≠ none) :
    ∃ file, filename ≠ name ∧ d.entry name = none ∧ disk = d.add name file ∧ committed = false ∧ durable = false := by
  cases h with
  | staged hname hfree file => exact ⟨file, hname, hfree, rfl, rfl, rfl⟩
  | unlinked hname hfree file =>
    rw [Disk.entry_unlink_add d file hfree] at hthere
    exact absurd hfree hthere

theorem unlink_shape {file : File UInt8} (hplace : s.place = .unlink) (hclosed : s.file = none ∧ s.directory = false)
    (hname : filename ≠ name) (hfree : d.entry name = none) (hdisk : s.disk = d.add name file)
    (htemporary : s.temporary = some name) (hresult : s.result.committed = false ∧ s.result.durable = false)
    (answer : Answer) : Shape encoded filename d (history ++ [(answer, .unlink)]) (advance filename s answer) := by
  unfold advance
  rw [hplace]
  dsimp only
  rw [htemporary, Option.getD_some, hdisk]
  split
  · refine .returned rfl hclosed ?_ ?_
    · unfold Save.Keeps
      rw [hresult.1, hresult.2]
      exact .unlinked hname hfree file
    · intro other hother hentry
      cases hother
      have hgone : ((d.add name file).unlink name).entry name = none := by
        rw [Disk.entry_unlink_add d file hfree, hfree]
      exact absurd hgone hentry
  · rename_i hfailed
    refine .returned rfl hclosed ?_ ?_
    · unfold Save.Keeps
      rw [hresult.1, hresult.2]
      exact .staged hname hfree file
    · intro other hother hentry
      exact ⟨answer, mem_append_right _ (mem_singleton.2 rfl), Bool.eq_false_iff.2 hfailed⟩

theorem leaving_shape (hkept : s.Keeps encoded filename d)
    (hthere : ∀ name, s.temporary = some name → s.disk.entry name ≠ none) (hplace : (settle s).place ≠ .returned)
    (answer : Answer) :
    Shape encoded filename d (history ++ [(answer, (settle s).place)]) (advance filename (settle s) answer) := by
  rcases settle_cases s with ⟨-, h⟩ | ⟨-, -, h⟩ | ⟨hfile, hdir, ⟨name, htemporary⟩, h⟩ | ⟨-, -, -, h⟩
  · unfold advance
    rw [h]
    exact settle_shape hkept hthere
  · unfold advance
    rw [h]
    exact settle_shape hkept hthere
  · unfold Save.Keeps at hkept
    rw [htemporary] at hkept
    obtain ⟨file, hname, hfree, hdisk, hresult⟩ := hkept.there (hthere name htemporary)
    rw [h]
    exact unlink_shape h ⟨hfile, hdir⟩ hname hfree hdisk htemporary hresult answer
  · exact absurd h hplace

/-- **A call keeps the shape**, whatever the system says. -/
theorem advance_shape (h : Shape encoded filename d history s) (answer : Answer) :
    Shape encoded filename d (history ++ [(answer, s.place)]) (advance filename s answer) := by
  cases h with
  | opening htext =>
    unfold advance
    dsimp only
    split
    · exact .creating htext
    · exact settle_shape .untouched fun _ hname => by cases hname
  | creating htext =>
    unfold advance
    dsimp only
    split
    · rename_i hok
      have hfree : d.entry (temporaryName filename answer) = none := of_decide_eq_true (Bool.and_eq_true_iff.1 hok).2
      exact .flagging htext (temporaryName_ne filename answer) hfree
    · exact settle_shape .untouched fun _ hname => by cases hname
  | flagging htext hname hfree =>
    unfold advance
    dsimp only
    split
    · exact writeFrom_shape htext hname hfree
    · exact settle_staged hname hfree rfl rfl ⟨rfl, rfl⟩
  | writing htext hname hfree hoffset =>
    unfold advance
    dsimp only
    split
    · exact .writing htext hname hfree hoffset
    · split
      · exact settle_staged hname hfree rfl rfl ⟨rfl, rfl⟩
      · rw [Option.getD_some, Disk.append_add, take_written]
        exact writeFrom_shape htext hname hfree
  | syncing htext hname hfree =>
    unfold advance
    dsimp only
    split
    · rw [Option.getD_some, Disk.sync_add]
      exact .closing htext hname hfree
    · exact settle_staged hname hfree rfl rfl ⟨rfl, rfl⟩
  | closing htext hname hfree =>
    unfold advance
    dsimp only
    split
    · exact .replacing htext hname hfree
    · exact settle_staged hname hfree rfl rfl ⟨rfl, rfl⟩
  | replacing htext hname hfree =>
    unfold advance
    dsimp only
    split
    · exact .syncingDirectory htext hname hfree
    · exact settle_staged hname hfree rfl rfl ⟨rfl, rfl⟩
  | syncingDirectory htext hname hfree =>
    unfold advance
    dsimp only
    split
    · exact settle_shape (.synced hname hfree htext) fun _ hnone => by cases hnone
    · exact settle_shape (.replaced hname hfree htext) fun _ hnone => by cases hnone
  | leaving hkept hthere hplace => exact leaving_shape hkept hthere hplace answer
  | returned hplace hclosed hkept hleft =>
    unfold advance
    rw [hplace]
    refine .returned hplace hclosed hkept ?_
    intro name hname hentry
    obtain ⟨answer, hmem, hfailed⟩ := hleft name hname hentry
    exact ⟨answer, mem_append_left _ hmem, hfailed⟩

end Shapes

/-! ## Runs -/

section Runs

variable (encode : TuningProfile → Except String (List UInt8)) (filename : String) (profile : TuningProfile)
  (disk : Disk String UInt8) (answers : List Answer)

/-- The run over these answers. -/
def saved : Save := StepRun.run (step filename) (start encode filename profile disk) answers

/-- The calls of the run. -/
def calls : List (Answer × Place) := StepRun.trace (step filename) (start encode filename profile disk) answers

/-- Nothing has happened at first. -/
theorem start_shape : Shape (encode profile) filename disk [] (start encode filename profile disk) := by
  have hearly : ∀ error, Shape (encode profile) filename disk []
      { place := .returned, disk, result := { error := error } } :=
    fun _ => .returned rfl ⟨rfl, rfl⟩ .untouched fun _ hname => by cases hname
  unfold start
  dsimp only
  split
  · exact hearly _
  · split
    · exact hearly _
    · split
      · exact hearly _
      · rename_i text htext
        split
        · exact hearly _
        · exact .opening htext

/-- Every run has the shape. -/
theorem run_shape : Shape (encode profile) filename disk (calls encode filename profile disk answers)
    (saved encode filename profile disk answers) :=
  StepRun.trace_invariant (I := Shape (encode profile) filename disk) (fun _ _ answer h => advance_shape h answer)
    (start_shape encode filename profile disk) answers

end Runs

/-! ## The call returns -/

/-- How many calls there are to come at most. -/
def rank (s : Save) : Nat :=
  match s.place with
  | .openDirectory => s.text.length + 10
  | .mkstemp => s.text.length + 9
  | .fcntl => s.text.length + 8
  | .write offset => (s.text.length - offset) + 7
  | .fsyncFile => 7
  | .close => 6
  | .rename => 5
  | .fsyncDirectory => 4
  | .closeFile => 3
  | .closeDirectory => 2
  | .unlink => 1
  | .returned => 0

theorem rank_settle_le (s : Save) : rank (settle s) ≤ 3 := by
  unfold rank
  rcases settle_cases s with ⟨-, h⟩ | ⟨-, -, h⟩ | ⟨-, -, -, h⟩ | ⟨-, -, -, h⟩ <;> simp [h]

variable {s : Save}

theorem rank_settle_closed (hfile : s.file = none) : rank (settle s) ≤ 2 := by
  unfold rank
  rcases settle_cases s with ⟨hopen, -⟩ | ⟨-, -, h⟩ | ⟨-, -, -, h⟩ | ⟨-, -, -, h⟩
  · simp [hfile] at hopen
  · simp [h]
  · simp [h]
  · simp [h]

theorem rank_settle_unlink (hfile : s.file = none) (hdir : s.directory = false) : rank (settle s) ≤ 1 := by
  unfold rank
  rcases settle_cases s with ⟨hopen, -⟩ | ⟨-, hopen, -⟩ | ⟨-, -, -, h⟩ | ⟨-, -, -, h⟩
  · simp [hfile] at hopen
  · simp [hdir] at hopen
  · simp [h]
  · simp [h]

theorem rank_ite_lt {succeeds : Prop} [Decidable succeeds] {next failed : Save} {n : Nat} (hnext : rank next < n)
    (hn : 3 < n) : rank (if succeeds then next else settle failed) < n := by
  split
  · exact hnext
  · exact Nat.lt_of_le_of_lt (rank_settle_le failed) hn

theorem rank_writeFrom_le (s : Save) (offset : Nat) : rank (writeFrom s offset) ≤ (s.text.length - offset) + 7 := by
  by_cases h : offset < s.text.length <;> simp [rank, writeFrom, h]

variable {filename : String}

variable {encoded : Except String (List UInt8)} {history : List (Answer × Place)}

theorem Shape.known {d : Disk String UInt8} (h : Shape encoded filename d history s) :
    (∀ offset, s.place = .write offset → offset < s.text.length) ∧ (s.place = .closeDirectory → s.file = none) := by
  cases h with
  | writing htext hname hfree hoffset =>
    constructor
    · intro offset hplace
      cases hplace
      exact hoffset
    · intro hplace
      cases hplace
  | leaving hkept hthere hne =>
    rename_i s
    rcases settle_cases s with ⟨-, h⟩ | ⟨hfile, -, h⟩ | ⟨hfile, -, -, h⟩ | ⟨hfile, -, -, h⟩ <;> rw [h]
    · exact ⟨fun _ hplace => (by cases hplace), fun hplace => by cases hplace⟩
    · exact ⟨fun _ hplace => (by cases hplace), fun _ => hfile⟩
    · exact ⟨fun _ hplace => (by cases hplace), fun _ => hfile⟩
    · exact ⟨fun _ hplace => (by cases hplace), fun _ => hfile⟩
  | returned hret hclosed hkept hleft =>
    rw [hret]
    exact ⟨fun _ hplace => (by cases hplace), fun hplace => by cases hplace⟩
  | _ => exact ⟨fun _ hplace => (by cases hplace), fun hplace => by cases hplace⟩

theorem rank_advance_lt {answer : Answer} (hplace : s.place ≠ .returned)
    (hoffset : ∀ offset, s.place = .write offset → offset < s.text.length)
    (hfile : s.place = .closeDirectory → s.file = none)
    (hanswer : ∀ offset, s.place = .write offset → (!answer.ok && answer.interrupted) = false) :
    rank (advance filename s answer) < rank s := by
  unfold advance
  cases hcase : s.place with
  | openDirectory =>
    have hrank : rank s = s.text.length + 10 := by rw [rank, hcase]
    rw [hrank]
    exact rank_ite_lt (Nat.lt_succ_self _) (by omega)
  | mkstemp =>
    have hrank : rank s = s.text.length + 9 := by rw [rank, hcase]
    rw [hrank]
    exact rank_ite_lt (Nat.lt_succ_self _) (by omega)
  | fcntl =>
    have hrank : rank s = s.text.length + 8 := by rw [rank, hcase]
    rw [hrank]
    exact rank_ite_lt (Nat.lt_succ_of_le (rank_writeFrom_le s 0)) (by omega)
  | write offset =>
    have hlt := hoffset offset hcase
    have hrank : rank s = (s.text.length - offset) + 7 := by rw [rank, hcase]
    rw [hrank]
    dsimp only
    rw [hanswer offset hcase, if_neg Bool.false_ne_true]
    split
    · exact Nat.lt_of_le_of_lt (rank_settle_le _) (by omega)
    · rename_i hnot
      -- something is written, and no more than there is
      have hcount : 0 < answer.count := by
        apply Nat.pos_of_ne_zero
        intro hzero
        simp [hzero] at hnot
      refine Nat.lt_of_le_of_lt (rank_writeFrom_le _ _) ?_
      show (s.text.length - (offset + ((s.text.drop offset).take answer.count).length)) + 7 < _
      rw [length_take, length_drop]
      omega
  | fsyncFile =>
    have hrank : rank s = 7 := by rw [rank, hcase]
    rw [hrank]
    exact rank_ite_lt (Nat.lt_succ_self _) (by omega)
  | close =>
    have hrank : rank s = 6 := by rw [rank, hcase]
    rw [hrank]
    exact rank_ite_lt (Nat.lt_succ_self _) (by omega)
  | rename =>
    have hrank : rank s = 5 := by rw [rank, hcase]
    rw [hrank]
    exact rank_ite_lt (Nat.lt_succ_self _) (by omega)
  | fsyncDirectory =>
    have hrank : rank s = 4 := by rw [rank, hcase]
    rw [hrank]
    exact rank_ite_lt (Nat.lt_succ_of_le (rank_settle_le _)) (by omega)
  | closeFile =>
    have hrank : rank s = 3 := by rw [rank, hcase]
    rw [hrank]
    exact Nat.lt_succ_of_le (rank_settle_closed rfl)
  | closeDirectory =>
    have hrank : rank s = 2 := by rw [rank, hcase]
    rw [hrank]
    exact Nat.lt_succ_of_le (rank_settle_unlink (hfile hcase) rfl)
  | unlink =>
    have hrank : rank s = 1 := by rw [rank, hcase]
    rw [hrank]
    exact Nat.one_pos
  | returned => exact absurd hcase hplace

theorem advance_returned (h : s.place = .returned) (answer : Answer) : advance filename s answer = s := by
  unfold advance
  rw [h]

theorem advance_interrupted {answer : Answer} {offset : Nat} (h : s.place = .write offset)
    (hanswer : (!answer.ok && answer.interrupted) = true) : advance filename s answer = s := by
  unfold advance
  rw [h]
  exact if_pos hanswer

/-- **Only interruptions can hold the call up.** -/
theorem run_returned {d : Disk String UInt8} (hshape : Shape encoded filename d history s) (answers : List Answer)
    (h : rank s ≤ (answers.filter fun answer => !(!answer.ok && answer.interrupted)).length) :
    (StepRun.run (step filename) s answers).place = .returned := by
  induction answers generalizing s history with
  | nil =>
    have hzero : rank s = 0 := Nat.le_zero.1 h
    unfold rank at hzero
    split at hzero <;> first | assumption | omega
  | cons answer answers ih =>
    obtain ⟨hoffset, hfile⟩ := hshape.known
    rw [StepRun.run_cons]
    refine ih (advance_shape hshape answer) ?_
    show rank (advance filename s answer) ≤ _
    by_cases hplace : s.place = .returned
    · have hzero : rank s = 0 := by rw [rank, hplace]
      rw [advance_returned hplace, hzero]
      exact Nat.zero_le _
    · cases hanswer : (!answer.ok && answer.interrupted) with
      | false =>
        rw [filter_cons_of_pos (by rw [hanswer]; rfl), length_cons] at h
        have hlt : rank (advance filename s answer) < rank s :=
          rank_advance_lt hplace hoffset hfile fun _ _ => hanswer
        omega
      | true =>
        -- an interrupted write is made again; another call that is interrupted has failed
        rw [filter_cons_of_neg (by rw [hanswer]; decide)] at h
        by_cases hwrite : ∃ offset, s.place = .write offset
        · obtain ⟨offset, hwrite⟩ := hwrite
          rw [advance_interrupted hwrite hanswer]
          exact h
        · have hlt : rank (advance filename s answer) < rank s :=
            rank_advance_lt hplace hoffset hfile fun offset hoffset => absurd ⟨offset, hoffset⟩ hwrite
          omega

/-! ## The result -/

section Result

variable {encoded : Except String (List UInt8)} {filename : String} {d disk : Disk String UInt8}
  {temporary : Option String} {durable : Bool}

theorem Kept.same (h : Kept encoded filename d disk temporary false durable) : Disk.Same d disk filename := by
  cases h with
  | untouched => exact Disk.Same.refl d filename
  | staged hname hfree file => exact Disk.add_same d file hname
  | unlinked hname hfree file => exact Disk.unlink_add_same d file hname

/-- **Committed is that the destination is the new file.** -/
theorem Kept.new_file (h : Kept encoded filename d disk temporary true durable) :
    ∃ text, encoded = .ok text ∧ disk.entry filename = some d.files.length ∧
      disk.files[d.files.length]? = some { bytes := text, synced := true } ∧ disk.content filename = some text ∧
      ∀ value, disk.MayHold filename value → d.MayHold filename value ∨ value = some text := by
  cases h with
  | replaced hname hfree htext =>
    exact ⟨_, htext, Disk.entry_replace hname, Disk.file_replace hname, Disk.content_replace hname,
      fun _ hvalue => Disk.mayHold_replace hname rfl hvalue⟩
  | synced hname hfree htext =>
    refine ⟨_, htext, Disk.entry_replace hname, Disk.file_replace hname, Disk.content_replace hname, ?_⟩
    intro value hvalue
    exact .inr ((Disk.mayHold_replace_synced hname rfl value).1 hvalue)

/-- **Durable is that both are synced.** -/
theorem Kept.both_synced {committed : Bool} (h : Kept encoded filename d disk temporary committed true) :
    committed = true ∧ (∀ name, disk.past name = []) ∧
      ∃ text, encoded = .ok text ∧ ∀ value, disk.MayHold filename value ↔ value = some text := by
  cases h with
  | synced hname hfree htext =>
    exact ⟨rfl, fun _ => rfl, _, htext, fun value => Disk.mayHold_replace_synced hname rfl value⟩

theorem Kept.others (h : Kept encoded filename d disk temporary false durable) :
    (∀ name, disk.entry name = d.entry name) ∨ ∃ name, temporary = some name ∧ disk.entry name ≠ none := by
  cases h with
  | untouched => exact .inl fun _ => rfl
  | staged hname hfree file =>
    refine .inr ⟨_, rfl, ?_⟩
    rw [Disk.entry_add, if_pos rfl]
    exact Option.some_ne_none _
  | unlinked hname hfree file => exact .inl fun other => Disk.entry_unlink_add d file hfree other

end Result

/-- What the runs do and the caller is told, at each call. -/
structure Atomic (encoded : Except String (List UInt8)) (filename : String) (d : Disk String UInt8)
    (history : List (Answer × Place)) (s : Save) : Prop where
  /-- A reader finds the old content or all of the new one. -/
  whole : s.disk.content filename = d.content filename ∨
    ∃ text, encoded = .ok text ∧ s.disk.content filename = some text
  /-- So does one behind a loss of power, the old content being what this would have left before. -/
  power : ∀ value, s.disk.MayHold filename value →
    d.MayHold filename value ∨ ∃ text, encoded = .ok text ∧ value = some text
  /-- Committed is that the destination is another file than before, and then this has the encoding. -/
  committed : s.result.committed = true ↔ s.disk.entry filename ≠ d.entry filename
  encoding : s.result.committed = true → ∃ text, encoded = .ok text ∧ s.disk.content filename = some text
  /-- So it is that the destination holds the encoding, if it did not before. -/
  holds : ∀ text, encoded = .ok text → d.content filename ≠ some text →
    (s.result.committed = true ↔ s.disk.content filename = some text)
  durable : s.result.durable = true → s.result.committed = true ∧ (∀ name, s.disk.past name = []) ∧
    ∃ text number, encoded = .ok text ∧ s.disk.entry filename = some number ∧
      s.disk.files[number]? = some { bytes := text, synced := true } ∧
      ∀ value, s.disk.MayHold filename value ↔ value = some text
  unchanged : s.result.committed = false → Disk.Same d s.disk filename
  /-- A return without the commit leaves no name but one that could not be unlinked. -/
  cleaned : s.place = .returned → s.result.committed = false → ∀ name, s.disk.entry name = d.entry name ∨
    ∃ answer, (answer, Place.unlink) ∈ history ∧ answer.ok = false
  closed : s.place = .returned → s.file = none ∧ s.directory = false

section Law

variable {encoded : Except String (List UInt8)} {filename : String} {d : Disk String UInt8}
  {history : List (Answer × Place)} {s : Save}

section

variable (h : Shape encoded filename d history s)
include h

theorem Shape.cleaned (hplace : s.place = .returned)
    (hcommitted : s.result.committed = false) (name : String) : s.disk.entry name = d.entry name ∨
      ∃ answer, (answer, Place.unlink) ∈ history ∧ answer.ok = false := by
  cases h with
  | leaving hkept hthere hne => exact absurd hplace hne
  | returned hret hclosed hkept hleft =>
    unfold Save.Keeps at hkept
    rw [hcommitted] at hkept
    rcases hkept.others with hsame | ⟨temporary, htemporary, hthere⟩
    · exact .inl (hsame name)
    · exact .inr (hleft temporary htemporary hthere)
  | _ => cases hplace

theorem Shape.closed (hplace : s.place = .returned) : s.file = none ∧ s.directory = false := by
  cases h with
  | leaving hkept hthere hne => exact absurd hplace hne
  | returned hret hclosed hkept hleft => exact hclosed
  | _ => cases hplace

theorem Shape.atomic : Atomic encoded filename d history s := by
  have hkept := h.kept
  unfold Save.Keeps at hkept
  have hclean := h.cleaned
  have hclosed := h.closed
  cases hcommitted : s.result.committed with
  | false =>
    rw [hcommitted] at hkept
    have hsame := hkept.same
    have hdurable : s.result.durable ≠ true := by
      intro hdurable
      rw [hdurable] at hkept
      exact Bool.false_ne_true hkept.both_synced.1
    constructor
    · exact .inl hsame.content
    · exact fun value hvalue => .inl ((hsame.mayHold value).1 hvalue)
    · rw [hcommitted, hsame.entry]
      exact ⟨fun h => absurd h Bool.false_ne_true, fun h => absurd rfl h⟩
    · intro h
      rw [hcommitted] at h
      cases h
    · intro text htext hnew
      rw [hcommitted, hsame.content]
      exact ⟨fun h => absurd h Bool.false_ne_true, fun h => absurd h hnew⟩
    · exact fun h => absurd h hdurable
    · exact fun _ => hsame
    · exact hclean
    · exact hclosed
  | true =>
    rw [hcommitted] at hkept
    obtain ⟨text, htext, hentry, hfile, hcontent, hpower⟩ := hkept.new_file
    constructor
    · exact .inr ⟨text, htext, hcontent⟩
    · intro value hvalue
      rcases hpower value hvalue with hold | hnew
      · exact .inl hold
      · exact .inr ⟨text, htext, hnew⟩
    · rw [hcommitted, hentry]
      exact ⟨fun _ h => Disk.entry_ne_new d filename h.symm, fun _ => rfl⟩
    · exact fun _ => ⟨text, htext, hcontent⟩
    · intro other hother hnew
      obtain rfl : text = other := Except.ok.inj (htext.symm.trans hother)
      rw [hcommitted]
      exact ⟨fun _ => hcontent, fun _ => rfl⟩
    · intro hdurable
      rw [hdurable] at hkept
      obtain ⟨-, hpast, other, hother, hvalue⟩ := hkept.both_synced
      obtain rfl : text = other := Except.ok.inj (htext.symm.trans hother)
      exact ⟨hcommitted, hpast, text, d.files.length, htext, hentry, hfile, hvalue⟩
    · intro h
      rw [hcommitted] at h
      cases h
    · exact hclean
    · exact hclosed

end

end Law

/-- **Saving is atomic and honestly reported**, whatever the system answers and wherever the call is cut off; and the
    call returns, unless its writes are interrupted for ever. -/
theorem save_atomic (encode : TuningProfile → Except String (List UInt8)) (filename : String)
    (profile : TuningProfile) (disk : Disk String UInt8) (answers : List Answer) :
    Atomic (encode profile) filename disk (calls encode filename profile disk answers)
        (saved encode filename profile disk answers) ∧
      (rank (start encode filename profile disk) ≤
          (answers.filter fun answer => !(!answer.ok && answer.interrupted)).length →
        (saved encode filename profile disk answers).place = .returned) := by
  constructor
  · exact (run_shape encode filename profile disk answers).atomic
  · exact run_returned (start_shape encode filename profile disk) answers

def plainProfile : TuningProfile where
  name := "day"
  target := { width := 1920, height := 1080, fps := 30, sensorMode := 0, sensorModel := "imx" }
  settings :=
    { exposureNs := ⟨1, 2⟩
      sensorGain := ⟨.finite 1, .finite 1⟩
      ispGain := ⟨.finite 1, .finite 1⟩ }

/-- A directory in which the destination holds these bytes. -/
def holding (filename : String) (bytes : List UInt8) : Disk String UInt8 where
  files := [{ bytes := bytes, synced := true }]
  entry name := if name = filename then some 0 else none
  past _ := []
  valid name number hmem := by
    have hentry := mem_singleton.1 hmem
    split at hentry
    · cases hentry
      exact Nat.one_pos
    · cases hentry

def oneFile : Disk String UInt8 := holding "day.yaml" [1, 2, 3]

def shortWrites : List Answer :=
  [{}, {}, {}, { count := 1 }, { ok := false, interrupted := true }, { count := 5 }, {}, {}, {}, {}, {}, {}, {}]

theorem save_atomic_shortWrites :
    (saved (fun _ => .ok [7, 8]) "day.yaml" plainProfile oneFile shortWrites).place = .returned ∧
      ∀ value, (saved (fun _ => .ok [7, 8]) "day.yaml" plainProfile oneFile shortWrites).disk.MayHold "day.yaml" value ↔
        value = some [7, 8] := by
  obtain ⟨hatomic, hreturns⟩ := save_atomic (fun _ => .ok [7, 8]) "day.yaml" plainProfile oneFile shortWrites
  have hdurable : (saved (fun _ => .ok [7, 8]) "day.yaml" plainProfile oneFile shortWrites).result.durable = true := by
    decide +kernel
  obtain ⟨-, -, text, number, htext, -, -, hvalue⟩ := hatomic.durable hdurable
  cases htext
  exact ⟨hreturns (by decide +kernel), hvalue⟩

/-- A save whose first system call fails, if it comes to one at all, leaves the directory as it was. -/
theorem saved_failed (encode : TuningProfile → Except String (List UInt8)) (filename : String)
    (profile : TuningProfile) (disk : Disk String UInt8) :
    (saved encode filename profile disk [{ ok := false }]).place = .returned ∧
      (saved encode filename profile disk [{ ok := false }]).result.committed = false ∧
      (saved encode filename profile disk [{ ok := false }]).disk = disk := by
  unfold saved start
  rw [StepRun.run_cons, StepRun.run_nil]
  dsimp only
  split
  · exact ⟨rfl, rfl, rfl⟩
  · split
    · exact ⟨rfl, rfl, rfl⟩
    · split
      · exact ⟨rfl, rfl, rfl⟩
      · split <;> exact ⟨rfl, rfl, rfl⟩

/-- **Not committed, and the destination holds the encoding**: so it is, whatever the encoder, where it held the
    encoding before. -/
theorem not_committed_iff_holds :
    ¬ ∃ (encode : TuningProfile → Except String (List UInt8)) (filename : String) (profile : TuningProfile)
      (text : List UInt8), encode profile = .ok text ∧
        ∀ (disk : Disk String UInt8) (answers : List Answer),
          (saved encode filename profile disk answers).place = .returned →
          ((saved encode filename profile disk answers).result.committed = true ↔
            (saved encode filename profile disk answers).disk.content filename = some text) := by
  rintro ⟨encode, filename, profile, text, -, h⟩
  obtain ⟨hplace, hcommitted, hdisk⟩ := saved_failed encode filename profile (holding filename text)
  have hcontent : (holding filename text).content filename = some text := by
    unfold Disk.content holding
    simp
  rw [← hdisk] at hcontent
  rw [(h _ _ hplace).2 hcontent] at hcommitted
  cases hcommitted

end Cockpit.Camera.ProfileSave
