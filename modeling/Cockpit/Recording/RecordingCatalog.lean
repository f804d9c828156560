/-
  The catalog of the recorded sessions, and `Prune`. The running total is an unsigned number of 64 bits, so what
  is expected of a call is met just where the sizes add up to less than `2^64`.
-/
import Mathlib.Algebra.GroupWithZero.Nat
import Mathlib.Data.List.Induction
import Mathlib.Data.List.TakeDrop
import Cockpit.Lib.ByteText

namespace Cockpit.Recording

open ByteText List

/-! ## The catalog -/

/-- What `Prune` and the order of the catalog look at. -/
structure RecordingSessionInfo where
  sessionId : Bytes
  directory : Bytes
  sizeBytes : UInt64
  startedAtMs : Int64
  deriving DecidableEq

/-- An entry that the iterator over a directory yields: `file_size` is `none` where it fails. -/
structure DirectoryEntry where
  isRegularFile : Bool
  fileSize : Option UInt64

/-- `2^64 - 1` is added for a file whose size cannot be read, so that two sessions may be too much. -/
def directorySize (entries : List DirectoryEntry) : UInt64 :=
  entries.foldl (fun bytes entry => if entry.isRegularFile then bytes + entry.fileSize.getD (-1) else bytes) 0

/-- The sessions as `RefreshLocked` sorts them; equal ones may stand in any order. -/
structure RecordingCatalog where
  sessions : List RecordingSessionInfo
  newestFirst : sessions.Pairwise fun session older => older.startedAtMs ≤ session.startedAtMs

structure RecordingRetentionPolicy where
  maxSessions : Nat
  maxTotalBytes : UInt64

structure RecordingPruneResult where
  sessionsDeleted : Nat := 0
  bytesDeleted : UInt64 := 0
  deriving DecidableEq

namespace RecordingCatalog

def eraseOldest (catalog : RecordingCatalog) : RecordingCatalog where
  sessions := catalog.sessions.dropLast
  newestFirst := catalog.newestFirst.sublist (dropLast_sublist _)

/-- Modulo `2^64`. -/
def totalBytes (catalog : RecordingCatalog) : UInt64 :=
  catalog.sessions.foldl (fun bytes session => bytes + session.sizeBytes) 0

end RecordingCatalog

/-! ## `Prune` -/

/-- The variables of `Prune`, and the directories that were handed to `remove_all`, in order. -/
structure Pruning where
  catalog : RecordingCatalog
  bytes : UInt64
  localResult : RecordingPruneResult := {}
  removed : List Bytes := []

namespace Pruning

/-- The condition of the loop. -/
def isOver (policy : RecordingRetentionPolicy) (s : Pruning) : Bool :=
  !s.catalog.sessions.isEmpty &&
    ((0 < policy.maxSessions && policy.maxSessions < s.catalog.sessions.length) ||
      (0 < policy.maxTotalBytes && policy.maxTotalBytes < s.bytes))

/-- `remove_all` is called with the directory of the oldest session. -/
def removeAll (s : Pruning) (oldest : RecordingSessionInfo) : Pruning :=
  { s with removed := s.removed ++ [oldest.directory] }

/-- The rest of a round, where `remove_all` did not fail. -/
def remove (s : Pruning) (oldest : RecordingSessionInfo) : Pruning where
  catalog := s.catalog.eraseOldest
  bytes := s.bytes - oldest.sizeBytes
  localResult :=
    { sessionsDeleted := s.localResult.sessionsDeleted + 1
      bytesDeleted := s.localResult.bytesDeleted + oldest.sizeBytes }
  removed := s.removed

end Pruning

/-- What `Prune` leaves: it returns false with an error where a removal fails. -/
structure PruneOutcome where
  error : Option String
  left : Pruning

/-- The list shrinks from its old end. -/
def pruneLoop (policy : RecordingRetentionPolicy) (removals : Nat → Option String) :
    Nat → Pruning → Option PruneOutcome
  | 0, _ => none
  | rounds + 1, s =>
    if s.isOver policy then
      match s.catalog.sessions.getLast? with
      | none => some ⟨none, s⟩
      | some oldest =>
        match removals s.catalog.sessions.length with
        | some error => some ⟨some ("prune recording session failed: " ++ error), s.removeAll oldest⟩
        | none => pruneLoop policy removals rounds ((s.removeAll oldest).remove oldest)
    else some ⟨none, s⟩

namespace RecordingCatalog

def pruning (catalog : RecordingCatalog) : Pruning := { catalog := catalog, bytes := catalog.totalBytes }

/-- `Prune`. -/
def prune (catalog : RecordingCatalog) (policy : RecordingRetentionPolicy) (removals : Nat → Option String) :
    Option PruneOutcome :=
  pruneLoop policy removals (catalog.sessions.length + 1) catalog.pruning

end RecordingCatalog

/-- The states in which the loop evaluates its condition, from `s` on. -/
inductive Visits (policy : RecordingRetentionPolicy) (removals : Nat → Option String) (s : Pruning) :
    Pruning → Prop where
  | start : Visits policy removals s s
  | round {s' : Pruning} {oldest : RecordingSessionInfo} (h : Visits policy removals s s')
      (hover : s'.isOver policy = true) (holdest : s'.catalog.sessions.getLast? = some oldest)
      (hremoved : removals s'.catalog.sessions.length = none) :
      Visits policy removals s ((s'.removeAll oldest).remove oldest)

/-! ## What is expected -/

variable (sessions : List RecordingSessionInfo)

/-- Without a bound. -/
def sizes : Nat := (sessions.map (·.sizeBytes.toNat)).sum

/-- The directories of the sessions, the oldest first. -/
def directories : List Bytes := (sessions.map (·.directory)).reverse

/-- Within both limits. -/
def RecordingRetentionPolicy.Within (policy : RecordingRetentionPolicy) (sessions : List RecordingSessionInfo) :
    Prop :=
  (0 < policy.maxSessions → sessions.length ≤ policy.maxSessions) ∧
    (0 < policy.maxTotalBytes → sizes sessions ≤ policy.maxTotalBytes.toNat)

/-- What a call of `Prune` does: it ends, the running total is what the listed sessions have, with more than what is
    taken from it, and where no removal fails the shortest end of the list is removed that brings the rest within the
    limits; where one does, the sessions up to it are still there.  `remove_all` is given the directories of what
    is removed, the oldest first, and of the session whose removal fails, and no others. -/
structure Pruned (catalog : RecordingCatalog) (policy : RecordingRetentionPolicy)
    (removals : Nat → Option String) : Prop where
  total : ∀ s, Visits policy removals catalog.pruning s → s.bytes.toNat = sizes s.catalog.sessions ∧
    ∀ oldest ∈ s.catalog.sessions.getLast?, oldest.sizeBytes ≤ s.bytes
  ends : ∃ outcome, catalog.prune policy removals = some outcome ∧ ∃ n ≤ catalog.sessions.length,
    outcome.left.catalog.sessions = catalog.sessions.take n ∧
    (outcome.error = none →
      policy.Within (catalog.sessions.take n) ∧
      (∀ m ≤ catalog.sessions.length, policy.Within (catalog.sessions.take m) → m ≤ n) ∧
      outcome.left.localResult.sessionsDeleted = catalog.sessions.length - n ∧
      outcome.left.localResult.bytesDeleted.toNat = sizes (catalog.sessions.drop n) ∧
      outcome.left.removed = directories (catalog.sessions.drop n)) ∧
    (outcome.error ≠ none → (removals n).isSome ∧
      (∀ m, n < m → m ≤ catalog.sessions.length → removals m = none) ∧
      0 < n ∧ outcome.left.removed = directories (catalog.sessions.drop (n - 1))) ∧
    ((∀ m, removals m = none) → outcome.error = none)

/-! ## The running total -/

theorem sizes_append (front behind : List RecordingSessionInfo) :
    sizes (front ++ behind) = sizes front + sizes behind := by
  unfold sizes
  rw [map_append, sum_append]

theorem sizes_snoc (front : List RecordingSessionInfo) (session : RecordingSessionInfo) :
    sizes (front ++ [session]) = sizes front + session.sizeBytes.toNat := by
  rw [sizes_append]
  rfl

theorem sizes_take_add_drop (n : Nat) : sizes (sessions.take n) + sizes (sessions.drop n) = sizes sessions := by
  rw [← sizes_append, take_append_drop]

/-- **The running total begins as the sum**, as far as 64 bits go. -/
theorem totalBytes_eq (catalog : RecordingCatalog) : catalog.totalBytes.toNat = sizes catalog.sessions % 2 ^ 64 := by
  unfold RecordingCatalog.totalBytes
  induction catalog.sessions using List.reverseRecOn with
  | nil => rfl
  | append_singleton sessions session ih =>
    rw [foldl_append, foldl_cons, foldl_nil, UInt64.toNat_add, ih, sizes_snoc, Nat.mod_add_mod]

variable {catalog : RecordingCatalog} {policy : RecordingRetentionPolicy} {removals : Nat → Option String}
  {s : Pruning}

/-- The loop has come to `s`, and would have stopped before if it could. -/
structure Counted (catalog : RecordingCatalog) (policy : RecordingRetentionPolicy)
    (removals : Nat → Option String) (s : Pruning) : Prop where
  short : s.catalog.sessions.length ≤ catalog.sessions.length
  sessions : s.catalog.sessions = catalog.sessions.take s.catalog.sessions.length
  bytes : s.bytes.toNat = sizes s.catalog.sessions
  deleted : s.localResult.sessionsDeleted + s.catalog.sessions.length = catalog.sessions.length
  bytesDeleted : s.localResult.bytesDeleted.toNat + sizes s.catalog.sessions = sizes catalog.sessions
  exceeded : ∀ m, s.catalog.sessions.length < m → m ≤ catalog.sessions.length →
    ¬ policy.Within (catalog.sessions.take m) ∧ removals m = none

theorem Counted.start (hfits : sizes catalog.sessions < 2 ^ 64) :
    Counted catalog policy removals catalog.pruning where
  short := Nat.le_refl _
  sessions := take_length.symm
  bytes := (totalBytes_eq catalog).trans (Nat.mod_eq_of_lt hfits)
  deleted := Nat.zero_add _
  bytesDeleted := Nat.zero_add _
  exceeded _ hlow hhigh := absurd hhigh (Nat.not_le.2 hlow)

/-- As long as the total is the sum, the loop's condition is the limits. -/
theorem Counted.isOver_iff (h : Counted catalog policy removals s) :
    s.isOver policy = true ↔ ¬ policy.Within s.catalog.sessions := by
  have hbytes : policy.maxTotalBytes < s.bytes ↔ policy.maxTotalBytes.toNat < sizes s.catalog.sessions := by
    rw [UInt64.lt_iff_toNat_lt, h.bytes]
  unfold Pruning.isOver RecordingRetentionPolicy.Within
  cases hsessions : s.catalog.sessions with
  | nil => simp [sizes]
  | cons session sessions =>
    rw [hsessions] at hbytes
    simp only [isEmpty_cons, Bool.not_false, Bool.true_and, Bool.or_eq_true, Bool.and_eq_true,
      decide_eq_true_eq, hbytes]
    rw [Classical.not_and_iff_not_or_not, Classical.not_imp, Classical.not_imp, Nat.not_le, Nat.not_le]

theorem Counted.oldest_le (h : Counted catalog policy removals s) :
    ∀ oldest ∈ s.catalog.sessions.getLast?, oldest.sizeBytes ≤ s.bytes := by
  intro oldest holdest
  obtain ⟨front, hfront⟩ := List.getLast?_eq_some_iff.1 holdest
  rw [UInt64.le_iff_toNat_le, h.bytes, hfront, sizes_snoc]
  omega

variable {oldest : RecordingSessionInfo}

/-- **One round**: the oldest session goes, with its size. -/
theorem Counted.remove (h : Counted catalog policy removals s)
    (hfits : sizes catalog.sessions < 2 ^ 64) (hover : s.isOver policy = true)
    (holdest : s.catalog.sessions.getLast? = some oldest) (hremoved : removals s.catalog.sessions.length = none) :
    Counted catalog policy removals ((s.removeAll oldest).remove oldest) := by
  have hle := h.oldest_le oldest holdest
  obtain ⟨front, hfront⟩ := List.getLast?_eq_some_iff.1 holdest
  have hlen : s.catalog.sessions.length = front.length + 1 := by rw [hfront, length_append]; rfl
  have hleft : ((s.removeAll oldest).remove oldest).catalog.sessions = front := by
    show s.catalog.sessions.dropLast = front
    rw [hfront, dropLast_concat]
  have hshort := h.short
  have hsize := h.bytes
  have hdeleted := h.deleted
  have hbytesDeleted := h.bytesDeleted
  rw [hfront, sizes_snoc] at hsize hbytesDeleted
  refine ⟨?_, ?_, ?_, ?_, ?_, ?_⟩
  · rw [hleft]
    omega
  · have hsessions := h.sessions
    rw [hlen, hfront] at hsessions
    rw [hleft]
    calc front = (front ++ [oldest]).take front.length := take_left.symm
      _ = (catalog.sessions.take (front.length + 1)).take front.length := by rw [← hsessions]
      _ = catalog.sessions.take front.length := by rw [take_take, Nat.min_eq_left (Nat.le_succ _)]
  · rw [hleft]
    show (s.bytes - oldest.sizeBytes).toNat = _
    rw [UInt64.toNat_sub_of_le _ _ hle]
    omega
  · rw [hleft]
    show s.localResult.sessionsDeleted + 1 + front.length = _
    omega
  · rw [hleft]
    show (s.localResult.bytesDeleted + oldest.sizeBytes).toNat + _ = _
    rw [UInt64.toNat_add, Nat.mod_eq_of_lt (by omega)]
    omega
  · intro m hlow hhigh
    rw [hleft] at hlow
    rcases Nat.lt_or_ge s.catalog.sessions.length m with hm | hm
    · exact h.exceeded m hm hhigh
    · obtain rfl : m = s.catalog.sessions.length := by omega
      rw [← h.sessions]
      exact ⟨h.isOver_iff.1 hover, hremoved⟩

theorem Counted.visits (hfits : sizes catalog.sessions < 2 ^ 64)
    (h : Visits policy removals catalog.pruning s) : Counted catalog policy removals s := by
  induction h with
  | start => exact Counted.start hfits
  | round _ hover holdest hremoved ih => exact ih.remove hfits hover holdest hremoved

theorem Counted.removeAll (h : Counted catalog policy removals s) (oldest : RecordingSessionInfo) :
    Counted catalog policy removals (s.removeAll oldest) :=
  ⟨h.short, h.sessions, h.bytes, h.deleted, h.bytesDeleted, h.exceeded⟩

/-- The directories that `remove_all` got are those of the sessions that are not listed any more. -/
def Pruning.Removed (catalog : RecordingCatalog) (s : Pruning) : Prop :=
  s.removed = directories (catalog.sessions.drop s.catalog.sessions.length)

theorem Counted.removed_next (h : Counted catalog policy removals s) (hremoved : s.Removed catalog) (holdest : s.catalog.sessions.getLast? = some oldest) :
    0 < s.catalog.sessions.length ∧ (s.removeAll oldest).removed =
      directories (catalog.sessions.drop (s.catalog.sessions.length - 1)) := by
  obtain ⟨front, hfront⟩ := List.getLast?_eq_some_iff.1 holdest
  have hlen : s.catalog.sessions.length = front.length + 1 := by rw [hfront, length_append]; rfl
  have hshort := h.short
  -- the oldest session stands right before those that were removed
  have hat : catalog.sessions[front.length]? = some oldest := by
    have hsessions := h.sessions
    rw [hlen, hfront] at hsessions
    rw [← List.getElem?_take_of_lt (Nat.lt_succ_self front.length), ← hsessions, List.getElem?_concat_length]
  have hdrop : catalog.sessions.drop front.length = oldest :: catalog.sessions.drop (front.length + 1) := by
    obtain ⟨hlt, heq⟩ := List.getElem?_eq_some_iff.1 hat
    rw [drop_eq_getElem_cons hlt, heq]
  refine ⟨by omega, ?_⟩
  show s.removed ++ [oldest.directory] = _
  rw [hremoved, hlen, Nat.add_sub_cancel, hdrop]
  unfold directories
  rw [map_cons, reverse_cons]

/-- What a state of the loop with `n` sessions left says of the outcome. -/
structure Ended (catalog : RecordingCatalog) (policy : RecordingRetentionPolicy)
    (removals : Nat → Option String) (outcome : PruneOutcome) : Prop where
  counted : Counted catalog policy removals outcome.left
  within : outcome.error = none →
    policy.Within outcome.left.catalog.sessions ∧ outcome.left.Removed catalog
  failed : outcome.error ≠ none →
    (removals outcome.left.catalog.sessions.length).isSome = true ∧
      0 < outcome.left.catalog.sessions.length ∧ outcome.left.removed =
        directories (catalog.sessions.drop (outcome.left.catalog.sessions.length - 1))

/-- **The loop ends**, and how. -/
theorem Counted.loop (h : Counted catalog policy removals s) (hremoved : s.Removed catalog) (hfits : sizes catalog.sessions < 2 ^ 64)
    {rounds : Nat} (hrounds : s.catalog.sessions.length < rounds) :
    ∃ outcome, pruneLoop policy removals rounds s = some outcome ∧ Ended catalog policy removals outcome := by
  induction rounds generalizing s with
  | zero => exact absurd hrounds (Nat.not_lt_zero _)
  | succ rounds ih =>
    unfold pruneLoop
    cases hover : s.isOver policy with
    | false =>
      refine ⟨_, rfl, h, fun _ => ⟨?_, hremoved⟩, fun hne => absurd rfl hne⟩
      by_contra hnot
      rw [h.isOver_iff.2 hnot] at hover
      cases hover
    | true =>
      rw [if_pos rfl]
      cases holdest : s.catalog.sessions.getLast? with
      | none =>
        rw [List.getLast?_eq_none_iff] at holdest
        unfold Pruning.isOver at hover
        rw [holdest] at hover
        cases hover
      | some oldest =>
        have hnext := h.removed_next hremoved holdest
        dsimp only
        cases hremoval : removals s.catalog.sessions.length with
        | some error =>
          refine ⟨_, rfl, h.removeAll oldest, nofun, fun _ => ⟨?_, hnext⟩⟩
          show (removals s.catalog.sessions.length).isSome = true
          rw [hremoval]
          rfl
        | none =>
          refine ih (h.remove hfits hover holdest hremoval) ?_ ?_
          · show (s.removeAll oldest).removed =
              directories (catalog.sessions.drop s.catalog.sessions.dropLast.length)
            rw [length_dropLast]
            exact hnext.2
          · show s.catalog.sessions.dropLast.length < rounds
            rw [length_dropLast]
            omega

theorem Ended.pruned {outcome : PruneOutcome} (h : Ended catalog policy removals outcome) :
    outcome.left.catalog.sessions = catalog.sessions.take outcome.left.catalog.sessions.length ∧
    (outcome.error = none →
      policy.Within (catalog.sessions.take outcome.left.catalog.sessions.length) ∧
      (∀ m ≤ catalog.sessions.length, policy.Within (catalog.sessions.take m) →
        m ≤ outcome.left.catalog.sessions.length) ∧
      outcome.left.localResult.sessionsDeleted =
        catalog.sessions.length - outcome.left.catalog.sessions.length ∧
      outcome.left.localResult.bytesDeleted.toNat =
        sizes (catalog.sessions.drop outcome.left.catalog.sessions.length) ∧
      outcome.left.removed = directories (catalog.sessions.drop outcome.left.catalog.sessions.length)) ∧
    (outcome.error ≠ none → (removals outcome.left.catalog.sessions.length).isSome ∧
      (∀ m, outcome.left.catalog.sessions.length < m → m ≤ catalog.sessions.length → removals m = none) ∧
      0 < outcome.left.catalog.sessions.length ∧ outcome.left.removed =
        directories (catalog.sessions.drop (outcome.left.catalog.sessions.length - 1))) ∧
    ((∀ m, removals m = none) → outcome.error = none) := by
  obtain ⟨hcounted, hwithin, hfailed⟩ := h
  refine ⟨hcounted.sessions, fun hnone => ⟨?_, ?_, ?_, ?_, (hwithin hnone).2⟩,
    fun herror => ⟨(hfailed herror).1, ?_, (hfailed herror).2⟩, fun hall => ?_⟩
  · rw [← hcounted.sessions]
    exact (hwithin hnone).1
  · intro m hm hwithin'
    by_contra hlow
    exact (hcounted.exceeded m (Nat.lt_of_not_le hlow) hm).1 hwithin'
  · have hdeleted := hcounted.deleted
    omega
  · have hbytesDeleted := hcounted.bytesDeleted
    have hsplit := sizes_take_add_drop catalog.sessions outcome.left.catalog.sessions.length
    rw [← hcounted.sessions] at hsplit
    omega
  · intro m hlow hhigh
    exact (hcounted.exceeded m hlow hhigh).2
  · by_contra herror
    have hsome := (hfailed herror).1
    rw [hall] at hsome
    cases hsome

/-- **`Prune` does what is expected** of it just where the sizes of the sessions add up to less than `2^64`. -/
theorem pruned_iff (catalog : RecordingCatalog) (policy : RecordingRetentionPolicy)
    (removals : Nat → Option String) :
    Pruned catalog policy removals ↔ sizes catalog.sessions < 2 ^ 64 := by
  constructor
  · intro h
    -- Before the first round the running total is what 64 bits hold.
    have hstart : catalog.totalBytes.toNat = sizes catalog.sessions := (h.total _ .start).1
    rw [← hstart]
    exact UInt64.toNat_lt _
  · intro hfits
    refine ⟨fun s hs => ?_, ?_⟩
    · have hcounted := Counted.visits hfits hs
      exact ⟨hcounted.bytes, hcounted.oldest_le⟩
    · have hstart : Counted catalog policy removals catalog.pruning := Counted.start hfits
      have hnone : catalog.pruning.Removed catalog := by
        show [] = directories (catalog.sessions.drop catalog.sessions.length)
        rw [drop_length]
        rfl
      obtain ⟨outcome, houtcome, hended⟩ := hstart.loop hnone hfits (Nat.lt_succ_self _)
      exact ⟨outcome, houtcome, _, hended.counted.short, hended.pruned⟩

/-- A session with such a file. -/
def unreadable : RecordingCatalog where
  sessions := [⟨[98], [47, 98], 10, 2⟩, ⟨[97], [47, 97], directorySize [⟨true, none⟩], 1⟩]
  newestFirst := by decide

theorem unreadable_kept : unreadable.totalBytes = 9 ∧
    (unreadable.prune ⟨0, 100⟩ fun _ => none).map (·.left.localResult.sessionsDeleted) = some 0 ∧
    ¬ Pruned unreadable ⟨0, 100⟩ fun _ => none := by
  refine ⟨by decide, by decide, fun h => ?_⟩
  have hstart : unreadable.totalBytes.toNat = sizes unreadable.sessions := (h.total _ .start).1
  revert hstart
  decide

end Cockpit.Recording
