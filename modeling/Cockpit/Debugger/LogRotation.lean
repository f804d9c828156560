/-
  Which files the loggers remove. A logger knows its files by their names, so the promise is kept if and only if
  no service makes a name that looks like one of another.
-/
import Cockpit.Debugger.Logger
import Cockpit.Lib.KeepLast

namespace Cockpit.Debugger

open StepRun LogDirectory List

/-! ## What is promised -/

/-- The service has created it, or an older version of it. -/
def IsOf (service : Name) (file : LogFile) : Prop :=
  file.creator = some service ∨ file.creator = none ∧ legacy service file.name = true

instance (service : Name) : DecidablePred (IsOf service) := fun file =>
  inferInstanceAs (Decidable (file.creator = some service ∨ file.creator = none ∧ legacy service file.name = true))

/-- The files of a service. -/
def filesOf (service : Name) (files : List LogFile) : List LogFile :=
  files.filter fun file => file.regular && decide (IsOf service file)

/-- What one `OpenFile` has to keep to, with its logger after it and the files that it removes. -/
structure Rotation (service : Name) (logger : Logger) (answers : OpenAnswers) (files removed : List LogFile) :
    Prop where
  own : ∀ file ∈ removed, IsOf service file
  others : ∀ file ∈ removed, ∀ other, other ≠ service → file.creator ≠ some other
  notCurrent : ∀ file ∈ removed, file.name ≠ logger.currentName
  ordered : removed.Pairwise LogFile.Before
  oldest : ∀ file ∈ removed, ∀ left ∈ filesOf service files, left.name ≠ logger.currentName → file.Before left
  bounded : answers.undeletable = [] → (filesOf service files).length ≤ logger.maxFiles

/-- Only the opening of a file removes any, and as promised. -/
def KeepsOwn (s : LogDirectory) (event : LogEvent) : Prop :=
  let (next, removed) := s.step event
  match event with
  | .start _ => removed = []
  | .init service _ answers => Rotation service (next.loggers service) answers next.files removed
  | .rotate service answers => Rotation service (next.loggers service) answers next.files removed
  | .flush _ _ => removed = []

/-- No other file has a name like those of a service. -/
structure Tidy (services : List Name) (files : List LogFile) : Prop where
  names : (files.map LogFile.name).Nodup
  own : ∀ file ∈ files, file.regular = true → ∀ service ∈ services, looksOwn service file.name = true →
    IsOf service file

/-- No service makes a name that looks like one of another. -/
def Apart (services : List Name) : Prop :=
  ∀ service ∈ services, ∀ other ∈ services, service ≠ other → ∀ stamp sequence,
    looksOwn other (logFileName service stamp sequence) = false

/-- The event is one of these services, and the times of all files can be read. -/
def Permitted (services : List Name) : LogEvent → Prop
  | .start service => service ∈ services
  | .init service _ answers => service ∈ services ∧ answers.unreadable = []
  | .rotate service answers => service ∈ services ∧ answers.unreadable = []
  | .flush service _ => service ∈ services

/-! ## Names -/

theorem extension_append {front tail : Name} (hfront : front ≠ []) (htail : '.' ∉ tail) :
    extension (front ++ '.' :: tail) = '.' :: tail := by
  have htake : (front ++ '.' :: tail).reverse.takeWhile (· ≠ '.') = tail.reverse := by
    rw [reverse_append, reverse_cons, append_assoc, singleton_append, takeWhile_append_of_pos]
    · simp
    · intro c hc
      have hne : c ≠ '.' := fun heq => htail (heq ▸ mem_reverse.1 hc)
      simpa using hne
  have hpositive := length_pos_iff.2 hfront
  simp only [extension, htake, length_reverse, length_append, length_cons]
  rw [if_neg (by omega)]
  exact drop_left' (by omega)

theorem looksOwn_logFileName (service : Name) (stamp : Stamp) (sequence : Nat) :
    looksOwn service (logFileName service stamp sequence) = true := by
  have hprefix : (servicePrefix service).isPrefixOf (logFileName service stamp sequence) = true := by
    rw [List.isPrefixOf_iff_prefix, logFileName, append_assoc, append_assoc, append_assoc]
    exact prefix_append _ _
  have hextension : extension (logFileName service stamp sequence) = kLogExtension :=
    extension_append (by simp [servicePrefix]) (by decide)
  rw [looksOwn, timestamped, hprefix, hextension]
  rfl

theorem looksOwn_of_legacy {service name : Name} (h : legacy service name = true) : looksOwn service name = true := by
  rw [looksOwn, h, Bool.or_true]

theorem padded_inj {width m n : Nat} (h : padded width m = padded width n) : m = n := by
  have hvalue : ∀ n, Nat.ofDigitChars 10 (padded width n) 0 = n := by
    intro n
    rw [padded, Nat.ofDigitChars_append, Nat.ofDigitChars_replicate_zero, Nat.mul_zero]
    exact Nat.ofDigitChars_ten_toDigits
  rw [← hvalue m, h, hvalue n]

theorem logFileName_inj {service : Name} {stamp : Stamp} {m n : Nat}
    (h : logFileName service stamp m = logFileName service stamp n) : m = n :=
  padded_inj (append_cancel_left (append_cancel_right h))

/-! ## A free name -/

theorem freshSequence_free {taken : Nat → Bool} {fuel start sequence : Nat}
    (h : freshSequence taken fuel start = some sequence) : taken sequence = false := by
  induction fuel generalizing start with
  | zero => exact absurd h (by simp [freshSequence])
  | succ fuel ih =>
    rw [freshSequence] at h
    split at h
    · exact ih h
    · rename_i hfree
      obtain rfl := Option.some.inj h
      simpa using hfree

theorem freshSequence_none {taken : Nat → Bool} {fuel start : Nat}
    (h : freshSequence taken fuel start = none) : ∀ i < fuel, taken (start + i) = true := by
  induction fuel generalizing start with
  | zero => exact fun i hi => absurd hi (Nat.not_lt_zero i)
  | succ fuel ih =>
    rw [freshSequence] at h
    split at h
    · rename_i htaken
      intro i hi
      cases i with
      | zero => exact htaken
      | succ i =>
        have := ih h i (by omega)
        rwa [Nat.add_assoc, Nat.add_comm 1 i] at this
    · exact absurd h (by simp)

/-- **The search for a free name ends**: fewer names are taken than it tries. -/
theorem exists_freshSequence (names : List Name) (service : Name) (stamp : Stamp) (start : Nat) :
    ∃ sequence, freshSequence (fun sequence => names.contains (logFileName service stamp sequence))
        (names.length + 1) start = some sequence ∧ logFileName service stamp sequence ∉ names := by
  cases hfresh : freshSequence (fun sequence => names.contains (logFileName service stamp sequence))
      (names.length + 1) start with
  | some sequence =>
    have hfree := freshSequence_free hfresh
    exact ⟨sequence, rfl, by simpa using hfree⟩
  | none =>
    exfalso
    have htaken := freshSequence_none hfresh
    have hnodup : ((List.range (names.length + 1)).map
        fun i => logFileName service stamp (start + i)).Nodup := by
      apply List.Nodup.map _ nodup_range
      intro i j hij
      have := logFileName_inj hij
      omega
    have hsubset : ((List.range (names.length + 1)).map
        fun i => logFileName service stamp (start + i)) ⊆ names := by
      intro name hname
      obtain ⟨i, hi, rfl⟩ := mem_map.1 hname
      have := htaken i (mem_range.1 hi)
      simpa using this
    have hle := List.Nodup.length_le_of_subset hnodup hsubset
    rw [length_map, length_range] at hle
    omega

/-! ## The oldest files -/

theorem LogFile.before_total (a b : LogFile) : a.Before b ∨ b.Before a := by
  rcases Int.lt_trichotomy a.modifiedAt b.modifiedAt with hlt | heq | hgt
  · exact .inl (.inl hlt)
  · rcases le_total a.name b.name with hle | hle
    · exact .inl (.inr ⟨heq, hle⟩)
    · exact .inr (.inr ⟨heq.symm, hle⟩)
  · exact .inr (.inl hgt)

theorem LogFile.Before.trans {a b c : LogFile} (hab : a.Before b) (hbc : b.Before c) : a.Before c := by
  unfold LogFile.Before at *
  rcases hab with hab | ⟨hab, hab'⟩
  · rcases hbc with hbc | ⟨hbc, -⟩ <;> exact .inl (by omega)
  · rcases hbc with hbc | ⟨hbc, hbc'⟩
    · exact .inl (by omega)
    · exact .inr ⟨by omega, hab'.trans hbc'⟩

theorem removeOldest_split (maxFiles : Nat) (undeletable : List Name) (files : List LogFile) :
    ∃ kept, files = removeOldest maxFiles undeletable files ++ kept ∧
      (undeletable = [] → 1 ≤ maxFiles → kept.length + 1 ≤ maxFiles) := by
  induction files with
  | nil => exact ⟨[], rfl, fun _ h => h⟩
  | cons file files ih =>
    obtain ⟨kept, hfiles, hkept⟩ := ih
    rw [removeOldest]
    split
    · split
      · rename_i hfails
        refine ⟨file :: files, rfl, ?_⟩
        rintro rfl
        exact absurd hfails (by simp)
      · exact ⟨kept, congrArg (file :: ·) hfiles, hkept⟩
    · rename_i hfew
      exact ⟨file :: files, rfl, fun _ _ => by rw [length_cons]; omega⟩

variable {files : List LogFile} {file : LogFile}

theorem mem_candidates {service current : Name} {unreadable : List Name} :
    file ∈ candidates service current unreadable files ↔
      file ∈ files ∧ file.regular = true ∧ looksOwn service file.name = true ∧ file.name ≠ current ∧
        file.name ∉ unreadable := by
  simp [candidates, and_assoc]

theorem pruneOldFiles_split (service current : Name) (maxFiles : Nat) (answers : OpenAnswers) (files : List LogFile) :
    ∃ kept, (pruneOldFiles service current maxFiles answers files ++ kept).Perm
        (candidates service current answers.unreadable files) ∧
      (pruneOldFiles service current maxFiles answers files ++ kept).Pairwise LogFile.Before ∧
      (answers.undeletable = [] → 1 ≤ maxFiles → kept.length + 1 ≤ maxFiles) := by
  have htotal : Std.Total LogFile.Before := ⟨LogFile.before_total⟩
  have htrans : IsTrans LogFile LogFile.Before := ⟨fun _ _ _ => LogFile.Before.trans⟩
  obtain ⟨kept, hsplit, hkept⟩ := removeOldest_split maxFiles answers.undeletable
    ((candidates service current answers.unreadable files).insertionSort LogFile.Before)
  refine ⟨kept, ?_, ?_, hkept⟩ <;> rw [pruneOldFiles, ← hsplit]
  · exact perm_insertionSort _ _
  · exact pairwise_insertionSort _ _

/-! ## One opening -/

/-- A free name is found; the file is there, or could not be opened. -/
theorem openFile_cases (s : LogDirectory) (service : Name) (answers : OpenAnswers) :
    ∃ sequence, logFileName service answers.now sequence ∉ s.files.map LogFile.name ∧
      s.openFile service answers =
        let file := newFile service answers sequence
        let files := if answers.opened then s.files ++ [file] else s.files
        let removed := pruneOldFiles service file.name (s.loggers service).maxFiles answers files
        ({ files := files.filter fun file => !removed.contains file
           loggers := Function.update s.loggers service
             { s.loggers service with
               fileSequence := sequence + 1, currentName := file.name, isOpen := answers.opened } },
          removed) := by
  obtain ⟨sequence, hfresh, hfree⟩ := exists_freshSequence (s.files.map LogFile.name) service answers.now
    (s.loggers service).fileSequence
  rw [length_map] at hfresh
  refine ⟨sequence, hfree, ?_⟩
  simp only [openFile, hfresh]

theorem looksOwn_of_isOf {service : Name} (h : IsOf service file) : looksOwn service file.name = true := by
  rcases h with hcreator | ⟨-, hlegacy⟩
  · obtain ⟨stamp, sequence, hname⟩ := file.created service hcreator
    rw [hname]
    exact looksOwn_logFileName _ _ _
  · exact looksOwn_of_legacy hlegacy

theorem tidy_newFile {services : List Name} (hapart : Apart services) (htidy : Tidy services files) {service : Name}
    (hservice : service ∈ services) (answers : OpenAnswers) {sequence : Nat}
    (hfree : logFileName service answers.now sequence ∉ files.map LogFile.name) :
    Tidy services (files ++ [newFile service answers sequence]) := by
  constructor
  · rw [map_append, nodup_append]
    refine ⟨htidy.names, nodup_singleton _, ?_⟩
    intro name hname other hother
    obtain rfl := mem_singleton.1 hother
    rintro rfl
    exact hfree hname
  · intro file hfile hregular other hother hlooks
    rcases mem_append.1 hfile with hfile | hfile
    · exact htidy.own file hfile hregular other hother hlooks
    · obtain rfl := mem_singleton.1 hfile
      by_cases heq : service = other
      · subst heq
        exact .inl rfl
      · have := hapart service hservice other hother heq answers.now sequence
        rw [newFile, this] at hlooks
        exact absurd hlooks (by decide)

theorem Tidy.filter {services : List Name} (h : Tidy services files) (p : LogFile → Bool) :
    Tidy services (files.filter p) := by
  constructor
  · exact h.names.sublist (List.Sublist.map _ filter_sublist)
  · intro file hfile
    exact h.own file (mem_filter.1 hfile).1

theorem length_filter_name_le (hnames : (files.map LogFile.name).Nodup) (name : Name) :
    (files.filter fun file => decide (file.name = name)).length ≤ 1 := by
  have hmap : ((files.filter fun file => decide (file.name = name)).map LogFile.name) ⊆ [name] := by
    intro other hother
    obtain ⟨file, hfile, rfl⟩ := mem_map.1 hother
    have := (mem_filter.1 hfile).2
    simpa using this
  have hnodup := hnames.sublist (List.Sublist.map LogFile.name (filter_sublist
    (p := fun file => decide (file.name = name))))
  have hle := List.Nodup.length_le_of_subset hnodup hmap
  rwa [length_map] at hle

theorem rotation_of_tidy {services : List Name} (htidy : Tidy services files) {service : Name}
    (hservice : service ∈ services) {answers : OpenAnswers} (hreadable : answers.unreadable = []) {logger : Logger}
    {removed : List LogFile}
    (hremoved : removed = pruneOldFiles service logger.currentName logger.maxFiles answers files) :
    Rotation service logger answers (files.filter fun file => !removed.contains file) removed := by
  obtain ⟨kept, hperm, hsorted, hbound⟩ :=
    pruneOldFiles_split service logger.currentName logger.maxFiles answers files
  rw [← hremoved] at hperm hsorted
  obtain ⟨hordered, -, hcross⟩ := pairwise_append.1 hsorted
  have hcandidate : ∀ file ∈ removed, file ∈ files ∧ file.regular = true ∧
      looksOwn service file.name = true ∧ file.name ≠ logger.currentName := by
    intro file hfile
    obtain ⟨hmem, hregular, hlooks, hcur, -⟩ :=
      mem_candidates.1 (hperm.mem_iff.1 (mem_append_left kept hfile))
    exact ⟨hmem, hregular, hlooks, hcur⟩
  have hown : ∀ file ∈ removed, IsOf service file := by
    intro file hfile
    obtain ⟨hmem, hregular, hlooks, -⟩ := hcandidate file hfile
    exact htidy.own file hmem hregular service hservice hlooks
  -- what is left of the service is its current file or was looked at and kept
  have hkept : ∀ left ∈ filesOf service (files.filter fun file => !removed.contains file),
      left.name ≠ logger.currentName → left ∈ kept := by
    intro left hleft hname
    simp only [filesOf, mem_filter, Bool.and_eq_true, decide_eq_true_eq, Bool.not_eq_true',
      contains_eq_mem, decide_eq_false_iff_not] at hleft
    obtain ⟨⟨hmem, hnot⟩, hregular, hisOf⟩ := hleft
    have hlooked : left ∈ removed ++ kept := by
      rw [hperm.mem_iff, mem_candidates, hreadable]
      exact ⟨hmem, hregular, looksOwn_of_isOf hisOf, hname, not_mem_nil⟩
    exact (mem_append.1 hlooked).resolve_left hnot
  constructor
  · exact hown
  · intro file hfile other hother hcreator
    rcases hown file hfile with hservice' | ⟨hnone, -⟩
    · rw [hcreator] at hservice'
      exact hother (Option.some.inj hservice')
    · rw [hcreator] at hnone
      exact absurd hnone (by simp)
  · exact fun file hfile => (hcandidate file hfile).2.2.2
  · exact hordered
  · exact fun file hfile left hleft hname => hcross file hfile left (hkept left hleft hname)
  · intro hdeletable
    have hnames : ((filesOf service (files.filter fun file => !removed.contains file)).map LogFile.name).Nodup :=
      htidy.names.sublist (List.Sublist.map _ (filter_sublist.trans filter_sublist))
    have hcur := length_filter_name_le hnames logger.currentName
    have hothers : ((filesOf service (files.filter fun file => !removed.contains file)).filter
        fun file => !decide (file.name = logger.currentName)).length ≤ kept.length := by
      apply List.Nodup.length_le_of_subset
      · exact (List.Nodup.of_map _ hnames).sublist filter_sublist
      · intro left hleft
        obtain ⟨hleft, hname⟩ := mem_filter.1 hleft
        exact hkept left hleft (by simpa using hname)
    have hfew := hbound hdeletable logger.maxFiles.2
    have hsplit := length_eq_length_filter_add
      (l := filesOf service (files.filter fun file => !removed.contains file))
      fun file => decide (file.name = logger.currentName)
    omega

variable {services : List Name} {s : LogDirectory} {service : Name} {answers : OpenAnswers}

theorem openFile_rotation (hapart : Apart services) (htidy : Tidy services s.files)
    (hservice : service ∈ services) (hreadable : answers.unreadable = []) :
    Rotation service ((s.openFile service answers).1.loggers service) answers
        (s.openFile service answers).1.files (s.openFile service answers).2 ∧
      Tidy services (s.openFile service answers).1.files := by
  obtain ⟨sequence, hfree, hopen⟩ := openFile_cases s service answers
  have htidy' : Tidy services
      (if answers.opened then s.files ++ [newFile service answers sequence] else s.files) := by
    split
    · exact tidy_newFile hapart htidy hservice answers hfree
    · exact htidy
  rw [hopen]
  refine ⟨?_, htidy'.filter _⟩
  dsimp only
  rw [Function.update_self]
  exact rotation_of_tidy htidy' hservice hreadable rfl

/-! ## Runs -/

theorem tidy_flush (htidy : Tidy services s.files) (service : Name) (modifiedAt : Int) :
    Tidy services (s.flush service modifiedAt).files := by
  unfold LogDirectory.flush
  split
  · constructor
    · have hsame : (s.files.map fun file =>
          if file.name = (s.loggers service).currentName then { file with modifiedAt } else file).map
            LogFile.name = s.files.map LogFile.name := by
        rw [map_map]
        apply map_congr_left
        intro file _
        simp only [Function.comp_apply]
        split <;> rfl
      rw [hsame]
      exact htidy.names
    · intro file hfile
      obtain ⟨old, hold, rfl⟩ := mem_map.1 hfile
      split <;> exact htidy.own old hold
  · exact htidy

theorem keepsOwn_of_tidy (hapart : Apart services) {event : LogEvent} (htidy : Tidy services s.files)
    (hpermitted : Permitted services event) : KeepsOwn s event ∧ Tidy services (s.step event).1.files := by
  cases event with
  | start service => exact ⟨rfl, htidy⟩
  | init service maxFiles answers =>
    obtain ⟨hservice, hreadable⟩ := hpermitted
    have htidy' : Tidy services
        (s.setLogger service { s.loggers service with maxFiles }).files := htidy
    exact openFile_rotation hapart htidy' hservice hreadable
  | rotate service answers =>
    obtain ⟨hservice, hreadable⟩ := hpermitted
    exact openFile_rotation hapart htidy hservice hreadable
  | flush service modifiedAt => exact ⟨rfl, tidy_flush htidy service modifiedAt⟩

theorem along_keepsOwn (hapart : Apart services) (htidy : Tidy services files) {events : List LogEvent}
    (hpermitted : ∀ event ∈ events, Permitted services event) :
    Along LogDirectory.step KeepsOwn (LogDirectory.fresh files) events := by
  have hall : Along LogDirectory.step (fun _ event => Permitted services event)
      (LogDirectory.fresh files) events := along_of_forall (fun event hevent _ => hpermitted event hevent) _
  exact hall.of_invariant (I := fun s => Tidy services s.files)
    (fun s event htidy hevent => (keepsOwn_of_tidy hapart htidy hevent).2)
    (fun s event htidy hevent => (keepsOwn_of_tidy hapart htidy hevent).1) htidy

/-! ## Names that are not apart -/

def openingAt (stamp : Stamp) (opened : Bool) : OpenAnswers := { now := stamp, opened, modifiedAt := 0 }

theorem openFile_failed (service : Name) (hfiles : s.files = []) (stamp : Stamp) :
    (s.openFile service (openingAt stamp false)).1.files = [] ∧
      ((s.openFile service (openingAt stamp false)).1.loggers service).fileSequence =
        (s.loggers service).fileSequence + 1 := by
  have hfresh : freshSequence (fun sequence =>
      (s.files.map LogFile.name).contains (logFileName service (openingAt stamp false).now sequence))
      (s.files.length + 1) (s.loggers service).fileSequence = some (s.loggers service).fileSequence := by
    rw [hfiles]
    rfl
  simp only [openFile, hfresh]
  rw [hfiles, Function.update_self]
  exact ⟨rfl, rfl⟩

theorem run_failed (service : Name) (stamp : Stamp) (count : Nat) (hfiles : s.files = []) :
    (run LogDirectory.step s (List.replicate count (.rotate service (openingAt stamp false)))).files = [] ∧
      ((run LogDirectory.step s
        (List.replicate count (.rotate service (openingAt stamp false)))).loggers service).fileSequence =
          (s.loggers service).fileSequence + count := by
  induction count generalizing s with
  | zero => exact ⟨hfiles, rfl⟩
  | succ count ih =>
    obtain ⟨hempty, hseq⟩ := openFile_failed service hfiles stamp
    obtain ⟨hrun, hcount⟩ := ih hempty
    rw [replicate_succ, run_cons]
    exact ⟨hrun, hcount.trans (by omega)⟩

theorem openFile_first (service : Name) (hfiles : s.files = []) (stamp : Stamp) :
    (s.openFile service (openingAt stamp true)).1.files =
      [newFile service (openingAt stamp true) (s.loggers service).fileSequence] := by
  have hfresh : freshSequence (fun sequence =>
      (s.files.map LogFile.name).contains (logFileName service (openingAt stamp true).now sequence))
      (s.files.length + 1) (s.loggers service).fileSequence = some (s.loggers service).fileSequence := by
    rw [hfiles]
    rfl
  have hnone : ∀ file : LogFile, candidates service file.name [] [file] = [] := by
    intro file
    rw [eq_nil_iff_forall_not_mem]
    intro other hother
    obtain ⟨hmem, -, -, hname, -⟩ := mem_candidates.1 hother
    exact hname (congrArg LogFile.name (mem_singleton.1 hmem))
  simp only [openFile, hfresh]
  rw [hfiles]
  have hremoved : ∀ file : LogFile, pruneOldFiles service file.name (s.loggers service).maxFiles
      (openingAt stamp true) [file] = [] := by
    intro file
    have := hnone file
    simp only [pruneOldFiles, openingAt, this]
    rfl
  simp only [openingAt, if_true, nil_append] at hremoved ⊢
  rw [hremoved]
  simp

theorem mem_removed_of_looksOwn {other : Name} (hfiles : s.files = [file]) (hregular : file.regular = true)
    (hlooks : looksOwn other file.name = true) (hmax : ((s.loggers other).maxFiles : Nat) = 1) (stamp : Stamp) :
    file ∈ (s.openFile other (openingAt stamp true)).2 := by
  obtain ⟨sequence, hfree, hopen⟩ := openFile_cases s other (openingAt stamp true)
  have hname : file.name ≠ logFileName other stamp sequence := by
    rintro heq
    rw [hfiles] at hfree
    exact hfree (mem_singleton.2 heq.symm)
  have hcandidates : candidates other (logFileName other stamp sequence) []
      [file, newFile other (openingAt stamp true) sequence] = [file] := by
    simp [candidates, hregular, hlooks, hname, newFile, openingAt]
  rw [hopen]
  simp only [hfiles, hmax, openingAt, if_true, singleton_append]
  change file ∈ removeOldest 1 [] ((candidates other (logFileName other stamp sequence) []
    [file, newFile other (openingAt stamp true) sequence]).insertionSort LogFile.Before)
  rw [hcandidates]
  exact mem_singleton.2 rfl

theorem not_keepsOwn_init {other : Name} (hfiles : s.files = [file]) (hregular : file.regular = true)
    (hcreator : file.creator = some service) (hne : service ≠ other) (hlooks : looksOwn other file.name = true)
    (stamp : Stamp) : ¬ KeepsOwn s (.init other ⟨1, Nat.le_refl 1⟩ (openingAt stamp true)) := by
  intro h
  have hrotation : Rotation other _ _ _ _ := h
  have hmem := mem_removed_of_looksOwn
    (s := s.setLogger other { s.loggers other with maxFiles := ⟨1, Nat.le_refl 1⟩ })
    hfiles hregular hlooks (by rw [LogDirectory.loggers_setLogger_self]) stamp
  exact hrotation.others file hmem service hne hcreator

/-- Services that keep what is promised in every run are apart. -/
theorem apart_of_along (h : ∀ files, Tidy services files → ∀ events, (∀ event ∈ events, Permitted services event) →
      Along LogDirectory.step KeepsOwn (LogDirectory.fresh files) events) : Apart services := by
  intro service hservice other hother hne stamp sequence
  by_contra hlooks
  rw [Bool.not_eq_false] at hlooks
  have hpermitted : ∀ event ∈ List.replicate sequence (LogEvent.rotate service (openingAt stamp false)) ++
      [.rotate service (openingAt stamp true), .init other ⟨1, Nat.le_refl 1⟩ (openingAt stamp true)],
      Permitted services event := by
    intro event hevent
    simp only [mem_append, mem_replicate, mem_cons, not_mem_nil, or_false] at hevent
    rcases hevent with ⟨-, rfl⟩ | rfl | rfl
    · exact ⟨hservice, rfl⟩
    · exact ⟨hservice, rfl⟩
    · exact ⟨hother, rfl⟩
  have hempty : Tidy services [] := ⟨nodup_nil, fun file hfile => absurd hfile not_mem_nil⟩
  have halong := (along_append _ _ _).1 (h [] hempty _ hpermitted)
  obtain ⟨hfiles, hseq⟩ := run_failed (s := LogDirectory.fresh []) service stamp sequence rfl
  obtain ⟨-, hkeeps, -⟩ := halong.2
  have hcount : (run LogDirectory.step (LogDirectory.fresh [])
      (List.replicate sequence (.rotate service (openingAt stamp false)))
        |>.loggers service).fileSequence = sequence := hseq.trans (Nat.zero_add _)
  have hfirst := openFile_first service hfiles stamp
  rw [hcount] at hfirst
  exact not_keepsOwn_init hfirst rfl rfl hne hlooks stamp hkeeps

/-- **The rotation of some services keeps to their own files in every run**, from every directory without
    other files under their names, if and only if no service makes a name that looks like one of another. -/
theorem rotation_iff_apart (services : List Name) :
    (∀ files, Tidy services files → ∀ events, (∀ event ∈ events, Permitted services event) →
      Along LogDirectory.step KeepsOwn (LogDirectory.fresh files) events) ↔ Apart services := by
  constructor
  · exact apart_of_along
  · intro hapart files htidy events hpermitted
    exact along_keepsOwn hapart htidy hpermitted

theorem rotation_iff_apart_hmi_agent (events : List LogEvent)
    (hpermitted : ∀ event ∈ events, Permitted [['h', 'm', 'i'], ['a', 'g', 'e', 'n', 't']] event) :
    Along LogDirectory.step KeepsOwn (LogDirectory.fresh []) events := by
  have hapart : Apart [['h', 'm', 'i'], ['a', 'g', 'e', 'n', 't']] := by
    intro service hservice other hother hne stamp sequence
    simp only [mem_cons, not_mem_nil, or_false] at hservice hother
    rcases hservice with rfl | rfl <;> rcases hother with rfl | rfl
    · exact absurd rfl hne
    · simp [looksOwn, timestamped, legacy, logFileName, servicePrefix, kLogExtension, List.isPrefixOf]
    · simp [looksOwn, timestamped, legacy, logFileName, servicePrefix, kLogExtension, List.isPrefixOf]
    · exact absurd rfl hne
  have hempty : Tidy [['h', 'm', 'i'], ['a', 'g', 'e', 'n', 't']] [] :=
    ⟨nodup_nil, fun file hfile => absurd hfile not_mem_nil⟩
  exact (rotation_iff_apart _).2 hapart [] hempty events hpermitted

def newYear : Stamp := { year := 2024, month := 0, day := 0, hour := 0, minute := 0, second := 0, millis := 0 }

/-- **The service `a` removes the file that `a_b` is writing.** -/
theorem not_rotation : ¬ ∀ services : List Name, (∀ service ∈ services, service ≠ []) → services.Nodup →
    ∀ files, Tidy services files → ∀ events, (∀ event ∈ events, Permitted services event) →
      Along LogDirectory.step KeepsOwn (LogDirectory.fresh files) events := by
  intro h
  have hempty : Tidy [['a'], ['a', '_', 'b']] [] :=
    ⟨nodup_nil, fun file hfile => absurd hfile not_mem_nil⟩
  have hpermitted : ∀ event ∈ [LogEvent.rotate ['a', '_', 'b'] (openingAt newYear true),
      .init ['a'] ⟨1, Nat.le_refl 1⟩ (openingAt newYear true)],
      Permitted [['a'], ['a', '_', 'b']] event := by
    intro event hevent
    simp only [mem_cons, not_mem_nil, or_false] at hevent
    rcases hevent with rfl | rfl <;> exact ⟨by decide, rfl⟩
  have halong := h [['a'], ['a', '_', 'b']] (by decide) (by decide) [] hempty _ hpermitted
  have hfirst := openFile_first (s := LogDirectory.fresh []) ['a', '_', 'b'] rfl newYear
  exact not_keepsOwn_init hfirst rfl rfl (by decide) (by decide) newYear halong.2.1

end Cockpit.Debugger
