/-
  The integrity check of a recorded session. An entry that was copied into the session is looked for below the
  session directory: the path is normalised as text and compared with the directory part by part, and what the
  file system makes of it is compared once more. File system and YAML library are parameters.
-/
import Cockpit.Lib.LexicalPath
import Cockpit.Recording.RecordingSession

namespace Cockpit.Recording

open ByteText Durable Durable.Program Json LexicalPath

/-! ## What the check asks of others -/

/-- The file system, as the check sees it: an error of `exists` has a text, and an `std::ifstream` that is opened gives
    its content up to the end or to an error.  A path that ends in a slash is that of a directory. -/
structure FileSystem where
  currentPath : Option Bytes
  existsAt : Bytes → Except Bytes Bool
  canonical : Bytes → Option Bytes
  isRegularFile : Bytes → Bool
  fileSize : Bytes → Option UInt64
  openRead : Bytes → Option (Bytes × Bool)
  isAbsolute_currentPath : ∀ path ∈ currentPath, isAbsolute path = true
  not_isRegularFile : ∀ path, endsInSlash path = true → isRegularFile path = false

/-- What is asked of a YAML document: `get` is the entry of a map, and a conversion that throws gives nothing. -/
structure Yaml (Node : Type) where
  load : Bytes → Option Node
  isMap : Node → Bool
  get : Node → String → Node
  asString : Node → Option Bytes
  asUInt64 : Node → Option UInt64
  asBool : Node → Option Bool

/-! ## The result -/

inductive RecordingIntegrityIssueKind where
  | invalidIndex
  | unsafePath
  | missingFile
  | notRegularFile
  | sizeMismatch
  | checksumMismatch
  deriving DecidableEq

structure RecordingIntegrityIssue where
  kind : RecordingIntegrityIssueKind
  lineNumber : Nat
  source : Bytes
  path : Bytes
  message : Bytes
  expectedSizeBytes : UInt64 := 0
  actualSizeBytes : UInt64 := 0
  expectedChecksum : Bytes := []
  actualChecksum : Bytes := []
  deriving DecidableEq

structure RecordingIntegrityResult where
  healthy : Bool := true
  indexEntries : Nat := 0
  filesChecked : Nat := 0
  checksumsChecked : Nat := 0
  checksumsUnavailable : Nat := 0
  issues : List RecordingIntegrityIssue := []
  deriving DecidableEq

/-! ## Index lines -/

def kMaximumLineBytes : Nat := 1024 * 1024

def kFnvPrefix : Bytes := ascii "fnv1a64:"

structure IndexedFile where
  source : Bytes
  path : Bytes
  sizeBytes : UInt64
  checksum : Bytes
  copiedIntoSession : Bool
  deriving DecidableEq

/-- One line of `data_files.jsonl`. -/
def parseIndexLine {Node : Type} (yaml : Yaml Node) (line : Bytes) : Option IndexedFile := do
  guard (line.length ≤ kMaximumLineBytes && isValidValue line)
  let node ← yaml.load line
  guard (yaml.isMap node)
  let source ← yaml.asString (yaml.get node "source")
  let path ← yaml.asString (yaml.get node "path")
  let sizeBytes ← yaml.asUInt64 (yaml.get node "size_bytes")
  let checksum := (yaml.asString (yaml.get node "checksum")).getD []
  let copiedIntoSession := (yaml.asBool (yaml.get node "copied_into_session")).getD false
  guard (!source.isEmpty && !path.isEmpty)
  some { source, path, sizeBytes, checksum, copiedIntoSession }

/-! ## Paths -/

/-- Part by part. -/
def isWithinDirectory (path directory : Bytes) : Bool := (elements directory).isPrefixOf (elements path)

def absolute (fs : FileSystem) (path : Bytes) : Option Bytes :=
  if path.isEmpty then none
  else if isAbsolute path then some path
  else fs.currentPath.map fun current => divide current path

/-- Where to look, and whether it is allowed. -/
def resolvePath (fs : FileSystem) (file : IndexedFile) (sessionDirectory : Bytes) : Option (Bytes × Bool) :=
  if !file.copiedIntoSession then some (file.path, true)
  else if isAbsolute file.path then some ([], false)
  else do
    let base ← absolute fs sessionDirectory
    let normalizedSession := lexicallyNormal base
    let resolved := lexicallyNormal (divide normalizedSession file.path)
    some (resolved, isWithinDirectory resolved normalizedSession &&
      elements resolved ≠ elements normalizedSession)

/-! ## One file -/

inductive AccessKind where
  | size
  | checksum
  deriving DecidableEq

/-- A file that is opened for an entry. -/
structure Access where
  file : IndexedFile
  kind : AccessKind
  path : Bytes
  deriving DecidableEq

/-- The result so far, and the log. -/
structure Verification where
  result : RecordingIntegrityResult := {}
  accesses : List Access := []
  deriving DecidableEq

/-- Part of a check; where it fails, an exception is thrown. -/
abbrev Verifying := Program Empty Bytes Verification

def addIssue (issue : RecordingIntegrityIssue) : Verifying Unit :=
  modify fun v => { v with result := { v.result with healthy := false, issues := v.result.issues ++ [issue] } }

def makeIssue (kind : RecordingIntegrityIssueKind) (lineNumber : Nat) (source path message : Bytes) :
    RecordingIntegrityIssue :=
  { kind, lineNumber, source, path, message }

/-- What is opened for a size or a checksum is kept in a log. -/
def access (file : IndexedFile) (kind : AccessKind) (path : Bytes) : Verifying Unit :=
  modify fun v => { v with accesses := v.accesses ++ [⟨file, kind, path⟩] }

def fileChecksum (fs : FileSystem) (path : Bytes) : Except Bytes Bytes :=
  match fs.openRead path with
  | none => .error (ascii "open file for checksum failed: " ++ path)
  | some (content, bad) =>
    if bad then .error (ascii "read file for checksum failed: " ++ path)
    else .ok (kFnvPrefix ++ hexDigits 16 (fnv1a64 content).toNat)

def verifyChecksum (fs : FileSystem) (file : IndexedFile) (lineNumber : Nat) (path : Bytes) : Verifying Unit :=
  if file.checksum.isEmpty || !kFnvPrefix.isPrefixOf file.checksum then
    modify fun v => { v with result := { v.result with checksumsUnavailable := v.result.checksumsUnavailable + 1 } }
  else do
    access file .checksum path
    match fileChecksum fs path with
    | .error error =>
      addIssue { makeIssue .checksumMismatch lineNumber file.source file.path error with
        expectedChecksum := file.checksum }
    | .ok actualChecksum => do
      modify fun v => { v with result := { v.result with checksumsChecked := v.result.checksumsChecked + 1 } }
      if actualChecksum ≠ file.checksum then
        addIssue { makeIssue .checksumMismatch lineNumber file.source file.path
            (ascii "indexed file checksum does not match") with
          expectedChecksum := file.checksum, actualChecksum }
      else pure ()

/-- The size of the entry. -/
def verifySize (file : IndexedFile) (lineNumber : Nat) (actualSize : UInt64) : Verifying Unit :=
  if actualSize ≠ file.sizeBytes then
    addIssue { makeIssue .sizeMismatch lineNumber file.source file.path (ascii "indexed file size does not match")
      with expectedSizeBytes := file.sizeBytes, actualSizeBytes := actualSize }
  else pure ()

def verifyContent (fs : FileSystem) (file : IndexedFile) (lineNumber : Nat) (path : Bytes) : Verifying Unit := do
  access file .size path
  match fs.fileSize path with
  | none =>
    addIssue (makeIssue .notRegularFile lineNumber file.source file.path (ascii "read indexed file size failed"))
  | some actualSize => do
    modify fun v => { v with result := { v.result with filesChecked := v.result.filesChecked + 1 } }
    verifySize file lineNumber actualSize
    verifyChecksum fs file lineNumber path

/-- The file system says so too. -/
def resolvesInside (fs : FileSystem) (path sessionDirectory : Bytes) : Bool :=
  match fs.canonical sessionDirectory, fs.canonical path with
  | some canonicalSession, some canonicalPath =>
    isWithinDirectory canonicalPath canonicalSession && elements canonicalPath ≠ elements canonicalSession
  | _, _ => false

/-- One entry. -/
def verifyFile (fs : FileSystem) (file : IndexedFile) (lineNumber : Nat) (sessionDirectory : Bytes) :
    Verifying Unit :=
  match resolvePath fs file sessionDirectory with
  | none => fail (ascii "cannot make absolute path")
  | some (path, isSafe) =>
    if !isSafe then
      addIssue (makeIssue .unsafePath lineNumber file.source file.path
        (ascii "copied artifact path escapes the recording session"))
    else match fs.existsAt path with
    | .error error =>
      addIssue (makeIssue .missingFile lineNumber file.source file.path
        (ascii "inspect indexed file failed: " ++ error))
    | .ok false =>
      addIssue (makeIssue .missingFile lineNumber file.source file.path (ascii "indexed file does not exist"))
    | .ok true =>
      if file.copiedIntoSession && !resolvesInside fs path sessionDirectory then
        addIssue (makeIssue .unsafePath lineNumber file.source file.path
          (ascii "copied artifact resolves outside the recording session"))
      else if !fs.isRegularFile path then
        addIssue (makeIssue .notRegularFile lineNumber file.source file.path
          (ascii "indexed path is not a regular file"))
      else verifyContent fs file lineNumber path

/-! ## The index -/

def verifyLine {Node : Type} (fs : FileSystem) (yaml : Yaml Node) (sessionDirectory : Bytes) (lineNumber : Nat)
    (line : Bytes) : Verifying Unit :=
  match parseIndexLine yaml line with
  | none => addIssue (makeIssue .invalidIndex lineNumber [] [] (ascii "data file index line is invalid"))
  | some file => do
    modify fun v => { v with result := { v.result with indexEntries := v.result.indexEntries + 1 } }
    verifyFile fs file lineNumber sessionDirectory

/-- Line by line. -/
def verifyLines {Node : Type} (fs : FileSystem) (yaml : Yaml Node) (sessionDirectory : Bytes) :
    Nat → List Bytes → Verifying Unit
  | _, [] => pure ()
  | lineNumber, line :: lines => do
    verifyLine fs yaml sessionDirectory (lineNumber + 1) line
    verifyLines fs yaml sessionDirectory (lineNumber + 1) lines

def indexLines (content : Bytes) (bad : Bool) : List Bytes :=
  if bad then (lines content).take (content.count newline) else lines content

/-- `Verify`. -/
def verify {Node : Type} (fs : FileSystem) (yaml : Yaml Node) (sessionDirectory : Bytes) :
    Verifying (Except Bytes RecordingIntegrityResult) :=
  let indexPath := divide sessionDirectory (ascii "data_files.jsonl")
  match fs.openRead indexPath with
  | none => pure (.error (ascii "open recording data file index failed: " ++ indexPath))
  | some (content, bad) => do
    verifyLines fs yaml sessionDirectory 0 (indexLines content bad)
    if bad then pure (.error (ascii "read recording data file index failed: " ++ indexPath))
    else do
      let v ← get
      pure (.ok v.result)

def runVerify {Node : Type} (fs : FileSystem) (yaml : Yaml Node) (sessionDirectory : Bytes) :
    Outcome Bytes (Except Bytes RecordingIntegrityResult) × Verification :=
  (verify fs yaml sessionDirectory).run (fun op => nomatch op) {}

/-! ## The log -/

/-- All that was opened. -/
def Logged (P : Access → Prop) (v : Verification) : Prop := ∀ opened ∈ v.accesses, P opened

section Log

variable {P : Access → Prop} {answers : Empty → Answer} {fs : FileSystem} {sessionDirectory : Bytes}

theorem addIssue_triple (issue : RecordingIntegrityIssue) :
    Triple answers (Logged P) (addIssue issue) (fun _ => Logged P) (Logged P) :=
  .modify fun _ hv => hv

variable {file : IndexedFile}

variable {path : Bytes}

/-- What is opened has to keep the law. -/
theorem access_triple {kind : AccessKind} (h : P ⟨file, kind, path⟩) :
    Triple answers (Logged P) (access file kind path) (fun _ => Logged P) (Logged P) := by
  refine .modify fun v hv opened hopened => ?_
  rcases List.mem_append.mp hopened with hopened | hopened
  · exact hv opened hopened
  · rw [List.mem_singleton.mp hopened]
    exact h

theorem verifyChecksum_triple (h : ∀ kind, P ⟨file, kind, path⟩) (lineNumber : Nat) :
    Triple answers (Logged P) (verifyChecksum fs file lineNumber path) (fun _ => Logged P) (Logged P) := by
  unfold verifyChecksum
  refine .ite (fun _ => .modify fun v hv => hv) fun _ => ?_
  refine .bind (access_triple (h .checksum)) fun _ => ?_
  cases fileChecksum fs path with
  | error error => exact addIssue_triple _
  | ok actualChecksum =>
    refine .bind (M := fun _ => Logged P) (.modify fun v hv => hv) fun _ => ?_
    exact .ite (fun _ => addIssue_triple _) fun _ => .pure fun v hv => hv

theorem verifyContent_triple (h : ∀ kind, P ⟨file, kind, path⟩) (lineNumber : Nat) :
    Triple answers (Logged P) (verifyContent fs file lineNumber path) (fun _ => Logged P) (Logged P) := by
  unfold verifyContent
  refine .bind (access_triple (h .size)) fun _ => ?_
  cases fs.fileSize path with
  | none => exact addIssue_triple _
  | some actualSize =>
    refine .bind (M := fun _ => Logged P) (.modify fun v hv => hv) fun _ => ?_
    refine .bind (M := fun _ => Logged P) ?_ fun _ => verifyChecksum_triple h lineNumber
    unfold verifySize
    exact .ite (fun _ => addIssue_triple _) fun _ => .pure fun v hv => hv

/-- Only what `ResolvePath` allows is opened. -/
theorem verifyFile_triple (lineNumber : Nat)
    (h : ∀ path, resolvePath fs file sessionDirectory = some (path, true) → fs.isRegularFile path = true → ∀ kind,
      P ⟨file, kind, path⟩) :
    Triple answers (Logged P) (verifyFile fs file lineNumber sessionDirectory) (fun _ => Logged P) (Logged P) := by
  unfold verifyFile
  cases hresolved : resolvePath fs file sessionDirectory with
  | none => exact .fail fun v hv => hv
  | some resolved =>
    obtain ⟨path, isSafe⟩ := resolved
    refine .ite (fun _ => addIssue_triple _) fun hsafe => ?_
    rw [Bool.not_eq_true', Bool.not_eq_false] at hsafe
    rw [hsafe] at hresolved
    cases fs.existsAt path with
    | error error => exact addIssue_triple _
    | ok found =>
      cases found with
      | false => exact addIssue_triple _
      | true =>
        refine .ite (fun _ => addIssue_triple _) fun _ => ?_
        refine .ite (fun _ => addIssue_triple _) fun hregular => ?_
        rw [Bool.not_eq_true', Bool.not_eq_false] at hregular
        exact verifyContent_triple (h path hresolved hregular) lineNumber

/-- So it is for every line. -/
theorem verifyLines_triple {Node : Type} (yaml : Yaml Node)
    (h : ∀ file path, resolvePath fs file sessionDirectory = some (path, true) → fs.isRegularFile path = true →
      ∀ kind, P ⟨file, kind, path⟩) (lineNumber : Nat) (lines : List Bytes) :
    Triple answers (Logged P) (verifyLines fs yaml sessionDirectory lineNumber lines) (fun _ => Logged P)
      (Logged P) := by
  induction lines generalizing lineNumber with
  | nil => exact .pure fun v hv => hv
  | cons line lines ih =>
    unfold verifyLines
    refine .bind (M := fun _ => Logged P) ?_ fun _ => ih (lineNumber + 1)
    unfold verifyLine
    cases parseIndexLine yaml line with
    | none => exact addIssue_triple _
    | some file =>
      refine .bind (M := fun _ => Logged P) (.modify fun v hv => hv) fun _ => ?_
      exact verifyFile_triple (lineNumber + 1) (h file)

/-- **The log of a whole check.** -/
theorem logged_verify {Node : Type} (yaml : Yaml Node)
    (h : ∀ file path, resolvePath fs file sessionDirectory = some (path, true) → fs.isRegularFile path = true →
      ∀ kind, P ⟨file, kind, path⟩) : Logged P (runVerify fs yaml sessionDirectory).2 := by
  have htriple : Triple (fun op => nomatch op) (Logged P) (verify fs yaml sessionDirectory) (fun _ => Logged P)
      (Logged P) := by
    unfold verify
    dsimp only
    cases fs.openRead (divide sessionDirectory (ascii "data_files.jsonl")) with
    | none => exact .pure fun v hv => hv
    | some opened =>
      obtain ⟨content, bad⟩ := opened
      refine .bind (verifyLines_triple yaml h 0 _) fun _ => ?_
      refine .ite (fun _ => .pure fun v hv => hv) fun _ => ?_
      exact .bind (M := fun _ => Logged P) (.get fun v hv => hv) fun _ => .pure fun v hv => hv
  exact htriple.anyway (s := {}) nofun fun _ _ hv => hv

end Log

/-! ## Containment -/

/-- The path of a copied entry is that of the session directory with names behind it. -/
def Inside (fs : FileSystem) (sessionDirectory : Bytes) (opened : Access) : Prop :=
  opened.file.copiedIntoSession = true →
    ∃ base, absolute fs sessionDirectory = some base ∧
      opened.path = lexicallyNormal (divide (lexicallyNormal base) opened.file.path) ∧
      ∃ rest, rest ≠ [] ∧ elements opened.path = elements (lexicallyNormal base) ++ rest ∧
        ∀ name ∈ rest, IsName name

variable {fs : FileSystem} {sessionDirectory : Bytes}

variable {path : Bytes}

theorem isAbsolute_divide (h : isAbsolute path = true) (tail : Bytes) : isAbsolute (divide path tail) = true := by
  cases path with
  | nil => cases h
  | cons b path =>
    unfold divide
    split
    · assumption
    · split <;> exact h

theorem isAbsolute_absolute {base : Bytes} (h : absolute fs path = some base) : isAbsolute base = true := by
  unfold absolute at h
  split at h
  · cases h
  · split at h
    case isTrue habsolute =>
      cases h
      exact habsolute
    case isFalse =>
      obtain ⟨current, hcur, rfl⟩ := Option.map_eq_some_iff.mp h
      exact isAbsolute_divide (fs.isAbsolute_currentPath current hcur) path

/-- **A safe path is inside**, if it is that of a regular file. -/
theorem inside_of_resolvePath {file : IndexedFile} (h : resolvePath fs file sessionDirectory = some (path, true))
    (hregular : fs.isRegularFile path = true) (kind : AccessKind) : Inside fs sessionDirectory ⟨file, kind, path⟩ := by
  intro hcopied
  have hcopied : file.copiedIntoSession = true := hcopied
  unfold resolvePath at h
  rw [hcopied, if_neg (by decide)] at h
  split at h
  case isTrue => cases h
  case isFalse =>
    obtain ⟨base, hbase, h⟩ := Option.bind_eq_some_iff.mp h
    obtain ⟨rfl, hsafe⟩ := Prod.mk.inj (Option.some.inj h)
    refine ⟨base, hbase, rfl, ?_⟩
    rw [Bool.and_eq_true, decide_eq_true_eq] at hsafe
    obtain ⟨n, hn, hnormal, -⟩ := rooted_normal (isAbsolute_absolute hbase)
    rw [hnormal] at hregular hsafe ⊢
    obtain ⟨r, hr, hresolved, -⟩ := rooted_normal (isAbsolute_divide hn.isAbsolute_text file.path)
    rw [hresolved] at hregular hsafe ⊢
    have hbegins := List.isPrefixOf_iff_prefix.mp hsafe.1
    have hne := hsafe.2
    rw [hr.elements_text, hn.elements_text] at hbegins hne ⊢
    refine exists_rest hn hr hbegins hne (Bool.eq_false_iff.mpr fun hslash => ?_)
    -- A path that ends in a slash is not that of a regular file.
    have hends := hr.endsInSlash_text (hr.slash hslash)
    rw [fs.not_isRegularFile r.text (hends.trans hslash)] at hregular
    cases hregular

/-- **Whatever the index says**, what is opened for a copied entry is inside the session. -/
theorem accesses_inside {Node : Type} (fs : FileSystem) (yaml : Yaml Node) (sessionDirectory : Bytes) :
    Logged (Inside fs sessionDirectory) (runVerify fs yaml sessionDirectory).2 :=
  logged_verify yaml fun _ _ hresolved hregular kind => inside_of_resolvePath hresolved hregular kind

end Cockpit.Recording
