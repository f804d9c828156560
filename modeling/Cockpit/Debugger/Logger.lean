/-
  The files of the logger (`debugger/logging/logger.cc`): any number of services log into one directory, each
  with a logger of its own. A logger opens a new file when it is initialised and when it rotates, and then
  prunes.

  A name is one part of a path, so there is no `/` in it.
-/
import Mathlib.Data.Char
import Mathlib.Data.List.Lex
import Mathlib.Data.List.Sort
import Cockpit.Lib.StepRun

namespace Cockpit.Debugger

/-! ## File names -/

abbrev Name := List Char

/-- A local time, as `std::tm` has it, and its milliseconds. -/
structure Stamp where
  year : Nat
  month : Fin 12
  day : Fin 31
  hour : Fin 24
  minute : Fin 60
  second : Fin 61
  millis : Fin 1000
  deriving DecidableEq

def padded (width n : Nat) : Name :=
  List.replicate (width - (Nat.toDigits 10 n).length) '0' ++ Nat.toDigits 10 n

/-- `FormatTime`. -/
def formatTime (stamp : Stamp) : Name :=
  Nat.toDigits 10 stamp.year ++ padded 2 (stamp.month + 1) ++ padded 2 (stamp.day + 1) ++ ['_'] ++
    padded 2 stamp.hour ++ padded 2 stamp.minute ++ padded 2 stamp.second ++ ['_'] ++ padded 3 stamp.millis

def kLogExtension : Name := ['.', 'l', 'o', 'g']

variable (service : Name)

def servicePrefix : Name := service ++ ['_']

/-- The name of a new file. -/
def logFileName (stamp : Stamp) (sequence : Nat) : Name :=
  servicePrefix service ++ formatTime stamp ++ ['_'] ++ padded 6 sequence ++ kLogExtension

/-- From the last dot on. -/
def extension (name : Name) : Name :=
  let tail := name.reverse.takeWhile (· ≠ '.')
  if name.length ≤ tail.length + 1 then [] else name.drop (name.length - (tail.length + 1))

example : extension ['a', '.', 'l', 'o', 'g'] = kLogExtension ∧ extension kLogExtension = [] := by decide

/-- The name looks like one of the service's. -/
def timestamped (name : Name) : Bool :=
  (servicePrefix service).isPrefixOf name && extension name == kLogExtension

/-- A name of an older version. -/
def legacy (name : Name) : Bool :=
  name == service ++ kLogExtension || (service ++ kLogExtension ++ ['.']).isPrefixOf name

/-- All that a logger asks. -/
def looksOwn (name : Name) : Bool := timestamped service name || legacy service name

/-! ## The directory -/

/-- An entry of the directory.  `creator` is the service whose `OpenFile` has made it, if one has. -/
structure LogFile where
  name : Name
  modifiedAt : Int
  regular : Bool
  creator : Option Name
  created : ∀ service, creator = some service → ∃ stamp sequence, name = logFileName service stamp sequence
  deriving DecidableEq

/-- Older, or as old and first by name. -/
def LogFile.Before (a b : LogFile) : Prop :=
  a.modifiedAt < b.modifiedAt ∨ a.modifiedAt = b.modifiedAt ∧ a.name ≤ b.name

instance : DecidableRel LogFile.Before := fun a b =>
  inferInstanceAs (Decidable (a.modifiedAt < b.modifiedAt ∨ a.modifiedAt = b.modifiedAt ∧ a.name ≤ b.name))

structure Logger where
  maxFiles : { n : Nat // 1 ≤ n } := ⟨10, by decide⟩
  fileSequence : Nat := 0
  /-- The file name of `current_path_`. -/
  currentName : Name := []
  /-- `output_.is_open()`. -/
  isOpen : Bool := false

/-- The files, and the loggers by their services. -/
structure LogDirectory where
  files : List LogFile
  loggers : Name → Logger

/-- What the system answers to one `OpenFile`. -/
structure OpenAnswers where
  now : Stamp
  /-- Whether the file could be opened, and when it was modified then. -/
  opened : Bool
  modifiedAt : Int
  /-- The files whose `last_write_time` fails. -/
  unreadable : List Name := []
  /-- The files that cannot be removed. -/
  undeletable : List Name := []

inductive LogEvent where
  /-- A new process of the service. -/
  | start (service : Name)
  /-- `Init`. -/
  | init (service : Name) (maxFiles : { n : Nat // 1 ≤ n }) (answers : OpenAnswers)
  /-- The cut-off of `Run`. -/
  | rotate (service : Name) (answers : OpenAnswers)
  /-- `Flush` writes to the current file. -/
  | flush (service : Name) (modifiedAt : Int)

/-! ## Opening and pruning -/

/-- The next number that is free. -/
def freshSequence (taken : Nat → Bool) : Nat → Nat → Option Nat
  | 0, _ => none
  | fuel + 1, sequence =>
    if taken sequence then freshSequence taken fuel (sequence + 1) else some sequence

/-- What may be removed. -/
def candidates (current : Name) (unreadable : List Name) (files : List LogFile) : List LogFile :=
  files.filter fun file => file.regular && looksOwn service file.name && decide (file.name ≠ current) &&
    !unreadable.contains file.name

/-- Until few enough are left. -/
def removeOldest (maxFiles : Nat) (undeletable : List Name) : List LogFile → List LogFile
  | [] => []
  | file :: files =>
    if files.length + 1 + 1 > maxFiles then
      if undeletable.contains file.name then [] else file :: removeOldest maxFiles undeletable files
    else []

/-- `PruneOldFiles`. -/
def pruneOldFiles (current : Name) (maxFiles : Nat) (answers : OpenAnswers) (files : List LogFile) : List LogFile :=
  removeOldest maxFiles answers.undeletable
    ((candidates service current answers.unreadable files).insertionSort LogFile.Before)

namespace LogDirectory

variable (s : LogDirectory)

def setLogger (service : Name) (logger : Logger) : LogDirectory :=
  { s with loggers := Function.update s.loggers service logger }

theorem loggers_setLogger_self (service : Name) (logger : Logger) :
    (s.setLogger service logger).loggers service = logger :=
  Function.update_self ..

def newFile (service : Name) (answers : OpenAnswers) (sequence : Nat) : LogFile where
  name := logFileName service answers.now sequence
  modifiedAt := answers.modifiedAt
  regular := true
  creator := some service
  created := by
    intro other h
    obtain rfl := Option.some.inj h
    exact ⟨_, _, rfl⟩

/-- `OpenFile`. -/
def openFile (service : Name) (answers : OpenAnswers) : LogDirectory × List LogFile :=
  let logger := s.loggers service
  let taken := fun sequence => (s.files.map LogFile.name).contains (logFileName service answers.now sequence)
  match freshSequence taken (s.files.length + 1) logger.fileSequence with
  | none => (s, [])
  | some sequence =>
    let file := newFile service answers sequence
    let files := if answers.opened then s.files ++ [file] else s.files
    let removed := pruneOldFiles service file.name logger.maxFiles answers files
    ({ files := files.filter fun file => !removed.contains file
       loggers := Function.update s.loggers service
         { logger with fileSequence := sequence + 1, currentName := file.name, isOpen := answers.opened } },
      removed)

/-- The file is written to. -/
def flush (service : Name) (modifiedAt : Int) : LogDirectory :=
  if (s.loggers service).isOpen then
    { s with
      files := s.files.map fun file =>
        if file.name = (s.loggers service).currentName then { file with modifiedAt } else file }
  else s

/-- Every step also says what was removed. -/
def step : LogEvent → LogDirectory × List LogFile
  | .start service => (s.setLogger service {}, [])
  | .init service maxFiles answers =>
    (s.setLogger service { s.loggers service with maxFiles }).openFile service answers
  | .rotate service answers => s.openFile service answers
  | .flush service modifiedAt => (s.flush service modifiedAt, [])

def fresh (files : List LogFile) : LogDirectory := { files, loggers := fun _ => {} }

end LogDirectory

end Cockpit.Debugger
