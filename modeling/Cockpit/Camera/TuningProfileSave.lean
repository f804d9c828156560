/-
  Saving a tuning profile (`SaveTuningProfile` of `driver/camera/tuning/tuning_profile.cc`): encoded, written to
  a temporary file beside the destination, synced, and renamed over it; then the directory is synced.

  Each system call is a place, and a step is what the procedure does with the answer of the system there, so a
  crash may come behind each of them. A call that fails has changed nothing, and nobody else changes the
  directory. The branch without POSIX is left out.
-/
import Cockpit.Camera.NativeTuning
import Cockpit.Lib.CrashDisk

namespace Cockpit.Camera.ProfileSave

open CrashDisk

def kMaxProfileBytes : Nat := 64 * 1024

structure TuningProfileSaveResult where
  committed : Bool := false
  durable : Bool := false
  error : String := ""
  deriving DecidableEq

/-- What the system says to a call. -/
structure Answer where
  ok : Bool := true
  count : Nat := 0
  letters : String := "aaaaaa"
  interrupted : Bool := false
  strerror : String := ""
  deriving DecidableEq

/-- The call that comes next. -/
inductive Place where
  | openDirectory
  | mkstemp
  | fcntl
  | write (offset : Nat)
  | fsyncFile
  | close
  | rename
  | fsyncDirectory
  | closeFile
  | closeDirectory
  | unlink
  | returned
  deriving DecidableEq

/-- `file` is the number of the file behind the descriptor while this is open; `temporary` is `none` for the empty
    string. -/
structure Save where
  place : Place
  text : List UInt8 := []
  disk : Disk String UInt8
  directory : Bool := false
  file : Option Nat := none
  temporary : Option String := none
  result : TuningProfileSaveResult := {}

/-- The way out: the file is closed first, and the temporary file is unlinked if it has a name. -/
def settle (s : Save) : Save :=
  { s with
    place :=
      if s.file.isSome then .closeFile
      else if s.directory then .closeDirectory
      else if s.temporary.isSome then .unlink
      else .returned }

/-- A call has failed. -/
def system (s : Save) (action : String) (answer : Answer) : Save :=
  settle { s with result := { s.result with error := action ++ ": " ++ answer.strerror } }

/-- The rest of the text. -/
def writeFrom (s : Save) (offset : Nat) : Save :=
  { s with place := if offset < s.text.length then .write offset else .fsyncFile }

/-- The profile is checked and encoded before any call. -/
def start (encode : TuningProfile → Except String (List UInt8)) (filename : String) (profile : TuningProfile)
    (disk : Disk String UInt8) : Save :=
  let why := validateTuningProfile profile
  if !why.isEmpty then { place := .returned, disk, result := { error := why } }
  else if filename.isEmpty then { place := .returned, disk, result := { error := "profile destination is empty" } }
  else match encode profile with
    | .error what => { place := .returned, disk, result := { error := what } }
    | .ok text =>
      if text.length > kMaxProfileBytes then
        { place := .returned, disk, result := { error := "encoded profile exceeds 64 KiB" } }
      else { place := .openDirectory, text, disk }

/-- What `mkstemp` makes of it. -/
def temporaryName (filename : String) (answer : Answer) : String := filename ++ ".tmp." ++ answer.letters

/-- What is done with the answer. -/
def advance (filename : String) (s : Save) (answer : Answer) : Save :=
  match s.place with
  | .openDirectory =>
    if answer.ok then { s with place := .mkstemp, directory := true }
    else system s "open profile directory" answer
  | .mkstemp =>
    -- a name that is taken already is none that `mkstemp` returns
    let name := temporaryName filename answer
    if answer.ok && s.disk.entry name = none then
      { s with place := .fcntl, disk := s.disk.create name, file := some s.disk.files.length, temporary := some name }
    else system s "create profile temporary file" answer
  | .fcntl =>
    if answer.ok then writeFrom s 0
    else system s "set profile close-on-exec" answer
  | .write offset =>
    if !answer.ok && answer.interrupted then s
    else if !answer.ok || answer.count = 0 then system s "write profile" answer
    else
      -- no more is written than was asked for
      let bytes := (s.text.drop offset).take answer.count
      writeFrom { s with disk := s.disk.append (s.file.getD 0) bytes } (offset + bytes.length)
  | .fsyncFile =>
    if answer.ok then { s with place := .close, disk := s.disk.sync (s.file.getD 0) }
    else system s "sync profile" answer
  | .close =>
    -- the descriptor is given up before the answer is looked at
    let s := { s with file := none }
    if answer.ok then { s with place := .rename }
    else system s "close profile" answer
  | .rename =>
    if answer.ok then
      { s with
        place := .fsyncDirectory
        disk := s.disk.rename (s.temporary.getD "") filename
        temporary := none
        result := { s.result with committed := true } }
    else system s "replace profile" answer
  | .fsyncDirectory =>
    if answer.ok then
      settle { s with disk := s.disk.syncDirectory, result := { s.result with durable := true } }
    else system s "profile replaced but directory sync failed" answer
  | .closeFile => settle { s with file := none }
  | .closeDirectory => settle { s with directory := false }
  | .unlink =>
    let disk := if answer.ok then s.disk.unlink (s.temporary.getD "") else s.disk
    { s with place := .returned, disk }
  | .returned => s

def step (filename : String) (s : Save) (answer : Answer) : Save × Place := (advance filename s answer, s.place)

end Cockpit.Camera.ProfileSave
