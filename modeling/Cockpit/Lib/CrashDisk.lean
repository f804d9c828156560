/-
  A directory of files, and what a loss of power leaves of it: anything in a file that was written since it was
  synced, and of each entry one of those that it had since the directory was synced.
-/

namespace CrashDisk

open List

variable {ν β : Type}

/-- Its bytes, and whether they are on the disk. -/
structure File (β : Type) where
  bytes : List β
  synced : Bool
  deriving DecidableEq

/-- `past` are the entries that each name has had since the directory was synced, besides the present one. -/
@[ext]
structure Disk (ν β : Type) where
  files : List (File β)
  entry : ν → Option Nat
  past : ν → List (Option Nat)
  valid : ∀ name number, some number ∈ entry name :: past name → number < files.length

namespace Disk

/-- What a process sees under a name. -/
def content (d : Disk ν β) (name : ν) : Option (List β) :=
  (d.entry name).bind fun number => d.files[number]?.map File.bytes

/-- What is left of the file. -/
def Leaves (d : Disk ν β) (value : Option (List β)) : Option Nat → Prop
  | none => value = none
  | some number =>
    ∃ bytes, value = some bytes ∧ ∀ file, d.files[number]? = some file → file.synced = true → file.bytes = bytes

/-- This value may be found under the name after a loss of power. -/
def MayHold (d : Disk ν β) (name : ν) (value : Option (List β)) : Prop :=
  ∃ entry ∈ d.entry name :: d.past name, d.Leaves value entry

/-! ## Names that are not concerned -/

/-- For this name the one disk is as the other. -/
structure Same (d d' : Disk ν β) (name : ν) : Prop where
  entry : d'.entry name = d.entry name
  past : d'.past name = d.past name
  files : ∀ number, number < d.files.length → d'.files[number]? = d.files[number]?

theorem Same.refl (d : Disk ν β) (name : ν) : Same d d name := ⟨rfl, rfl, fun _ _ => rfl⟩

variable {d d' : Disk ν β}

theorem Same.content {name : ν} (h : Same d d' name) : d'.content name = d.content name := by
  unfold Disk.content
  rw [h.entry]
  cases hentry : d.entry name with
  | none => rfl
  | some number =>
    have hnum : number < d.files.length := d.valid name number (mem_cons.2 (.inl hentry.symm))
    rw [Option.bind_some, Option.bind_some, h.files number hnum]

theorem leaves_iff {value : Option (List β)} {entry : Option Nat}
    (hfiles : ∀ number, entry = some number → d'.files[number]? = d.files[number]?) :
    d'.Leaves value entry ↔ d.Leaves value entry := by
  cases entry with
  | none => rfl
  | some number =>
    unfold Leaves
    simp only [hfiles number rfl]

theorem Same.mayHold {name : ν} (h : Same d d' name) (value : Option (List β)) :
    d'.MayHold name value ↔ d.MayHold name value := by
  unfold MayHold
  rw [h.entry, h.past]
  constructor <;> rintro ⟨entry, hmem, hleaves⟩
  · refine ⟨entry, hmem, (leaves_iff fun number hnum => ?_).1 hleaves⟩
    exact h.files number (d.valid name number (hnum ▸ hmem))
  · refine ⟨entry, hmem, (leaves_iff fun number hnum => ?_).2 hleaves⟩
    exact h.files number (d.valid name number (hnum ▸ hmem))

theorem entry_ne_new (d : Disk ν β) (name : ν) : d.entry name ≠ some d.files.length := by
  intro h
  exact Nat.lt_irrefl _ (d.valid name d.files.length (mem_cons.2 (.inl h.symm)))

/-! ## The calls -/

def modifyFile (d : Disk ν β) (number : Nat) (f : File β → File β) : Disk ν β where
  files := d.files.modify number f
  entry := d.entry
  past := d.past
  valid name number hmem := by
    rw [length_modify]
    exact d.valid name number hmem

/-- `write`. -/
def append (d : Disk ν β) (number : Nat) (bytes : List β) : Disk ν β :=
  d.modifyFile number fun file => { bytes := file.bytes ++ bytes, synced := false }

/-- `fsync` of a file. -/
def sync (d : Disk ν β) (number : Nat) : Disk ν β := d.modifyFile number fun file => { file with synced := true }

/-- `fsync` of the directory. -/
def syncDirectory (d : Disk ν β) : Disk ν β where
  files := d.files
  entry := d.entry
  past _ := []
  valid name number hmem := d.valid name number (mem_cons.2 (.inl (mem_singleton.1 hmem)))

variable [DecidableEq ν]

/-- The old entry may come back. -/
def setEntry (d : Disk ν β) (name : ν) (value : Option Nat)
    (hvalue : ∀ number, value = some number → number < d.files.length) : Disk ν β where
  files := d.files
  entry other := if other = name then value else d.entry other
  past other := if other = name then d.entry name :: d.past name else d.past other
  valid other number hmem := by
    split at hmem
    · rcases mem_cons.1 hmem with hnew | hold
      · exact hvalue number hnew.symm
      · exact d.valid name number hold
    · exact d.valid other number hmem

/-- A new file under a name. -/
def add (d : Disk ν β) (name : ν) (file : File β) : Disk ν β :=
  let pushed : Disk ν β :=
    { files := d.files ++ [file]
      entry := d.entry
      past := d.past
      valid := fun name number hmem => by
        have := d.valid name number hmem
        rw [length_append]
        omega }
  pushed.setEntry name (some d.files.length) fun number hnum => by
    cases hnum
    simp [pushed]

def create (d : Disk ν β) (name : ν) : Disk ν β := d.add name { bytes := [], synced := false }

def unlink (d : Disk ν β) (name : ν) : Disk ν β := d.setEntry name none fun _ hnum => by cases hnum

/-- A hard link to the same file is left alone. -/
def rename (d : Disk ν β) (source target : ν) : Disk ν β :=
  if d.entry source = none ∨ d.entry source = d.entry target then d
  else
    (d.setEntry target (d.entry source) fun number hnum =>
      d.valid source number (mem_cons.2 (.inl hnum.symm))).unlink source

/-- Write a new file, and rename it. -/
def replace (d : Disk ν β) (temporary target : ν) (file : File β) : Disk ν β :=
  (d.add temporary file).rename temporary target

/-! ## The new file -/

section New

variable (d : Disk ν β) (temporary : ν) (file : File β)

theorem modifyFile_add (f : File β → File β) :
    (d.add temporary file).modifyFile d.files.length f = d.add temporary (f file) := by
  apply Disk.ext
  · show (d.files ++ [file]).modify d.files.length f = d.files ++ [f file]
    rw [modify_eq_take_drop, take_left' rfl, drop_left' rfl]
    rfl
  · rfl
  · rfl

/-- To write to the new file is to add another one. -/
theorem append_add (bytes : List β) :
    (d.add temporary file).append d.files.length bytes =
      d.add temporary { bytes := file.bytes ++ bytes, synced := false } :=
  modifyFile_add d temporary file _

theorem sync_add : (d.add temporary file).sync d.files.length = d.add temporary { file with synced := true } :=
  modifyFile_add d temporary file _

theorem files_add : (d.add temporary file).files = d.files ++ [file] := rfl

theorem entry_add (name : ν) :
    (d.add temporary file).entry name = if name = temporary then some d.files.length else d.entry name := rfl

variable {temporary} {name : ν}

theorem add_same (h : name ≠ temporary) : Same d (d.add temporary file) name := by
  refine ⟨if_neg h, if_neg h, ?_⟩
  intro number hnum
  rw [files_add, List.getElem?_append_left hnum]

theorem entry_unlink_add (hfree : d.entry temporary = none) (other : ν) :
    ((d.add temporary file).unlink temporary).entry other = d.entry other := by
  show (if other = temporary then none else (d.add temporary file).entry other) = d.entry other
  split <;> rename_i h
  · rw [h, hfree]
  · rw [entry_add, if_neg h]

theorem unlink_add_same (h : name ≠ temporary) : Same d ((d.add temporary file).unlink temporary) name := by
  have hadd := add_same d file h
  refine ⟨?_, ?_, hadd.files⟩
  · exact (if_neg h).trans hadd.entry
  · exact (if_neg h).trans hadd.past

end New

/-! ## Replacing -/

section Replace

variable {d : Disk ν β} {temporary target : ν} {file : File β}

section

variable (h : target ≠ temporary)
include h

theorem replace_eq :
    d.replace temporary target file = ((d.add temporary file).setEntry target (some d.files.length) fun number hnum => by
      cases hnum
      rw [files_add, length_append]
      exact Nat.lt_succ_self _).unlink temporary := by
  have hsource : (d.add temporary file).entry temporary = some d.files.length := if_pos rfl
  have htarget : (d.add temporary file).entry target = d.entry target := if_neg h
  have hguard : ¬ ((d.add temporary file).entry temporary = none ∨
      (d.add temporary file).entry temporary = (d.add temporary file).entry target) := by
    rw [hsource, htarget]
    rintro (hnone | hsame)
    · cases hnone
    · exact entry_ne_new d target hsame.symm
  unfold replace rename
  rw [if_neg hguard]
  simp only [hsource]

theorem entry_replace : (d.replace temporary target file).entry target = some d.files.length := by
  rw [replace_eq h]
  exact (if_neg h).trans (if_pos rfl)

theorem past_replace : (d.replace temporary target file).past target = d.entry target :: d.past target := by
  rw [replace_eq h]
  show (if target = temporary then _ else if target = target then _ else _) = _
  rw [if_neg h, if_pos rfl]
  show (d.add temporary file).entry target :: (d.add temporary file).past target = _
  rw [(add_same d file h).entry, (add_same d file h).past]

theorem files_replace : (d.replace temporary target file).files = d.files ++ [file] := by
  rw [replace_eq h]
  rfl

theorem file_replace : (d.replace temporary target file).files[d.files.length]? = some file := by
  rw [files_replace h, List.getElem?_append_right (Nat.le_refl _), Nat.sub_self]
  rfl

theorem content_replace : (d.replace temporary target file).content target = some file.bytes := by
  unfold content
  rw [entry_replace h, Option.bind_some, file_replace h]
  rfl

/-- A loss of power leaves what it would have left before, or all of the new file if this was synced. -/
theorem mayHold_replace (hsynced : file.synced = true) {value : Option (List β)}
    (hvalue : (d.replace temporary target file).MayHold target value) :
    d.MayHold target value ∨ value = some file.bytes := by
  obtain ⟨entry, hmem, hleaves⟩ := hvalue
  rw [entry_replace h, past_replace h] at hmem
  rcases mem_cons.1 hmem with rfl | hold
  · obtain ⟨bytes, hbytes, hfile⟩ := hleaves
    rw [hbytes, hfile file (file_replace h) hsynced]
    exact .inr rfl
  · refine .inl ⟨entry, hold, (leaves_iff fun number hnum => ?_).1 hleaves⟩
    have hlt := d.valid target number (hnum ▸ hold)
    rw [files_replace h, List.getElem?_append_left hlt]

/-- **After both syncs the new file stays.** -/
theorem mayHold_replace_synced (hsynced : file.synced = true) (value : Option (List β)) :
    (d.replace temporary target file).syncDirectory.MayHold target value ↔ value = some file.bytes := by
  have hfile : (d.replace temporary target file).syncDirectory.files[d.files.length]? = some file := file_replace h
  have hentry : (d.replace temporary target file).syncDirectory.entry target = some d.files.length := entry_replace h
  unfold MayHold
  rw [hentry]
  constructor
  · rintro ⟨entry, hmem, hleaves⟩
    obtain rfl := mem_singleton.1 hmem
    obtain ⟨bytes, hbytes, hbytesEq⟩ := hleaves
    rw [hbytes, hbytesEq file hfile hsynced]
  · rintro rfl
    refine ⟨_, mem_cons_self, file.bytes, rfl, ?_⟩
    intro other hother _
    rw [hfile] at hother
    cases hother
    rfl

end

end Replace

end Disk

end CrashDisk
