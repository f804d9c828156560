/-
  Versions and release paths of the upgrader.

  A version is a text.  What it denotes is a `Version`, three numbers compared in that order, and the parser
  computes just this: leading zeros do not matter, and a component of 2^64 or more is no number at all.

  A path is a list of parts with a root flag, as `std::filesystem::path` iterates and compares it; a trailing
  separator is an empty last part.
-/
import Mathlib.Algebra.Group.Nat.Defs
import Cockpit.Lib.StepRun

namespace Cockpit.Upgrader

open List

abbrev Name := List Char

/-! ## Characters -/

def isDigit (c : Char) : Bool := 48 ≤ c.toNat && c.toNat ≤ 57

def isAlnum (c : Char) : Bool :=
  isDigit c || (65 ≤ c.toNat && c.toNat ≤ 90) || (97 ≤ c.toNat && c.toNat ≤ 122)

/-- `IsValidVersion`: the characters, not what they say, so that the dot segments pass. -/
def isValidVersion (version : Name) : Bool :=
  !version.isEmpty && version.all fun value =>
    isAlnum value || value == '.' || value == '_' || value == '-'

/-! ## Semantic versions -/

/-- The components that were read. -/
structure SemanticVersion where
  core : List Nat
  deriving DecidableEq

/-- `std::numeric_limits<unsigned long long>::max()`. -/
def kMaxNumber : Nat := 2 ^ 64 - 1

/-- The texts between the dots; a text without a dot is one component. -/
def splitDots : Name → List Name
  | [] => [[]]
  | c :: cs =>
    if c = '.' then [] :: splitDots cs
    else match splitDots cs with
      | [] => [[c]]
      | component :: components => (c :: component) :: components

/-- The digits of one component, read into a 64-bit number. -/
def parseNumber : Nat → Name → Option Nat
  | number, [] => some number
  | number, character :: characters =>
    let digit := character.toNat - 48
    if number > (kMaxNumber - digit) / 10 then none
    else parseNumber ((number * 10 + digit) % (kMaxNumber + 1)) characters

/-- Decimal digits, read into an `unsigned long long`. -/
def parseComponent (component : Name) : Option Nat :=
  if component.isEmpty || !component.all isDigit then none else parseNumber 0 component

/-- All of them, or none. -/
def parseComponents : List Name → Option (List Nat)
  | [] => some []
  | component :: components =>
    match parseComponent component with
    | none => none
    | some number => (parseComponents components).map (number :: ·)

/-- `ParseSemanticVersion`: MAJOR.MINOR.PATCH, three components of decimal digits. -/
def parseSemanticVersion (value : Name) : Option SemanticVersion :=
  if value.contains '-' then none
  else if value.isEmpty then none
  else match parseComponents (splitDots value) with
    | none => none
    | some core => if core.length ≠ 3 then none else some { core := core }

/-- `CompareSemanticVersions`: -1, 0 or 1. -/
def compareSemanticVersions (left right : SemanticVersion) : Int :=
  if left.core ≠ right.core then
    if left.core < right.core then -1 else 1
  else 0

/-! ## What a version denotes -/

/-- MAJOR.MINOR.PATCH as numbers. -/
structure Version where
  major : Nat
  minor : Nat
  patch : Nat
  deriving DecidableEq

namespace Version

/-- The first component that differs decides. -/
def Older (a b : Version) : Prop :=
  a.major < b.major ∨ a.major = b.major ∧
    (a.minor < b.minor ∨ a.minor = b.minor ∧ a.patch < b.patch)

instance : LT Version := ⟨Older⟩
instance : LE Version := ⟨fun a b => ¬ Older b a⟩

instance (a b : Version) : Decidable (a < b) := by
  change Decidable (Older a b); unfold Older; infer_instance

variable {a b : Version}

theorem lt_def : a < b ↔ a.major < b.major ∨ a.major = b.major ∧
    (a.minor < b.minor ∨ a.minor = b.minor ∧ a.patch < b.patch) := Iff.rfl

theorem not_lt : ¬ a < b ↔ b ≤ a := Iff.rfl

protected theorem le_refl (a : Version) : a ≤ a := by
  rw [← not_lt, lt_def]
  omega

protected theorem le_trans {c : Version} (hab : a ≤ b) (hbc : b ≤ c) : a ≤ c := by
  rw [← not_lt, lt_def] at *
  omega

protected theorem le_of_lt (h : a < b) : a ≤ b := by
  rw [lt_def] at h
  rw [← not_lt, lt_def]
  omega

theorem lt_of_le_of_ne (hab : a ≤ b) (hne : a ≠ b) : a < b := by
  obtain ⟨a₁, a₂, a₃⟩ := a
  obtain ⟨b₁, b₂, b₃⟩ := b
  simp only [ne_eq, mk.injEq] at hne
  rw [← not_lt, lt_def] at hab
  rw [lt_def]
  simp only at hab ⊢
  omega

/-- The three numbers, as the code holds them. -/
def core (v : Version) : List Nat := [v.major, v.minor, v.patch]

theorem core_inj : a.core = b.core ↔ a = b := by
  obtain ⟨a₁, a₂, a₃⟩ := a
  obtain ⟨b₁, b₂, b₃⟩ := b
  simp [core]

theorem core_lt : a.core < b.core ↔ a < b := by
  simp only [core, cons_lt_cons_iff, lt_def, not_lt_nil, and_false, or_false]

end Version

/-- The number that a text of digits denotes, whatever its length. -/
def decimalFrom (number : Nat) (digits : Name) : Nat :=
  digits.foldl (fun n c => n * 10 + (c.toNat - 48)) number

/-- The number that the digits denote. -/
def decimal (digits : Name) : Nat := decimalFrom 0 digits

/-- A component denotes a number when it is digits, and they denote a 64-bit number. -/
def componentValue (component : Name) : Option Nat :=
  if component ≠ [] ∧ component.all isDigit ∧ decimal component ≤ kMaxNumber then
    some (decimal component)
  else none

/-- What the text of a version denotes. -/
def versionOf (value : Name) : Option Version :=
  match splitDots value with
  | [major, minor, patch] =>
    match componentValue major, componentValue minor, componentValue patch with
    | some a, some b, some c => some { major := a, minor := b, patch := c }
    | _, _, _ => none
  | _ => none

example : versionOf ['0', '1', '.', '2', '.', '0'] = some { major := 1, minor := 2, patch := 0 } := by
  decide

theorem decimalFrom_cons (number : Nat) (c : Char) (cs : Name) :
    decimalFrom number (c :: cs) = decimalFrom (number * 10 + (c.toNat - 48)) cs :=
  foldl_cons

theorem le_decimalFrom (number : Nat) (digits : Name) : number ≤ decimalFrom number digits := by
  induction digits generalizing number with
  | nil => exact Nat.le_refl _
  | cons c cs ih =>
    have := ih (number * 10 + (c.toNat - 48))
    rw [decimalFrom_cons]
    omega

theorem parseNumber_cons (number : Nat) (c : Char) (cs : Name) :
    parseNumber number (c :: cs) =
      if number > (kMaxNumber - (c.toNat - 48)) / 10 then none
      else parseNumber ((number * 10 + (c.toNat - 48)) % (kMaxNumber + 1)) cs := by
  rw [parseNumber]

theorem parseNumber_guard {number digit : Nat} (hdigit : digit ≤ 9) :
    number > (kMaxNumber - digit) / 10 ↔ kMaxNumber < number * 10 + digit := by
  have : 9 ≤ kMaxNumber := by unfold kMaxNumber; omega
  omega

theorem parseNumber_eq (digits : Name) (number : Nat) (hdigits : digits.all isDigit) (hnum : number ≤ kMaxNumber) :
    parseNumber number digits =
      if decimalFrom number digits ≤ kMaxNumber then some (decimalFrom number digits) else none := by
  induction digits generalizing number with
  | nil => exact (if_pos hnum).symm
  | cons c cs ih =>
    rw [all_cons, Bool.and_eq_true] at hdigits
    obtain ⟨hc, hcs⟩ := hdigits
    have hdigit : c.toNat - 48 ≤ 9 := by
      simp only [isDigit, Bool.and_eq_true, decide_eq_true_eq] at hc
      omega
    have hguard : number > (kMaxNumber - (c.toNat - 48)) / 10 ↔
        kMaxNumber < number * 10 + (c.toNat - 48) := parseNumber_guard hdigit
    rw [decimalFrom_cons, parseNumber_cons]
    by_cases hover : kMaxNumber < number * 10 + (c.toNat - 48)
    · have := le_decimalFrom (number * 10 + (c.toNat - 48)) cs
      rw [if_pos (hguard.2 hover), if_neg (by omega)]
    · have hfits : number * 10 + (c.toNat - 48) < kMaxNumber + 1 := by omega
      rw [if_neg (fun h => hover (hguard.1 h)), Nat.mod_eq_of_lt hfits]
      exact ih _ hcs (by omega)

theorem parseComponent_eq (component : Name) : parseComponent component = componentValue component := by
  unfold parseComponent componentValue
  by_cases hempty : component = []
  · simp [hempty]
  · by_cases hdigits : component.all isDigit
    · rw [parseNumber_eq component 0 hdigits (Nat.zero_le _)]
      simp [hempty, hdigits, decimal]
    · simp [hdigits]

theorem parseComponents_length {components : List Name} {core : List Nat}
    (h : parseComponents components = some core) : core.length = components.length := by
  induction components generalizing core with
  | nil =>
    obtain rfl := Option.some.inj h
    rfl
  | cons component components ih =>
    unfold parseComponents at h
    split at h
    · exact absurd h (by simp)
    · obtain ⟨numbers, hnumbers, rfl⟩ := Option.map_eq_some_iff.1 h
      rw [length_cons, length_cons, ih hnumbers]

theorem splitDots_ne_nil (value : Name) : splitDots value ≠ [] := by
  induction value with
  | nil => exact cons_ne_nil _ _
  | cons c cs ih =>
    unfold splitDots
    split
    · exact cons_ne_nil _ _
    · split <;> exact cons_ne_nil _ _

variable {value : Name}

theorem mem_splitDots {c : Char} (hc : c ∈ value) (hdot : c ≠ '.') :
    ∃ component ∈ splitDots value, c ∈ component := by
  induction value with
  | nil => exact absurd hc not_mem_nil
  | cons d ds ih =>
    unfold splitDots
    split
    · rename_i hd
      rcases mem_cons.1 hc with rfl | hc
      · exact absurd hd hdot
      · obtain ⟨component, hmem, hin⟩ := ih hc
        exact ⟨component, mem_cons_of_mem _ hmem, hin⟩
    · split
      · rename_i hnil
        exact absurd hnil (splitDots_ne_nil ds)
      · rename_i component components hcons
        rcases mem_cons.1 hc with rfl | hc
        · exact ⟨_, mem_cons_self, mem_cons_self⟩
        · obtain ⟨found, hmem, hin⟩ := ih hc
          rw [hcons] at hmem
          rcases mem_cons.1 hmem with rfl | hmem
          · exact ⟨_, mem_cons_self, mem_cons_of_mem _ hin⟩
          · exact ⟨found, mem_cons_of_mem _ hmem, hin⟩

theorem componentValue_isSome {component : Name} (h : (componentValue component).isSome) : component.all isDigit := by
  unfold componentValue at h
  split at h
  · rename_i hcond
    exact hcond.2.1
  · exact absurd h (by decide)

variable {v : Version}

theorem versionOf_components (h : versionOf value = some v) :
    ∃ major minor patch, splitDots value = [major, minor, patch] ∧
      componentValue major = some v.major ∧ componentValue minor = some v.minor ∧
      componentValue patch = some v.patch := by
  unfold versionOf at h
  split at h
  · rename_i major minor patch hsplit
    split at h
    · rename_i a b c ha hb hc
      obtain rfl := Option.some.inj h
      exact ⟨major, minor, patch, hsplit, ha, hb, hc⟩
    · exact absurd h (by simp)
  · exact absurd h (by simp)

theorem versionOf_characters (h : versionOf value = some v) {c : Char} (hc : c ∈ value) :
    c = '.' ∨ isDigit c = true := by
  by_cases hdot : c = '.'
  · exact .inl hdot
  · obtain ⟨major, minor, patch, hsplit, ha, hb, hd⟩ := versionOf_components h
    obtain ⟨component, hmem, hin⟩ := mem_splitDots hc hdot
    have hdigits : component.all isDigit := by
      rw [hsplit] at hmem
      simp only [mem_cons, not_mem_nil, or_false] at hmem
      rcases hmem with rfl | rfl | rfl
      · exact componentValue_isSome (by rw [ha]; rfl)
      · exact componentValue_isSome (by rw [hb]; rfl)
      · exact componentValue_isSome (by rw [hd]; rfl)
    exact .inr (all_eq_true.1 hdigits c hin)

theorem parseSemanticVersion_of_versionOf (hv : versionOf value = some v) :
    parseSemanticVersion value = some { core := v.core } := by
  obtain ⟨major, minor, patch, hsplit, ha, hb, hc⟩ := versionOf_components hv
  have hdash : ¬ '-' ∈ value := by
    intro hmem
    rcases versionOf_characters hv hmem with h | h <;> exact absurd h (by decide)
  have hempty : value.isEmpty = false := by
    cases value with
    | nil => exact absurd hsplit (by simp [splitDots])
    | cons c cs => rfl
  simp [parseSemanticVersion, hdash, hempty, hsplit, parseComponents, parseComponent_eq, ha, hb, hc,
    Version.core]

theorem versionOf_of_parseSemanticVersion {parsed : SemanticVersion}
    (hparse : parseSemanticVersion value = some parsed) : ∃ v, versionOf value = some v ∧ parsed.core = v.core := by
  unfold parseSemanticVersion at hparse
  split at hparse
  · exact absurd hparse (by simp)
  · split at hparse
    · exact absurd hparse (by simp)
    · split at hparse
      · exact absurd hparse (by simp)
      · rename_i core hcore
        split at hparse
        · exact absurd hparse (by simp)
        · rename_i hlen
          obtain rfl := Option.some.inj hparse
          have hlength := parseComponents_length hcore
          rcases hsplit : splitDots value with _ | ⟨a, _ | ⟨b, _ | ⟨c, _ | ⟨d, rest⟩⟩⟩⟩
          all_goals rw [hsplit] at hlength hcore
          case cons.cons.cons.nil =>
            simp only [parseComponents, parseComponent_eq] at hcore
            unfold versionOf
            rw [hsplit]
            cases ha : componentValue a <;> cases hb : componentValue b <;>
              cases hc : componentValue c <;> simp_all [Version.core]
          all_goals (simp only [length_cons, length_nil] at hlength; omega)

/-- **The parser computes what a version denotes**, for texts of every length. -/
theorem parseSemanticVersion_eq (value : Name) :
    parseSemanticVersion value = (versionOf value).map fun v => { core := v.core } := by
  cases hv : versionOf value with
  | some v => exact parseSemanticVersion_of_versionOf hv
  | none =>
    cases hparse : parseSemanticVersion value with
    | none => rfl
    | some parsed =>
      obtain ⟨v, hsome, -⟩ := versionOf_of_parseSemanticVersion hparse
      rw [hv] at hsome
      exact absurd hsome (by simp)

/-- The comparison is the order of the versions. -/
theorem compareSemanticVersions_neg {a b : Version} :
    compareSemanticVersions { core := a.core } { core := b.core } < 0 ↔ a < b := by
  unfold compareSemanticVersions
  by_cases heq : a = b
  · subst heq
    simp [Version.lt_def]
  · have hcore : a.core ≠ b.core := fun h => heq (Version.core_inj.1 h)
    simp only [ne_eq, hcore, not_false_eq_true, if_true, Version.core_lt]
    split <;> simp_all

theorem compareSemanticVersions_zero {a b : Version} :
    compareSemanticVersions { core := a.core } { core := b.core } = 0 ↔ a = b := by
  unfold compareSemanticVersions
  rw [← Version.core_inj]
  by_cases heq : a.core = b.core
  · simp [heq]
  · simp only [ne_eq, heq, not_false_eq_true, if_true, iff_false]
    split <;> decide

theorem compareSemanticVersions_pos {a b : Version} :
    ¬ compareSemanticVersions { core := a.core } { core := b.core } ≤ 0 ↔ b < a := by
  have hneg := compareSemanticVersions_neg (a := a) (b := b)
  constructor
  · intro h
    have hle : b ≤ a := Version.not_lt.1 fun hlt => h (by have := hneg.2 hlt; omega)
    refine Version.lt_of_le_of_ne hle ?_
    rintro rfl
    exact h (Int.le_of_eq (compareSemanticVersions_zero.2 rfl))
  · intro hlt hle
    have hzero : compareSemanticVersions { core := a.core } { core := b.core } ≠ 0 := by
      intro h
      rw [compareSemanticVersions_zero] at h
      subst h
      rw [Version.lt_def] at hlt
      omega
    have hnot : ¬ a < b := Version.not_lt.2 (Version.le_of_lt hlt)
    exact hnot (hneg.1 (by omega))

/-! ## Release paths -/

/-- A path as `std::filesystem::path` iterates it. -/
structure Path where
  absolute : Bool
  parts : List Name
  deriving DecidableEq

def dot : Name := ['.']
def dotDot : Name := ['.', '.']
def kReleases : Name := ['r', 'e', 'l', 'e', 'a', 's', 'e', 's']

/-- `"releases" / version`. -/
def releasePath (version : Name) : Path := { absolute := false, parts := [kReleases, version] }

namespace Path

def isEmpty (path : Path) : Bool := !path.absolute && path.parts.isEmpty

/-- The last part; empty behind a trailing separator. -/
def filename (path : Path) : Name := path.parts.getLast?.getD []

/-- One part of the normal form: what is kept so far (the last part first), and whether a
    separator is left behind it. -/
def normalStep (absolute : Bool) (kept : List Name × Bool) (part : Name) : List Name × Bool :=
  if part = [] ∨ part = dot then (kept.1, true)
  else if part = dotDot then
    match kept.1 with
    | [] => if absolute then ([], true) else ([dotDot], false)
    | last :: rest => if last = dotDot then (dotDot :: last :: rest, false) else (rest, true)
  else (part :: kept.1, false)

/-- `lexically_normal`: dot segments resolved in the text, whatever is on disk. -/
def lexicallyNormal (path : Path) : Path :=
  if path.isEmpty then path
  else
    let (kept, separator) := path.parts.foldl (normalStep path.absolute) ([], false)
    let parts :=
      if separator ∧ kept ≠ [] ∧ kept.head? ≠ some dotDot then kept.reverse ++ [[]]
      else kept.reverse
    if parts = [] ∧ path.absolute = false then { absolute := false, parts := [dot] }
    else { path with parts := parts }

end Path

/-- `IsSafeReleaseTarget`: the checks that the upgrader makes on a link target. -/
def isSafeReleaseTarget (path : Path) : Bool :=
  if path.absolute || decide (path.lexicallyNormal ≠ path) then false
  else match path.parts with
    | [] => false
    | first :: rest =>
      if first ≠ kReleases then false
      else match rest with
        | [] => false
        | part :: rest => if !isValidVersion part then false else rest.isEmpty

example : isSafeReleaseTarget (releasePath ['1', '.', '2']) = true := by decide
example : isSafeReleaseTarget (releasePath dotDot) = false := by decide

@[simp] theorem releasePath_inj {a b : Name} : releasePath a = releasePath b ↔ a = b := by
  simp [releasePath]

@[simp] theorem filename_releasePath (version : Name) : (releasePath version).filename = version := rfl

@[simp] theorem releasePath_isEmpty (version : Name) : (releasePath version).isEmpty = false := rfl

variable {version : Name}

theorem lexicallyNormal_releasePath (hvalid : isValidVersion version) :
    (releasePath version).lexicallyNormal = releasePath version ↔
      version ≠ dot ∧ version ≠ dotDot := by
  have hne : version ≠ [] := by
    rintro rfl
    exact absurd hvalid (by decide)
  by_cases hdot : version = dot
  · subst hdot
    decide
  · by_cases hdotDot : version = dotDot
    · subst hdotDot
      decide
    · have hreleases : ¬ (kReleases = [] ∨ kReleases = dot) := by decide
      have hreleases' : ¬ kReleases = dotDot := by decide
      have hname : ¬ (version = [] ∨ version = dot) := by
        rintro (h | h)
        · exact hne h
        · exact hdot h
      have hfold : (releasePath version).parts.foldl
          (Path.normalStep (releasePath version).absolute) ([], false)
            = ([version, kReleases], false) := by
        simp only [releasePath, foldl_cons, foldl_nil, Path.normalStep, if_neg hreleases,
          if_neg hreleases', if_neg hname, if_neg hdotDot]
      simp only [Path.lexicallyNormal, releasePath_isEmpty, hfold]
      simp [hdot, hdotDot, releasePath]

/-- **Safe release targets** are the names directly below `releases`. -/
theorem isSafeReleaseTarget_iff {path : Path} :
    isSafeReleaseTarget path = true ↔ ∃ version, path = releasePath version ∧
      isValidVersion version = true ∧ version ≠ dot ∧ version ≠ dotDot := by
  constructor
  · intro h
    unfold isSafeReleaseTarget at h
    split at h
    · exact absurd h (by decide)
    · rename_i hcond
      simp only [Bool.or_eq_true, decide_eq_true_eq, not_or, Bool.not_eq_true, ne_eq,
        Decidable.not_not] at hcond
      obtain ⟨habsolute, hnormal⟩ := hcond
      rcases path with ⟨absolute, _ | ⟨first, _ | ⟨version, _ | ⟨part, rest⟩⟩⟩⟩
      all_goals simp_all
      obtain ⟨hfirst, hvalid⟩ := h
      have hpath : ({ absolute := false, parts := [kReleases, version] } : Path)
          = releasePath version := rfl
      rw [hpath] at hnormal ⊢
      exact ⟨version, rfl, hvalid, (lexicallyNormal_releasePath hvalid).1 hnormal⟩
  · rintro ⟨version, rfl, hvalid, hname⟩
    have hnormal := (lexicallyNormal_releasePath hvalid).2 hname
    simp only [isSafeReleaseTarget, hnormal]
    simp [releasePath, hvalid]

theorem versionOf_ne_none (h : versionOf version = some v) {other : Name} (hother : versionOf other = none) :
    version ≠ other := by
  rintro rfl
  rw [h] at hother
  exact absurd hother (by simp)

theorem isSafeReleaseTarget_of_versionOf (h : versionOf version = some v) :
    isSafeReleaseTarget (releasePath version) = true := by
  rw [isSafeReleaseTarget_iff]
  refine ⟨version, rfl, ?_, ?_, ?_⟩
  · have hne : version ≠ [] := versionOf_ne_none h (by decide)
    simp only [isValidVersion, Bool.and_eq_true, Bool.not_eq_true', isEmpty_eq_false_iff]
    refine ⟨hne, all_eq_true.2 fun c hc => ?_⟩
    rcases versionOf_characters h hc with rfl | hdigit
    · decide
    · simp [isAlnum, hdigit]
  · exact versionOf_ne_none h (by decide)
  · exact versionOf_ne_none h (by decide)

end Cockpit.Upgrader
