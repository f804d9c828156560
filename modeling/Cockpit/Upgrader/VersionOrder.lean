/-
  Version texts read by an index. `parseSemanticVersion` of the module on versions splits a text at its dots
  first and reads the components afterwards; the upgrader runs over the text once.

  Zeros in front of a component are lost when it is read, and a longer text of digits either denotes a smaller
  number or is no version.
-/
import Cockpit.Upgrader.Version

namespace Cockpit.Upgrader

open List

/-! ## The loop -/

/-- `value.find('.', begin)`; `none` is `npos`. -/
def findDot (value : Name) (begin : Nat) : Option Nat :=
  ((value.drop begin).findIdx? (· == '.')).map (begin + ·)

variable {value : Name} {begin : Nat}

variable {last : Nat}

theorem le_findDot (h : findDot value begin = some last) : begin ≤ last := by
  obtain ⟨i, -, rfl⟩ := Option.map_eq_some_iff.1 h
  omega

/-- `value.substr(begin, end - begin)`, or all that is left when no dot was found. -/
def componentAt (value : Name) (begin : Nat) : Option Nat → Name
  | none => value.drop begin
  | some last => (value.drop begin).take (last - begin)

/-- One component is read, and the loop goes on behind its dot. -/
def scanComponents (value : Name) (begin : Nat) (core : List Nat) : Option (List Nat) :=
  if begin ≤ value.length then
    match hdot : findDot value begin with
    | none => (parseComponent (componentAt value begin none)).map fun number => core ++ [number]
    | some last =>
      match parseComponent (componentAt value begin (some last)) with
      | none => none
      | some number => scanComponents value (last + 1) (core ++ [number])
  else some core
termination_by value.length + 1 - begin
decreasing_by
  have := le_findDot hdot
  omega

/-- `ParseSemanticVersion`. -/
def scanSemanticVersion (value : Name) : Option SemanticVersion :=
  if value.contains '-' then none
  else if value.isEmpty then none
  else match scanComponents value 0 [] with
    | none => none
    | some core => if core.length ≠ 3 then none else some { core := core }

/-! ## The bridge -/

theorem splitDots_of_findIdx?_none (h : value.findIdx? (· == '.') = none) : splitDots value = [value] := by
  induction value with
  | nil => rfl
  | cons c cs ih =>
    rw [List.findIdx?_eq_none_iff] at h
    have hc : c ≠ '.' := by simpa using h c mem_cons_self
    have hcs : cs.findIdx? (· == '.') = none :=
      List.findIdx?_eq_none_iff.2 fun x hx => h x (mem_cons_of_mem _ hx)
    simp only [splitDots, if_neg hc, ih hcs]

theorem splitDots_of_findIdx?_some {i : Nat} (h : value.findIdx? (· == '.') = some i) :
    i < value.length ∧ splitDots value = value.take i :: splitDots (value.drop (i + 1)) := by
  induction value generalizing i with
  | nil => simp at h
  | cons c cs ih =>
    rw [List.findIdx?_cons] at h
    by_cases hc : c = '.'
    · have hi : i = 0 := by simpa [hc] using h.symm
      subst hi
      simp [splitDots, hc]
    · simp only [beq_iff_eq, hc, if_false] at h
      obtain ⟨j, hj, rfl⟩ := Option.map_eq_some_iff.1 h
      obtain ⟨hlt, hsplit⟩ := ih hj
      refine ⟨Nat.succ_lt_succ hlt, ?_⟩
      rw [splitDots, if_neg hc, hsplit]
      rfl

theorem scanComponents_of_none {core : List Nat} (hin : begin ≤ value.length) (hdot : findDot value begin = none) :
    scanComponents value begin core = (parseComponent (value.drop begin)).map fun number => core ++ [number] := by
  rw [scanComponents, if_pos hin]
  split
  · rfl
  · rename_i last hsome
    rw [hdot] at hsome
    exact absurd hsome (by simp)

theorem scanComponents_of_some {core : List Nat} (hin : begin ≤ value.length)
    (hdot : findDot value begin = some last) :
    scanComponents value begin core =
      match parseComponent (componentAt value begin (some last)) with
      | none => none
      | some number => scanComponents value (last + 1) (core ++ [number]) := by
  rw [scanComponents, if_pos hin]
  split
  · rename_i hnone
    rw [hdot] at hnone
    exact absurd hnone (by simp)
  · rename_i found hfound
    obtain rfl := Option.some.inj (hdot.symm.trans hfound)
    rfl

theorem splitDots_behind (hdot : findDot value begin = some last) :
    last + 1 ≤ value.length ∧ splitDots (value.drop begin) =
      componentAt value begin (some last) :: splitDots (value.drop (last + 1)) := by
  obtain ⟨i, hi, rfl⟩ := Option.map_eq_some_iff.1 hdot
  obtain ⟨hlt, hsplit⟩ := splitDots_of_findIdx?_some hi
  rw [length_drop] at hlt
  refine ⟨by omega, ?_⟩
  rw [hsplit, drop_drop, componentAt, Nat.add_sub_cancel_left, Nat.add_assoc]

/-- From every index the loop reads the components of what is left. -/
theorem scanComponents_eq (value : Name) (begin : Nat) (core : List Nat) (hbegin : begin ≤ value.length) :
    scanComponents value begin core = (parseComponents (splitDots (value.drop begin))).map (core ++ ·) := by
  induction begin, core using scanComponents.induct value with
  | case1 begin core hin hdot =>
    -- no dot is left: the rest of the text is the last component
    have hnone : (value.drop begin).findIdx? (· == '.') = none := by
      simpa [findDot] using hdot
    rw [scanComponents_of_none hin hdot, splitDots_of_findIdx?_none hnone]
    simp only [parseComponents]
    cases parseComponent (value.drop begin) with
    | none | some number => rfl
  | case2 begin core hin last hdot hcomponent =>
    rw [scanComponents_of_some hin hdot, (splitDots_behind hdot).2, parseComponents, hcomponent]
    rfl
  | case3 begin core hin last hdot number hcomponent ih =>
    obtain ⟨hlast, hsplit⟩ := splitDots_behind hdot
    rw [scanComponents_of_some hin hdot, hsplit, parseComponents, hcomponent]
    simp only [ih hlast, Option.map_map]
    congr 1
    funext numbers
    simp
  | case4 begin core hout => exact absurd hbegin hout

/-- **Both readings are one function.** -/
theorem scanSemanticVersion_eq (value : Name) : scanSemanticVersion value = parseSemanticVersion value := by
  have hscan : scanComponents value 0 [] = parseComponents (splitDots value) := by
    rw [scanComponents_eq value 0 [] (Nat.zero_le _), drop_zero]
    simp
  cases hcore : parseComponents (splitDots value) <;>
    simp only [scanSemanticVersion, parseSemanticVersion, hscan, hcore]

/-! ## What is accepted -/

/-- A text of digits that denotes a number below 2^64. -/
def IsNumber (digits : Name) : Prop :=
  digits ≠ [] ∧ digits.all isDigit = true ∧ decimal digits < 2 ^ 64

variable {digits : Name}

theorem componentValue_eq_some {number : Nat} :
    componentValue digits = some number ↔ IsNumber digits ∧ decimal digits = number := by
  have hmax : decimal digits ≤ kMaxNumber ↔ decimal digits < 2 ^ 64 := by
    unfold kMaxNumber
    omega
  unfold componentValue
  constructor
  · intro h
    split at h
    · rename_i hcond
      exact ⟨⟨hcond.1, hcond.2.1, hmax.1 hcond.2.2⟩, Option.some.inj h⟩
    · exact absurd h (by simp)
  · rintro ⟨⟨hne, hdigits, hlt⟩, rfl⟩
    exact if_pos ⟨hne, hdigits, hmax.2 hlt⟩

theorem not_mem_dot (h : digits.all isDigit = true) : '.' ∉ digits := by
  intro hmem
  have := all_eq_true.1 h _ hmem
  exact absurd this (by decide)

theorem splitDots_append {component : Name} (h : '.' ∉ component) (rest : Name) :
    splitDots (component ++ '.' :: rest) = component :: splitDots rest := by
  induction component with
  | nil => simp [splitDots]
  | cons c cs ih =>
    have hc : c ≠ '.' := fun heq => h (heq ▸ mem_cons_self)
    have hcs : '.' ∉ cs := fun hmem => h (mem_cons_of_mem _ hmem)
    rw [cons_append, splitDots, if_neg hc, ih hcs]

theorem splitDots_of_not_mem {component : Name} (h : '.' ∉ component) : splitDots component = [component] := by
  apply splitDots_of_findIdx?_none
  rw [List.findIdx?_eq_none_iff]
  intro c hc
  have hne : c ≠ '.' := fun heq => h (heq ▸ hc)
  simp [hne]

/-- The components with dots between them are the text. -/
def joinDots : List Name → Name
  | [] => []
  | [component] => component
  | component :: components => component ++ '.' :: joinDots components

theorem joinDots_splitDots (value : Name) : joinDots (splitDots value) = value := by
  induction value with
  | nil => rfl
  | cons c cs ih =>
    unfold splitDots
    by_cases hc : c = '.'
    · rw [if_pos hc, hc]
      cases hsplit : splitDots cs with
      | nil => exact absurd hsplit (splitDots_ne_nil cs)
      | cons first others =>
        rw [hsplit] at ih
        rw [joinDots, ih]
        · rfl
        · exact cons_ne_nil _ _
    · rw [if_neg hc]
      cases hsplit : splitDots cs with
      | nil => exact absurd hsplit (splitDots_ne_nil cs)
      | cons first others =>
        rw [hsplit] at ih
        rw [← ih]
        cases others with
        | nil | cons second others => rfl

variable {version : SemanticVersion}

/-- **What the parser accepts**, and what it reads. -/
theorem parseSemanticVersion_eq_some : parseSemanticVersion value = some version ↔ ∃ major minor patch : Name,
      value = major ++ '.' :: (minor ++ '.' :: patch) ∧
      IsNumber major ∧ IsNumber minor ∧ IsNumber patch ∧
      version.core = [decimal major, decimal minor, decimal patch] := by
  rw [parseSemanticVersion_eq, Option.map_eq_some_iff]
  constructor
  · rintro ⟨v, hv, rfl⟩
    obtain ⟨major, minor, patch, hsplit, ha, hb, hc⟩ := versionOf_components hv
    obtain ⟨hmajor, ha⟩ := componentValue_eq_some.1 ha
    obtain ⟨hminor, hb⟩ := componentValue_eq_some.1 hb
    obtain ⟨hpatch, hc⟩ := componentValue_eq_some.1 hc
    refine ⟨major, minor, patch, ?_, hmajor, hminor, hpatch, ?_⟩
    · rw [← joinDots_splitDots value, hsplit]
      rfl
    · rw [ha, hb, hc]
      rfl
  · rintro ⟨major, minor, patch, rfl, hmajor, hminor, hpatch, hcore⟩
    refine ⟨{ major := decimal major, minor := decimal minor, patch := decimal patch }, ?_, ?_⟩
    · rw [versionOf, splitDots_append (not_mem_dot hmajor.2.1),
        splitDots_append (not_mem_dot hminor.2.1), splitDots_of_not_mem (not_mem_dot hpatch.2.1)]
      simp only [componentValue_eq_some.2 ⟨hmajor, rfl⟩, componentValue_eq_some.2 ⟨hminor, rfl⟩,
        componentValue_eq_some.2 ⟨hpatch, rfl⟩]
    · obtain ⟨core⟩ := version
      exact congrArg SemanticVersion.mk hcore.symm

/-! ## The order -/

theorem compareSemanticVersions_values (a b : SemanticVersion) :
    compareSemanticVersions a b = -1 ∨ compareSemanticVersions a b = 0 ∨
      compareSemanticVersions a b = 1 := by
  unfold compareSemanticVersions
  split
  · split
    · exact .inl rfl
    · exact .inr (.inr rfl)
  · exact .inr (.inl rfl)

theorem Version.lt_trichotomy (a b : Version) : a < b ∨ a = b ∨ b < a := by
  by_cases hlt : a < b
  · exact .inl hlt
  · by_cases heq : b = a
    · exact .inr (.inl heq.symm)
    · exact .inr (.inr (Version.lt_of_le_of_ne (Version.not_lt.1 hlt) heq))

theorem compareSemanticVersions_swap (a b : Version) :
    compareSemanticVersions { core := b.core } { core := a.core } =
      -compareSemanticVersions { core := a.core } { core := b.core } := by
  have hvalues := compareSemanticVersions_values { core := a.core } { core := b.core }
  have hvalues' := compareSemanticVersions_values { core := b.core } { core := a.core }
  rcases Version.lt_trichotomy a b with hlt | heq | hgt
  · have hneg := compareSemanticVersions_neg.2 hlt
    have hpos := compareSemanticVersions_pos.2 hlt
    omega
  · subst heq
    have hzero := (compareSemanticVersions_zero (a := a) (b := a)).2 rfl
    omega
  · have hneg := compareSemanticVersions_neg.2 hgt
    have hpos := compareSemanticVersions_pos.2 hgt
    omega

/-- Zeros in front are lost. -/
theorem decimal_zeros (zeros : Nat) (digits : Name) :
    decimal (List.replicate zeros '0' ++ digits) = decimal digits := by
  induction zeros with
  | zero => rfl
  | succ zeros ih => exact ih

theorem exists_version (h : scanSemanticVersion value = some version) :
    ∃ v : Version, versionOf value = some v ∧ version = { core := v.core } := by
  rw [scanSemanticVersion_eq, parseSemanticVersion_eq, Option.map_eq_some_iff] at h
  obtain ⟨v, hv, rfl⟩ := h
  exact ⟨v, hv, rfl⟩

theorem isNumber_zeros (zeros : Nat) (h : IsNumber digits) : IsNumber (List.replicate zeros '0' ++ digits) := by
  obtain ⟨hne, hdigits, hlt⟩ := h
  refine ⟨?_, ?_, ?_⟩
  · intro hnil
    exact hne (append_eq_nil_iff.1 hnil).2
  · rw [all_append, hdigits, Bool.and_true, all_replicate]
    split <;> rfl
  · rw [decimal_zeros]
    exact hlt

theorem scanSemanticVersion_of_numbers {major minor patch : Name} (hmajor : IsNumber major)
    (hminor : IsNumber minor) (hpatch : IsNumber patch) :
    scanSemanticVersion (major ++ '.' :: (minor ++ '.' :: patch)) =
      some { core := [decimal major, decimal minor, decimal patch] } := by
  rw [scanSemanticVersion_eq, parseSemanticVersion_eq_some]
  exact ⟨major, minor, patch, rfl, hmajor, hminor, hpatch, rfl⟩

/-- **Versions are parsed exactly and compared in the order of their numbers.** -/
theorem parsed_version_order :
    (∀ (value : Name) (version : SemanticVersion), scanSemanticVersion value = some version ↔
      ∃ major minor patch : Name, value = major ++ '.' :: (minor ++ '.' :: patch) ∧
        IsNumber major ∧ IsNumber minor ∧ IsNumber patch ∧
        version.core = [decimal major, decimal minor, decimal patch]) ∧
    (∀ (x y : Name) (a b : SemanticVersion),
      scanSemanticVersion x = some a → scanSemanticVersion y = some b →
      (compareSemanticVersions a b = 0 ↔ a = b) ∧
      compareSemanticVersions b a = -compareSemanticVersions a b ∧
      ∃ v w : Version, a.core = v.core ∧ b.core = w.core ∧
        (compareSemanticVersions a b < 0 ↔ v < w)) ∧
    (∀ (x y z : Name) (a b c : SemanticVersion), scanSemanticVersion x = some a →
      scanSemanticVersion y = some b → scanSemanticVersion z = some c →
      compareSemanticVersions a b ≤ 0 → compareSemanticVersions b c ≤ 0 →
      compareSemanticVersions a c ≤ 0) ∧
    (∀ (i j k : Nat) (major minor patch : Name),
      IsNumber major → IsNumber minor → IsNumber patch →
      scanSemanticVersion (List.replicate i '0' ++ major ++
          '.' :: (List.replicate j '0' ++ minor ++ '.' :: (List.replicate k '0' ++ patch))) =
        scanSemanticVersion (major ++ '.' :: (minor ++ '.' :: patch))) := by
  refine ⟨?_, ?_, ?_, ?_⟩
  · intro value version
    rw [scanSemanticVersion_eq, parseSemanticVersion_eq_some]
  · intro x y a b hx hy
    obtain ⟨v, -, rfl⟩ := exists_version hx
    obtain ⟨w, -, rfl⟩ := exists_version hy
    refine ⟨?_, ?_, v, w, rfl, rfl, compareSemanticVersions_neg⟩
    · rw [compareSemanticVersions_zero, SemanticVersion.mk.injEq, Version.core_inj]
    · exact compareSemanticVersions_swap v w
  · intro x y z a b c hx hy hz hab hbc
    obtain ⟨u, -, rfl⟩ := exists_version hx
    obtain ⟨v, -, rfl⟩ := exists_version hy
    obtain ⟨w, -, rfl⟩ := exists_version hz
    have huv : u ≤ v := Version.not_lt.1 fun h => compareSemanticVersions_pos.2 h hab
    have hvw : v ≤ w := Version.not_lt.1 fun h => compareSemanticVersions_pos.2 h hbc
    have huw : ¬ w < u := Version.not_lt.2 (Version.le_trans huv hvw)
    exact Classical.not_not.1 fun hnot => huw (compareSemanticVersions_pos.1 hnot)
  · intro i j k major minor patch hmajor hminor hpatch
    rw [scanSemanticVersion_of_numbers (isNumber_zeros i hmajor) (isNumber_zeros j hminor)
        (isNumber_zeros k hpatch), scanSemanticVersion_of_numbers hmajor hminor hpatch]
    simp only [decimal_zeros]

theorem parsed_version_order_padded :
    ∃ a b : SemanticVersion, a.core = [1, 9, 0] ∧ b.core = [1, 10, 0] ∧
      compareSemanticVersions b a = -compareSemanticVersions a b ∧ compareSemanticVersions a b < 0 := by
  have ha : scanSemanticVersion ['0', '1', '.', '9', '.', '0'] = some { core := [1, 9, 0] } := by
    rw [scanSemanticVersion_eq]
    decide
  have hb : scanSemanticVersion ['1', '.', '1', '0', '.', '0'] = some { core := [1, 10, 0] } := by
    rw [scanSemanticVersion_eq]
    decide
  obtain ⟨-, hswap, -⟩ := parsed_version_order.2.1 _ _ _ _ ha hb
  exact ⟨_, _, rfl, rfl, hswap, by decide⟩

end Cockpit.Upgrader
