/-
  The operators of ABNF, as operations on languages over any alphabet; alternatives are `+` and a sequence is
  `*`, as for every `Language`.
-/
import Mathlib.Computability.Language

namespace Abnf

open Computability List

variable {α : Type}

/-- A range of characters, or a choice between some. -/
def oneOf (p : α → Bool) : Language α := {t | ∃ a, p a = true ∧ t = [a]}

/-- A fixed text. -/
def word (w : List α) : Language α := {w}

/-- `[rule]`. -/
def optional (l : Language α) : Language α := 1 + l

/-- `1*rule`. -/
def atLeastOne (l : Language α) : Language α := l * l∗

/-- `rule *( separator rule )`. -/
def separated (l separator : Language α) : Language α := l * (separator * l)∗

variable {l separator : Language α} {p : α → Bool} {t u : List α}

theorem singleton_mem_oneOf {a : α} (h : p a = true) : [a] ∈ oneOf p := ⟨a, h, rfl⟩

theorem mem_optional : t ∈ optional l ↔ t = [] ∨ t ∈ l := Iff.rfl

/-! ## Repetitions -/

theorem append_mem_kstar (ht : t ∈ l) (hu : u ∈ l∗) : t ++ u ∈ l∗ := by
  have h : t ++ u ∈ l * l∗ := Language.append_mem_mul ht hu
  rw [← Language.one_add_self_mul_kstar_eq_kstar]
  exact .inr h

theorem kstar_induction {P : List α → Prop} (hnil : P [])
    (hcons : ∀ t ∈ l, ∀ u ∈ l∗, P u → P (t ++ u)) : ∀ t ∈ l∗, P t := by
  intro t ht
  obtain ⟨parts, rfl, hparts⟩ := Language.mem_kstar.mp ht
  clear ht
  induction parts with
  | nil => exact hnil
  | cons part parts ih =>
    rw [flatten_cons]
    have hrest : ∀ y ∈ parts, y ∈ l := fun y hy => hparts y (mem_cons_of_mem _ hy)
    exact hcons part (hparts part mem_cons_self) _ (Language.join_mem_kstar hrest) (ih hrest)

/-- A repetition of single characters. -/
theorem mem_oneOf_kstar : t ∈ (oneOf p)∗ ↔ ∀ a ∈ t, p a = true := by
  constructor
  · refine kstar_induction (P := fun t => ∀ a ∈ t, p a = true) (fun a ha => nomatch ha) ?_ t
    rintro _ ⟨a, ha, rfl⟩ u _ ih b hb
    rcases mem_cons.mp hb with rfl | hb
    · exact ha
    · exact ih b hb
  · intro h
    induction t with
    | nil => exact Language.nil_mem_kstar _
    | cons a t ih =>
      exact append_mem_kstar (t := [a]) (singleton_mem_oneOf (h a mem_cons_self))
        (ih fun b hb => h b (mem_cons_of_mem _ hb))

theorem mem_atLeastOne_oneOf : t ∈ atLeastOne (oneOf p) ↔ ∃ a u, t = a :: u ∧ p a = true ∧ ∀ b ∈ u, p b = true := by
  constructor
  · intro h
    obtain ⟨_, ⟨a, ha, rfl⟩, u, hu, rfl⟩ := Language.mem_mul.mp h
    exact ⟨a, u, rfl, ha, mem_oneOf_kstar.mp hu⟩
  · rintro ⟨a, u, rfl, ha, hu⟩
    exact Language.append_mem_mul (a := [a]) (singleton_mem_oneOf ha) (mem_oneOf_kstar.mpr hu)

/-! ## Rows with separators -/

theorem mem_separated_of_mem (h : t ∈ l) : t ∈ separated l separator := by
  have hmem : t ++ [] ∈ l * (separator * l)∗ :=
    Language.append_mem_mul h (Language.nil_mem_kstar _)
  rw [append_nil] at hmem
  exact hmem

theorem append_mem_separated {s : List α} (ht : t ∈ l) (hs : s ∈ separator)
    (hu : u ∈ separated l separator) : t ++ (s ++ u) ∈ separated l separator := by
  obtain ⟨first, hfirst, rest, hrest, rfl⟩ := Language.mem_mul.mp hu
  refine Language.append_mem_mul ht ?_
  rw [← append_assoc]
  exact append_mem_kstar (Language.append_mem_mul hs hfirst) hrest

/-- **A row with separators is one part, or a part, a separator and such a row.** -/
theorem separated_induction {P : List α → Prop} (hlast : ∀ t ∈ l, P t)
    (hmore : ∀ t ∈ l, ∀ s ∈ separator, ∀ u, P u → P (t ++ (s ++ u))) : ∀ t ∈ separated l separator, P t := by
  intro t ht
  obtain ⟨first, hfirst, rest, hrest, rfl⟩ := Language.mem_mul.mp ht
  -- the rest does not know which part comes before it
  have hrow : ∀ rest ∈ (separator * l)∗, ∀ first ∈ l, P (first ++ rest) := by
    refine kstar_induction ?_ ?_
    · intro first hfirst
      rw [append_nil]
      exact hlast first hfirst
    · intro part hpart rest _ ih first hfirst
      obtain ⟨s, hs, next, hnext, rfl⟩ := Language.mem_mul.mp hpart
      rw [append_assoc]
      exact hmore first hfirst s hs (next ++ rest) (ih next hnext)
  exact hrow rest hrest first hfirst

/-! ## Characters that do not occur -/

/-- The character occurs in none of its texts. -/
def Avoids (a : α) (l : Language α) : Prop := ∀ t ∈ l, a ∉ t

variable {a : α} {m : Language α}

theorem Avoids.oneOf (h : p a = false) : Avoids a (oneOf p) := by
  rintro _ ⟨b, hb, rfl⟩ hmem
  rw [mem_singleton.mp hmem, hb] at h
  cases h

theorem Avoids.word {w : List α} (h : a ∉ w) : Avoids a (word w) := by
  rintro _ rfl
  exact h

section

variable (hl : Avoids a l)
include hl

theorem Avoids.add (hm : Avoids a m) : Avoids a (l + m) := by
  rintro t (ht | ht)
  · exact hl t ht
  · exact hm t ht

theorem Avoids.mul (hm : Avoids a m) : Avoids a (l * m) := by
  intro t ht hmem
  obtain ⟨u, hu, v, hv, rfl⟩ := Language.mem_mul.mp ht
  rcases mem_append.mp hmem with hmem | hmem
  · exact hl u hu hmem
  · exact hm v hv hmem

theorem Avoids.kstar : Avoids a l∗ := by
  refine kstar_induction not_mem_nil ?_
  intro t ht u _ ih hmem
  rcases mem_append.mp hmem with hmem | hmem
  · exact hl t ht hmem
  · exact ih hmem

theorem Avoids.optional : Avoids a (optional l) := by
  rintro t (rfl | ht)
  · exact not_mem_nil
  · exact hl t ht

theorem Avoids.atLeastOne : Avoids a (atLeastOne l) := hl.mul hl.kstar

end

end Abnf
