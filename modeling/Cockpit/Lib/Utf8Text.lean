/-
  Text in UTF-8. Taking ASCII characters from its ends leaves it valid, since no byte of another character is in
  their range.
-/
import Mathlib.Data.List.Induction
import Cockpit.Lib.Utf8

namespace Utf8

open List

theorem forall_byte {P : UInt8 → Prop} (h : ∀ n < 256, P (UInt8.ofNat n)) (b : UInt8) : P b := by
  have hb := h b.toNat b.toNat_lt
  rwa [UInt8.ofNat_toNat] at hb

/-- The bytes encode characters. -/
def Valid (text : List UInt8) : Prop := ∃ chars : List Char, text = chars.flatMap String.utf8EncodeChar

variable {text text' t : List UInt8}

theorem Valid.nil : Valid [] := ⟨[], rfl⟩

theorem Valid.append (h : Valid text) (h' : Valid text') : Valid (text ++ text') := by
  obtain ⟨chars, rfl⟩ := h
  obtain ⟨chars', rfl⟩ := h'
  exact ⟨chars ++ chars', flatMap_append.symm⟩

theorem Sequence.valid (h : Sequence t) : Valid t := by
  obtain ⟨c, rfl⟩ := sequence_iff.mp h
  exact ⟨[c], (flatMap_singleton _ c).symm⟩

theorem valid_flatMap {α : Type} {f : α → List UInt8} {l : List α} (h : ∀ a ∈ l, Valid (f a)) :
    Valid (l.flatMap f) := by
  induction l with
  | nil => exact .nil
  | cons a l ih =>
    rw [flatMap_cons]
    exact (h a mem_cons_self).append (ih fun b hb => h b (mem_cons_of_mem a hb))

theorem Sequence.ascii_or_high (h : Sequence t) :
    (∃ a : UInt8, t = [a] ∧ a.toNat ≤ 0x7F) ∨ (t ≠ [] ∧ ∀ b ∈ t, 0x80 ≤ b.toNat) := by
  cases h with
  | @one a ha => exact .inl ⟨a, rfl, ha⟩
  | @two a b hlow hhigh hb =>
    refine .inr ⟨cons_ne_nil _ _, ?_⟩
    rw [forall_mem_cons, forall_mem_singleton]
    exact ⟨by omega, hb.1⟩
  | @three a b c hlow hhigh hb hc =>
    refine .inr ⟨cons_ne_nil _ _, ?_⟩
    rw [forall_mem_cons, forall_mem_cons, forall_mem_singleton]
    exact ⟨by omega, hb.1, hc.1⟩
  | @four a b c d hlow hhigh hb hc hd =>
    refine .inr ⟨cons_ne_nil _ _, ?_⟩
    rw [forall_mem_cons, forall_mem_cons, forall_mem_cons, forall_mem_singleton]
    exact ⟨by omega, hb.1, hc.1, hd.1⟩

section Ends

variable {p : UInt8 → Bool} (hp : ∀ b, p b = true → b.toNat ≤ 0x7F)

include hp

theorem Valid.dropWhile (h : Valid text) : Valid (text.dropWhile p) := by
  obtain ⟨chars, rfl⟩ := h
  induction chars with
  | nil => exact .nil
  | cons c chars ih =>
    rw [flatMap_cons]
    have hwhole : Valid (String.utf8EncodeChar c ++ chars.flatMap String.utf8EncodeChar) :=
      ⟨c :: chars, flatMap_cons.symm⟩
    rcases (sequence_encode c).ascii_or_high with ⟨a, ha, -⟩ | ⟨hne, hhigh⟩
    · rw [ha] at hwhole ⊢
      rw [singleton_append, dropWhile_cons]
      split
      case isTrue => exact ih
      case isFalse => exact hwhole
    · obtain ⟨a, t, ht⟩ := exists_cons_of_ne_nil hne
      rw [ht] at hwhole hhigh ⊢
      have hkeep : ¬ p a = true := by
        intro hpa
        have hlow := hp a hpa
        have := hhigh a mem_cons_self
        omega
      rw [cons_append, dropWhile_cons_of_neg hkeep]
      exact hwhole

theorem Valid.dropWhileEnd (h : Valid text) : Valid (text.reverse.dropWhile p).reverse := by
  obtain ⟨chars, rfl⟩ := h
  induction chars using List.reverseRecOn with
  | nil => exact .nil
  | append_singleton chars c ih =>
    rw [flatMap_append, flatMap_singleton, reverse_append]
    have hwhole : Valid (chars.flatMap String.utf8EncodeChar ++ String.utf8EncodeChar c) :=
      ⟨chars ++ [c], by rw [flatMap_append, flatMap_singleton]⟩
    rcases (sequence_encode c).ascii_or_high with ⟨a, ha, -⟩ | ⟨hne, hhigh⟩
    · rw [ha] at hwhole ⊢
      rw [reverse_singleton, singleton_append, dropWhile_cons]
      split
      case isTrue => exact ih
      case isFalse =>
        rw [reverse_cons, reverse_reverse]
        exact hwhole
    · obtain ⟨t, b, ht⟩ := eq_nil_or_concat (String.utf8EncodeChar c) |>.resolve_left hne
      rw [concat_eq_append] at ht
      rw [ht] at hwhole hhigh ⊢
      have hkeep : ¬ p b = true := by
        intro hpb
        have hlow := hp b hpb
        have := hhigh b (mem_append_right t mem_cons_self)
        omega
      rw [reverse_append, reverse_singleton, singleton_append, cons_append,
        dropWhile_cons_of_neg hkeep, reverse_cons, reverse_append, reverse_reverse,
        reverse_reverse, append_assoc]
      exact hwhole

end Ends

end Utf8
