/-
  UTF-8, one character at a time: the syntax by bytes is the encoding of the Unicode scalar values.
-/
import Mathlib.Data.List.Basic

namespace Utf8

def Tail (b : UInt8) : Prop := 0x80 ≤ b.toNat ∧ b.toNat ≤ 0xBF

/-- One alternative for each length; the second byte's bounds leave out overlong forms, surrogates, and what
    lies above U+10FFFF. -/
inductive Sequence : List UInt8 → Prop where
  | one {a : UInt8} (ha : a.toNat ≤ 0x7F) : Sequence [a]
  | two {a b : UInt8} (hlow : 0xC2 ≤ a.toNat) (hhigh : a.toNat ≤ 0xDF) (hb : Tail b) : Sequence [a, b]
  | three {a b c : UInt8} (hlow : 0xE0 ≤ a.toNat) (hhigh : a.toNat ≤ 0xEF) (hb : Tail b) (hc : Tail c)
      (hshort : a.toNat = 0xE0 → 0xA0 ≤ b.toNat) (hsurrogate : a.toNat = 0xED → b.toNat ≤ 0x9F) :
      Sequence [a, b, c]
  | four {a b c d : UInt8} (hlow : 0xF0 ≤ a.toNat) (hhigh : a.toNat ≤ 0xF4) (hb : Tail b) (hc : Tail c)
      (hd : Tail d) (hshort : a.toNat = 0xF0 → 0x90 ≤ b.toNat)
      (hlast : a.toNat = 0xF4 → b.toNat ≤ 0x8F) : Sequence [a, b, c, d]

theorem toNat_ofNat {n : Nat} (h : n < 0x100) : (UInt8.ofNat n).toNat = n := by
  rw [UInt8.toNat_ofNat']
  exact Nat.mod_eq_of_lt h

theorem tail_ofNat (n : Nat) : Tail (UInt8.ofNat (n % 0x40 + 0x80)) := by
  unfold Tail
  rw [toNat_ofNat (by omega)]
  omega

theorem sequence_encode (c : Char) : Sequence (String.utf8EncodeChar c) := by
  have hvalid : c.val.toNat < 0xD800 ∨ (0xDFFF < c.val.toNat ∧ c.val.toNat < 0x110000) := c.valid
  unfold String.utf8EncodeChar
  dsimp only
  generalize c.val.toNat = v at hvalid
  split
  · refine .one ?_
    rw [toNat_ofNat (by omega)]
    omega
  · split
    · refine .two ?_ ?_ (tail_ofNat _)
      all_goals
        rw [toNat_ofNat (by omega)]
        omega
    · split
      · refine .three ?_ ?_ (tail_ofNat _) (tail_ofNat _) ?_ ?_
        all_goals rw [toNat_ofNat (by omega)]
        · omega
        · omega
        · rw [toNat_ofNat (by omega)]
          omega
        · rw [toNat_ofNat (by omega)]
          omega
      · refine .four ?_ ?_ (tail_ofNat _) (tail_ofNat _) (tail_ofNat _) ?_ ?_
        all_goals rw [toNat_ofNat (by omega)]
        · omega
        · omega
        · rw [toNat_ofNat (by omega)]
          omega
        · rw [toNat_ofNat (by omega)]
          omega

theorem exists_char_of_valid {v : Nat} (h : v < 0xD800 ∨ (0xDFFF < v ∧ v < 0x110000)) :
    ∃ c : Char, c.val.toNat = v := by
  have hvalid : v.isValidChar := h
  exact ⟨Char.ofNatAux v hvalid, rfl⟩

theorem ofNat_eq {b : UInt8} {n : Nat} (h : n = b.toNat) : UInt8.ofNat n = b := by
  rw [h]
  exact UInt8.ofNat_toNat

theorem exists_char {t : List UInt8} (h : Sequence t) : ∃ c : Char, t = String.utf8EncodeChar c := by
  cases h with
  | @one a ha =>
    obtain ⟨c, hc⟩ := exists_char_of_valid (v := a.toNat) (by omega)
    refine ⟨c, ?_⟩
    unfold String.utf8EncodeChar
    dsimp only
    rw [hc, if_pos ha, ofNat_eq rfl]
  | @two a b hlow hhigh hb =>
    have hb : 0x80 ≤ b.toNat ∧ b.toNat ≤ 0xBF := hb
    obtain ⟨c, hc⟩ := exists_char_of_valid (v := (a.toNat - 0xC0) * 0x40 + (b.toNat - 0x80)) (by omega)
    refine ⟨c, ?_⟩
    unfold String.utf8EncodeChar
    dsimp only
    rw [hc, if_neg (by omega), if_pos (by omega), ofNat_eq (b := a) (by omega), ofNat_eq (b := b) (by omega)]
  | @three a b c hlow hhigh hb hc hshort hsurrogate =>
    have hb : 0x80 ≤ b.toNat ∧ b.toNat ≤ 0xBF := hb
    have hc : 0x80 ≤ c.toNat ∧ c.toNat ≤ 0xBF := hc
    obtain ⟨x, hx⟩ := exists_char_of_valid
      (v := (a.toNat - 0xE0) * 0x1000 + (b.toNat - 0x80) * 0x40 + (c.toNat - 0x80)) (by omega)
    refine ⟨x, ?_⟩
    unfold String.utf8EncodeChar
    dsimp only
    rw [hx, if_neg (by omega), if_neg (by omega), if_pos (by omega), ofNat_eq (b := a) (by omega),
      ofNat_eq (b := b) (by omega), ofNat_eq (b := c) (by omega)]
  | @four a b c d hlow hhigh hb hc hd hshort hlast =>
    have hb : 0x80 ≤ b.toNat ∧ b.toNat ≤ 0xBF := hb
    have hc : 0x80 ≤ c.toNat ∧ c.toNat ≤ 0xBF := hc
    have hd : 0x80 ≤ d.toNat ∧ d.toNat ≤ 0xBF := hd
    obtain ⟨x, hx⟩ := exists_char_of_valid
      (v := (a.toNat - 0xF0) * 0x40000 + (b.toNat - 0x80) * 0x1000 + (c.toNat - 0x80) * 0x40
        + (d.toNat - 0x80)) (by omega)
    refine ⟨x, ?_⟩
    unfold String.utf8EncodeChar
    dsimp only
    rw [hx, if_neg (by omega), if_neg (by omega), if_neg (by omega), ofNat_eq (b := a) (by omega),
      ofNat_eq (b := b) (by omega), ofNat_eq (b := c) (by omega), ofNat_eq (b := d) (by omega)]

/-- **The sequences are the encodings of the Unicode scalar values.** -/
theorem sequence_iff {t : List UInt8} : Sequence t ↔ ∃ c : Char, t = String.utf8EncodeChar c := by
  constructor
  · exact exists_char
  · rintro ⟨c, rfl⟩
    exact sequence_encode c

theorem head_encode (c : Char) : (c.toNat ≤ 0x7F ∧ String.utf8EncodeChar c = [UInt8.ofNat c.toNat])
      ∨ (0x7F < c.toNat ∧ ∃ a t, String.utf8EncodeChar c = a :: t ∧ 0x80 ≤ a.toNat) := by
  by_cases hascii : c.toNat ≤ 0x7F
  · left
    refine ⟨hascii, ?_⟩
    unfold String.utf8EncodeChar
    exact if_pos hascii
  · right
    refine ⟨by omega, ?_⟩
    have hvalid : c.toNat < 0xD800 ∨ (0xDFFF < c.toNat ∧ c.toNat < 0x110000) := c.valid
    unfold String.utf8EncodeChar
    dsimp only
    change ¬c.val.toNat ≤ 0x7F at hascii
    rw [if_neg hascii]
    split
    · refine ⟨_, _, rfl, ?_⟩
      rw [toNat_ofNat (by omega)]
      omega
    · split
      all_goals
        refine ⟨_, _, rfl, ?_⟩
        rw [toNat_ofNat (by omega)]
        omega

end Utf8
