/-
  The grammar of JSON, RFC 8259, over the bytes of a UTF-8 text, under the RFC's names.
-/
import Mathlib.Data.List.TakeWhile
import Mathlib.Order.CompletePartialOrder
import Cockpit.Lib.Abnf
import Cockpit.Json.Laws

namespace Cockpit.Json.Grammar

open Abnf ByteText Computability List

/-! ## The rules -/

/-- Blanks. -/
def ws : Language UInt8 := (oneOf fun b => b == 0x20 || b == 0x09 || b == 0x0A || b == 0x0D)∗

/-- The six structural characters, with blanks around. -/
def structural (character : UInt8) : Language UInt8 := ws * word [character] * ws

def digit : Language UInt8 := oneOf fun b => 0x30 ≤ b && b ≤ 0x39

def digit19 : Language UInt8 := oneOf fun b => 0x31 ≤ b && b ≤ 0x39

def hexdig : Language UInt8 := oneOf fun b =>
  (0x30 ≤ b && b ≤ 0x39) || (0x41 ≤ b && b ≤ 0x46) || (0x61 ≤ b && b ≤ 0x66)

/-- No zero leads a longer one. -/
def int : Language UInt8 := word [0x30] + digit19 * digit∗

def frac : Language UInt8 := word [0x2E] * atLeastOne digit

def exp : Language UInt8 :=
  oneOf (fun b => b == 0x65 || b == 0x45) * optional (oneOf fun b => b == 0x2D || b == 0x2B)
    * atLeastOne digit

def number : Language UInt8 := optional (word [0x2D]) * int * optional frac * optional exp

/-- Any Unicode scalar value but the controls, the quotation mark and the backslash. -/
def unescaped : Language UInt8 :=
  {t | ∃ c : Char, 0x20 ≤ c.toNat ∧ c.toNat ≠ 0x22 ∧ c.toNat ≠ 0x5C ∧ t = String.utf8EncodeChar c}

/-- A backslash and its character, or `u` and four digits. -/
def escaped : Language UInt8 :=
  word [0x5C] *
    ((oneOf fun b => b == 0x22 || b == 0x5C || b == 0x2F || b == 0x62 || b == 0x66 || b == 0x6E
        || b == 0x72 || b == 0x74)
      + word [0x75] * (hexdig * (hexdig * (hexdig * hexdig))))

def char : Language UInt8 := unescaped + escaped

def string : Language UInt8 := word [0x22] * char∗ * word [0x22]

def literal : Language UInt8 := word (ascii "false") + word (ascii "null") + word (ascii "true")

/-- Elements with commas between them, in their brackets. -/
def enclosed (opening closing : UInt8) (element : Language UInt8) : Language UInt8 :=
  structural opening * optional (separated element (structural 0x2C)) * structural closing

def array (value : Language UInt8) : Language UInt8 := enclosed 0x5B 0x5D value

def member (value : Language UInt8) : Language UInt8 := string * structural 0x3A * value

def object (value : Language UInt8) : Language UInt8 := enclosed 0x7B 0x7D (member value)

/-- In a value of `value levels` nothing has `levels` arrays and objects or more around it. -/
def value : Nat → Language UInt8
  | 0 => 0
  | levels + 1 => literal + object (value levels) + array (value levels) + number + string

/-- Nothing in it has more than `n` arrays and objects around it. -/
def text (n : Nat) : Language UInt8 := ws * value (n + 1) * ws

/-! ## Blanks -/

variable {t : Bytes}

theorem mem_ws : t ∈ ws ↔ ∀ b ∈ t, isWhitespace b = true := by
  unfold ws
  rw [mem_oneOf_kstar]
  refine forall₂_congr fun b _ => ?_
  unfold isWhitespace
  simp only [Bool.or_eq_true, beq_iff_eq]
  tauto

theorem nil_mem_ws : [] ∈ ws := Language.nil_mem_kstar _

theorem append_mem_ws {w w' : Bytes} (hw : w ∈ ws) (hw' : w' ∈ ws) : w ++ w' ∈ ws := by
  rw [mem_ws] at *
  intro b hb
  rcases mem_append.mp hb with hb | hb
  · exact hw b hb
  · exact hw' b hb

theorem skipWhitespace_ws {w : Bytes} (hw : w ∈ ws) (p : Bytes) : skipWhitespace (w ++ p) = skipWhitespace p := by
  apply skipWhitespace_append_of_nil
  unfold skipWhitespace
  rw [dropWhile_eq_nil_iff]
  exact mem_ws.mp hw

theorem exists_ws (p : Bytes) : ∃ w ∈ ws, p = w ++ skipWhitespace p := by
  refine ⟨p.takeWhile isWhitespace, mem_ws.mpr fun b hb => ?_, ?_⟩
  · exact (mem_takeWhile_imp hb)
  · exact (takeWhile_append_dropWhile).symm

theorem mem_structural {character : UInt8} :
    t ∈ structural character ↔ ∃ w ∈ ws, ∃ w' ∈ ws, t = w ++ character :: w' := by
  unfold structural
  constructor
  · intro h
    obtain ⟨_, hbefore, w', hw', rfl⟩ := Language.mem_mul.mp h
    obtain ⟨w, hw, _, rfl, rfl⟩ := Language.mem_mul.mp hbefore
    exact ⟨w, hw, w', hw', append_assoc w [character] w'⟩
  · rintro ⟨w, hw, w', hw', rfl⟩
    have hone : [character] ∈ word [character] := rfl
    have h := Language.append_mem_mul (Language.append_mem_mul hw hone) hw'
    rw [append_assoc] at h
    exact h

/-! ## Numbers -/

theorem mem_digits : t ∈ atLeastOne digit ↔ ∃ b u, t = b :: u ∧ isDigit b = true ∧ ∀ d ∈ u, isDigit d = true :=
  mem_atLeastOne_oneOf

theorem mem_int : t ∈ int ↔ t = [0x30] ∨ ∃ b u, t = b :: u ∧ isDigit b = true ∧ b ≠ 0x30
      ∧ ∀ d ∈ u, isDigit d = true := by
  have hdigit : ∀ b : UInt8, (0x31 ≤ b && b ≤ 0x39) = true ↔ isDigit b = true ∧ b ≠ 0x30 := by
    intro b
    simp only [isDigit, Bool.and_eq_true, decide_eq_true_eq, UInt8.le_iff_toNat_le, ne_eq,
      ← UInt8.toNat_inj, UInt8.reduceToNat]
    omega
  unfold int
  constructor
  · rintro (hzero | hmore)
    · exact .inl hzero
    · obtain ⟨_, ⟨b, hb, rfl⟩, u, hu, rfl⟩ := Language.mem_mul.mp hmore
      exact .inr ⟨b, u, rfl, ((hdigit b).mp hb).1, ((hdigit b).mp hb).2, mem_oneOf_kstar.mp hu⟩
  · rintro (hzero | ⟨b, u, rfl, hb, hne, hu⟩)
    · exact .inl hzero
    · exact .inr (Language.append_mem_mul (a := [b]) (singleton_mem_oneOf ((hdigit b).mpr ⟨hb, hne⟩))
        (mem_oneOf_kstar.mpr hu))

/-! ## Characters -/

theorem mem_unescaped : t ∈ unescaped ↔ (∃ b : UInt8, t = [b] ∧ 0x20 ≤ b ∧ b < 0x80 ∧ b ≠ 0x22 ∧ b ≠ 0x5C)
      ∨ (∃ a u, t = a :: u ∧ 0x80 ≤ a) ∧ Utf8.Sequence t := by
  constructor
  · rintro ⟨c, hlow, hquote, hescape, rfl⟩
    rcases Utf8.head_encode c with ⟨hascii, hone⟩ | ⟨_, a, u, hcons, ha⟩
    · left
      have hnat : (UInt8.ofNat c.toNat).toNat = c.toNat := Utf8.toNat_ofNat (by omega)
      refine ⟨UInt8.ofNat c.toNat, hone, ?_, ?_, ?_, ?_⟩
      · rw [UInt8.le_iff_toNat_le, hnat]
        exact hlow
      · rw [UInt8.lt_iff_toNat_lt, hnat]
        exact Nat.lt_succ_of_le hascii
      · intro heq
        rw [heq] at hnat
        exact hquote hnat.symm
      · intro heq
        rw [heq] at hnat
        exact hescape hnat.symm
    · right
      exact ⟨⟨a, u, hcons, UInt8.le_iff_toNat_le.mpr ha⟩, Utf8.sequence_encode c⟩
  · rintro (⟨b, rfl, hlow, hhigh, hquote, hescape⟩ | ⟨⟨a, u, rfl, ha⟩, hseq⟩)
    · rw [UInt8.lt_iff_toNat_lt] at hhigh
      rw [UInt8.le_iff_toNat_le] at hlow
      have hhigh : b.toNat < 0x80 := hhigh
      obtain ⟨c, hc⟩ := Utf8.exists_char (.one (a := b) (by omega))
      rcases Utf8.head_encode c with ⟨_, hone⟩ | ⟨_, a, u, hcons, ha⟩
      · rw [hone] at hc
        have hb : b = UInt8.ofNat c.toNat := head_eq_of_cons_eq hc
        have hnat : b.toNat = c.toNat := by rw [hb, Utf8.toNat_ofNat (by omega)]
        refine ⟨c, hnat ▸ hlow, ?_, ?_, hone ▸ hc⟩ <;> intro heq
        · exact hquote (UInt8.toNat_inj.mp (hnat.trans heq))
        · exact hescape (UInt8.toNat_inj.mp (hnat.trans heq))
      · rw [hcons] at hc
        have hb : b = a := head_eq_of_cons_eq hc
        rw [hb] at hhigh
        omega
    · obtain ⟨c, hc⟩ := Utf8.exists_char hseq
      rcases Utf8.head_encode c with ⟨hascii, hone⟩ | ⟨hhigh, _⟩
      · rw [hone] at hc
        have hb : a = UInt8.ofNat c.toNat := head_eq_of_cons_eq hc
        rw [UInt8.le_iff_toNat_le, hb, Utf8.toNat_ofNat (by omega)] at ha
        exact absurd ha (Nat.not_le.mpr (Nat.lt_succ_of_le hascii))
      · exact ⟨c, by omega, by omega, by omega, hc⟩

theorem mem_hexdig : t ∈ hexdig ↔ ∃ b, t = [b] ∧ isHexDigit b = true := by
  have hsame : ∀ b : UInt8, ((0x30 ≤ b && b ≤ 0x39) || (0x41 ≤ b && b ≤ 0x46) || (0x61 ≤ b && b ≤ 0x66))
      = isHexDigit b := by
    intro b
    unfold isHexDigit
    rw [Bool.or_right_comm]
  constructor
  · rintro ⟨b, hb, rfl⟩
    exact ⟨b, rfl, hsame b ▸ hb⟩
  · rintro ⟨b, rfl, hb⟩
    exact ⟨b, (hsame b).trans hb, rfl⟩

theorem mem_escaped : t ∈ escaped ↔ (∃ b ∈ [0x22, 0x5C, 0x2F, 0x62, 0x66, 0x6E, 0x72, 0x74], t = [0x5C, b])
      ∨ ∃ a b c d, t = [0x5C, 0x75, a, b, c, d] ∧ isHexDigit a = true ∧ isHexDigit b = true
        ∧ isHexDigit c = true ∧ isHexDigit d = true := by
  unfold escaped
  constructor
  · intro h
    obtain ⟨_, rfl, u, hone | hcode, rfl⟩ := Language.mem_mul.mp h
    · left
      obtain ⟨b, hb, rfl⟩ := hone
      refine ⟨b, ?_, rfl⟩
      simpa [or_assoc] using hb
    · right
      obtain ⟨_, rfl, _, hfour, rfl⟩ := Language.mem_mul.mp hcode
      obtain ⟨_, hfirst, _, hthree, rfl⟩ := Language.mem_mul.mp hfour
      obtain ⟨_, hsecond, _, htwo, rfl⟩ := Language.mem_mul.mp hthree
      obtain ⟨_, hthird, _, hlast, rfl⟩ := Language.mem_mul.mp htwo
      obtain ⟨a, rfl, ha⟩ := mem_hexdig.mp hfirst
      obtain ⟨b, rfl, hb⟩ := mem_hexdig.mp hsecond
      obtain ⟨c, rfl, hc⟩ := mem_hexdig.mp hthird
      obtain ⟨d, rfl, hd⟩ := mem_hexdig.mp hlast
      exact ⟨a, b, c, d, rfl, ha, hb, hc, hd⟩
  · rintro (⟨b, hb, rfl⟩ | ⟨a, b, c, d, rfl, ha, hb, hc, hd⟩)
    · refine Language.append_mem_mul (a := [0x5C]) rfl (.inl (singleton_mem_oneOf ?_))
      simpa [or_assoc] using hb
    · refine Language.append_mem_mul (a := [0x5C]) rfl (.inr ?_)
      refine Language.append_mem_mul (a := [0x75]) rfl ?_
      refine Language.append_mem_mul (a := [a]) (mem_hexdig.mpr ⟨a, rfl, ha⟩) ?_
      refine Language.append_mem_mul (a := [b]) (mem_hexdig.mpr ⟨b, rfl, hb⟩) ?_
      exact Language.append_mem_mul (a := [c]) (mem_hexdig.mpr ⟨c, rfl, hc⟩)
        (mem_hexdig.mpr ⟨d, rfl, hd⟩)

end Cockpit.Json.Grammar
