/-
  What `DecodeJsonString` makes of a string that `IsValidValue` has accepted.
-/
import Cockpit.Json.Escaping
import Cockpit.Lib.Utf8Pieces
import Cockpit.Llm.SseLines

namespace Cockpit.Llm

open Abnf ByteText Computability Json Utf8

/-! ## The characters of a literal -/

/-- What stands at one place of a string. -/
inductive Element where
  | character (c : Char)
  | codeUnit (unit : Nat)

/-- The escapes of a letter. -/
def characterEscapes : List (UInt8 × Char) :=
  [(0x22, '"'), (0x5C, '\\'), (0x2F, '/'), (0x62, Char.ofNat 8), (0x66, Char.ofNat 12), (0x6E, '\n'), (0x72, '\r'),
    (0x74, '\t')]

/-- The number of four hex digits. -/
def codeUnit (a b c d : UInt8) : Nat := ((hexValue a * 16 + hexValue b) * 16 + hexValue c) * 16 + hexValue d

/-- How the text between the quotes is read. -/
inductive Literal : Bytes → List Element → Prop where
  | nil : Literal [] []
  | unescaped {c : Char} {t : Bytes} {elements : List Element} (hlow : 0x20 ≤ c.toNat) (hquote : c.toNat ≠ 0x22)
      (hbackslash : c.toNat ≠ 0x5C) (h : Literal t elements) :
      Literal (String.utf8EncodeChar c ++ t) (.character c :: elements)
  | escape {escape : UInt8} {c : Char} {t : Bytes} {elements : List Element}
      (hescape : (escape, c) ∈ characterEscapes) (h : Literal t elements) :
      Literal (0x5C :: escape :: t) (.character c :: elements)
  | unicode {a b c d : UInt8} {t : Bytes} {elements : List Element} (ha : isHexDigit a = true)
      (hb : isHexDigit b = true) (hc : isHexDigit c = true) (hd : isHexDigit d = true) (h : Literal t elements) :
      Literal (0x5C :: 0x75 :: a :: b :: c :: d :: t) (.codeUnit (codeUnit a b c d) :: elements)

def isHighSurrogate (unit : Nat) : Bool := 0xD800 ≤ unit && unit ≤ 0xDBFF

def isLowSurrogate (unit : Nat) : Bool := 0xDC00 ≤ unit && unit ≤ 0xDFFF

/-- Two surrogates are one character. -/
def pairValue (high low : Nat) : Nat := 0x10000 + (high - 0xD800) * 0x400 + (low - 0xDC00)

/-- The characters that the elements are; a `Char` is no surrogate. -/
inductive Denotes : List Element → List Char → Prop where
  | nil : Denotes [] []
  | character {c : Char} {elements : List Element} {chars : List Char} (h : Denotes elements chars) :
      Denotes (.character c :: elements) (c :: chars)
  | codeUnit {c : Char} {elements : List Element} {chars : List Char} (h : Denotes elements chars) :
      Denotes (.codeUnit c.toNat :: elements) (c :: chars)
  | pair {high low : Nat} {c : Char} {elements : List Element} {chars : List Char}
      (hhigh : isHighSurrogate high = true) (hlow : isLowSurrogate low = true) (hc : c.toNat = pairValue high low)
      (h : Denotes elements chars) : Denotes (.codeUnit high :: .codeUnit low :: elements) (c :: chars)

/-- Every surrogate is in a pair. -/
def paired : Bool → List Element → Bool
  | awaited, [] => !awaited
  | awaited, .character _ :: elements => !awaited && paired false elements
  | awaited, .codeUnit unit :: elements =>
    if isLowSurrogate unit then awaited && paired false elements
    else !awaited && paired (isHighSurrogate unit) elements

/-! ## Code points -/

theorem hexDigitValue_eq {digit : UInt8} (h : isHexDigit digit = true) :
    (hexDigitValue digit).toNat = hexValue digit ∧ hexValue digit < 16 := by
  have hall : ∀ digit : UInt8, isHexDigit digit = true →
      (hexDigitValue digit).toNat = hexValue digit ∧ hexValue digit < 16 := by
    refine forall_byte ?_
    decide +kernel
  exact hall digit h

theorem toNat_shift_or (value digit : UInt32) (hvalue : value.toNat < 2 ^ 28) (hdigit : digit.toNat < 16) :
    ((value <<< 4) ||| digit).toNat = value.toNat * 16 + digit.toNat := by
  rw [UInt32.toNat_or, UInt32.toNat_shiftLeft]
  show value.toNat <<< 4 % 2 ^ 32 ||| _ = _
  rw [Nat.shiftLeft_eq, Nat.mod_eq_of_lt (by omega), Nat.mul_comm, ← Nat.two_pow_add_eq_or_of_lt hdigit,
    Nat.mul_comm]

variable {b : UInt8}

theorem decodeCodeUnit_eq {a c d : UInt8} (ha : isHexDigit a = true) (hb : isHexDigit b = true)
    (hc : isHexDigit c = true) (hd : isHexDigit d = true) :
    (decodeCodeUnit [a, b, c, d]).toNat = codeUnit a b c d ∧ codeUnit a b c d < 0x10000 := by
  obtain ⟨hva, hla⟩ := hexDigitValue_eq ha
  obtain ⟨hvb, hlb⟩ := hexDigitValue_eq hb
  obtain ⟨hvc, hlc⟩ := hexDigitValue_eq hc
  obtain ⟨hvd, hld⟩ := hexDigitValue_eq hd
  have h1 := toNat_shift_or 0 (hexDigitValue a) (by decide) (by omega)
  have h2 := toNat_shift_or (((0 : UInt32) <<< 4) ||| hexDigitValue a) (hexDigitValue b)
    (by rw [h1, UInt32.toNat_zero]; omega) (by omega)
  have h3 := toNat_shift_or (((((0 : UInt32) <<< 4) ||| hexDigitValue a) <<< 4) ||| hexDigitValue b)
    (hexDigitValue c) (by rw [h2, h1, UInt32.toNat_zero]; omega) (by omega)
  have h4 := toNat_shift_or
    (((((((0 : UInt32) <<< 4) ||| hexDigitValue a) <<< 4) ||| hexDigitValue b) <<< 4) ||| hexDigitValue c)
    (hexDigitValue d) (by rw [h3, h2, h1, UInt32.toNat_zero]; omega) (by omega)
  rw [h3, h2, h1, UInt32.toNat_zero, hva, hvb, hvc, hvd, Nat.zero_mul, Nat.zero_add] at h4
  refine ⟨h4, ?_⟩
  unfold codeUnit
  omega

variable {codepoint : UInt32}

theorem leadByte_eq {mark shift : UInt32} {k a : Nat} (hshift : shift.toNat < 32) (hmark : mark.toNat = 2 ^ k * a)
    (hvalue : codepoint.toNat / 2 ^ shift.toNat < 2 ^ k) :
    leadByte mark codepoint shift = UInt8.ofNat (codepoint.toNat / 2 ^ shift.toNat + mark.toNat) := by
  unfold leadByte
  rw [← UInt8.toNat_inj, UInt32.toNat_toUInt8, UInt32.toNat_or, UInt32.toNat_shiftRight, Nat.mod_eq_of_lt hshift,
    Nat.shiftRight_eq_div_pow, UInt8.toNat_ofNat', hmark, ← Nat.two_pow_add_eq_or_of_lt hvalue, Nat.add_comm]

theorem continuationByte_eq {shift : UInt32} (hshift : shift.toNat < 32) :
    continuationByte codepoint shift = UInt8.ofNat (codepoint.toNat / 2 ^ shift.toNat % 0x40 + 0x80) := by
  have hlow : ((codepoint >>> shift) &&& (0x3F : UInt32)).toNat = codepoint.toNat / 2 ^ shift.toNat % 0x40 := by
    rw [UInt32.toNat_and, UInt32.toNat_shiftRight, Nat.mod_eq_of_lt hshift, Nat.shiftRight_eq_div_pow]
    exact Nat.and_two_pow_sub_one_eq_mod _ 6
  unfold continuationByte
  rw [← UInt8.toNat_inj, UInt32.toNat_toUInt8, UInt32.toNat_or, hlow, UInt8.toNat_ofNat']
  show (2 ^ 7 * 1 ||| _) % _ = _
  rw [← Nat.two_pow_add_eq_or_of_lt (by omega), Nat.add_comm]

/-- **What is put out for the code point of a character** is the character in UTF-8. -/
theorem appendUtf8_eq {c : Char} (h : codepoint.toNat = c.toNat) :
    appendUtf8 codepoint = String.utf8EncodeChar c := by
  have hvalid : c.toNat < 0xD800 ∨ (0xDFFF < c.toNat ∧ c.toNat < 0x110000) := c.valid
  have hencode : c.val.toNat = codepoint.toNat := h.symm
  unfold appendUtf8 String.utf8EncodeChar
  dsimp only
  rw [hencode]
  rw [← h] at hvalid
  simp only [UInt32.le_iff_toNat_le, UInt32.reduceToNat]
  split
  · exact congrArg (fun b : UInt8 => [b]) rfl
  split
  · rw [leadByte_eq (k := 5) (a := 6) (by decide) rfl (by simp; omega), continuationByte_eq (by decide),
      Nat.mod_eq_of_lt (show codepoint.toNat / 64 < 32 by omega)]
    simp only [UInt32.reduceToNat, Nat.reducePow, Nat.div_one]
  split
  · rw [leadByte_eq (k := 4) (a := 14) (by decide) rfl (by simp; omega), continuationByte_eq (by decide),
      continuationByte_eq (by decide), Nat.mod_eq_of_lt (show codepoint.toNat / 4096 < 16 by omega)]
    simp only [UInt32.reduceToNat, Nat.reducePow, Nat.div_one]
  · rw [leadByte_eq (k := 3) (a := 30) (by decide) rfl (by simp; omega), continuationByte_eq (by decide),
      continuationByte_eq (by decide), continuationByte_eq (by decide),
      Nat.mod_eq_of_lt (show codepoint.toNat / 262144 < 8 by omega)]
    simp only [UInt32.reduceToNat, Nat.reducePow, Nat.div_one]

/-- **A surrogate in three bytes is no UTF-8**, whatever follows. -/
theorem not_valid_surrogate (hlow : 0xD800 ≤ codepoint.toNat) (hhigh : codepoint.toNat ≤ 0xDFFF) (rest : Bytes) :
    ¬ Valid (appendUtf8 codepoint ++ rest) := by
  have hbytes : appendUtf8 codepoint = [UInt8.ofNat 0xED, UInt8.ofNat (codepoint.toNat / 64 % 0x40 + 0x80),
      continuationByte codepoint 0] := by
    unfold appendUtf8
    simp only [UInt32.le_iff_toNat_le, UInt32.reduceToNat]
    rw [if_neg (by omega), if_neg (by omega), if_pos (by omega),
      leadByte_eq (k := 4) (a := 14) (by decide) rfl (by simp; omega), continuationByte_eq (show UInt32.toNat 6 < 32 by decide)]
    simp only [UInt32.reduceToNat, Nat.reducePow]
    rw [show codepoint.toNat / 4096 = 13 by omega]
  intro h
  obtain ⟨t, ht, hprefix⟩ := h.beginsChar (by rw [hbytes]; exact List.cons_ne_nil _ _)
  rw [hbytes] at hprefix
  obtain ⟨behind, heq⟩ := hprefix
  have hsecond : (UInt8.ofNat (codepoint.toNat / 64 % 0x40 + 0x80)).toNat = codepoint.toNat / 64 % 0x40 + 0x80 :=
    toNat_ofNat (by omega)
  have hfirst : (UInt8.ofNat 0xED).toNat = 0xED := rfl
  cases ht with
  | one ha | two _ ha =>
    obtain ⟨rfl, -⟩ := List.cons_eq_cons.mp heq
    omega
  | three _ _ _ _ _ hsurrogate =>
    obtain ⟨rfl, hmore⟩ := List.cons_eq_cons.mp heq
    obtain ⟨hb, -⟩ := List.cons_eq_cons.mp hmore
    have hle := hsurrogate hfirst
    rw [hb, hsecond] at hle
    omega
  | four ha =>
    obtain ⟨rfl, -⟩ := List.cons_eq_cons.mp heq
    omega

/-! ## The rounds of the decoder -/

variable {t : Bytes} {elements : List Element}

theorem decodeFrom_plain {plain : Bytes} (h : ∀ b ∈ plain, b ≠ 0x5C) (t : Bytes) :
    decodeFrom 0 (plain ++ t) = plain ++ decodeFrom 0 t := by
  induction plain with
  | nil => rfl
  | cons b plain ih =>
    have hround : decodeFrom 0 (b :: (plain ++ t)) = b :: decodeFrom 0 (plain ++ t) := by
      rw [decodeFrom.eq_def]
      exact if_pos (h b List.mem_cons_self)
    rw [List.cons_append, hround, ih fun b hb => h b (List.mem_cons_of_mem _ hb)]
    rfl

theorem decodeFrom_escape {escape : UInt8} (h : escape ≠ 0x75) (t : Bytes) :
    decodeFrom 0 (0x5C :: escape :: t) = unescape escape :: decodeFrom 0 t := by
  rw [decodeFrom, if_neg (by decide)]
  dsimp only
  rw [if_pos h]
  rfl

theorem decodeFrom_skip (skipped t : Bytes) : decodeFrom skipped.length (skipped ++ t) = decodeFrom 0 t := by
  induction skipped with
  | nil => rfl
  | cons b skipped ih => exact ih

theorem decodeFrom_single {a c d : UInt8} (h : lowSurrogate (decodeCodeUnit [a, b, c, d]) t = none) :
    decodeFrom 0 (0x5C :: 0x75 :: a :: b :: c :: d :: t) =
      appendUtf8 (decodeCodeUnit [a, b, c, d]) ++ decodeFrom 0 t := by
  rw [decodeFrom, if_neg (by decide)]
  dsimp only
  rw [if_neg (by decide), if_neg (by simp)]
  have htake : (a :: b :: c :: d :: t).take 4 = [a, b, c, d] := rfl
  have hdrop : (a :: b :: c :: d :: t).drop 4 = t := rfl
  rw [htake, hdrop, h]
  rfl

theorem decodeFrom_pair {a c d : UInt8} {low : UInt32} {second : Bytes} (hsecond : second.length = 6)
    (h : lowSurrogate (decodeCodeUnit [a, b, c, d]) (second ++ t) = some low) :
    decodeFrom 0 (0x5C :: 0x75 :: a :: b :: c :: d :: (second ++ t)) =
      appendUtf8 ((0x10000 : UInt32) + ((decodeCodeUnit [a, b, c, d] - 0xD800) <<< 10) + (low - 0xDC00)) ++
        decodeFrom 0 t := by
  rw [decodeFrom, if_neg (by decide)]
  dsimp only
  rw [if_neg (by decide), if_neg (by simp)]
  have htake : (a :: b :: c :: d :: (second ++ t)).take 4 = [a, b, c, d] := rfl
  have hdrop : (a :: b :: c :: d :: (second ++ t)).drop 4 = second ++ t := rfl
  rw [htake, hdrop, h]
  dsimp only
  rw [← decodeFrom_skip second t, hsecond]
  rfl

/-! ## Surrogates -/

variable {unit : Nat}

theorem isHighSurrogate_iff : isHighSurrogate unit = true ↔ 0xD800 ≤ unit ∧ unit ≤ 0xDBFF := by
  unfold isHighSurrogate
  rw [Bool.and_eq_true, decide_eq_true_eq, decide_eq_true_eq]

theorem isLowSurrogate_iff : isLowSurrogate unit = true ↔ 0xDC00 ≤ unit ∧ unit ≤ 0xDFFF := by
  unfold isLowSurrogate
  rw [Bool.and_eq_true, decide_eq_true_eq, decide_eq_true_eq]

theorem lowSurrogate_not_high {high : UInt32} (h : isHighSurrogate high.toNat = false) (t : Bytes) :
    lowSurrogate high t = none := by
  unfold lowSurrogate
  split
  · refine if_neg fun hpair => ?_
    have htrue := isHighSurrogate_iff.mpr ⟨UInt32.le_iff_toNat_le.mp hpair.1, UInt32.le_iff_toNat_le.mp hpair.2.1⟩
    rw [h] at htrue
    cases htrue
  · rfl

theorem lowSurrogate_no_escape {first second : UInt8} (high : UInt32) (h : first = 0x5C → second ≠ 0x75) (t : Bytes) :
    lowSurrogate high (first :: second :: t) = none := by
  unfold lowSurrogate
  split
  · rename_i hsix
    obtain ⟨hfirst, hmore⟩ := List.cons_eq_cons.mp hsix
    obtain ⟨hsecond, -⟩ := List.cons_eq_cons.mp hmore
    exact if_neg fun hpair => h (hfirst.trans hpair.2.2.1) (hsecond.trans hpair.2.2.2.1)
  · rfl

/-- **What the decoder looks for behind a code unit**: it finds the second half of a pair where there is one. -/
theorem lowSurrogate_cases (h : Literal t elements) (high : UInt32) :
    (∃ low second t' elements', elements = .codeUnit low.toNat :: elements' ∧ t = second ++ t' ∧ second.length = 6 ∧
      Literal t' elements' ∧ isHighSurrogate high.toNat = true ∧ isLowSurrogate low.toNat = true ∧
      lowSurrogate high t = some low) ∨
    (lowSurrogate high t = none ∧ (isHighSurrogate high.toNat = true →
      ∀ low elements', elements = .codeUnit low :: elements' → isLowSurrogate low = false)) := by
  cases h with
  | nil => exact .inr ⟨rfl, nofun⟩
  | @unescaped c t elements hlow hquote hbackslash h =>
    refine .inr ⟨?_, nofun⟩
    have hplain := bytes_of_unescaped (t := String.utf8EncodeChar c) ⟨c, hlow, hquote, hbackslash, rfl⟩
    obtain ⟨first, more, hcons⟩ := List.exists_cons_of_ne_nil (sequence_encode c).ne_nil
    rw [hcons] at hplain ⊢
    have hfirst := (hplain first List.mem_cons_self).2.2
    cases hrest : more ++ t with
    | nil =>
      rw [List.cons_append, hrest]
      rfl
    | cons second rest =>
      rw [List.cons_append, hrest]
      exact lowSurrogate_no_escape high (fun heq => absurd heq hfirst) rest
  | @escape escape c t elements hescape h =>
    refine .inr ⟨lowSurrogate_no_escape high (fun _ => ?_) t, nofun⟩
    have hall : ∀ pair ∈ characterEscapes, pair.1 ≠ 0x75 := by decide
    exact hall _ hescape
  | @unicode a b c d t elements ha hb hc hd h =>
    have hvalue := (decodeCodeUnit_eq ha hb hc hd).1
    by_cases hhigh : isHighSurrogate high.toNat = true
    · by_cases hlow : isLowSurrogate (codeUnit a b c d) = true
      · refine .inl ⟨decodeCodeUnit [a, b, c, d], [0x5C, 0x75, a, b, c, d], t, elements, ?_, rfl, rfl, h, hhigh, ?_, ?_⟩
        · rw [hvalue]
        · rw [hvalue]
          exact hlow
        · rw [← hvalue] at hlow
          have hhigh := isHighSurrogate_iff.mp hhigh
          have hlow := isLowSurrogate_iff.mp hlow
          exact if_pos ⟨UInt32.le_iff_toNat_le.mpr hhigh.1, UInt32.le_iff_toNat_le.mpr hhigh.2, rfl, rfl,
            UInt32.le_iff_toNat_le.mpr hlow.1, UInt32.le_iff_toNat_le.mpr hlow.2⟩
      · refine .inr ⟨if_neg fun hpair => hlow ?_, fun _ low elements' heq => ?_⟩
        · rw [← hvalue]
          exact isLowSurrogate_iff.mpr
            ⟨UInt32.le_iff_toNat_le.mp hpair.2.2.2.2.1, UInt32.le_iff_toNat_le.mp hpair.2.2.2.2.2⟩
        · obtain ⟨hunit, -⟩ := List.cons_eq_cons.mp heq
          obtain rfl := Element.codeUnit.inj hunit
          exact Bool.eq_false_iff.mpr hlow
    · exact .inr ⟨lowSurrogate_not_high (Bool.eq_false_iff.mpr hhigh) _, fun h => absurd h hhigh⟩

theorem exists_pair {high low : UInt32} (hhigh : isHighSurrogate high.toNat = true)
    (hlow : isLowSurrogate low.toNat = true) :
    ∃ c : Char, c.toNat = pairValue high.toNat low.toNat ∧
      appendUtf8 ((0x10000 : UInt32) + ((high - 0xD800) <<< 10) + (low - 0xDC00)) = String.utf8EncodeChar c := by
  rw [isHighSurrogate_iff] at hhigh
  rw [isLowSurrogate_iff] at hlow
  have hvalue : ((0x10000 : UInt32) + ((high - 0xD800) <<< 10) + (low - 0xDC00)).toNat =
      pairValue high.toNat low.toNat := by
    have hfirst : (high - 0xD800).toNat = high.toNat - 0xD800 :=
      UInt32.toNat_sub_of_le _ _ (UInt32.le_iff_toNat_le.mpr hhigh.1)
    have hsecond : (low - 0xDC00).toNat = low.toNat - 0xDC00 :=
      UInt32.toNat_sub_of_le _ _ (UInt32.le_iff_toNat_le.mpr hlow.1)
    rw [UInt32.toNat_add, UInt32.toNat_add, UInt32.toNat_shiftLeft, hfirst, hsecond, Nat.shiftLeft_eq]
    unfold pairValue
    simp only [UInt32.reduceToNat, Nat.reduceMod, Nat.reducePow]
    omega
  obtain ⟨c, hc⟩ := exists_char_of_valid (v := pairValue high.toNat low.toNat) (by unfold pairValue; omega)
  exact ⟨c, hc, appendUtf8_eq (hvalue.trans hc.symm)⟩

/-! ## The decoder -/

/-- The output is what the elements denote. -/
def Decoded (output : Bytes) (elements : List Element) : Prop :=
  Valid output ∧ ∃ chars, Denotes elements chars ∧ output = chars.flatMap String.utf8EncodeChar

theorem Decoded.cons {output : Bytes} {front : List Element} (c : Char)
    (hdenotes : ∀ chars, Denotes elements chars → Denotes (front ++ elements) (c :: chars))
    (h : Decoded output elements) : Decoded (String.utf8EncodeChar c ++ output) (front ++ elements) := by
  obtain ⟨hvalid, chars, hchars, heq⟩ := h
  refine ⟨valid_encode_append.mpr hvalid, c :: chars, hdenotes chars hchars, ?_⟩
  rw [List.flatMap_cons, heq]

/-- The output is UTF-8 just where the surrogates are in pairs, and then it is what is expected. -/
structure Agrees (output : Bytes) (elements : List Element) : Prop where
  valid : Valid output → paired false elements = true
  decoded : paired false elements = true → Decoded output elements

theorem Agrees.cons {output : Bytes} (front : List Element) (c : Char)
    (hdenotes : ∀ chars, Denotes elements chars → Denotes (front ++ elements) (c :: chars))
    (hpaired : paired false (front ++ elements) = paired false elements) (h : Agrees output elements) :
    Agrees (String.utf8EncodeChar c ++ output) (front ++ elements) := by
  refine ⟨fun hvalid => ?_, fun hfront => ?_⟩
  · rw [hpaired]
    exact h.valid (valid_encode_append.mp hvalid)
  · rw [hpaired] at hfront
    exact (h.decoded hfront).cons c hdenotes

theorem paired_lone (hsurrogate : isHighSurrogate unit = true ∨ isLowSurrogate unit = true)
    (hnext : isHighSurrogate unit = true → ∀ low elements', elements = .codeUnit low :: elements' → isLowSurrogate
      low = false) : paired false (.codeUnit unit :: elements) = false := by
  rw [paired]
  by_cases hlow : isLowSurrogate unit = true
  · rw [if_pos hlow, Bool.false_and]
  · rw [if_neg hlow]
    have hhigh := hsurrogate.resolve_right hlow
    rw [hhigh]
    cases elements with
    | nil => rfl
    | cons element elements =>
      cases element with
      | character c => rfl
      | codeUnit low =>
        rw [paired, hnext hhigh low elements rfl]
        rfl

/-- **The decoder**, element by element; a pair is two of them. -/
theorem decodeFrom_agrees (h : Literal t elements) : Agrees (decodeFrom 0 t) elements := by
  induction hn : elements.length using Nat.strongRecOn generalizing t elements with
  | _ n ih =>
    cases h with
    | nil => exact ⟨fun _ => rfl, fun _ => ⟨.nil, [], .nil, rfl⟩⟩
    | @unescaped c t elements hlow hquote hbackslash h =>
      have hplain := bytes_of_unescaped (t := String.utf8EncodeChar c) ⟨c, hlow, hquote, hbackslash, rfl⟩
      rw [decodeFrom_plain fun b hb => (hplain b hb).2.2]
      have hrest := ih elements.length (by rw [← hn]; exact Nat.lt_succ_self _) h rfl
      exact hrest.cons [.character c] c (fun _ => .character) rfl
    | @escape escape c t elements hescape h =>
      have hall : ∀ pair ∈ characterEscapes, pair.1 ≠ 0x75 ∧ [unescape pair.1] = String.utf8EncodeChar pair.2 := by
        decide
      obtain ⟨hne, hone⟩ := hall _ hescape
      have hround : decodeFrom 0 (0x5C :: escape :: t) = String.utf8EncodeChar c ++ decodeFrom 0 t := by
        rw [decodeFrom_escape hne, ← hone]
        rfl
      rw [hround]
      have hrest := ih elements.length (by rw [← hn]; exact Nat.lt_succ_self _) h rfl
      exact hrest.cons [.character c] c (fun _ => .character) rfl
    | @unicode a b c d t elements ha hb hc hd h =>
      obtain ⟨hvalue, hbound⟩ := decodeCodeUnit_eq ha hb hc hd
      rw [← hvalue] at hbound ⊢
      rcases lowSurrogate_cases h (decodeCodeUnit [a, b, c, d]) with
        ⟨low, second, t', elements', rfl, rfl, hsecond, h', hhigh, hlow, hfound⟩ | ⟨hnone, hnext⟩
      · obtain ⟨c', hc', hencode⟩ := exists_pair hhigh hlow
        rw [decodeFrom_pair hsecond hfound, hencode]
        have hrest := ih elements'.length (by rw [← hn, List.length_cons, List.length_cons]; omega) h' rfl
        refine hrest.cons [.codeUnit _, .codeUnit low.toNat] c' (fun _ => .pair hhigh hlow hc') ?_
        have hnot : isLowSurrogate (decodeCodeUnit [a, b, c, d]).toNat = false := by
          rw [isHighSurrogate_iff] at hhigh
          rw [Bool.eq_false_iff, ne_eq, isLowSurrogate_iff]
          omega
        have hsecond : paired true (.codeUnit low.toNat :: elements') = paired false elements' := by
          rw [paired, hlow]
          rfl
        show paired false (.codeUnit _ :: .codeUnit low.toNat :: elements') = _
        rw [paired, hnot, hhigh, hsecond]
        rfl
      · rw [decodeFrom_single hnone]
        by_cases hsurrogate : isHighSurrogate (decodeCodeUnit [a, b, c, d]).toNat = true ∨
            isLowSurrogate (decodeCodeUnit [a, b, c, d]).toNat = true
        · have hrange := hsurrogate
          rw [isHighSurrogate_iff, isLowSurrogate_iff] at hrange
          refine ⟨fun hvalid => absurd hvalid (not_valid_surrogate (by omega) (by omega) _), fun hpaired => ?_⟩
          rw [paired_lone hsurrogate hnext] at hpaired
          cases hpaired
        · obtain ⟨hnothigh, hnotlow⟩ := not_or.mp hsurrogate
          have hscalar : (decodeCodeUnit [a, b, c, d]).toNat < 0xD800 ∨
              0xDFFF < (decodeCodeUnit [a, b, c, d]).toNat ∧ (decodeCodeUnit [a, b, c, d]).toNat < 0x110000 := by
            rw [isHighSurrogate_iff] at hnothigh
            rw [isLowSurrogate_iff] at hnotlow
            omega
          obtain ⟨c', hc'⟩ := exists_char_of_valid hscalar
          have hc' : c'.toNat = (decodeCodeUnit [a, b, c, d]).toNat := hc'
          rw [appendUtf8_eq hc'.symm, ← hc']
          have hrest := ih elements.length (by rw [← hn]; exact Nat.lt_succ_self _) h rfl
          refine hrest.cons [.codeUnit c'.toNat] c' (fun _ => .codeUnit) ?_
          show paired false (.codeUnit c'.toNat :: elements) = _
          rw [paired, hc', if_neg hnotlow, Bool.eq_false_iff.mpr hnothigh]
          rfl

/-! ## The literals that are accepted -/

theorem exists_literal (h : t ∈ Grammar.char∗) : ∃ elements, Literal t elements := by
  refine kstar_induction (P := fun t => ∃ elements, Literal t elements) ⟨[], .nil⟩ ?_ t h
  rintro t ht u - ⟨elements, h⟩
  rcases ht with ⟨c, hlow, hquote, hbackslash, rfl⟩ | hescaped
  · exact ⟨_, .unescaped hlow hquote hbackslash h⟩
  · rcases Grammar.mem_escaped.mp hescaped with ⟨escape, hescape, rfl⟩ | ⟨a, b, c, d, rfl, ha, hb, hc, hd⟩
    · have hall : ∀ escape ∈ ([0x22, 0x5C, 0x2F, 0x62, 0x66, 0x6E, 0x72, 0x74] : Bytes),
          ∃ pair ∈ characterEscapes, pair.1 = escape := by
        rw [← List.forall_iff_forall_mem]
        decide
      obtain ⟨⟨_, c⟩, hc, rfl⟩ := hall _ hescape
      exact ⟨_, .escape hc h⟩
    · exact ⟨_, .unicode ha hb hc hd h⟩

theorem mem_chars_of_accepted {raw : Bytes} (h : Parser.isValidValue (quote :: (raw ++ [quote])) = .ok none) :
    raw ∈ Grammar.char∗ := by
  have hmem : quote :: (raw ++ [quote]) ∈ Grammar.text kMaximumDepth := by
    rcases Parser.isValidValue_correct (quote :: (raw ++ [quote])) with ⟨hmem, _⟩ | ⟨_, error, _, herror⟩
    · exact hmem
    · rw [h] at herror
      cases herror
  rw [← Grammar.isValidValue_iff] at hmem
  obtain ⟨v, hparse⟩ := Option.isSome_iff_exists.mp hmem
  obtain ⟨⟨v', r⟩, hvalue, hrest⟩ := Option.bind_eq_some_iff.mp hparse
  obtain ⟨⟨text, r'⟩, hstring, heq⟩ := Option.bind_eq_some_iff.mp hvalue
  cases heq
  obtain ⟨u, hu, hsplit⟩ := Grammar.parseString_sound hstring
  obtain ⟨chars, hchars, rfl⟩ := Grammar.mem_string.mp hu
  have hblank : skipWhitespace r = [] := by
    dsimp only at hrest
    split at hrest
    · rename_i hempty
      exact List.isEmpty_iff.mp hempty
    · cases hrest
  -- A blank behind the string would be the quote at the end.
  cases r using List.reverseRecOn with
  | nil =>
    rw [List.append_nil] at hsplit
    obtain ⟨-, htail⟩ := List.cons_eq_cons.mp hsplit
    rw [List.append_cancel_right htail]
    exact hchars
  | append_singleton r last =>
    unfold skipWhitespace at hblank
    rw [List.dropWhile_eq_nil_iff] at hblank
    have hlast := congrArg List.getLast? hsplit
    rw [← List.cons_append, List.getLast?_concat, ← List.append_assoc, List.getLast?_concat] at hlast
    have hws := hblank last (List.mem_append_right _ List.mem_cons_self)
    rw [← Option.some.inj hlast] at hws
    cases hws

/-! ## What `EscapeString` puts out -/

theorem decodeFrom_escapeByte {character : UInt8} (h : character < 0x20) (t : Bytes) :
    decodeFrom 0 (escapeByte character ++ t) = character :: decodeFrom 0 t := by
  rw [UInt8.lt_iff_toNat_lt] at h
  have h : character.toNat < 0x20 := h
  obtain ⟨hhigh, hlow, hvalue⟩ := Json.hexDigit_spec character
  obtain ⟨hunit, -⟩ := decodeCodeUnit_eq (a := 0x30) (b := 0x30) (by decide) (by decide) hhigh hlow
  have hcode : codeUnit 0x30 0x30 (hexDigit (character >>> 4)) (hexDigit (character &&& 0x0F)) = character.toNat := by
    have hsmall : ∀ n < 32, hexValue (hexDigit (UInt8.ofNat n >>> 4)) * 16 +
        hexValue (hexDigit (UInt8.ofNat n &&& 0x0F)) < 0x100 := by decide
    have hsmall := hsmall character.toNat h
    rw [UInt8.ofNat_toNat] at hsmall
    rw [← hvalue, toNat_ofNat hsmall, hvalue]
    show ((0 * 16 + 0) * 16 + _) * 16 + _ = _
    omega
  rw [hcode] at hunit
  obtain ⟨c, hc⟩ := exists_char_of_valid (v := character.toNat) (by omega)
  have hc : c.toNat = character.toNat := hc
  have hnone : lowSurrogate (decodeCodeUnit [0x30, 0x30, hexDigit (character >>> 4), hexDigit (character &&& 0x0F)]) t
      = none := by
    refine lowSurrogate_not_high (Bool.eq_false_iff.mpr fun htrue => ?_) t
    rw [isHighSurrogate_iff, hunit] at htrue
    omega
  rw [escapeByte_eq]
  refine (decodeFrom_single hnone).trans ?_
  rw [appendUtf8_eq (hunit.trans hc.symm)]
  rcases head_encode c with ⟨_, hone⟩ | ⟨hhigh, _⟩
  · rw [hone, hc, UInt8.ofNat_toNat]
    rfl
  · omega

theorem valid_cons_ascii (hb : b.toNat ≤ 0x7F) (h : Valid (b :: t)) : Valid t := by
  obtain ⟨c, hc⟩ := exists_char (.one hb)
  have hcons : b :: t = String.utf8EncodeChar c ++ t := by rw [← hc]; rfl
  rw [hcons, valid_encode_append] at h
  exact h

/-- **UTF-8 is decoded again** from its escaped text. -/
theorem decodeJsonString_escapeString {text : Bytes} (h : Valid text) :
    decodeJsonString (escapeString text) = text := by
  refine escapeString_induction (P := fun text output => Valid text → decodeFrom 0 output = text)
    (fun _ => rfl) ?_ text h
  intro character rest output ih hvalid
  rcases escapeCharacter_cases character rest with ⟨escape, hescape, heq⟩ | ⟨hbyte, heq⟩ | ⟨t, r, ht, hsplit, heq⟩ <;>
    rw [heq] at ih ⊢
  · have hall : ∀ pair ∈ shortEscapes, pair.1.toNat ≤ 0x7F ∧ pair.2 ≠ 0x75 ∧ unescape pair.2 = pair.1 := by
      rw [← List.forall_iff_forall_mem]
      decide
    obtain ⟨hascii, hne, hunescape⟩ := hall _ hescape
    show decodeFrom 0 (0x5C :: escape :: output) = character :: rest
    rw [decodeFrom_escape hne, hunescape, ih (valid_cons_ascii hascii hvalid)]
  · rcases hbyte with hcontrol | hnone
    · have hascii : character.toNat ≤ 0x7F := by
        rw [UInt8.lt_iff_toNat_lt] at hcontrol
        exact Nat.le_trans (Nat.le_of_lt hcontrol) (by decide)
      rw [decodeFrom_escapeByte hcontrol, ih (valid_cons_ascii hascii hvalid)]
    · -- UTF-8 begins with a sequence.
      obtain ⟨t, ht, r, hsplit⟩ := hvalid.beginsChar (List.cons_ne_nil _ _)
      rw [← hsplit, utf8SequenceLength_of_sequence ht] at hnone
      exact absurd (List.length_eq_zero_iff.mp hnone) ht.ne_nil
  · rw [hsplit] at hvalid ⊢
    obtain ⟨c, hlow, hquote, hbackslash, rfl⟩ := id ht
    rw [decodeFrom_plain fun b hb => (bytes_of_unescaped ht b hb).2.2, ih (valid_encode_append.mp hvalid)]

/-- **`DecodeJsonString`**: a literal that is accepted becomes the characters that it denotes, just where each of
    its surrogates is in a pair; and escaped UTF-8 becomes what it was. -/
theorem decodeJsonString_correct_iff (raw text : Bytes) :
    (Parser.isValidValue (quote :: (raw ++ [quote])) = .ok none →
      (∃ elements, Literal raw elements) ∧ ∀ elements, Literal raw elements →
        (Decoded (decodeJsonString raw) elements ↔ paired false elements = true)) ∧
    (Valid text → decodeJsonString (escapeString text) = text) := by
  refine ⟨fun haccepted => ⟨exists_literal (mem_chars_of_accepted haccepted), ?_⟩, ?_⟩
  · intro elements h
    have hagrees := decodeFrom_agrees h
    exact ⟨fun hdecoded => hagrees.valid hdecoded.1, hagrees.decoded⟩
  · intro h
    exact decodeJsonString_escapeString h

/-- A pair. -/
theorem decodeJsonString_smiley : Parser.isValidValue (quote :: (ascii "\\ud83d\\ude00" ++ [quote])) = .ok none ∧
    (∃ elements, Literal (ascii "\\ud83d\\ude00") elements ∧
      Decoded (decodeJsonString (ascii "\\ud83d\\ude00")) elements) ∧
    Valid [0xC3, 0xA9] ∧ decodeJsonString (escapeString [0xC3, 0xA9]) = [0xC3, 0xA9] := by
  have haccepted : Parser.isValidValue (quote :: (ascii "\\ud83d\\ude00" ++ [quote])) = .ok none := by decide +kernel
  have hvalid : Valid [0xC3, 0xA9] := ⟨['é'], by decide⟩
  have hliteral : Literal (ascii "\\ud83d\\ude00") [.codeUnit 0xD83D, .codeUnit 0xDE00] :=
    .unicode (by decide) (by decide) (by decide) (by decide)
      (.unicode (by decide) (by decide) (by decide) (by decide) .nil)
  obtain ⟨hraw, htext⟩ := decodeJsonString_correct_iff (ascii "\\ud83d\\ude00") [0xC3, 0xA9]
  refine ⟨haccepted, ⟨_, hliteral, ?_⟩, hvalid, htext hvalid⟩
  exact ((hraw haccepted).2 _ hliteral).mpr (by decide)

/-- **A high surrogate alone** is accepted, and what is decoded from it is no UTF-8. -/
theorem loneSurrogate_not_decoded : Parser.isValidValue (quote :: (ascii "\\ud800" ++ [quote])) = .ok none ∧
    decodeJsonString (ascii "\\ud800") = [0xED, 0xA0, 0x80] ∧ ¬ Valid (decodeJsonString (ascii "\\ud800")) := by
  refine ⟨by decide +kernel, by decide +kernel, fun hvalid => ?_⟩
  have hliteral : Literal (ascii "\\ud800") [.codeUnit 0xD800] :=
    .unicode (by decide) (by decide) (by decide) (by decide) .nil
  have hpaired := (decodeFrom_agrees hliteral).valid hvalid
  revert hpaired
  decide

end Cockpit.Llm
