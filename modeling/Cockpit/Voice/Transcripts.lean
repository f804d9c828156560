/-
  What `TranscriptNormalizer` makes of a transcript: a normalized text stays as it is, and texts that differ
  only in the case of ASCII letters, in full-width forms and in the separators between words become one.
-/
import Mathlib.Algebra.Group.Nat.Defs
import Mathlib.Data.List.Chain
import Cockpit.Lib.Utf8Pieces
import Cockpit.Voice.TranscriptNormalizer

namespace Cockpit.Voice.TranscriptNormalizer

open Utf8 List Bool

/-! ## `Decode` reads pieces -/

/-- The tests on bytes, on numbers. -/
theorem byte_spec : ∀ b : UInt8, (b < 0x80 ↔ b.toNat ≤ 0x7F) ∧
    (isContinuation b = true ↔ 0x80 ≤ b.toNat ∧ b.toNat ≤ 0xBF) ∧
    (b &&& 0x3F).toNat = b.toNat % 0x40 ∧
    leadOf b = (if 0xC0 ≤ b.toNat ∧ b.toNat ≤ 0xDF then some (2, b.toNat - 0xC0, 0x80)
      else if 0xE0 ≤ b.toNat ∧ b.toNat ≤ 0xEF then some (3, b.toNat - 0xE0, 0x800)
      else if 0xF0 ≤ b.toNat ∧ b.toNat ≤ 0xF7 then some (4, b.toNat - 0xF0, 0x10000)
      else none) :=
  forall_byte (by decide +kernel)

theorem shift_or (value : Nat) (b : UInt8) : (value <<< 6) ||| (b &&& 0x3F).toNat = value * 0x40 + b.toNat % 0x40 := by
  have hmod : b.toNat % 0x40 < 2 ^ 6 := Nat.mod_lt _ (by decide)
  rw [(byte_spec b).2.2.1, ← Nat.shiftLeft_add_eq_or_of_lt hmod, Nat.shiftLeft_eq]

/-- The value that the bytes of a character have. -/
def valueOf : List UInt8 → Nat
  | [a] => a.toNat
  | [a, b] => (a.toNat - 0xC0) * 0x40 + b.toNat % 0x40
  | [a, b, c] => ((a.toNat - 0xE0) * 0x40 + b.toNat % 0x40) * 0x40 + c.toNat % 0x40
  | [a, b, c, d] => (((a.toNat - 0xF0) * 0x40 + b.toNat % 0x40) * 0x40 + c.toNat % 0x40) * 0x40 + d.toNat % 0x40
  | _ => 0

theorem valueOf_encode (c : Char) : valueOf (String.utf8EncodeChar c) = c.toNat := by
  have hvalid : c.val.toNat < 0xD800 ∨ (0xDFFF < c.val.toNat ∧ c.val.toNat < 0x110000) := c.valid
  show _ = c.val.toNat
  unfold String.utf8EncodeChar
  dsimp only
  generalize c.val.toNat = v at hvalid
  split
  · show (UInt8.ofNat v).toNat = v
    exact toNat_ofNat (by omega)
  · split
    · show ((UInt8.ofNat (v / 64 % 0x20 + 0xC0)).toNat - 0xC0) * 0x40 +
        (UInt8.ofNat (v % 0x40 + 0x80)).toNat % 0x40 = v
      rw [toNat_ofNat (by omega), toNat_ofNat (by omega)]
      omega
    · split
      · show (((UInt8.ofNat (v / 4096 % 0x10 + 0xE0)).toNat - 0xE0) * 0x40 +
          (UInt8.ofNat (v / 64 % 0x40 + 0x80)).toNat % 0x40) * 0x40 +
          (UInt8.ofNat (v % 0x40 + 0x80)).toNat % 0x40 = v
        rw [toNat_ofNat (by omega), toNat_ofNat (by omega), toNat_ofNat (by omega)]
        omega
      · show ((((UInt8.ofNat (v / 262144 % 0x08 + 0xF0)).toNat - 0xF0) * 0x40 +
          (UInt8.ofNat (v / 4096 % 0x40 + 0x80)).toNat % 0x40) * 0x40 +
          (UInt8.ofNat (v / 64 % 0x40 + 0x80)).toNat % 0x40) * 0x40 +
          (UInt8.ofNat (v % 0x40 + 0x80)).toNat % 0x40 = v
        rw [toNat_ofNat (by omega), toNat_ofNat (by omega), toNat_ofNat (by omega), toNat_ofNat (by omega)]
        omega

theorem isContinuation_iff (b : UInt8) : isContinuation b = true ↔ Tail b := (byte_spec b).2.1

theorem continueValue_cons {next : UInt8} (h : Tail next) (value : Nat) (rest : List UInt8) :
    continueValue value (next :: rest) = continueValue (value * 0x40 + next.toNat % 0x40) rest := by
  rw [continueValue, if_pos ((isContinuation_iff next).mpr h), shift_or]

variable {first : UInt8}

/-- **A character is decoded**, with its value and its size. -/
theorem decode_sequence {s : List UInt8} (h : Sequence (first :: s)) (rest : List UInt8) :
    decode first (s ++ rest) = ⟨valueOf (first :: s), s.length + 1, true⟩ := by
  unfold decode
  obtain ⟨hascii, -, -, hlead⟩ := byte_spec first
  cases h with
  | one ha => rw [if_pos (hascii.mpr ha)]; rfl
  | @two _ b hlow hhigh hb =>
    have hb' : 0x80 ≤ b.toNat ∧ b.toNat ≤ 0xBF := hb
    rw [if_neg (by rw [hascii]; omega), hlead, if_pos (by omega)]
    dsimp only
    rw [if_neg (by simp), show ([b] ++ rest).take (2 - 1) = [b] from rfl, continueValue_cons hb, continueValue]
    dsimp only
    rw [if_neg (by omega)]
    rfl
  | @three _ b c hlow hhigh hb hc hshort hsurrogate =>
    have hb' : 0x80 ≤ b.toNat ∧ b.toNat ≤ 0xBF := hb
    have hc' : 0x80 ≤ c.toNat ∧ c.toNat ≤ 0xBF := hc
    rw [if_neg (by rw [hascii]; omega), hlead, if_neg (by omega), if_pos (by omega)]
    dsimp only
    rw [if_neg (by simp), show ([b, c] ++ rest).take (3 - 1) = [b, c] from rfl, continueValue_cons hb,
      continueValue_cons hc, continueValue]
    dsimp only
    rw [if_neg (by omega)]
    rfl
  | @four _ b c d hlow hhigh hb hc hd hshort hlast =>
    have hb' : 0x80 ≤ b.toNat ∧ b.toNat ≤ 0xBF := hb
    have hc' : 0x80 ≤ c.toNat ∧ c.toNat ≤ 0xBF := hc
    have hd' : 0x80 ≤ d.toNat ∧ d.toNat ≤ 0xBF := hd
    rw [if_neg (by rw [hascii]; omega), hlead, if_neg (by omega), if_neg (by omega), if_pos (by omega)]
    dsimp only
    rw [if_neg (by simp), show ([b, c, d] ++ rest).take (4 - 1) = [b, c, d] from rfl, continueValue_cons hb,
      continueValue_cons hc, continueValue_cons hd, continueValue]
    dsimp only
    rw [if_neg (by omega)]
    rfl

variable {rest : List UInt8}

theorem continueValue_eq_some {value value' : Nat} {next : UInt8}
    (h : continueValue value (next :: rest) = some value') :
    Tail next ∧ continueValue (value * 0x40 + next.toNat % 0x40) rest = some value' := by
  rw [continueValue] at h
  split at h
  · rename_i hnext
    rw [shift_or] at h
    exact ⟨(isContinuation_iff next).mp hnext, h⟩
  · cases h

theorem decode_valid (h : (decode first rest).valid = true) :
    first.toNat ≤ 0x7F ∨ ∃ size value minimum value', leadOf first = some (size, value, minimum) ∧
      size ≤ rest.length + 1 ∧ continueValue value (rest.take (size - 1)) = some value' ∧
      minimum ≤ value' ∧ value' ≤ 0x10FFFF ∧ ¬ (0xD800 ≤ value' ∧ value' ≤ 0xDFFF) := by
  unfold decode at h
  split at h
  · rename_i hlow
    exact .inl ((byte_spec first).1.mp hlow)
  · split at h
    · cases h
    · rename_i size value minimum hlead
      split at h
      · cases h
      · rename_i hlong
        split at h
        · cases h
        · rename_i value' hvalue
          split at h
          · cases h
          · rename_i hrange
            exact .inr ⟨size, value, minimum, value', hlead, by omega, hvalue, by omega, by omega, by omega⟩

theorem beginsChar_of_valid (h : (decode first rest).valid = true) : BeginsChar (first :: rest) := by
  rcases decode_valid h with hascii | ⟨size, value, minimum, value', hlead, hsize, hvalue, hmin, hmax, hsurrogate⟩
  · exact ⟨[first], .one hascii, prefix_append [first] rest⟩
  rw [(byte_spec first).2.2.2] at hlead
  split at hlead
  · obtain ⟨rfl, hmore⟩ := Prod.mk.inj (Option.some.inj hlead)
    obtain ⟨rfl, rfl⟩ := Prod.mk.inj hmore
    have hlen : 1 ≤ rest.length := by omega
    match rest, hlen with
    | b :: rest, _ =>
      obtain ⟨hb, hvalue⟩ := continueValue_eq_some hvalue
      have hvalue := Option.some.inj hvalue
      have hb' : 0x80 ≤ b.toNat ∧ b.toNat ≤ 0xBF := hb
      exact ⟨[first, b], .two (by omega) (by omega) hb, prefix_append [first, b] rest⟩
  · split at hlead
    · obtain ⟨rfl, hmore⟩ := Prod.mk.inj (Option.some.inj hlead)
      obtain ⟨rfl, rfl⟩ := Prod.mk.inj hmore
      have hlen : 2 ≤ rest.length := by omega
      match rest, hlen with
      | b :: c :: rest, _ =>
        obtain ⟨hb, hvalue⟩ := continueValue_eq_some hvalue
        obtain ⟨hc, hvalue⟩ := continueValue_eq_some hvalue
        have hvalue := Option.some.inj hvalue
        have hb' : 0x80 ≤ b.toNat ∧ b.toNat ≤ 0xBF := hb
        have hc' : 0x80 ≤ c.toNat ∧ c.toNat ≤ 0xBF := hc
        exact ⟨[first, b, c], .three (by omega) (by omega) hb hc (by omega) (by omega),
          prefix_append [first, b, c] rest⟩
    · split at hlead
      · obtain ⟨rfl, hmore⟩ := Prod.mk.inj (Option.some.inj hlead)
        obtain ⟨rfl, rfl⟩ := Prod.mk.inj hmore
        have hlen : 3 ≤ rest.length := by omega
        match rest, hlen with
        | b :: c :: d :: rest, _ =>
          obtain ⟨hb, hvalue⟩ := continueValue_eq_some hvalue
          obtain ⟨hc, hvalue⟩ := continueValue_eq_some hvalue
          obtain ⟨hd, hvalue⟩ := continueValue_eq_some hvalue
          have hvalue := Option.some.inj hvalue
          have hb' : 0x80 ≤ b.toNat ∧ b.toNat ≤ 0xBF := hb
          have hc' : 0x80 ≤ c.toNat ∧ c.toNat ≤ 0xBF := hc
          have hd' : 0x80 ≤ d.toNat ∧ d.toNat ≤ 0xBF := hd
          exact ⟨[first, b, c, d], .four (by omega) (by omega) hb hc hd (by omega) (by omega),
            prefix_append [first, b, c, d] rest⟩
      · cases hlead

/-- A character, or one byte. -/
theorem decode_cases (first : UInt8) (rest : List UInt8) :
    decode first rest = ⟨first.toNat, 1, false⟩ ∨ (decode first rest).valid = true := by
  unfold decode
  split
  · exact .inr rfl
  · split
    · exact .inl rfl
    · split
      · exact .inl rfl
      · split
        · exact .inl rfl
        · split
          · exact .inl rfl
          · exact .inr rfl

/-- **A byte that begins no character is passed on.** -/
theorem decode_byte (h : ¬ BeginsChar (first :: rest)) : decode first rest = ⟨first.toNat, 1, false⟩ :=
  (decode_cases first rest).resolve_right fun hvalid => h (beginsChar_of_valid hvalid)

/-! ## `AppendCodePoint` encodes -/

theorem lead_or {i : Nat} (a : Nat) {n : Nat} (h : n < 2 ^ i) : (2 ^ i * a) ||| n = n + 2 ^ i * a := by
  rw [← Nat.two_pow_add_eq_or_of_lt h, Nat.add_comm]

theorem continuation_or (n : Nat) : 0x80 ||| (n &&& 0x3F) = n % 0x40 + 0x80 := by
  have hmask : n &&& 0x3F = n % 0x40 := Nat.and_two_pow_sub_one_eq_mod n 6
  have hmod : n % 0x40 < 2 ^ 6 := Nat.mod_lt _ (by decide)
  rw [hmask]
  exact lead_or 2 hmod

theorem appendCodePoint_eq (c : Char) : appendCodePoint c.toNat = String.utf8EncodeChar c := by
  have hvalid : c.val.toNat < 0xD800 ∨ (0xDFFF < c.val.toNat ∧ c.val.toNat < 0x110000) := c.valid
  show appendCodePoint c.val.toNat = _
  unfold appendCodePoint String.utf8EncodeChar
  dsimp only
  generalize c.val.toNat = v at hvalid
  have hshift₁ : v >>> 6 = v / 64 := Nat.shiftRight_eq_div_pow v 6
  have hshift₂ : v >>> 12 = v / 4096 := Nat.shiftRight_eq_div_pow v 12
  have hshift₃ : v >>> 18 = v / 262144 := Nat.shiftRight_eq_div_pow v 18
  rw [hshift₁, hshift₂, hshift₃]
  split
  · rfl
  · split
    · have hlead : 0xC0 ||| (v / 64) = v / 64 % 0x20 + 0xC0 := by
        rw [Nat.mod_eq_of_lt (by omega)]
        exact lead_or 6 (show v / 64 < 2 ^ 5 by omega)
      rw [hlead, continuation_or]
    · split
      · have hlead : 0xE0 ||| (v / 4096) = v / 4096 % 0x10 + 0xE0 := by
          rw [Nat.mod_eq_of_lt (by omega)]
          exact lead_or 14 (show v / 4096 < 2 ^ 4 by omega)
        rw [hlead, continuation_or, continuation_or]
      · have hlead : 0xF0 ||| (v / 262144) = v / 262144 % 0x08 + 0xF0 := by
          rw [Nat.mod_eq_of_lt (by omega)]
          exact lead_or 30 (show v / 262144 < 2 ^ 3 by omega)
        rw [hlead, continuation_or, continuation_or, continuation_or]

/-! ## What `Normalize` makes of the pieces -/

/-- What a character that is no separator is replaced by. -/
def foldChar (c : Char) : Char := Char.ofNat (lower (narrow c.toNat))

/-- What is written for a piece; nothing is for a separator. -/
def foldPiece : Piece → Option Piece
  | .char c => if isSeparator (narrow c.toNat) then none else some (.char (foldChar c))
  | .byte b => some (.byte b)

theorem foldPiece_char (c : Char) :
    foldPiece (.char c) = if isSeparator (narrow c.toNat) then none else some (.char (foldChar c)) := rfl

/-- What has been written before. -/
inductive Written where
  | nothing
  | word
  | gap
  deriving DecidableEq

/-- What stands for separators. -/
def blank : Piece := .char ' '

/-- The pieces with a single blank for the separators between two of them. -/
def spaced : Written → List (Option Piece) → List Piece
  | _, [] => []
  | .nothing, none :: items => spaced .nothing items
  | .word, none :: items | .gap, none :: items => spaced .gap items
  | .gap, some piece :: items => blank :: piece :: spaced .word items
  | .nothing, some piece :: items | .word, some piece :: items => piece :: spaced .word items

/-- The blank in front of a piece. -/
def gapOf (written : Written) : List Piece := if written = .gap then [blank] else []

/-- What has been written, behind a separator. -/
def Written.separated (written : Written) : Written := if written = .nothing then .nothing else .gap

theorem spaced_some (written : Written) (piece : Piece) (items : List (Option Piece)) :
    spaced written (some piece :: items) = gapOf written ++ piece :: spaced .word items := by
  cases written <;> rfl

theorem spaced_none (written : Written) (items : List (Option Piece)) :
    spaced written (none :: items) = spaced written.separated items := by
  cases written <;> rfl

theorem narrow_lt {v : Nat} (h : v < 0xD800 ∨ (0xDFFF < v ∧ v < 0x110000)) :
    lower (narrow v) < 0xD800 ∨ (0xDFFF < lower (narrow v) ∧ lower (narrow v) < 0x110000) := by
  unfold lower narrow
  dsimp only
  repeat' split
  all_goals omega

theorem toNat_foldChar (c : Char) : (foldChar c).toNat = lower (narrow c.toNat) := by
  have hvalid : (lower (narrow c.toNat)).isValidChar := narrow_lt c.valid
  unfold foldChar Char.ofNat
  rw [dif_pos hvalid]
  rfl

variable {pieces : List Piece}

/-- **`Normalize` goes over the pieces** of the text, and writes what is said here. -/
theorem normalizeLoop_bytesOf (h : Canonical pieces) (normalized : List UInt8) (written : Written)
    (hwritten : normalized = [] ↔ written = .nothing) :
    normalizeLoop normalized (written = .gap) (bytesOf pieces) =
      normalized ++ bytesOf (spaced written (pieces.map foldPiece)) := by
  induction pieces generalizing normalized written with
  | nil =>
    have hnil : bytesOf (spaced written []) = [] := by cases written <;> rfl
    rw [map_nil, hnil, append_nil]
    exact normalizeLoop.eq_1 _ _
  | cons piece pieces ih =>
    have hspace : (if decide (written = .gap) && decide (normalized ≠ []) then [0x20] else [] : List UInt8) =
        bytesOf (gapOf written) := by
      cases written with
      | nothing | word => rfl
      | gap =>
        have hsome : decide (normalized ≠ []) = true := decide_eq_true fun hnil => absurd (hwritten.mp hnil) (by decide)
        rw [hsome]
        rfl
    have hword : ∀ more : List UInt8, more ≠ [] →
        (normalized ++ bytesOf (gapOf written) ++ more = [] ↔ Written.word = .nothing) := by
      intro more hmore
      exact ⟨fun hnil => absurd (append_eq_nil_iff.mp hnil).2 hmore, fun h => absurd h (by decide)⟩
    cases piece with
    | char c =>
      obtain ⟨first, s, hbytes⟩ := exists_cons_of_ne_nil (sequence_encode c).ne_nil
      have hseq := sequence_encode c
      have hvalue := valueOf_encode c
      rw [hbytes] at hseq hvalue
      have htext : bytesOf (.char c :: pieces) = first :: (s ++ bytesOf pieces) := by
        show String.utf8EncodeChar c ++ bytesOf pieces = _
        rw [hbytes]
        rfl
      rw [htext, normalizeLoop, decode_sequence hseq, hvalue]
      dsimp only
      rw [List.drop_succ_cons, List.drop_left, hspace, Bool.not_true, if_neg Bool.false_ne_true]
      cases hseparator : isSeparator (narrow c.toNat) with
      | true =>
        have hitem : foldPiece (.char c) = none := if_pos hseparator
        have hpending : decide (normalized ≠ []) = decide (written.separated = .gap) := by
          refine decide_eq_decide.mpr ((not_congr hwritten).trans ?_)
          cases written <;> decide
        have hseparated : normalized = [] ↔ written.separated = .nothing := by
          rw [hwritten]
          cases written <;> decide
        rw [if_pos rfl, hpending, ih h normalized written.separated hseparated, List.map_cons, hitem, spaced_none]
      | false =>
        have hitem : foldPiece (.char c) = some (.char (foldChar c)) :=
          if_neg (by rw [hseparator]; exact Bool.false_ne_true)
        have hencode : appendCodePoint (lower (narrow c.toNat)) = String.utf8EncodeChar (foldChar c) := by
          rw [← toNat_foldChar, appendCodePoint_eq]
        have hrest := ih h _ .word (hword _ (sequence_encode (foldChar c)).ne_nil)
        rw [if_neg Bool.false_ne_true, hencode]
        refine hrest.trans ?_
        rw [List.map_cons, hitem, spaced_some, bytesOf_append, append_assoc, append_assoc]
        rfl
    | byte b =>
      have htext : bytesOf (.byte b :: pieces) = b :: bytesOf pieces := rfl
      rw [htext, normalizeLoop, decode_byte h.1]
      dsimp only
      rw [hspace, UInt8.ofNat_toNat, Bool.not_false, if_pos rfl]
      have hrest := ih h.2 _ .word (hword [b] (List.cons_ne_nil b []))
      refine hrest.trans ?_
      rw [List.map_cons, show foldPiece (.byte b) = some (.byte b) from rfl, spaced_some, bytesOf_append,
        append_assoc, append_assoc]
      rfl

/-- The pieces of the normalized text. -/
def normalPieces (pieces : List Piece) : List Piece := spaced .nothing (pieces.map foldPiece)

theorem normalize_bytesOf (h : Canonical pieces) : normalize (bytesOf pieces) = bytesOf (normalPieces pieces) :=
  normalizeLoop_bytesOf h [] .nothing (by decide)

/-! ## The pieces of a normalized text -/

theorem takeWhile_spaced_gap (items : List (Option Piece)) : (spaced .gap items).takeWhile Piece.isByte = [] := by
  induction items with
  | nil => rfl
  | cons item items ih =>
    cases item with
    | none => exact ih
    | some piece => rfl

theorem takeWhile_spaced (pieces : List Piece) :
    (spaced .word (pieces.map foldPiece)).takeWhile Piece.isByte = pieces.takeWhile Piece.isByte := by
  induction pieces with
  | nil => rfl
  | cons piece pieces ih =>
    cases piece with
    | byte b => exact congrArg (Piece.byte b :: ·) ih
    | char c =>
      rw [List.takeWhile_cons_of_neg Bool.false_ne_true, List.map_cons, foldPiece_char]
      split
      case isTrue => exact takeWhile_spaced_gap _
      case isFalse => rfl

theorem canonical_gapOf (written : Written) (pieces : List Piece) :
    Canonical (gapOf written ++ pieces) ↔ Canonical pieces := by
  cases written <;> exact Iff.rfl

/-- **What is written has the same bytes left**, so it is read as it was written. -/
theorem canonical_spaced (h : Canonical pieces) (written : Written) :
    Canonical (spaced written (pieces.map foldPiece)) := by
  induction pieces generalizing written with
  | nil => cases written <;> trivial
  | cons piece pieces ih =>
    rw [List.map_cons]
    cases piece with
    | char c =>
      rw [foldPiece_char]
      split
      case isTrue =>
        rw [spaced_none]
        exact ih h _
      case isFalse =>
        rw [spaced_some, canonical_gapOf]
        exact ih h .word
    | byte b =>
      rw [show foldPiece (.byte b) = some (.byte b) from rfl, spaced_some, canonical_gapOf]
      refine ⟨?_, ih h.2 .word⟩
      rw [beginsChar_iff, takeWhile_spaced, ← beginsChar_iff]
      exact h.1

/-- No full-width form is left. -/
theorem narrow_spec (v : Nat) : ¬ (0xFF01 ≤ narrow v ∧ narrow v ≤ 0xFF5E) ∧ narrow v ≠ 0x2018 ∧ narrow v ≠ 0x2019 := by
  unfold narrow
  dsimp only
  repeat' split
  all_goals omega

theorem narrow_of_narrow {v : Nat} (h : ¬ (0xFF01 ≤ v ∧ v ≤ 0xFF5E) ∧ v ≠ 0x2018 ∧ v ≠ 0x2019) : narrow v = v := by
  unfold narrow
  rw [if_neg h.1]
  exact if_neg (by omega)

/-- What was lowered is neither a full-width form, nor a separator, nor a capital letter. -/
theorem lower_spec {v : Nat} (hnarrow : ¬ (0xFF01 ≤ v ∧ v ≤ 0xFF5E) ∧ v ≠ 0x2018 ∧ v ≠ 0x2019)
    (hseparator : isSeparator v = false) :
    narrow (lower v) = lower v ∧ isSeparator (lower v) = false ∧ ¬ (0x41 ≤ lower v ∧ lower v ≤ 0x5A) := by
  unfold lower
  split
  case isTrue hupper =>
    refine ⟨narrow_of_narrow (by omega), ?_, by omega⟩
    unfold isSeparator
    rw [if_pos (by omega)]
    simp only [or_eq_false_iff, and_eq_false_iff, decide_eq_false_iff_not]
    omega
  case isFalse hother => exact ⟨narrow_of_narrow hnarrow, hseparator, hother⟩

/-- A piece that stays as it is. -/
def Settled (piece : Piece) : Prop := foldPiece piece = some piece

variable {piece : Piece}

theorem settled_of_foldPiece {folded : Piece} (h : foldPiece piece = some folded) : Settled folded := by
  cases piece with
  | byte b =>
    obtain rfl : Piece.byte b = folded := Option.some.inj h
    rfl
  | char c =>
    rw [foldPiece_char] at h
    split at h
    · cases h
    · rename_i hseparator
      obtain rfl : Piece.char (foldChar c) = folded := Option.some.inj h
      have hvalue := toNat_foldChar c
      obtain ⟨hnarrow, hsep, hupper⟩ := lower_spec (narrow_spec c.toNat) ((not_eq_true _).mp hseparator)
      have hsame : foldChar (foldChar c) = foldChar c := by
        apply Char.ext
        apply UInt32.toNat_inj.mp
        show (foldChar (foldChar c)).toNat = (foldChar c).toNat
        rw [toNat_foldChar (foldChar c), hvalue, hnarrow]
        exact if_neg hupper
      unfold Settled
      rw [foldPiece_char, hvalue, hnarrow, hsep, hsame]
      rfl

theorem settled_of_mem {folded : Piece} (h : some folded ∈ pieces.map foldPiece) : Settled folded := by
  obtain ⟨piece, -, hpiece⟩ := mem_map.mp h
  exact settled_of_foldPiece hpiece

theorem Settled.ne_blank (h : Settled piece) : piece ≠ blank := by
  rintro rfl
  have hnone : foldPiece blank = none := by decide
  unfold Settled at h
  rw [hnone] at h
  cases h

theorem Settled.char {c : Char} (h : Settled (.char c)) : isSeparator c.toNat = false ∧
    ¬ (0x41 ≤ c.toNat ∧ c.toNat ≤ 0x5A) ∧ ¬ (0xFF01 ≤ c.toNat ∧ c.toNat ≤ 0xFF5E) := by
  unfold Settled at h
  rw [foldPiece_char] at h
  split at h
  · cases h
  · rename_i hseparator
    have hfold : foldChar c = c := Piece.char.inj (Option.some.inj h)
    have hvalue := toNat_foldChar c
    rw [hfold] at hvalue
    obtain ⟨hnarrow, hsep, hupper⟩ := lower_spec (narrow_spec c.toNat) ((not_eq_true _).mp hseparator)
    rw [← hvalue] at hnarrow hsep hupper
    have hspec := narrow_spec c.toNat
    rw [hnarrow] at hspec
    exact ⟨hsep, hupper, hspec.1⟩

variable {items : List (Option Piece)}

/-- **What is written stays as it is** when it is normalized again; behind a word, it begins with its blank. -/
theorem spaced_again (h : ∀ piece, some piece ∈ items → Settled piece) :
    spaced .nothing ((spaced .nothing items).map foldPiece) = spaced .nothing items ∧
      spaced .word ((spaced .word items).map foldPiece) = spaced .word items ∧
      spaced .word ((spaced .gap items).map foldPiece) = spaced .gap items := by
  induction items with
  | nil => exact ⟨rfl, rfl, rfl⟩
  | cons item items ih =>
    obtain ⟨hnothing, hword, hgap⟩ := ih fun piece hmem => h piece (mem_cons_of_mem _ hmem)
    cases item with
    | none => exact ⟨hnothing, hgap, hgap⟩
    | some piece =>
      have hpiece : foldPiece piece = some piece := h piece mem_cons_self
      have hblank : foldPiece blank = none := by decide
      refine ⟨?_, ?_, ?_⟩
      · show spaced .nothing (foldPiece piece :: (spaced .word items).map foldPiece) = _
        rw [hpiece]
        exact congrArg (piece :: ·) hword
      · show spaced .word (foldPiece piece :: (spaced .word items).map foldPiece) = _
        rw [hpiece]
        exact congrArg (piece :: ·) hword
      · show spaced .word (foldPiece blank :: foldPiece piece :: (spaced .word items).map foldPiece) = _
        rw [hblank, hpiece]
        exact congrArg (blank :: piece :: ·) hword

/-- Blanks stand between other pieces, one at a time. -/
structure SingleBlanks (pieces : List Piece) : Prop where
  first : ∀ piece ∈ pieces.head?, piece ≠ blank
  last : ∀ piece ∈ pieces.getLast?, piece ≠ blank
  single : pieces.IsChain fun a b => ¬ (a = blank ∧ b = blank)

theorem blanks_spaced (h : ∀ piece, some piece ∈ items → Settled piece) (written : Written) :
    (written = .nothing → ∀ piece ∈ (spaced written items).head?, piece ≠ blank) ∧
      (∀ piece ∈ (spaced written items).getLast?, piece ≠ blank) ∧
      (spaced written items).IsChain fun a b => ¬ (a = blank ∧ b = blank) := by
  induction items generalizing written with
  | nil =>
    have hnil : spaced written [] = [] := by cases written <;> rfl
    rw [hnil]
    exact ⟨fun _ _ hmem => (nomatch hmem), fun _ hmem => (nomatch hmem), isChain_nil⟩
  | cons item items ih =>
    have hrest : ∀ piece, some piece ∈ items → Settled piece :=
      fun piece hmem => h piece (mem_cons_of_mem _ hmem)
    cases item with
    | none =>
      rw [spaced_none]
      obtain ⟨hfirst, hlast, hsingle⟩ := ih hrest written.separated
      exact ⟨fun hnothing => hfirst (if_pos hnothing), hlast, hsingle⟩
    | some piece =>
      have hpiece : piece ≠ blank := (h piece mem_cons_self).ne_blank
      obtain ⟨-, hlast, hsingle⟩ := ih hrest .word
      have hchain : (piece :: spaced .word items).IsChain fun a b => ¬ (a = blank ∧ b = blank) := by
        rw [isChain_cons]
        exact ⟨fun _ _ hblank => hpiece hblank.1, hsingle⟩
      have hend : ∀ last ∈ (piece :: spaced .word items).getLast?, last ≠ blank := by
        intro last hmem
        rw [List.getLast?_cons] at hmem
        cases hrest : (spaced .word items).getLast? with
        | none =>
          rw [hrest] at hmem
          exact Option.some.inj hmem ▸ hpiece
        | some last' =>
          rw [hrest] at hmem
          exact Option.some.inj hmem ▸ hlast last' hrest
      rw [spaced_some]
      cases written with
      | nothing | word => exact ⟨fun _ first hfirst => Option.some.inj hfirst ▸ hpiece, hend, hchain⟩
      | gap =>
        refine ⟨fun hnothing => (nomatch hnothing), ?_, ?_⟩
        · intro last hmem
          rw [List.getLast?_append_of_ne_nil _ (List.cons_ne_nil _ _)] at hmem
          exact hend last hmem
        · show (blank :: piece :: spaced .word items).IsChain _
          rw [isChain_cons]
          exact ⟨fun next hnext hblank => hpiece ((Option.some.inj hnext).trans hblank.2), hchain⟩

theorem mem_spaced {written : Written} (h : piece ∈ spaced written items) : piece = blank ∨ some piece ∈ items := by
  induction items generalizing written with
  | nil => cases written <;> cases h
  | cons item items ih =>
    cases item with
    | none =>
      rw [spaced_none] at h
      exact (ih h).imp id (mem_cons_of_mem _)
    | some first =>
      rw [spaced_some] at h
      rcases mem_append.mp h with hgap | hrest
      · left
        cases written with
        | nothing | word => cases hgap
        | gap => exact mem_singleton.mp hgap
      · rcases mem_cons.mp hrest with rfl | hmem
        · exact .inr mem_cons_self
        · exact (ih hmem).imp id (mem_cons_of_mem _)

/-! ## Texts that are one when they are normalized -/

/-- The texts differ in the case of ASCII letters, in full-width forms of ASCII characters, and in what stands
    between words, wherever in the text and in whatever bytes. -/
inductive Alike : List UInt8 → List UInt8 → Prop where
  | refl (text : List UInt8) : Alike text text
  | symm {text text' : List UInt8} (h : Alike text text') : Alike text' text
  | trans {text text' text'' : List UInt8} (h : Alike text text') (h' : Alike text' text'') : Alike text text''
  | letter (front behind : List UInt8) {upper lower : Char} (hupper : 0x41 ≤ upper.toNat ∧ upper.toNat ≤ 0x5A)
      (hlower : lower.toNat = upper.toNat + 0x20) :
      Alike (front ++ String.utf8EncodeChar upper ++ behind) (front ++ String.utf8EncodeChar lower ++ behind)
  | width (front behind : List UInt8) {ascii wide : Char} (hascii : 0x21 ≤ ascii.toNat ∧ ascii.toNat ≤ 0x7E)
      (hwide : wide.toNat = ascii.toNat + 0xFEE0) :
      Alike (front ++ String.utf8EncodeChar ascii ++ behind) (front ++ String.utf8EncodeChar wide ++ behind)
  | separators (front behind : List UInt8) {some other : List Char} (hsome : some ≠ []) (hother : other ≠ [])
      (h : ∀ c ∈ some ++ other, isSeparator (narrow c.toNat) = true) :
      Alike (front ++ some.flatMap String.utf8EncodeChar ++ behind)
        (front ++ other.flatMap String.utf8EncodeChar ++ behind)

theorem normalize_replace (front behind : List UInt8) {c c' : Char} (h : foldPiece (.char c) = foldPiece (.char c')) :
    normalize (front ++ String.utf8EncodeChar c ++ behind) =
      normalize (front ++ String.utf8EncodeChar c' ++ behind) := by
  obtain ⟨pieces₁, h₁, rfl⟩ := exists_canonical front
  obtain ⟨pieces₂, h₂, rfl⟩ := exists_canonical behind
  have hnormal : ∀ c : Char, normalize (bytesOf pieces₁ ++ String.utf8EncodeChar c ++ bytesOf pieces₂) =
      bytesOf (spaced .nothing (pieces₁.map foldPiece ++ foldPiece (.char c) :: pieces₂.map foldPiece)) := by
    intro c
    have htext : bytesOf pieces₁ ++ String.utf8EncodeChar c ++ bytesOf pieces₂ =
        bytesOf (pieces₁ ++ .char c :: pieces₂) := by
      rw [bytesOf_append, append_assoc]
      rfl
    rw [htext, normalize_bytesOf ((canonical_append_char _ _ _).mpr ⟨h₁, h₂⟩)]
    unfold normalPieces
    rw [map_append, List.map_cons]
  rw [hnormal, hnormal, h]

theorem spaced_separators {nones : List (Option Piece)} (hne : nones ≠ []) (h : ∀ item ∈ nones, item = none)
    (front behind : List (Option Piece)) (written : Written) :
    spaced written (front ++ (nones ++ behind)) = spaced written (front ++ none :: behind) := by
  induction front generalizing written with
  | nil =>
    obtain ⟨item, nones, rfl⟩ := exists_cons_of_ne_nil hne
    rw [forall_mem_cons] at h
    obtain ⟨rfl, hnones⟩ := h
    rw [nil_append, nil_append, cons_append, spaced_none, spaced_none]
    clear hne
    induction nones with
    | nil => rfl
    | cons item nones ih =>
      rw [forall_mem_cons] at hnones
      obtain ⟨rfl, hnones⟩ := hnones
      have hagain : written.separated.separated = written.separated := by cases written <;> rfl
      rw [cons_append, spaced_none, hagain]
      exact ih hnones
  | cons item front ih =>
    cases item with
    | none =>
      rw [cons_append, cons_append, spaced_none, spaced_none]
      exact ih _
    | some piece =>
      rw [cons_append, cons_append, spaced_some, spaced_some, ih]

theorem canonical_append_chars {pieces' : List Piece} (h : Canonical pieces) (h' : Canonical pieces')
    {chars : List Char} (hne : chars ≠ []) : Canonical (pieces ++ (chars.map .char ++ pieces')) := by
  obtain ⟨c, chars, rfl⟩ := exists_cons_of_ne_nil hne
  rw [List.map_cons, cons_append, canonical_append_char]
  refine ⟨h, ?_⟩
  clear hne
  induction chars with
  | nil => exact h'
  | cons c chars ih => exact ih

theorem normalize_separators (front behind : List UInt8) {chars : List Char} (hne : chars ≠ [])
    (h : ∀ c ∈ chars, isSeparator (narrow c.toNat) = true) :
    normalize (front ++ chars.flatMap String.utf8EncodeChar ++ behind) =
      normalize (front ++ String.utf8EncodeChar ' ' ++ behind) := by
  obtain ⟨pieces₁, h₁, rfl⟩ := exists_canonical front
  obtain ⟨pieces₂, h₂, rfl⟩ := exists_canonical behind
  have htext : bytesOf pieces₁ ++ chars.flatMap String.utf8EncodeChar ++ bytesOf pieces₂ =
      bytesOf (pieces₁ ++ (chars.map .char ++ pieces₂)) := by
    rw [bytesOf_append, bytesOf_append, bytesOf_chars, append_assoc]
  have hblank : bytesOf pieces₁ ++ String.utf8EncodeChar ' ' ++ bytesOf pieces₂ =
      bytesOf (pieces₁ ++ blank :: pieces₂) := by
    rw [bytesOf_append, append_assoc]
    rfl
  have hitems : ∀ item ∈ (chars.map Piece.char).map foldPiece, item = none := by
    intro item hitem
    rw [map_map] at hitem
    obtain ⟨c, hc, rfl⟩ := mem_map.mp hitem
    exact if_pos (h c hc)
  have hsome : (chars.map Piece.char).map foldPiece ≠ [] := by
    rw [map_map]
    exact fun hnil => hne (map_eq_nil_iff.mp hnil)
  have hcanonical : Canonical (pieces₁ ++ blank :: pieces₂) := (canonical_append_char _ _ _).mpr ⟨h₁, h₂⟩
  rw [htext, hblank, normalize_bytesOf (canonical_append_chars h₁ h₂ hne), normalize_bytesOf hcanonical]
  unfold normalPieces
  rw [map_append, map_append, map_append, spaced_separators hsome hitems]
  rfl

theorem foldPiece_upper {upper lower : Char} (hupper : 0x41 ≤ upper.toNat ∧ upper.toNat ≤ 0x5A)
    (hlower : lower.toNat = upper.toNat + 0x20) : foldPiece (.char upper) = foldPiece (.char lower) := by
  have hnarrow : ∀ v, v < 0x2018 → narrow v = v := fun v hv => narrow_of_narrow (by omega)
  have hletter : ∀ v, 0x41 ≤ v → v ≤ 0x7A → ¬ (0x5B ≤ v ∧ v ≤ 0x60) → isSeparator v = false := by
    intro v hlow hhigh _
    unfold isSeparator
    rw [if_pos (by omega)]
    simp only [or_eq_false_iff, and_eq_false_iff, decide_eq_false_iff_not]
    omega
  have hfold : foldChar upper = foldChar lower := by
    unfold foldChar
    rw [hnarrow _ (by omega), hnarrow _ (by omega)]
    congr 1
    unfold TranscriptNormalizer.lower
    rw [if_pos hupper, if_neg (by omega), hlower]
  rw [foldPiece_char, foldPiece_char, hnarrow _ (by omega), hnarrow _ (by omega), hletter _ (by omega) (by omega)
    (by omega), hletter _ (by omega) (by omega) (by omega), hfold]

theorem foldPiece_wide {ascii wide : Char} (hascii : 0x21 ≤ ascii.toNat ∧ ascii.toNat ≤ 0x7E)
    (hwide : wide.toNat = ascii.toNat + 0xFEE0) : foldPiece (.char ascii) = foldPiece (.char wide) := by
  have hnarrow : narrow wide.toNat = narrow ascii.toNat := by
    rw [hwide, narrow_of_narrow (v := ascii.toNat) (by omega)]
    unfold narrow
    dsimp only
    rw [if_pos (show 0xFF01 ≤ ascii.toNat + 0xFEE0 ∧ ascii.toNat + 0xFEE0 ≤ 0xFF5E by omega),
      Nat.add_sub_cancel]
    exact if_neg (by omega)
  rw [foldPiece_char, foldPiece_char, hnarrow]
  unfold foldChar
  rw [hnarrow]

theorem normalize_alike {text text' : List UInt8} (h : Alike text text') : normalize text = normalize text' := by
  induction h with
  | refl => rfl
  | symm _ ih => exact ih.symm
  | trans _ _ ih ih' => exact ih.trans ih'
  | letter front behind hupper hlower => exact normalize_replace front behind (foldPiece_upper hupper hlower)
  | width front behind hascii hwide => exact normalize_replace front behind (foldPiece_wide hascii hwide)
  | separators front behind hsome hother h =>
    rw [forall_mem_append] at h
    rw [normalize_separators front behind hsome h.1, normalize_separators front behind hother h.2]

/-! ## A normalized text -/

/-- What is said of a normalized text: no blank at its ends nor two in a row, no capital ASCII letter, no
    full-width form and no separator but the blank. -/
structure Normal (text : List UInt8) : Prop where
  first : ∀ b ∈ text.head?, b ≠ 0x20
  last : ∀ b ∈ text.getLast?, b ≠ 0x20
  single : ¬ [0x20, 0x20] <:+: text
  lower : ∀ b ∈ text, ¬ (0x41 ≤ b.toNat ∧ b.toNat ≤ 0x5A)
  narrow : ∀ c : Char, 0xFF01 ≤ c.toNat ∧ c.toNat ≤ 0xFF5E → ¬ String.utf8EncodeChar c <:+: text
  separator : ∀ c : Char, isSeparator c.toNat = true → c ≠ ' ' → ¬ String.utf8EncodeChar c <:+: text

theorem normal_bytesOf (hcanonical : Canonical pieces) (hblanks : SingleBlanks pieces)
    (hsettled : ∀ piece ∈ pieces, piece = blank ∨ Settled piece) : Normal (bytesOf pieces) := by
  have hchar : ∀ c : Char, String.utf8EncodeChar c <:+: bytesOf pieces → c = ' ' ∨ Settled (.char c) := by
    intro c hinfix
    exact (hsettled _ ((hcanonical.mem_iff c).mpr hinfix)).imp Piece.char.inj id
  have hblank : String.utf8EncodeChar ' ' = [0x20] := rfl
  refine ⟨?_, ?_, ?_, ?_, ?_, ?_⟩
  · rintro b hb rfl
    obtain ⟨behind, hbytes⟩ := List.head?_eq_some_iff.mp hb
    obtain ⟨pieces₁, pieces₂, rfl, -, hnil, -⟩ := hcanonical.split (c := ' ') (show _ = [] ++ _ ++ behind from hbytes)
    rw [bytesOf_eq_nil hnil] at hblanks
    exact hblanks.first blank rfl rfl
  · rintro b hb rfl
    obtain ⟨front, hbytes⟩ := List.getLast?_eq_some_iff.mp hb
    rw [← hblank, ← append_nil (front ++ _)] at hbytes
    obtain ⟨pieces₁, pieces₂, rfl, -, -, hnil⟩ := hcanonical.split hbytes
    rw [bytesOf_eq_nil hnil] at hblanks
    exact hblanks.last blank List.getLast?_concat rfl
  · rintro ⟨front, behind, hbytes⟩
    have hfirst : bytesOf pieces = front ++ String.utf8EncodeChar ' ' ++ (0x20 :: behind) := by
      rw [← hbytes, hblank, append_assoc, append_assoc]
      rfl
    obtain ⟨pieces₁, pieces₂, rfl, hcanonical₂, -, hsecond⟩ := hcanonical.split hfirst
    obtain ⟨pieces₃, pieces₄, rfl, -, hnil, -⟩ := hcanonical₂.split (c := ' ') (show _ = [] ++ _ ++ behind from hsecond)
    rw [bytesOf_eq_nil hnil] at hblanks
    have hpair := (isChain_append.mp hblanks.single).2.1
    exact (isChain_cons.mp hpair).1 blank rfl ⟨rfl, rfl⟩
  · rintro b hb ⟨hlow, hhigh⟩
    obtain ⟨c, hc⟩ := sequence_iff.mp (Sequence.one (a := b) (by omega))
    have hvalue : c.toNat = b.toNat := by
      rw [← valueOf_encode c, ← hc]
      rfl
    obtain ⟨front, behind, hsplit⟩ := append_of_mem hb
    have hinfix : String.utf8EncodeChar c <:+: bytesOf pieces := by
      refine ⟨front, behind, ?_⟩
      rw [hsplit, ← hc, append_assoc]
      rfl
    rcases hchar c hinfix with rfl | hc
    · have : (' ' : Char).toNat = 0x20 := rfl
      omega
    · exact hc.char.2.1 (by omega)
  · intro c hwide hinfix
    rcases hchar c hinfix with rfl | hc
    · exact absurd hwide (by decide)
    · exact hc.char.2.2 hwide
  · intro c hseparator hne hinfix
    rcases hchar c hinfix with heq | hc
    · exact hne heq
    · rw [hc.char.1] at hseparator
      cases hseparator

/-- **Normalizing is canonical**: a normalized text stays as it is, is normal, and is UTF-8 when the text is;
    and texts that are alike are one text when they are normalized. -/
theorem normalize_is_canonical (text : List UInt8) :
    normalize (normalize text) = normalize text ∧ Normal (normalize text) ∧
      (Valid text → Valid (normalize text)) ∧ ∀ text', Alike text text' → normalize text = normalize text' := by
  obtain ⟨pieces, hpieces, rfl⟩ := exists_canonical text
  have hcanonical : Canonical (normalPieces pieces) := canonical_spaced hpieces .nothing
  have hsettled : ∀ piece, some piece ∈ pieces.map foldPiece → Settled piece := fun _ => settled_of_mem
  rw [normalize_bytesOf hpieces]
  refine ⟨?_, ?_, ?_, ?_⟩
  · rw [normalize_bytesOf hcanonical]
    exact congrArg bytesOf (spaced_again hsettled).1
  · obtain ⟨hfirst, hlast, hsingle⟩ := blanks_spaced hsettled .nothing
    refine normal_bytesOf hcanonical ⟨hfirst rfl, hlast, hsingle⟩ fun piece hmem => ?_
    exact (mem_spaced hmem).imp id (hsettled piece)
  · rw [hpieces.valid_iff, hcanonical.valid_iff]
    intro hchars piece hmem
    rcases mem_spaced hmem with rfl | hitem
    · rfl
    · obtain ⟨original, horiginal, hfold⟩ := mem_map.mp hitem
      cases original with
      | byte b => exact nomatch hchars _ horiginal
      | char c =>
        rw [foldPiece_char] at hfold
        split at hfold
        · cases hfold
        · exact Option.some.inj hfold ▸ rfl
  · intro text' halike
    rw [← normalize_bytesOf hpieces]
    exact normalize_alike halike

/-- Two texts that are one. -/
theorem words_alike :
    normalize (String.utf8EncodeChar 'Ａ' ++ String.utf8EncodeChar '，' ++ String.utf8EncodeChar 'b') =
      normalize (String.utf8EncodeChar 'A' ++ String.utf8EncodeChar ' ' ++ String.utf8EncodeChar 'b') := by
  have hascii : 0x21 ≤ 'A'.toNat ∧ 'A'.toNat ≤ 0x7E := by decide
  have hwide : Alike (String.utf8EncodeChar 'A' ++ (String.utf8EncodeChar '，' ++ String.utf8EncodeChar 'b'))
      (String.utf8EncodeChar 'Ａ' ++ (String.utf8EncodeChar '，' ++ String.utf8EncodeChar 'b')) := by
    have hvalue : 'Ａ'.toNat = 'A'.toNat + 0xFEE0 := rfl
    exact .width [] (String.utf8EncodeChar '，' ++ String.utf8EncodeChar 'b') hascii hvalue
  have hfull : isSeparator (narrow '，'.toNat) = true := by decide +kernel
  have hblank : isSeparator (narrow ' '.toNat) = true := by decide +kernel
  have hseparators : ∀ c ∈ ['，'] ++ [' '], isSeparator (narrow c.toNat) = true :=
    forall_mem_cons.2 ⟨hfull, forall_mem_singleton.2 hblank⟩
  have hcomma : Alike (String.utf8EncodeChar 'A' ++ String.utf8EncodeChar '，' ++ String.utf8EncodeChar 'b')
      (String.utf8EncodeChar 'A' ++ String.utf8EncodeChar ' ' ++ String.utf8EncodeChar 'b') :=
    .separators (String.utf8EncodeChar 'A') (String.utf8EncodeChar 'b') (List.cons_ne_nil _ _)
      (List.cons_ne_nil _ _) hseparators
  exact (normalize_is_canonical _).2.2.2 _ (hwide.symm.trans hcomma)

/-- Letters outside of ASCII keep their case. -/
theorem accented_case_kept :
    normalize (String.utf8EncodeChar 'É') ≠ normalize (String.utf8EncodeChar 'é') := by
  have hnormal : ∀ c : Char, normalize (String.utf8EncodeChar c) = bytesOf (normalPieces [.char c]) := by
    intro c
    have htext : bytesOf [.char c] = String.utf8EncodeChar c := append_nil _
    rw [← htext]
    have hcanonical : Canonical [.char c] := trivial
    exact normalize_bytesOf hcanonical
  rw [hnormal, hnormal]
  decide

end Cockpit.Voice.TranscriptNormalizer
