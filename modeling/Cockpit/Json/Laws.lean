/-
  What the JSON parser accepts: a value is parsed the same way when its text goes on.
-/
import Cockpit.Json.Parser
import Cockpit.Lib.Utf8

namespace Cockpit.Json

open ByteText List Option

variable {α : Type} {p q r rest : Bytes}

/-! ## Texts that go on -/

/-- What follows does not continue the digits. -/
def EndsDigits : Bytes → Prop
  | [] => True
  | next :: _ => isDigit next = false

/-- What follows does not continue a number. -/
def Ends : Bytes → Prop
  | [] => True
  | next :: _ => isDigit next = false ∧ next ≠ 0x2E ∧ next ≠ 0x65 ∧ next ≠ 0x45

theorem Ends.digits (h : Ends q) : EndsDigits q := by
  cases q with
  | nil => trivial
  | cons next q => exact h.1

theorem skipWhitespace_append (h : skipWhitespace p ≠ []) : skipWhitespace (p ++ q) = skipWhitespace p ++ q := by
  unfold skipWhitespace at *
  rw [List.dropWhile_append, if_neg]
  rwa [List.isEmpty_iff]

theorem skipWhitespace_append_of_nil (h : skipWhitespace p = []) : skipWhitespace (p ++ q) = skipWhitespace q := by
  unfold skipWhitespace at *
  rw [List.dropWhile_append, if_pos (List.isEmpty_iff.mpr h)]

theorem skipWhitespace_cons {first : UInt8} (h : isWhitespace first = false) (rest : Bytes) :
    skipWhitespace (first :: rest) = first :: rest :=
  dropWhile_cons_of_neg (by rw [h]; exact nofun)

@[simp] theorem skipWhitespace_skipWhitespace (p : Bytes) : skipWhitespace (skipWhitespace p) = skipWhitespace p := by
  induction p with
  | nil => rfl
  | cons first rest ih =>
    by_cases h : isWhitespace first = true
    · rw [show skipWhitespace (first :: rest) = skipWhitespace rest from dropWhile_cons_of_pos h, ih]
    · rw [skipWhitespace_cons (Bool.eq_false_iff.mpr h), skipWhitespace_cons (Bool.eq_false_iff.mpr h)]

theorem length_skipWhitespace_le (p : Bytes) : (skipWhitespace p).length ≤ p.length :=
  (dropWhile_suffix _).length_le

variable {character : UInt8}

theorem consume_eq : consume character p = some r ↔ p = character :: r := by
  unfold consume
  cases p with
  | nil => simp
  | cons first rest =>
    by_cases h : first = character <;> simp [h]

theorem consume_append (h : consume character p = some r) (q : Bytes) :
    consume character (p ++ q) = some (r ++ q) := by
  rw [consume_eq] at *
  rw [h]
  rfl

theorem utf8SequenceLength_le (p : Bytes) : utf8SequenceLength p ≤ p.length := by
  unfold utf8SequenceLength
  repeat' split
  all_goals simp only [length_cons, length_nil]; omega

theorem utf8SequenceLength_append (h : utf8SequenceLength p ≠ 0) (q : Bytes) :
    utf8SequenceLength (p ++ q) = utf8SequenceLength p := by
  rcases p with _ | ⟨first, _ | ⟨second, _ | ⟨third, _ | ⟨fourth, rest⟩⟩⟩⟩
  · exact absurd rfl h
  all_goals
    simp only [utf8SequenceLength, List.cons_append, nil_append, ne_eq] at h ⊢ <;>
    split_ifs at h ⊢ <;> first | rfl | exact absurd rfl h

variable {b : UInt8}

theorem isTail_iff : isTail b = true ↔ Utf8.Tail b := by
  unfold isTail Utf8.Tail
  rw [Bool.and_eq_true, decide_eq_true_iff, decide_eq_true_iff, UInt8.le_iff_toNat_le, UInt8.le_iff_toNat_le]
  rfl

theorem utf8SequenceLength_two {a : UInt8} (hlow : 0xC2 ≤ a) (hhigh : a ≤ 0xDF) (hb : isTail b = true) (rest : Bytes) :
    utf8SequenceLength (a :: b :: rest) = 2 := by
  have hascii : ¬a ≤ 0x7F := fun h => absurd (UInt8.le_trans hlow h) (by decide)
  unfold utf8SequenceLength
  dsimp only
  rw [if_neg hascii, if_pos ⟨hlow, hhigh⟩]
  exact if_pos hb

variable {c : UInt8}

theorem utf8SequenceLength_three {a : UInt8} (hlow : 0xE0 ≤ a) (hhigh : a ≤ 0xEF) (hb : isTail b = true)
    (hc : isTail c = true) (hshort : a = 0xE0 → 0xA0 ≤ b) (hsurrogate : a = 0xED → b ≤ 0x9F) (rest : Bytes) :
    utf8SequenceLength (a :: b :: c :: rest) = 3 := by
  have hascii : ¬a ≤ 0x7F := fun h => absurd (UInt8.le_trans hlow h) (by decide)
  have htwo : ¬(0xC2 ≤ a ∧ a ≤ 0xDF) := fun h => absurd (UInt8.le_trans hlow h.2) (by decide)
  have hfirst : (a == 0xE0 && decide (b < 0xA0)) = false := by
    simp only [Bool.and_eq_false_iff, beq_eq_false_iff_ne, decide_eq_false_iff_not, UInt8.not_lt]
    exact Decidable.not_or_of_imp hshort
  have hlast : (a == 0xED && decide (0x9F < b)) = false := by
    simp only [Bool.and_eq_false_iff, beq_eq_false_iff_ne, decide_eq_false_iff_not, UInt8.not_lt]
    exact Decidable.not_or_of_imp hsurrogate
  unfold utf8SequenceLength
  dsimp only
  rw [if_neg hascii, if_neg htwo, if_pos ⟨hlow, hhigh⟩, hfirst, hlast,
    show isContinuationByte c = true from hc, show isContinuationByte b = true from hb]
  rfl

theorem utf8SequenceLength_four {a d : UInt8} (hlow : 0xF0 ≤ a) (hhigh : a ≤ 0xF4) (hb : isTail b = true)
    (hc : isTail c = true) (hd : isTail d = true) (hshort : a = 0xF0 → 0x90 ≤ b) (hmax : a = 0xF4 → b ≤ 0x8F)
    (rest : Bytes) : utf8SequenceLength (a :: b :: c :: d :: rest) = 4 := by
  have hascii : ¬a ≤ 0x7F := fun h => absurd (UInt8.le_trans hlow h) (by decide)
  have htwo : ¬(0xC2 ≤ a ∧ a ≤ 0xDF) := fun h => absurd (UInt8.le_trans hlow h.2) (by decide)
  have hthree : ¬(0xE0 ≤ a ∧ a ≤ 0xEF) := fun h => absurd (UInt8.le_trans hlow h.2) (by decide)
  have hfirst : (a == 0xF0 && decide (b < 0x90)) = false := by
    simp only [Bool.and_eq_false_iff, beq_eq_false_iff_ne, decide_eq_false_iff_not, UInt8.not_lt]
    exact Decidable.not_or_of_imp hshort
  have hlast : (a == 0xF4 && decide (0x8F < b)) = false := by
    simp only [Bool.and_eq_false_iff, beq_eq_false_iff_ne, decide_eq_false_iff_not, UInt8.not_lt]
    exact Decidable.not_or_of_imp hmax
  unfold utf8SequenceLength
  dsimp only
  rw [if_neg hascii, if_neg htwo, if_neg hthree, if_pos ⟨hlow, hhigh⟩, hfirst, hlast,
    show isContinuationByte b = true from hb, show isContinuationByte c = true from hc,
    show isContinuationByte d = true from hd]
  rfl

theorem utf8SequenceLength_of_sequence {t : Bytes} (h : Utf8.Sequence t) (q : Bytes) :
    utf8SequenceLength (t ++ q) = t.length := by
  cases h with
  | one ha => exact if_pos (UInt8.le_iff_toNat_le.mpr ha)
  | two hlow hhigh hb =>
    exact utf8SequenceLength_two (UInt8.le_iff_toNat_le.mpr hlow) (UInt8.le_iff_toNat_le.mpr hhigh)
      (isTail_iff.mpr hb) q
  | three hlow hhigh hb hc hshort hsurrogate =>
    exact utf8SequenceLength_three (UInt8.le_iff_toNat_le.mpr hlow) (UInt8.le_iff_toNat_le.mpr hhigh)
      (isTail_iff.mpr hb) (isTail_iff.mpr hc)
      (fun ha => UInt8.le_iff_toNat_le.mpr (hshort (congrArg UInt8.toNat ha)))
      (fun ha => UInt8.le_iff_toNat_le.mpr (hsurrogate (congrArg UInt8.toNat ha))) q
  | four hlow hhigh hb hc hd hshort hlast =>
    exact utf8SequenceLength_four (UInt8.le_iff_toNat_le.mpr hlow) (UInt8.le_iff_toNat_le.mpr hhigh)
      (isTail_iff.mpr hb) (isTail_iff.mpr hc) (isTail_iff.mpr hd)
      (fun ha => UInt8.le_iff_toNat_le.mpr (hshort (congrArg UInt8.toNat ha)))
      (fun ha => UInt8.le_iff_toNat_le.mpr (hlast (congrArg UInt8.toNat ha))) q

theorem sequence_take (h : utf8SequenceLength p ≠ 0) : Utf8.Sequence (p.take (utf8SequenceLength p)) := by
  cases p with
  | nil => exact absurd rfl h
  | cons first rest =>
    unfold utf8SequenceLength at h ⊢
    dsimp only at h ⊢
    split_ifs at h ⊢ with hone htwo hthree hfour
    · exact .one (UInt8.le_iff_toNat_le.mp hone)
    · rcases rest with _ | ⟨second, rest⟩
      · exact absurd rfl h
      dsimp only at h ⊢
      split_ifs at h ⊢ with hsecond
      · exact .two (UInt8.le_iff_toNat_le.mp htwo.1) (UInt8.le_iff_toNat_le.mp htwo.2)
          (isTail_iff.mp hsecond)
      · exact absurd rfl h
    · rcases rest with _ | ⟨second, _ | ⟨third, rest⟩⟩
      iterate 2 exact absurd rfl h
      dsimp only at h ⊢
      split_ifs at h ⊢ with hbad
      · exact absurd rfl h
      · simp only [Bool.or_eq_true, Bool.not_eq_true', Bool.and_eq_true, beq_iff_eq, decide_eq_true_eq,
          not_or, not_and, Bool.not_eq_false, UInt8.not_lt] at hbad
        exact .three (UInt8.le_iff_toNat_le.mp hthree.1) (UInt8.le_iff_toNat_le.mp hthree.2)
          (isTail_iff.mp hbad.1.1.2) (isTail_iff.mp hbad.1.1.1)
          (fun ha => UInt8.le_iff_toNat_le.mp (hbad.1.2 (UInt8.toNat_inj.mp ha)))
          (fun ha => UInt8.le_iff_toNat_le.mp (hbad.2 (UInt8.toNat_inj.mp ha)))
    · rcases rest with _ | ⟨second, _ | ⟨third, _ | ⟨fourth, rest⟩⟩⟩
      iterate 3 exact absurd rfl h
      dsimp only at h ⊢
      split_ifs at h ⊢ with hbad
      · exact absurd rfl h
      · simp only [Bool.or_eq_true, Bool.not_eq_true', Bool.and_eq_true, beq_iff_eq, decide_eq_true_eq,
          not_or, not_and, Bool.not_eq_false, UInt8.not_lt] at hbad
        exact .four (UInt8.le_iff_toNat_le.mp hfour.1) (UInt8.le_iff_toNat_le.mp hfour.2)
          (isTail_iff.mp hbad.1.1.1.1) (isTail_iff.mp hbad.1.1.1.2) (isTail_iff.mp hbad.1.1.2)
          (fun ha => UInt8.le_iff_toNat_le.mp (hbad.1.2 (UInt8.toNat_inj.mp ha)))
          (fun ha => UInt8.le_iff_toNat_le.mp (hbad.2 (UInt8.toNat_inj.mp ha)))
    · exact absurd rfl h

/-! ## Strings -/

variable {units : List StringUnit}

theorem parseEscape_append (h : parseEscape p = some (units, r)) (q : Bytes) :
    parseEscape (p ++ q) = some (units, r ++ q) := by
  cases p with
  | nil => cases h
  | cons escape rest =>
    rw [List.cons_append]
    unfold parseEscape at h ⊢
    dsimp only at h ⊢
    split_ifs at h ⊢
    iterate 6
      · cases h
        rfl
    · -- the four digits of a `\u` escape
      rcases rest with _ | ⟨a, _ | ⟨b, _ | ⟨c, _ | ⟨d, rest⟩⟩⟩⟩
      iterate 4 cases h
      dsimp only [List.cons_append] at h ⊢
      split_ifs at h ⊢
      cases h
      rfl

theorem parseCharacter_append (h : parseCharacter character p = some (units, r)) (q : Bytes) :
    parseCharacter character (p ++ q) = some (units, r ++ q) := by
  unfold parseCharacter at h ⊢
  dsimp only at h ⊢
  by_cases hcontrol : character < 0x20
  · rw [if_pos hcontrol] at h
    cases h
  by_cases hescape : character = 0x5C
  · rw [if_neg hcontrol, if_pos hescape] at h ⊢
    exact parseEscape_append h q
  by_cases hhigh : 0x80 ≤ character
  · rw [if_neg hcontrol, if_neg hescape, if_pos hhigh] at h ⊢
    by_cases hnone : utf8SequenceLength (character :: p) = 0
    · rw [if_pos hnone] at h
      cases h
    · have hlen := utf8SequenceLength_append hnone q
      have hle := utf8SequenceLength_le (character :: p)
      rw [List.cons_append] at hlen
      rw [if_neg hnone] at h
      rw [hlen, if_neg hnone]
      cases h
      rw [← List.cons_append, take_append_of_le_length hle, drop_append_of_le_length hle]
  · rw [if_neg hcontrol, if_neg hescape, if_neg hhigh] at h ⊢
    cases h
    rfl

variable {n : Nat}

variable {m : Nat}

theorem parseCharacters_append (h : parseCharacters n p = some (units, r)) (hnm : n ≤ m) (q : Bytes) :
    parseCharacters m (p ++ q) = some (units, r ++ q) := by
  induction n generalizing m p units with
  | zero => cases h
  | succ n ih =>
    obtain ⟨m, rfl⟩ : ∃ k, m = k + 1 := ⟨m - 1, by omega⟩
    cases p with
    | nil => cases h
    | cons character rest =>
      rw [List.cons_append]
      unfold parseCharacters at h ⊢
      by_cases hquote : character = 0x22
      · rw [if_pos hquote] at h ⊢
        cases h
        rfl
      · rw [if_neg hquote] at h ⊢
        obtain ⟨⟨unit, left⟩, hone, h⟩ := bind_eq_some_iff.mp h
        obtain ⟨⟨more, left'⟩, hmore, h⟩ := bind_eq_some_iff.mp h
        cases h
        refine bind_eq_some_iff.mpr ⟨_, parseCharacter_append hone q, ?_⟩
        exact bind_eq_some_iff.mpr ⟨_, ih hmore (by omega), rfl⟩

theorem parseString_append {text : Bytes} (h : parseString p = some (text, r)) (q : Bytes) :
    parseString (p ++ q) = some (text, r ++ q) := by
  obtain ⟨left, hquote, h⟩ := bind_eq_some_iff.mp h
  obtain ⟨⟨units, left'⟩, hunits, h⟩ := bind_eq_some_iff.mp h
  cases h
  refine bind_eq_some_iff.mpr ⟨_, consume_append hquote q, ?_⟩
  refine bind_eq_some_iff.mpr ⟨_, parseCharacters_append hunits ?_ q, rfl⟩
  rw [length_append]
  omega

/-! ## Numbers and literals -/

theorem dropWhile_isDigit_append (hq : EndsDigits q) (p : Bytes) :
    (p ++ q).dropWhile isDigit = p.dropWhile isDigit ++ q := by
  rw [List.dropWhile_append]
  split
  · rename_i h
    rw [List.isEmpty_iff.mp h, nil_append]
    cases q with
    | nil => rfl
    | cons next q => exact dropWhile_cons_of_neg (by rw [show isDigit next = false from hq]; exact nofun)
  · rfl

theorem parseDigits_append (h : parseDigits p = some r) (hq : EndsDigits q) :
    parseDigits (p ++ q) = some (r ++ q) := by
  cases p with
  | nil => cases h
  | cons first rest =>
    rw [List.cons_append]
    unfold parseDigits at h ⊢
    dsimp only at h ⊢
    split at h
    · rename_i hdigit
      cases h
      rw [if_pos hdigit, dropWhile_isDigit_append hq]
    · cases h

theorem parseInteger_append (h : parseInteger p = some r) (hq : EndsDigits q) :
    parseInteger (p ++ q) = some (r ++ q) := by
  unfold parseInteger at h ⊢
  cases hzero : consume 0x30 p with
  | some rest =>
    rw [hzero] at h
    rw [consume_append hzero]
    dsimp only at h ⊢
    split at h
    · cases h
    · rename_i hhead
      cases h
      rw [if_neg]
      cases r with
      | nil =>
        cases q with
        | nil => exact nofun
        | cons next q => simp [show isDigit next = false from hq]
      | cons next rest => exact hhead
  | none =>
    rw [hzero] at h
    dsimp only at h
    cases p with
    | nil => cases h
    | cons first rest =>
      have hnone : consume 0x30 (first :: rest ++ q) = none := by
        unfold consume at hzero
        dsimp only at hzero
        split at hzero
        · cases hzero
        · rename_i hne
          exact if_neg hne
      rw [hnone]
      exact parseDigits_append h hq

theorem parseSign_append (h : p ≠ []) (q : Bytes) : parseSign (p ++ q) = parseSign p ++ q := by
  cases p with
  | nil => exact absurd rfl h
  | cons first rest =>
    unfold parseSign consume
    dsimp only [List.cons_append]
    split <;> rfl

theorem parseFraction_append (h : parseFraction p = some r) (hq : Ends q) :
    parseFraction (p ++ q) = some (r ++ q) := by
  cases p with
  | nil =>
    cases h
    cases q with
    | nil => rfl
    | cons next q =>
      have hnone : consume 0x2E (next :: q) = none := if_neg hq.2.1
      rw [nil_append]
      unfold parseFraction
      rw [hnone]
  | cons first rest =>
    rw [List.cons_append]
    unfold parseFraction consume at h ⊢
    dsimp only at h ⊢
    by_cases hpoint : first = 0x2E
    · rw [if_pos hpoint] at h ⊢
      exact parseDigits_append h hq.digits
    · rw [if_neg hpoint] at h ⊢
      cases h
      rfl

theorem parseExponent_append (h : parseExponent p = some r) (hq : Ends q) :
    parseExponent (p ++ q) = some (r ++ q) := by
  cases p with
  | nil =>
    cases h
    cases q with
    | nil => rfl
    | cons next q => exact if_neg (by rw [not_or]; exact hq.2.2)
  | cons first rest =>
    rw [List.cons_append]
    unfold parseExponent at h ⊢
    dsimp only at h ⊢
    split_ifs at h ⊢
    · cases rest with
      | nil => cases h
      | cons sign rest =>
        rw [List.cons_append]
        unfold parseExponentSign at h ⊢
        dsimp only at h ⊢
        split_ifs at h ⊢ <;> exact parseDigits_append h hq.digits
    · cases h
      rfl

variable {v : Value}

theorem parseNumber_append (h : parseNumber p = some (v, r)) (hq : Ends q) :
    parseNumber (p ++ q) = some (v, r ++ q) := by
  have hp : p ≠ [] := by
    rintro rfl
    cases h
  obtain ⟨left, hinteger, h⟩ := bind_eq_some_iff.mp h
  obtain ⟨left', hfraction, h⟩ := bind_eq_some_iff.mp h
  obtain ⟨left'', hexponent, h⟩ := bind_eq_some_iff.mp h
  cases h
  refine bind_eq_some_iff.mpr ⟨left ++ q, ?_, ?_⟩
  · rw [parseSign_append hp]
    exact parseInteger_append hinteger hq.digits
  refine bind_eq_some_iff.mpr ⟨left' ++ q, parseFraction_append hfraction hq, ?_⟩
  refine bind_eq_some_iff.mpr ⟨r ++ q, parseExponent_append hexponent hq, ?_⟩
  rw [length_append, length_append, Nat.add_sub_add_right, take_append_of_le_length (Nat.sub_le _ _)]

theorem ne_of_isDigit (h : isDigit b = true) (hc : isDigit c = false) : b ≠ c := by
  rintro rfl
  rw [h] at hc
  cases hc

theorem isDigit_ne (hb : b = 0x2D ∨ isDigit b = true) (hminus : c ≠ 0x2D) (hdigit : isDigit c = false) : b ≠ c := by
  obtain rfl | hb := hb
  · exact hminus.symm
  · exact ne_of_isDigit hb hdigit

theorem parseLiteral_append {literal : Bytes} {value : Value} (h : parseLiteral literal value p = some (v, r))
    (q : Bytes) : parseLiteral literal value (p ++ q) = some (v, r ++ q) := by
  unfold parseLiteral at h ⊢
  split at h
  · rename_i hliteral
    rw [List.isPrefixOf_iff_prefix] at hliteral
    cases h
    rw [if_pos (List.isPrefixOf_iff_prefix.mpr (hliteral.trans (prefix_append p q))),
      drop_append_of_le_length hliteral.length_le]
  · cases h

/-! ## Arrays, objects and values -/

variable {f : Bytes → Option (α × Bytes)} {close : UInt8} {items : List α}

variable {g : Bytes → Option (α × Bytes)}

theorem parseElements_append (keeps : α → Prop) (hnil : f [] = none)
    (hfg : ∀ p item r, f p = some (item, r) → keeps item → g (p ++ q) = some (item, r ++ q))
    (h : parseElements f close n p = some (items, r)) (hnm : n ≤ m) (hkeeps : ∀ item ∈ items, keeps item) :
    parseElements g close m (p ++ q) = some (items, r ++ q) := by
  induction n generalizing m p items with
  | zero => cases h
  | succ n ih =>
    obtain ⟨m, rfl⟩ : ∃ k, m = k + 1 := ⟨m - 1, by omega⟩
    obtain ⟨⟨item, left⟩, hitem, h⟩ := bind_eq_some_iff.mp h
    dsimp only at h
    cases hnext : skipWhitespace left with
    | nil =>
      rw [hnext] at h
      cases h
    | cons next rest =>
      rw [hnext] at h
      have hskip : skipWhitespace (left ++ q) = next :: (rest ++ q) := by
        rw [skipWhitespace_append (by rw [hnext]; exact nofun), hnext]
        rfl
      dsimp only at h
      split_ifs at h with hclose hcomma
      · cases h
        refine bind_eq_some_iff.mpr ⟨_, hfg _ _ _ hitem (hkeeps item mem_cons_self), ?_⟩
        dsimp only
        rw [hskip]
        exact if_pos hclose
      · obtain ⟨⟨more, left'⟩, hmore, h⟩ := bind_eq_some_iff.mp h
        cases h
        refine bind_eq_some_iff.mpr ⟨_, hfg _ _ _ hitem (hkeeps item mem_cons_self), ?_⟩
        dsimp only
        rw [hskip]
        dsimp only
        rw [if_neg hclose, if_pos hcomma]
        have hblank : skipWhitespace rest ≠ [] := by
          intro hrest
          rw [hrest] at hmore
          cases n with
          | zero => cases hmore
          | succ n =>
            obtain ⟨_, hempty, _⟩ := bind_eq_some_iff.mp hmore
            rw [hnil] at hempty
            cases hempty
        refine bind_eq_some_iff.mpr ⟨(more, left' ++ q), ?_, rfl⟩
        rw [skipWhitespace_append hblank]
        exact ih hmore (by omega) fun item hmem => hkeeps item (mem_cons_of_mem _ hmem)

theorem parseEnclosed_append (keeps : α → Prop) (hnil : f [] = none)
    (hfg : ∀ p item r, f p = some (item, r) → keeps item → g (p ++ q) = some (item, r ++ q))
    (h : parseEnclosed f close p = some (items, r)) (hkeeps : ∀ item ∈ items, keeps item) :
    parseEnclosed g close (p ++ q) = some (items, r ++ q) := by
  unfold parseEnclosed at h ⊢
  have hblank : skipWhitespace p ≠ [] := by
    intro hp
    rw [hp] at h
    obtain ⟨_, hempty, _⟩ := bind_eq_some_iff.mp h
    rw [hnil] at hempty
    cases hempty
  rw [skipWhitespace_append hblank]
  cases hclose : consume close (skipWhitespace p) with
  | some rest =>
    rw [hclose] at h
    rw [consume_append hclose]
    cases h
    rfl
  | none =>
    rw [hclose] at h
    obtain ⟨first, rest, hfirst⟩ := exists_cons_of_ne_nil hblank
    have hnone : consume close (skipWhitespace p ++ q) = none := by
      rw [hfirst] at hclose ⊢
      unfold consume at hclose
      dsimp only at hclose
      split at hclose
      · cases hclose
      · rename_i hne
        exact if_neg hne
    rw [hnone]
    refine parseElements_append keeps hnil hfg h ?_ hkeeps
    rw [length_append]
    omega

theorem parseMember_append {f g : Bytes → Option (Value × Bytes)} (keeps : Value → Prop)
    (hfg : ∀ p v r, f p = some (v, r) → keeps v → g (p ++ q) = some (v, r ++ q)) {p r : Bytes} {key : Bytes}
    (h : parseMember f p = some ((key, v), r)) (hkeeps : keeps v) :
    parseMember g (p ++ q) = some ((key, v), r ++ q) := by
  obtain ⟨⟨key', left⟩, hkey, h⟩ := bind_eq_some_iff.mp h
  obtain ⟨left', hcolon, h⟩ := bind_eq_some_iff.mp h
  obtain ⟨⟨item, left''⟩, hitem, h⟩ := bind_eq_some_iff.mp h
  cases h
  refine bind_eq_some_iff.mpr ⟨_, parseString_append hkey q, ?_⟩
  refine bind_eq_some_iff.mpr ⟨left' ++ q, ?_, ?_⟩
  · rw [skipWhitespace_append]
    · exact consume_append hcolon q
    · intro hblank
      rw [hblank] at hcolon
      cases hcolon
  · exact bind_eq_some_iff.mpr ⟨_, hfg _ _ _ hitem hkeeps, rfl⟩

theorem depths_le {items : List Value} : depths items ≤ n ↔ ∀ item ∈ items, item.depth + 1 ≤ n := by
  induction items with
  | nil => simp [depths]
  | cons item items ih => simp only [depths, Nat.max_le, ih, forall_mem_cons]

theorem parseValue_skipWhitespace (n : Nat) (p : Bytes) : parseValue n (skipWhitespace p) = parseValue n p := by
  cases n with
  | zero => rfl
  | succ n =>
    unfold parseValue
    rw [skipWhitespace_skipWhitespace]

theorem parseValue_number (hb : b = 0x2D ∨ isDigit b = true) (text : Bytes) (levels : Nat) :
    parseValue (levels + 1) (b :: text) = parseNumber (b :: text) := by
  have hblank : isWhitespace b = false := by
    unfold isWhitespace
    rw [beq_false_of_ne (isDigit_ne hb (by decide) (by decide)),
      beq_false_of_ne (isDigit_ne hb (by decide) (by decide)),
      beq_false_of_ne (isDigit_ne hb (by decide) (by decide)),
      beq_false_of_ne (isDigit_ne hb (by decide) (by decide))]
    rfl
  unfold parseValue
  rw [skipWhitespace_cons hblank]
  dsimp only
  rw [if_neg (isDigit_ne hb (by decide) (by decide)), if_neg (isDigit_ne hb (by decide) (by decide)),
    if_neg (isDigit_ne hb (by decide) (by decide)), if_neg (isDigit_ne hb (by decide) (by decide)),
    if_neg (isDigit_ne hb (by decide) (by decide)), if_neg (isDigit_ne hb (by decide) (by decide))]

/-- **A value is parsed the same way when its text goes on, at every depth that its nesting allows.** -/
theorem parseValue_append (h : parseValue n p = some (v, r)) (hdepth : v.depth < m) (hq : Ends q) :
    parseValue m (p ++ q) = some (v, r ++ q) := by
  induction n generalizing m p r v with
  | zero => cases h
  | succ n ih =>
    obtain ⟨m, rfl⟩ : ∃ k, m = k + 1 := ⟨m - 1, by omega⟩
    unfold parseValue at h ⊢
    cases hp : skipWhitespace p with
    | nil =>
      rw [hp] at h
      cases h
    | cons first rest =>
      rw [skipWhitespace_append (by rw [hp]; exact nofun), hp, List.cons_append]
      rw [hp] at h
      dsimp only at h ⊢
      have hnil : parseValue n [] = none := by cases n <;> rfl
      split_ifs at h ⊢
      · obtain ⟨⟨members, left⟩, hmembers, h⟩ := bind_eq_some_iff.mp h
        cases h
        refine bind_eq_some_iff.mpr ⟨_, parseEnclosed_append
          (fun member => member.2.depth < m) rfl ?_ hmembers ?_, rfl⟩
        · rintro p ⟨key, v⟩ r hmember hv
          exact parseMember_append (fun v => v.depth < m) (fun p v r h hv => ih h hv) hmember hv
        · intro member hmem
          have := depths_le.mp (Nat.le_of_lt_succ hdepth) member.2 (mem_map_of_mem hmem)
          omega
      · obtain ⟨⟨items, left⟩, hitems, h⟩ := bind_eq_some_iff.mp h
        cases h
        refine bind_eq_some_iff.mpr ⟨_, parseEnclosed_append
          (fun v => v.depth < m) hnil (fun p v r h hv => ih h hv) hitems ?_, rfl⟩
        intro item hmem
        have := depths_le.mp (Nat.le_of_lt_succ hdepth) item hmem
        omega
      · obtain ⟨⟨text, left⟩, htext, h⟩ := bind_eq_some_iff.mp h
        cases h
        exact bind_eq_some_iff.mpr ⟨_, parseString_append htext q, rfl⟩
      · exact parseLiteral_append h q
      · exact parseLiteral_append h q
      · exact parseLiteral_append h q
      · exact parseNumber_append h hq

/-! ## The depth that is needed -/

/-! ## The bound of the loops -/

theorem length_parseEscape_lt (h : parseEscape p = some (units, r)) : r.length < p.length := by
  cases p with
  | nil => cases h
  | cons escape rest =>
    unfold parseEscape at h
    dsimp only at h
    split_ifs at h
    iterate 6
      · cases h
        exact Nat.lt_succ_self _
    · rcases rest with _ | ⟨a, _ | ⟨b, _ | ⟨c, _ | ⟨d, rest⟩⟩⟩⟩
      iterate 4 cases h
      dsimp only at h
      split_ifs at h
      cases h
      simp only [length_cons]
      omega

theorem length_parseCharacter_le (h : parseCharacter character p = some (units, r)) : r.length ≤ p.length := by
  unfold parseCharacter at h
  dsimp only at h
  split_ifs at h with _ _ _ hnone
  · exact Nat.le_of_lt (length_parseEscape_lt h)
  · cases h
    rw [length_drop, length_cons]
    omega
  · cases h
    exact Nat.le_refl _

theorem length_parseCharacters_lt (h : parseCharacters n p = some (units, r)) : r.length < p.length := by
  induction n generalizing p units with
  | zero => cases h
  | succ n ih =>
    cases p with
    | nil => cases h
    | cons character rest =>
      unfold parseCharacters at h
      split_ifs at h
      · cases h
        exact Nat.lt_succ_self _
      · obtain ⟨⟨unit, left⟩, hone, h⟩ := bind_eq_some_iff.mp h
        obtain ⟨⟨more, left'⟩, hmore, h⟩ := bind_eq_some_iff.mp h
        cases h
        have hle := length_parseCharacter_le hone
        have hlt := ih hmore
        rw [length_cons]
        omega

theorem length_parseString_lt {text : Bytes} (h : parseString p = some (text, r)) : r.length < p.length := by
  obtain ⟨left, hquote, h⟩ := bind_eq_some_iff.mp h
  obtain ⟨⟨units, left'⟩, hunits, h⟩ := bind_eq_some_iff.mp h
  cases h
  have hlt := length_parseCharacters_lt hunits
  rw [consume_eq] at hquote
  rw [hquote, length_cons]
  omega

theorem length_parseDigits_lt (h : parseDigits p = some r) : r.length < p.length := by
  cases p with
  | nil => cases h
  | cons first rest =>
    unfold parseDigits at h
    dsimp only at h
    split at h
    · cases h
      exact Nat.lt_succ_of_le (dropWhile_suffix _).length_le
    · cases h

theorem length_parseNumber_lt (h : parseNumber p = some (v, r)) : r.length < p.length := by
  obtain ⟨left, hinteger, h⟩ := bind_eq_some_iff.mp h
  obtain ⟨left', hfraction, h⟩ := bind_eq_some_iff.mp h
  obtain ⟨left'', hexponent, h⟩ := bind_eq_some_iff.mp h
  cases h
  have hsign : (parseSign p).length ≤ p.length := by
    unfold parseSign
    cases hc : consume 0x2D p with
    | none => exact Nat.le_refl _
    | some rest =>
      rw [consume_eq.mp hc]
      exact Nat.le_succ _
  have hleft : left.length < (parseSign p).length := by
    unfold parseInteger at hinteger
    split at hinteger
    · rename_i rest hc
      split at hinteger
      · cases hinteger
      · cases hinteger
        rw [consume_eq.mp hc]
        exact Nat.lt_succ_self _
    · exact length_parseDigits_lt hinteger
  have hleft' : left'.length ≤ left.length := by
    unfold parseFraction at hfraction
    split at hfraction
    · rename_i rest hc
      have := length_parseDigits_lt hfraction
      rw [consume_eq.mp hc, length_cons]
      omega
    · cases hfraction
      exact Nat.le_refl _
  have hleft'' : r.length ≤ left'.length := by
    unfold parseExponent parseExponentSign at hexponent
    split at hexponent
    · split at hexponent
      · have := length_parseDigits_lt hexponent
        rw [length_cons]
        split at this
        · split at this
          · rw [length_cons]
            omega
          · omega
        · omega
      · cases hexponent
        exact Nat.le_refl _
    · cases hexponent
      exact Nat.le_refl _
  omega

section

variable (hf : ∀ p item r, f p = some (item, r) → r.length < p.length)
include hf

theorem length_parseElements_lt (h : parseElements f close n p = some (items, r)) : r.length < p.length := by
  induction n generalizing p items with
  | zero => cases h
  | succ n ih =>
    obtain ⟨⟨item, left⟩, hitem, h⟩ := bind_eq_some_iff.mp h
    have hlt := hf _ _ _ hitem
    have hskip := length_skipWhitespace_le left
    dsimp only at h
    split at h
    · cases h
    · rename_i next rest hnext
      rw [hnext, length_cons] at hskip
      split_ifs at h
      · cases h
        omega
      · obtain ⟨⟨more, left'⟩, hmore, h⟩ := bind_eq_some_iff.mp h
        cases h
        have hmore := ih hmore
        have := length_skipWhitespace_le rest
        omega

theorem parseElements_rounds (hn : p.length < n)
    (hm : p.length < m) : parseElements f close n p = parseElements f close m p := by
  induction n generalizing m p with
  | zero => omega
  | succ n ih =>
    obtain ⟨m, rfl⟩ : ∃ k, m = k + 1 := ⟨m - 1, by omega⟩
    unfold parseElements
    cases hitem : f p with
    | none => rfl
    | some found =>
      have hlt := hf _ _ _ hitem
      have hskip := length_skipWhitespace_le found.2
      dsimp only [bind_eq_bind, bind_some]
      cases hnext : skipWhitespace found.2 with
      | nil => rfl
      | cons next rest =>
        rw [hnext, length_cons] at hskip
        have := length_skipWhitespace_le rest
        dsimp only
        rw [ih (by omega : (skipWhitespace rest).length < n) (by omega : (skipWhitespace rest).length < m)]

theorem length_parseEnclosed_lt (h : parseEnclosed f close p = some (items, r)) : r.length < p.length := by
  have hskip := length_skipWhitespace_le p
  unfold parseEnclosed at h
  split at h
  · rename_i rest hc
    cases h
    rw [consume_eq.mp hc, length_cons] at hskip
    omega
  · have := length_parseElements_lt hf h
    omega

end

theorem length_parseMember_lt {f : Bytes → Option (Value × Bytes)}
    (hf : ∀ p v r, f p = some (v, r) → r.length < p.length) {member : Bytes × Value}
    (h : parseMember f p = some (member, r)) : r.length < p.length := by
  obtain ⟨⟨key, left⟩, hkey, h⟩ := bind_eq_some_iff.mp h
  obtain ⟨left', hcolon, h⟩ := bind_eq_some_iff.mp h
  obtain ⟨⟨item, left''⟩, hitem, h⟩ := bind_eq_some_iff.mp h
  cases h
  have hlt := length_parseString_lt hkey
  have hlt' := hf _ _ _ hitem
  have hle := length_skipWhitespace_le left
  rw [consume_eq.mp hcolon, length_cons] at hle
  omega

theorem length_parseValue_lt (h : parseValue n p = some (v, r)) : r.length < p.length := by
  induction n generalizing p r v with
  | zero => cases h
  | succ n ih =>
    have hskip := length_skipWhitespace_le p
    have hliteral {literal : Bytes} {value : Value} {p' : Bytes} (hne : literal ≠ [])
        (h : parseLiteral literal value p' = some (v, r)) : r.length < p'.length := by
      unfold parseLiteral at h
      split at h
      · rename_i hprefix
        have hle := (List.isPrefixOf_iff_prefix.mp hprefix).length_le
        have hpos := length_pos_iff.mpr hne
        cases h
        rw [length_drop]
        omega
      · cases h
    unfold parseValue at h
    cases hp : skipWhitespace p with
    | nil =>
      rw [hp] at h
      cases h
    | cons first rest =>
      rw [hp] at h hskip
      refine Nat.lt_of_lt_of_le ?_ hskip
      dsimp only at h
      split_ifs at h
      · obtain ⟨⟨members, left⟩, hmembers, h⟩ := bind_eq_some_iff.mp h
        cases h
        exact Nat.lt_succ_of_lt
          (length_parseEnclosed_lt (fun p member r => length_parseMember_lt fun p v r => ih) hmembers)
      · obtain ⟨⟨items, left⟩, hitems, h⟩ := bind_eq_some_iff.mp h
        cases h
        exact Nat.lt_succ_of_lt (length_parseEnclosed_lt (fun p v r h => ih h) hitems)
      · obtain ⟨⟨text, left⟩, htext, h⟩ := bind_eq_some_iff.mp h
        cases h
        exact length_parseString_lt htext
      · exact hliteral (by decide) h
      · exact hliteral (by decide) h
      · exact hliteral (by decide) h
      · exact length_parseNumber_lt h

end Cockpit.Json
