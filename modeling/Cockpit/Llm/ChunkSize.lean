/-
  The size line of a chunk: what `chunkSize` accepts are the lines of the protocol with a number below 2 ^ 64,
  and the same lines with something skipped before their digits.
-/
import Mathlib.Data.List.TakeWhile
import Cockpit.Lib.Utf8Text
import Cockpit.Llm.HttpBody

namespace Cockpit.Llm

open ByteText List
open Cockpit.Json (isHexDigit hexValue)
open Cockpit.Voice (isSpace)

/-! ## The grammar -/

/-- Without a bound. -/
def hexNumber (digits : Bytes) : Nat := digits.foldl (fun n digit => 16 * n + hexValue digit) 0

def HexDigits (text : Bytes) : Prop := text ≠ [] ∧ ∀ digit ∈ text, isHexDigit digit = true

/-- Behind a `;`. -/
def Extension (text : Bytes) : Prop := text = [] ∨ ∃ behind, text = 0x3B :: behind

/-- The protocol's line. -/
def SizeLine (line : Bytes) (size : Nat) : Prop :=
  ∃ digits extension, line = digits ++ extension ∧ HexDigits digits ∧ Extension extension ∧
    size = hexNumber digits

/-- What `stoull` skips, more than the protocol lets stand there. -/
def Skipped (text : Bytes) : Prop :=
  ∃ blanks sign base, text = blanks ++ sign ++ base ∧ (∀ blank ∈ blanks, isSpace blank = true) ∧
    (sign = [] ∨ sign = ascii "+" ∨ sign = ascii "-") ∧
    (base = [] ∨ base = ascii "0x" ∨ base = ascii "0X")

/-- A line with something skipped. -/
def Decorated (line : Bytes) : Prop :=
  ∃ skipped rest size, line = skipped ++ rest ∧ skipped ≠ [] ∧ Skipped skipped ∧ SizeLine rest size ∧
    size < 2 ^ 64

variable {line digits extension skipped rest text behind : Bytes} {size : Nat}

/-! ## The bytes -/

theorem hexDigit_spec {digit : UInt8} (h : isHexDigit digit = true) :
    isSpace digit = false ∧ digit ≠ 0x2B ∧ digit ≠ 0x2D ∧ digit ≠ 0x3B ∧ digit ≠ 0x78 ∧ digit ≠ 0x58 := by
  revert h digit
  exact fun {digit} => Utf8.forall_byte (P := fun digit => isHexDigit digit = true → isSpace digit = false ∧
    digit ≠ 0x2B ∧ digit ≠ 0x2D ∧ digit ≠ 0x3B ∧ digit ≠ 0x78 ∧ digit ≠ 0x58) (by decide +kernel) digit

theorem space_spec {blank : UInt8} (h : isSpace blank = true) : blank ≠ 0x3B := by
  rintro rfl
  exact absurd h (by decide)

theorem takeWhile_hexDigits (h : ∀ digit ∈ digits, isHexDigit digit = true) :
    digits.takeWhile isHexDigit = digits ∧ digits.dropWhile isHexDigit = [] := by
  have htake : digits.takeWhile isHexDigit = digits := takeWhile_eq_self_iff.mpr h
  have hall := takeWhile_append_dropWhile (p := isHexDigit) (l := digits)
  rw [htake] at hall
  exact ⟨htake, append_right_eq_self.mp hall⟩

/-! ## The number -/

theorem hexDigits_sound (h : hexDigits text = (digits, rest)) :
    (∀ digit ∈ digits, isHexDigit digit = true) ∧
      ∃ base, text = base ++ digits ++ rest ∧ (base = [] ∨ base = ascii "0x" ∨ base = ascii "0X") := by
  have hplain : (text.takeWhile isHexDigit, text.dropWhile isHexDigit) = (digits, rest) →
      (∀ digit ∈ digits, isHexDigit digit = true) ∧
        ∃ base, text = base ++ digits ++ rest ∧ (base = [] ∨ base = ascii "0x" ∨ base = ascii "0X") := by
    intro heq
    cases heq
    refine ⟨fun digit hdigit => mem_takeWhile_imp hdigit, [], ?_, Or.inl rfl⟩
    rw [nil_append, takeWhile_append_dropWhile]
  unfold hexDigits at h
  split at h
  case h_1 zero x digit more =>
    split at h
    case isTrue hbase =>
      obtain ⟨rfl, hx, hdigit⟩ := hbase
      cases h
      refine ⟨?_, [0x30, x], ?_, ?_⟩
      · intro d hd
        rcases mem_cons.mp hd with rfl | hd
        · exact hdigit
        · exact mem_takeWhile_imp hd
      · simp only [cons_append, nil_append, takeWhile_append_dropWhile]
      · rcases hx with rfl | rfl
        · exact Or.inr (Or.inl rfl)
        · exact Or.inr (Or.inr rfl)
    case isFalse => exact hplain h
  case h_2 => exact hplain h

theorem hexDigits_complete {base : Bytes} (hbase : base = [] ∨ base = ascii "0x" ∨ base = ascii "0X")
    (h : HexDigits digits) : hexDigits (base ++ digits) = (digits, []) := by
  obtain ⟨hne, hall⟩ := h
  obtain ⟨hself, hnil⟩ := takeWhile_hexDigits hall
  rcases hbase with rfl | hx
  · rw [nil_append]
    unfold hexDigits
    split
    case h_1 zero x digit more =>
      -- the second byte is a digit, so it is no `x`
      have hx := hexDigit_spec (hall x (by simp))
      rw [if_neg (by rintro ⟨_, h | h, _⟩ <;> simp_all), hself, hnil]
    case h_2 => rw [hself, hnil]
  · obtain ⟨digit, more, rfl⟩ := exists_cons_of_ne_nil hne
    have hdigit := hall digit mem_cons_self
    obtain ⟨hself, hnil⟩ := takeWhile_hexDigits fun d hd => hall d (mem_cons_of_mem digit hd)
    have hnum : ∀ x : UInt8, x = 0x78 ∨ x = 0x58 →
        hexDigits ([0x30, x] ++ digit :: more) = (digit :: more, []) := by
      intro x hx
      show (if _ then _ else _) = _
      rw [if_pos ⟨rfl, hx, hdigit⟩, hself, hnil]
    rcases hx with rfl | rfl
    · exact hnum 0x78 (Or.inl rfl)
    · exact hnum 0x58 (Or.inr rfl)

theorem stoull_signed {sign more : Bytes} (hsign : sign = [] ∨ sign = ascii "+" ∨ sign = ascii "-")
    (hhead : sign = [] → more.head? ≠ some 0x2D ∧ more.head? ≠ some 0x2B)
    (htext : text.dropWhile isSpace = sign ++ more) :
    stoull text =
      if (hexDigits more).1 = [] ∨ 2 ^ 64 ≤ hexNumber (hexDigits more).1 then none
      else some (if sign = ascii "-" then (2 ^ 64 - hexNumber (hexDigits more).1) % 2 ^ 64
        else hexNumber (hexDigits more).1, (hexDigits more).2) := by
  unfold stoull
  rw [htext]
  rcases hsign with rfl | rfl | rfl
  · obtain ⟨hminus, hplus⟩ := hhead rfl
    have hplain : ([] : Bytes) ≠ ascii "-" := nofun
    dsimp only
    rw [nil_append, if_neg hminus, if_neg (not_or.mpr ⟨hminus, hplus⟩), if_neg hplain]
    rfl
  · rfl
  · rfl

/-- What `stoull` reads are digits, behind what it skips. -/
theorem stoull_sound (h : stoull text = some (size, rest)) :
    ∃ skipped digits, text = skipped ++ digits ++ rest ∧ Skipped skipped ∧ HexDigits digits ∧
      hexNumber digits < 2 ^ 64 := by
  obtain ⟨sign, more, hsign, hhead, htext⟩ : ∃ sign more,
      (sign = [] ∨ sign = ascii "+" ∨ sign = ascii "-") ∧
        (sign = [] → more.head? ≠ some 0x2D ∧ more.head? ≠ some 0x2B) ∧
        text.dropWhile isSpace = sign ++ more := by
    by_cases hsigned : (text.dropWhile isSpace).head? = some 0x2D ∨
        (text.dropWhile isSpace).head? = some 0x2B
    · rcases hsigned with hminus | hplus
      · obtain ⟨more, hmore⟩ := List.head?_eq_some_iff.mp hminus
        exact ⟨ascii "-", more, Or.inr (Or.inr rfl), nofun, hmore⟩
      · obtain ⟨more, hmore⟩ := List.head?_eq_some_iff.mp hplus
        exact ⟨ascii "+", more, Or.inr (Or.inl rfl), nofun, hmore⟩
    · exact ⟨[], _, Or.inl rfl, fun _ => not_or.mp hsigned, rfl⟩
  rw [stoull_signed hsign hhead htext] at h
  split at h
  case isTrue => cases h
  case isFalse hdigits =>
    obtain ⟨hne, hlt⟩ := not_or.mp hdigits
    rw [Option.some.injEq, Prod.mk.injEq] at h
    have hscan : hexDigits more = ((hexDigits more).1, (hexDigits more).2) := rfl
    obtain ⟨hall, base, hmore, hbase⟩ := hexDigits_sound hscan
    refine ⟨text.takeWhile isSpace ++ sign ++ base, (hexDigits more).1, ?_,
      ⟨text.takeWhile isSpace, sign, base, rfl, fun blank hblank => mem_takeWhile_imp hblank, hsign,
        hbase⟩, ⟨hne, hall⟩, Nat.lt_of_not_le hlt⟩
    rw [← h.2]
    calc text = text.takeWhile isSpace ++ text.dropWhile isSpace := takeWhile_append_dropWhile.symm
      _ = text.takeWhile isSpace ++ (sign ++ (base ++ (hexDigits more).1 ++ (hexDigits more).2)) := by
        rw [htext, ← hmore]
      _ = _ := by simp only [append_assoc]

/-- Such digits are read, if their number has 64 bits. -/
theorem stoull_complete (hskipped : Skipped skipped) (h : HexDigits digits) :
    (2 ^ 64 ≤ hexNumber digits → stoull (skipped ++ digits) = none) ∧
      (hexNumber digits < 2 ^ 64 → ∃ size, stoull (skipped ++ digits) = some (size, []) ∧
        (skipped = [] → size = hexNumber digits)) := by
  obtain ⟨blanks, sign, base, rfl, hblanks, hsign, hbase⟩ := hskipped
  obtain ⟨digit, more, rfl⟩ := exists_cons_of_ne_nil h.1
  obtain ⟨hspace, hplus, hminus, _⟩ := hexDigit_spec (h.2 digit mem_cons_self)
  have hhead : sign = [] → (base ++ digit :: more).head? ≠ some 0x2D ∧
      (base ++ digit :: more).head? ≠ some 0x2B := by
    intro _
    rcases hbase with rfl | rfl | rfl
    · exact ⟨fun h => hminus (Option.some.inj h), fun h => hplus (Option.some.inj h)⟩
    all_goals
      show some 0x30 ≠ some 0x2D ∧ some 0x30 ≠ some 0x2B
      exact ⟨by decide, by decide⟩
  have htext : (blanks ++ sign ++ base ++ digit :: more).dropWhile isSpace =
      sign ++ (base ++ digit :: more) := by
    rw [append_assoc, append_assoc, dropWhile_append_of_pos hblanks]
    rcases hsign with rfl | rfl | rfl
    · rcases hbase with rfl | rfl | rfl
      · show (digit :: more).dropWhile isSpace = digit :: more
        rw [dropWhile_cons, hspace]
        rfl
      · rfl
      · rfl
    · rfl
    · rfl
  rw [stoull_signed hsign hhead htext, hexDigits_complete hbase h]
  dsimp only
  constructor
  · intro hle
    rw [if_pos (Or.inr hle)]
  · intro hlt
    refine ⟨_, by rw [if_neg (not_or.mpr ⟨h.1, Nat.not_le.mpr hlt⟩)], ?_⟩
    intro hnil
    obtain ⟨hnil, _⟩ := append_eq_nil_iff.mp hnil
    obtain ⟨_, rfl⟩ := append_eq_nil_iff.mp hnil
    rw [if_neg (by decide)]

/-! ## The size line -/

theorem takeWhile_extension (hskipped : Skipped skipped) (h : HexDigits digits) (hextension : Extension extension) :
    (skipped ++ digits ++ extension).takeWhile (· ≠ 0x3B) = skipped ++ digits := by
  have hbefore : ∀ b ∈ skipped ++ digits, decide (b ≠ 0x3B) = true := by
    intro b hb
    rw [decide_eq_true_eq]
    rcases mem_append.mp hb with hb | hb
    · obtain ⟨blanks, sign, base, rfl, hblanks, hsign, hbase⟩ := hskipped
      rcases mem_append.mp hb with hb | hb
      · rcases mem_append.mp hb with hb | hb
        · exact space_spec (hblanks b hb)
        · rintro rfl
          rcases hsign with rfl | rfl | rfl <;> exact absurd hb (by decide)
      · rintro rfl
        rcases hbase with rfl | rfl | rfl <;> exact absurd hb (by decide)
    · exact (hexDigit_spec (h.2 b hb)).2.2.2.1
  rw [takeWhile_append_of_pos hbefore]
  rcases hextension with rfl | ⟨behind, rfl⟩
  · rw [takeWhile_nil, append_nil]
  · rw [takeWhile_cons, if_neg (by decide), append_nil]

theorem Skipped.nil : Skipped [] :=
  ⟨[], [], [], rfl, fun _ h => (nomatch h), Or.inl rfl, Or.inl rfl⟩

theorem chunkSize_skipped (hskipped : Skipped skipped) (h : SizeLine rest size) (hlt : size < 2 ^ 64) :
    ∃ n, chunkSize (skipped ++ rest) = some n ∧ (skipped = [] → n = size) := by
  obtain ⟨digits, extension, rfl, hdigits, hextension, rfl⟩ := h
  obtain ⟨n, hn, hsame⟩ := (stoull_complete hskipped hdigits).2 hlt
  refine ⟨n, ?_, hsame⟩
  unfold chunkSize
  rw [← append_assoc, takeWhile_extension hskipped hdigits hextension, hn]

/-- **A line of the protocol is read as the number that it gives.** -/
theorem chunkSize_sizeLine (h : SizeLine line size) (hlt : size < 2 ^ 64) : chunkSize line = some size := by
  obtain ⟨n, hn, hsame⟩ := chunkSize_skipped .nil h hlt
  rw [hsame rfl] at hn
  exact hn

/-- **What is accepted**: the lines of the protocol with a number below 2 ^ 64, and the decorated ones. -/
theorem chunkSize_isSome_iff (line : Bytes) :
    (∃ n, chunkSize line = some n) ↔ (∃ size < 2 ^ 64, SizeLine line size) ∨ Decorated line := by
  constructor
  · rintro ⟨n, hn⟩
    unfold chunkSize at hn
    split at hn
    case h_1 size hread =>
      obtain ⟨skipped, digits, hline, hskipped, hdigits, hlt⟩ := stoull_sound hread
      have hextension : Extension (line.dropWhile (· ≠ 0x3B)) := by
        cases hrest : line.dropWhile (· ≠ 0x3B) with
        | nil => exact Or.inl rfl
        | cons b behind =>
          have hstops := List.head?_dropWhile_not (fun b : UInt8 => decide (b ≠ 0x3B)) line
          rw [hrest] at hstops
          have hb : b = 0x3B := by simpa using hstops
          exact Or.inr ⟨behind, by rw [hb]⟩
      have hall : line = skipped ++ (digits ++ line.dropWhile (· ≠ 0x3B)) := by
        rw [← append_assoc, ← append_nil (skipped ++ digits), ← hline, takeWhile_append_dropWhile]
      have hsize : SizeLine (digits ++ line.dropWhile (· ≠ 0x3B)) (hexNumber digits) :=
        ⟨digits, _, rfl, hdigits, hextension, rfl⟩
      by_cases hnil : skipped = []
      · rw [hnil, nil_append] at hall
        rw [← hall] at hsize
        exact Or.inl ⟨_, hlt, hsize⟩
      · exact Or.inr ⟨skipped, _, _, hall, hnil, hskipped, hsize, hlt⟩
    case h_2 => cases hn
  · rintro (⟨size, hlt, hsize⟩ | ⟨skipped, rest, size, rfl, _, hskipped, hsize, hlt⟩)
    · exact ⟨size, chunkSize_sizeLine hsize hlt⟩
    · obtain ⟨n, hn, _⟩ := chunkSize_skipped hskipped hsize hlt
      exact ⟨n, hn⟩

theorem digits_eq {digits' extension' : Bytes} (hskipped : Skipped skipped) (h : HexDigits digits)
    (hextension : Extension extension) (h' : HexDigits digits') (hextension' : Extension extension')
    (hline : digits' ++ extension' = skipped ++ (digits ++ extension)) : digits' = skipped ++ digits := by
  have hleft := takeWhile_extension .nil h' hextension'
  have hright := takeWhile_extension hskipped h hextension
  rw [nil_append] at hleft
  rw [append_assoc, ← hline] at hright
  exact hleft.symm.trans hright

theorem SizeLine.unique {size' : Nat} (h : SizeLine line size) (h' : SizeLine line size') : size = size' := by
  obtain ⟨digits, extension, rfl, hdigits, hextension, rfl⟩ := h
  obtain ⟨digits', extension', hline, hdigits', hextension', rfl⟩ := h'
  have hsame := digits_eq .nil hdigits' hextension' hdigits hextension hline
  rw [hsame, nil_append]

theorem Decorated.not_sizeLine (h : Decorated line) : ¬ SizeLine line size := by
  rintro ⟨digits', extension', hline, hdigits', hextension', _⟩
  obtain ⟨skipped, rest, _, rfl, hne, hskipped, ⟨digits, extension, rfl, hdigits, hextension, _⟩, _⟩ := h
  have hsame := digits_eq hskipped hdigits hextension hdigits' hextension' hline.symm
  have hall : ∀ b ∈ skipped, isHexDigit b = true := by
    intro b hb
    refine hdigits'.2 b ?_
    rw [hsame]
    exact mem_append_left digits hb
  obtain ⟨blanks, sign, base, rfl, hblanks, hsign, hbase⟩ := hskipped
  simp only [mem_append] at hall
  have hnoblanks : blanks = [] := by
    refine eq_nil_iff_forall_not_mem.mpr fun b hb => ?_
    have hspace := hblanks b hb
    rw [(hexDigit_spec (hall b (Or.inl (Or.inl hb)))).1] at hspace
    cases hspace
  rcases hsign with rfl | rfl | rfl
  · rcases hbase with rfl | rfl | rfl
    · exact hne (by rw [hnoblanks]; rfl)
    · exact absurd (hall 0x78 (Or.inr (by decide))) (by decide)
    · exact absurd (hall 0x58 (Or.inr (by decide))) (by decide)
  · exact absurd (hall 0x2B (Or.inl (Or.inr (by decide)))) (by decide)
  · exact absurd (hall 0x2D (Or.inl (Or.inr (by decide)))) (by decide)

end Cockpit.Llm
