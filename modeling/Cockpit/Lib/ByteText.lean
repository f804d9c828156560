/-
  Text as bytes: ASCII literals, decimal numerals, the lines of a file, and UTF-8.
-/
import Mathlib.Data.List.Basic

namespace ByteText

open List

abbrev Bytes := List UInt8

def ascii (s : String) : Bytes := s.toList.map Char.toUInt8

def newline : UInt8 := 0x0A

/-! ## Decimal numerals -/

def isDigit (b : UInt8) : Bool := 0x30 ≤ b && b ≤ 0x39

def digit (n : Nat) : UInt8 := UInt8.ofNat (0x30 + n)

def natNumeral (n : Nat) : Bytes := (Nat.toDigits 10 n).map Char.toUInt8

def intNumeral (n : Int) : Bytes := if n < 0 then 0x2D :: natNumeral n.natAbs else natNumeral n.natAbs

/-- The value of a numeral. -/
def ofDigits (text : Bytes) : Nat := text.foldl (fun n b => 10 * n + (b.toNat - 0x30)) 0

def ofNumeral : Bytes → Int
  | [] => 0
  | b :: text => if b = 0x2D then -(ofDigits text : Int) else ofDigits (b :: text)

variable {n : Nat}

theorem digit_spec (h : n < 10) :
    (Nat.digitChar n).toUInt8 = digit n ∧ isDigit (digit n) = true ∧ (digit n).toNat - 0x30 = n ∧
      (digit n = 0x30 → n = 0) := by
  decide +revert

theorem natNumeral_of_lt (h : n < 10) : natNumeral n = [digit n] := by
  unfold natNumeral
  rw [Nat.toDigits_of_lt_base h, map_singleton, (digit_spec h).1]

theorem natNumeral_of_ge (h : 10 ≤ n) : natNumeral n = natNumeral (n / 10) ++ [digit (n % 10)] := by
  unfold natNumeral
  rw [Nat.toDigits_of_base_le (by omega) h, map_append, map_singleton,
    (digit_spec (Nat.mod_lt n (by omega))).1]

theorem isDigit_of_mem_natNumeral : ∀ b ∈ natNumeral n, isDigit b = true := by
  induction n using Nat.strongRecOn with
  | _ n ih =>
    intro b hb
    rcases Nat.lt_or_ge n 10 with h | h
    · rw [natNumeral_of_lt h, mem_singleton] at hb
      rw [hb]
      exact (digit_spec h).2.1
    · rw [natNumeral_of_ge h, mem_append, mem_singleton] at hb
      obtain hb | rfl := hb
      · exact ih (n / 10) (by omega) b hb
      · exact (digit_spec (Nat.mod_lt n (by omega))).2.1

theorem natNumeral_eq_cons (n : Nat) : ∃ b text, natNumeral n = b :: text ∧ (b = 0x30 → text = []) := by
  induction n using Nat.strongRecOn with
  | _ n ih =>
    rcases Nat.lt_or_ge n 10 with h | h
    · exact ⟨digit n, [], natNumeral_of_lt h, fun _ => rfl⟩
    · obtain ⟨b, text, heq, hzero⟩ := ih (n / 10) (by omega)
      refine ⟨b, text ++ [digit (n % 10)], by rw [natNumeral_of_ge h, heq]; rfl, fun hb => ?_⟩
      -- the leading digit of a number that is not zero is not zero
      have hone : natNumeral (n / 10) = [digit 0] := by rw [heq, hzero hb, hb]; rfl
      have hten : n / 10 < 10 := by
        by_contra hge
        rw [natNumeral_of_ge (by omega)] at hone
        have hlen := congrArg List.length hone
        obtain ⟨b', text', heq', -⟩ := ih (n / 10 / 10) (by omega)
        rw [heq'] at hlen
        simp at hlen
      rw [natNumeral_of_lt hten] at hone
      have := (digit_spec hten).2.2.2 (List.singleton_inj.mp hone)
      omega

theorem ofDigits_snoc (text : Bytes) (b : UInt8) :
    ofDigits (text ++ [b]) = 10 * ofDigits text + (b.toNat - 0x30) := by
  unfold ofDigits
  rw [foldl_append]
  rfl

theorem ofDigits_natNumeral (n : Nat) : ofDigits (natNumeral n) = n := by
  induction n using Nat.strongRecOn with
  | _ n ih =>
    rcases Nat.lt_or_ge n 10 with h | h
    · rw [natNumeral_of_lt h]
      show 10 * 0 + ((digit n).toNat - 0x30) = n
      rw [(digit_spec h).2.2.1]
      omega
    · rw [natNumeral_of_ge h, ofDigits_snoc, ih (n / 10) (by omega),
        (digit_spec (Nat.mod_lt n (by omega))).2.2.1]
      omega

theorem ofNumeral_intNumeral (n : Int) : ofNumeral (intNumeral n) = n := by
  obtain ⟨b, text, heq, -⟩ := natNumeral_eq_cons n.natAbs
  have hvalue := ofDigits_natNumeral n.natAbs
  unfold intNumeral
  split
  · show -(ofDigits (natNumeral n.natAbs) : Int) = n
    rw [hvalue]
    omega
  · have hdigit := isDigit_of_mem_natNumeral b (by rw [heq]; exact mem_cons_self)
    have hminus : b ≠ 0x2D := by
      rintro rfl
      exact absurd hdigit (by decide)
    rw [heq] at hvalue ⊢
    show (if b = 0x2D then -(ofDigits text : Int) else ofDigits (b :: text)) = n
    rw [if_neg hminus, hvalue]
    omega

/-! ## Lines -/

/-- As `getline` reads them: what stands after the last newline is a line only when there is something. -/
def lines : Bytes → List Bytes
  | [] => []
  | b :: rest =>
    if b = newline then [] :: lines rest
    else match lines rest with
      | [] => [[b]]
      | line :: more => (b :: line) :: more

theorem lines_ne_nil {b : UInt8} {rest : Bytes} : lines (b :: rest) ≠ [] := by
  unfold lines
  split
  · exact nofun
  · split <;> exact nofun

theorem lines_append (text rest : Bytes) :
    lines (text ++ newline :: rest) = lines (text ++ [newline]) ++ lines rest := by
  induction text with
  | nil => rfl
  | cons b text ih =>
    rw [cons_append, cons_append, lines, lines, ih]
    split
    · rfl
    · cases htext : lines (text ++ [newline]) with
      | nil =>
        cases text with
        | nil | cons b' text' => exact absurd htext lines_ne_nil
      | cons line more => rfl

theorem lines_snoc_newline {text : Bytes} (h : newline ∉ text) : lines (text ++ [newline]) = [text] := by
  induction text with
  | nil => rfl
  | cons b text ih =>
    rw [mem_cons, not_or] at h
    rw [cons_append, lines, if_neg fun heq => h.1 heq.symm, ih h.2]

theorem lines_flatMap (texts : List Bytes) :
    lines (texts.flatMap (· ++ [newline])) = texts.flatMap fun text => lines (text ++ [newline]) := by
  induction texts with
  | nil => rfl
  | cons text texts ih =>
    rw [flatMap_cons, flatMap_cons, ← ih, append_assoc]
    exact lines_append text _

/-! ## UTF-8 -/

/-- A byte behind the first of a sequence. -/
def isTail (b : UInt8) : Bool := 0x80 ≤ b && b ≤ 0xBF

/-- Well-formed UTF-8: the shortest form of each code point, without the surrogates, up to U+10FFFF. -/
inductive WellFormed : Bytes → Prop where
  | nil : WellFormed []
  | one {a : UInt8} {rest : Bytes} (ha : a ≤ 0x7F) (h : WellFormed rest) : WellFormed (a :: rest)
  | two {a b : UInt8} {rest : Bytes} (hlow : 0xC2 ≤ a) (hhigh : a ≤ 0xDF) (hb : isTail b = true)
      (h : WellFormed rest) : WellFormed (a :: b :: rest)
  | three {a b c : UInt8} {rest : Bytes} (hlow : 0xE0 ≤ a) (hhigh : a ≤ 0xEF) (hb : isTail b = true)
      (hc : isTail c = true) (hshort : a = 0xE0 → 0xA0 ≤ b) (hsurrogate : a = 0xED → b ≤ 0x9F)
      (h : WellFormed rest) : WellFormed (a :: b :: c :: rest)
  | four {a b c d : UInt8} {rest : Bytes} (hlow : 0xF0 ≤ a) (hhigh : a ≤ 0xF4) (hb : isTail b = true)
      (hc : isTail c = true) (hd : isTail d = true) (hshort : a = 0xF0 → 0x90 ≤ b)
      (hlast : a = 0xF4 → b ≤ 0x8F) (h : WellFormed rest) : WellFormed (a :: b :: c :: d :: rest)

theorem WellFormed.of_ascii {text : Bytes} (h : ∀ b ∈ text, b ≤ 0x7F) : WellFormed text := by
  induction text with
  | nil => exact .nil
  | cons b text ih =>
    exact .one (h b mem_cons_self) (ih fun b hb => h b (mem_cons_of_mem _ hb))

end ByteText
