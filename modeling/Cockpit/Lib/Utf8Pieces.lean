/-
  Bytes as characters and what is left. Whether a byte begins a character is decided by the bytes up to the next
  character, since a character never begins with a byte that may continue one.
-/
import Cockpit.Lib.Utf8Text

namespace Utf8

open List

/-- A character, or a byte that begins none. -/
inductive Piece where
  | char (c : Char)
  | byte (b : UInt8)
  deriving DecidableEq

namespace Piece

def bytes : Piece → List UInt8
  | .char c => String.utf8EncodeChar c
  | .byte b => [b]

def isByte : Piece → Bool
  | .char _ => false
  | .byte _ => true

theorem bytes_ne_nil (piece : Piece) : piece.bytes ≠ [] := by
  cases piece with
  | char c => exact length_pos_iff.mp (String.length_utf8EncodeChar c ▸ Char.utf8Size_pos c)
  | byte b => exact cons_ne_nil b []

end Piece

def bytesOf (pieces : List Piece) : List UInt8 := pieces.flatMap Piece.bytes

/-- A character stands at the front. -/
def BeginsChar (text : List UInt8) : Prop := ∃ t, Sequence t ∧ t <+: text

/-- The pieces are what a reader makes of their bytes. -/
def Canonical : List Piece → Prop
  | [] => True
  | .char _ :: pieces => Canonical pieces
  | .byte b :: pieces => ¬ BeginsChar (b :: bytesOf pieces) ∧ Canonical pieces

variable {pieces pieces' : List Piece} {text behind t : List UInt8} {b : UInt8}

/-! ## Where characters begin -/

theorem Sequence.ne_nil (h : Sequence t) : t ≠ [] := by
  cases h <;> exact cons_ne_nil _ _

theorem Sequence.tail (h : Sequence t) : ∀ b ∈ t.tail, Tail b := by
  cases h with
  | one => exact fun _ hmem => (nomatch hmem)
  | two _ _ hb =>
    rw [tail_cons, forall_mem_singleton]
    exact hb
  | three _ _ hb hc =>
    rw [tail_cons, forall_mem_cons, forall_mem_singleton]
    exact ⟨hb, hc⟩
  | four _ _ hb hc hd =>
    rw [tail_cons, forall_mem_cons, forall_mem_cons, forall_mem_singleton]
    exact ⟨hb, hc, hd⟩

theorem Sequence.not_tail_head (h : Sequence t) : ∀ b ∈ t.head?, ¬ Tail b := by
  intro b hb htail
  unfold Tail at htail
  cases h <;> obtain rfl := Option.some.inj hb <;> omega

theorem Sequence.length_tail {s : List UInt8} (h : Sequence (b :: s)) :
    (b.toNat ≤ 0x7F ∧ s.length = 0) ∨ (0xC2 ≤ b.toNat ∧ b.toNat ≤ 0xDF ∧ s.length = 1) ∨
      (0xE0 ≤ b.toNat ∧ b.toNat ≤ 0xEF ∧ s.length = 2) ∨ (0xF0 ≤ b.toNat ∧ s.length = 3) := by
  cases h with
  | one ha => exact .inl ⟨ha, rfl⟩
  | two hlow hhigh => exact .inr (.inl ⟨hlow, hhigh, rfl⟩)
  | three hlow hhigh => exact .inr (.inr (.inl ⟨hlow, hhigh, rfl⟩))
  | four hlow => exact .inr (.inr (.inr ⟨hlow, rfl⟩))

theorem encode_injective {c c' : Char} (h : String.utf8EncodeChar c = String.utf8EncodeChar c') : c = c' := by
  have hdecode := ByteArray.utf8DecodeChar?_utf8EncodeChar_append (b := .empty) (c := c)
  rw [h, ByteArray.utf8DecodeChar?_utf8EncodeChar_append] at hdecode
  exact (Option.some.inj hdecode).symm

theorem Sequence.prefix_unique {t' : List UInt8} (h : Sequence t) (h' : Sequence t') (ht : t <+: text)
    (ht' : t' <+: text) : t = t' := by
  have hlen : t.length = t'.length := by
    obtain ⟨a, s, rfl⟩ := exists_cons_of_ne_nil h.ne_nil
    obtain ⟨a', s', rfl⟩ := exists_cons_of_ne_nil h'.ne_nil
    obtain ⟨more, rfl⟩ := ht
    obtain ⟨more', heq⟩ := ht'
    obtain ⟨rfl, -⟩ := cons_eq_cons.mp heq
    have hs := h.length_tail
    have hs' := h'.length_tail
    rw [length_cons, length_cons]
    omega
  exact (prefix_of_prefix_length_le ht ht' (Nat.le_of_eq hlen)).eq_of_length hlen

theorem beginsChar_append (hne : text ≠ []) (hbehind : ∀ b ∈ behind.head?, ¬ Tail b) :
    BeginsChar (text ++ behind) ↔ BeginsChar text := by
  constructor <;> rintro ⟨t, ht, hprefix⟩
  · refine ⟨t, ht, ?_⟩
    rcases prefix_or_prefix_of_prefix hprefix (prefix_append text behind) with hin | ⟨more, hmore⟩
    · exact hin
    · rw [← hmore, prefix_append_right_inj] at hprefix
      cases more with
      | nil =>
        rw [append_nil] at hmore
        exact hmore ▸ prefix_refl text
      | cons b more =>
        -- the first byte behind the text would be inside the character
        obtain ⟨rest, hrest⟩ := hprefix
        have htail : Tail b := by
          refine ht.tail b ?_
          rw [← hmore, tail_append_of_ne_nil hne]
          exact mem_append_right _ mem_cons_self
        rw [← hrest] at hbehind
        exact absurd htail (hbehind b rfl)
  · exact ⟨t, ht, hprefix.trans (prefix_append text behind)⟩

theorem head_bytesOf_dropWhile (pieces : List Piece) :
    ∀ b ∈ (bytesOf (pieces.dropWhile Piece.isByte)).head?, ¬ Tail b := by
  intro b hb
  induction pieces with
  | nil => cases hb
  | cons piece pieces ih =>
    cases piece with
    | byte b' => exact ih hb
    | char c =>
      have hseq := sequence_encode c
      rw [dropWhile_cons_of_neg Bool.false_ne_true] at hb
      unfold bytesOf at hb
      rw [flatMap_cons, List.head?_append_of_ne_nil _ (Piece.bytes_ne_nil _)] at hb
      exact hseq.not_tail_head b hb

/-- **Whether a byte begins a character is decided by the bytes up to the next character.** -/
theorem beginsChar_iff (b : UInt8) (pieces : List Piece) :
    BeginsChar (b :: bytesOf pieces) ↔ BeginsChar (b :: bytesOf (pieces.takeWhile Piece.isByte)) := by
  have hsplit : b :: bytesOf pieces = (b :: bytesOf (pieces.takeWhile Piece.isByte)) ++
      bytesOf (pieces.dropWhile Piece.isByte) := by
    unfold bytesOf
    rw [cons_append, ← flatMap_append, takeWhile_append_dropWhile]
  rw [hsplit]
  exact beginsChar_append (cons_ne_nil _ _) (head_bytesOf_dropWhile pieces)

/-! ## Pieces -/

theorem bytesOf_append (pieces pieces' : List Piece) :
    bytesOf (pieces ++ pieces') = bytesOf pieces ++ bytesOf pieces' := flatMap_append

/-- Every text has such pieces. -/
theorem exists_canonical (text : List UInt8) : ∃ pieces, Canonical pieces ∧ bytesOf pieces = text := by
  induction h : text.length using Nat.strongRecOn generalizing text with
  | _ n ih =>
    by_cases hchar : BeginsChar text
    · obtain ⟨t, ht, rest, rfl⟩ := hchar
      obtain ⟨c, rfl⟩ := sequence_iff.mp ht
      have hshort : rest.length < n := by
        have hpos := length_pos_iff.mpr ht.ne_nil
        rw [← h, length_append]
        omega
      obtain ⟨pieces, hpieces, hbytes⟩ := ih rest.length hshort rest rfl
      exact ⟨.char c :: pieces, hpieces, by rw [← hbytes]; rfl⟩
    · cases text with
      | nil => exact ⟨[], trivial, rfl⟩
      | cons b rest =>
        have hshort : rest.length < n := by
          rw [← h, length_cons]
          omega
        obtain ⟨pieces, hpieces, hbytes⟩ := ih rest.length hshort rest rfl
        refine ⟨.byte b :: pieces, ⟨?_, hpieces⟩, ?_⟩
        · rw [hbytes]
          exact hchar
        · rw [← hbytes]
          rfl

/-- It has only these. -/
theorem Canonical.unique (h : Canonical pieces) (h' : Canonical pieces') (heq : bytesOf pieces = bytesOf pieces') :
    pieces = pieces' := by
  induction pieces generalizing pieces' with
  | nil =>
    cases pieces' with
    | nil => rfl
    | cons piece' pieces' =>
      exact absurd (append_eq_nil_iff.mp heq.symm).1 (Piece.bytes_ne_nil piece')
  | cons piece pieces ih =>
    cases pieces' with
    | nil => exact absurd (append_eq_nil_iff.mp heq).1 (Piece.bytes_ne_nil piece)
    | cons piece' pieces' =>
      cases piece with
      | char c =>
        have hc := sequence_encode c
        cases piece' with
        | char c' =>
          have hsame := hc.prefix_unique (sequence_encode c') ⟨bytesOf pieces, rfl⟩
            ⟨bytesOf pieces', heq.symm⟩
          have hrest : String.utf8EncodeChar c ++ bytesOf pieces =
            String.utf8EncodeChar c' ++ bytesOf pieces' := heq
          rw [hsame, append_cancel_left_eq] at hrest
          have hpieces : pieces = pieces' := @ih pieces' h h' hrest
          rw [hpieces, encode_injective hsame]
        | byte b' => exact absurd ⟨_, hc, bytesOf pieces, heq⟩ h'.1
      | byte b =>
        cases piece' with
        | char c' => exact absurd ⟨_, sequence_encode c', bytesOf pieces', heq.symm⟩ h.1
        | byte b' =>
          obtain ⟨rfl, hrest⟩ := cons_eq_cons.mp heq
          rw [ih h.2 h'.2 hrest]

/-- **Pieces are cut at the characters.** -/
theorem canonical_append_char (pieces : List Piece) (c : Char) (pieces' : List Piece) :
    Canonical (pieces ++ .char c :: pieces') ↔ Canonical pieces ∧ Canonical pieces' := by
  induction pieces with
  | nil => exact ⟨fun h => ⟨trivial, h⟩, fun h => h.2⟩
  | cons piece pieces ih =>
    cases piece with
    | char c' => exact ih
    | byte b =>
      have hsame : BeginsChar (b :: bytesOf (pieces ++ .char c :: pieces')) ↔
          BeginsChar (b :: bytesOf pieces) := by
        have htake : (pieces ++ Piece.char c :: pieces').takeWhile Piece.isByte =
            pieces.takeWhile Piece.isByte := by
          rw [takeWhile_append]
          split
          case isTrue hall =>
            rw [takeWhile_cons_of_neg Bool.false_ne_true, append_nil]
            exact ((List.takeWhile_prefix _).eq_of_length hall).symm
          case isFalse => rfl
        rw [beginsChar_iff, htake, ← beginsChar_iff]
      show ¬ BeginsChar (b :: bytesOf (pieces ++ .char c :: pieces')) ∧
        Canonical (pieces ++ .char c :: pieces') ↔ (¬ BeginsChar _ ∧ Canonical pieces) ∧ _
      rw [hsame, ih, and_assoc]

theorem bytesOf_eq_nil (h : bytesOf pieces = []) : pieces = [] := by
  cases pieces with
  | nil => rfl
  | cons piece pieces => exact absurd (append_eq_nil_iff.mp h).1 (Piece.bytes_ne_nil piece)

theorem Canonical.split (h : Canonical pieces) {front behind : List UInt8} {c : Char}
    (heq : bytesOf pieces = front ++ String.utf8EncodeChar c ++ behind) :
    ∃ pieces₁ pieces₂, pieces = pieces₁ ++ .char c :: pieces₂ ∧ Canonical pieces₂ ∧
      bytesOf pieces₁ = front ∧ bytesOf pieces₂ = behind := by
  obtain ⟨pieces₁, h₁, rfl⟩ := exists_canonical front
  obtain ⟨pieces₂, h₂, rfl⟩ := exists_canonical behind
  refine ⟨pieces₁, pieces₂, ?_, h₂, rfl, rfl⟩
  refine h.unique ((canonical_append_char _ _ _).mpr ⟨h₁, h₂⟩) ?_
  rw [bytesOf_append, heq, append_assoc]
  rfl

/-- A character is a piece where its bytes are found. -/
theorem Canonical.mem_iff (h : Canonical pieces) (c : Char) :
    .char c ∈ pieces ↔ String.utf8EncodeChar c <:+: bytesOf pieces := by
  constructor
  · intro hmem
    obtain ⟨front, behind, rfl⟩ := append_of_mem hmem
    refine ⟨bytesOf front, bytesOf behind, ?_⟩
    rw [bytesOf_append, append_assoc]
    rfl
  · rintro ⟨front, behind, hbytes⟩
    obtain ⟨pieces₁, pieces₂, rfl, -⟩ := h.split hbytes.symm
    exact mem_append_right _ mem_cons_self

theorem canonical_chars (chars : List Char) : Canonical (chars.map .char) := by
  induction chars with
  | nil => trivial
  | cons c chars ih => exact ih

theorem bytesOf_chars (chars : List Char) : bytesOf (chars.map .char) = chars.flatMap String.utf8EncodeChar := by
  unfold bytesOf
  rw [flatMap_map]
  rfl

/-- Text in UTF-8 has no other bytes. -/
theorem Canonical.valid_iff (h : Canonical pieces) :
    Valid (bytesOf pieces) ↔ ∀ piece ∈ pieces, piece.isByte = false := by
  constructor
  · rintro ⟨chars, hchars⟩ piece hmem
    rw [← bytesOf_chars] at hchars
    rw [h.unique (canonical_chars chars) hchars] at hmem
    obtain ⟨c, -, rfl⟩ := mem_map.mp hmem
    rfl
  · intro hchars
    refine valid_flatMap fun piece hmem => ?_
    cases piece with
    | char c => exact (sequence_encode c).valid
    | byte b => exact nomatch hchars _ hmem

/-! ## UTF-8 from its beginning -/

theorem Valid.beginsChar (h : Valid text) (hne : text ≠ []) : BeginsChar text := by
  obtain ⟨chars, rfl⟩ := h
  cases chars with
  | nil => exact absurd rfl hne
  | cons c chars => exact ⟨_, sequence_encode c, chars.flatMap String.utf8EncodeChar, rfl⟩

theorem valid_encode_append {c : Char} : Valid (String.utf8EncodeChar c ++ text) ↔ Valid text := by
  constructor
  · intro h
    obtain ⟨chars, hchars⟩ := h
    cases chars with
    | nil => exact absurd (append_eq_nil_iff.mp hchars).1 (sequence_encode c).ne_nil
    | cons c' chars =>
      rw [flatMap_cons] at hchars
      have heq := (sequence_encode c).prefix_unique (sequence_encode c') ⟨_, rfl⟩ ⟨_, hchars.symm⟩
      rw [heq] at hchars
      exact ⟨chars, append_cancel_left hchars⟩
  · exact (sequence_encode c).valid.append

end Utf8
