/-
  `EscapeString` for any bytes, well-formed or not: the text between quotes is a string of the RFC, and
  different bytes have different texts.
-/
import Cockpit.Json.Validation
import Cockpit.Json.Writing
import Cockpit.Lib.Utf8Text

namespace Cockpit.Json

open Abnf ByteText Computability List

/-! ## One round -/

/-- What is escaped by a letter. -/
def shortEscapes : List (UInt8 × UInt8) :=
  [(0x5C, 0x5C), (0x22, 0x22), (0x08, 0x62), (0x0C, 0x66), (0x0A, 0x6E), (0x0D, 0x72), (0x09, 0x74)]

/-- **What a round puts out**, and what it leaves of the text. -/
theorem escapeCharacter_cases (character : UInt8) (rest : Bytes) :
    (∃ escape, (character, escape) ∈ shortEscapes ∧ escapeCharacter character rest = ([0x5C, escape], rest)) ∨
    ((character < 0x20 ∨ utf8SequenceLength (character :: rest) = 0) ∧
      escapeCharacter character rest = (escapeByte character, rest)) ∨
    ∃ t r, t ∈ Grammar.unescaped ∧ character :: rest = t ++ r ∧ escapeCharacter character rest = (t, r) := by
  by_cases hshort : character ∈ [0x5C, 0x22, 0x08, 0x0C, 0x0A, 0x0D, 0x09]
  · left
    simp only [mem_cons, not_mem_nil, or_false] at hshort
    rcases hshort with rfl | rfl | rfl | rfl | rfl | rfl | rfl
    · exact ⟨0x5C, by decide, rfl⟩
    · exact ⟨0x22, by decide, rfl⟩
    · exact ⟨0x62, by decide, rfl⟩
    · exact ⟨0x66, by decide, rfl⟩
    · exact ⟨0x6E, by decide, rfl⟩
    · exact ⟨0x72, by decide, rfl⟩
    · exact ⟨0x74, by decide, rfl⟩
  right
  simp only [mem_cons, not_mem_nil, or_false, not_or] at hshort
  obtain ⟨h1, h2, h3, h4, h5, h6, h7⟩ := hshort
  unfold escapeCharacter
  rw [if_neg h1, if_neg h2, if_neg h3, if_neg h4, if_neg h5, if_neg h6, if_neg h7]
  by_cases hcontrol : character < 0x20
  · rw [if_pos hcontrol]
    exact .inl ⟨.inl hcontrol, rfl⟩
  rw [if_neg hcontrol]
  by_cases hhigh : 0x80 ≤ character
  · rw [if_pos hhigh]
    dsimp only
    by_cases hnone : utf8SequenceLength (character :: rest) = 0
    · rw [if_pos hnone]
      exact .inl ⟨.inr hnone, rfl⟩
    · rw [if_neg hnone]
      right
      refine ⟨_, _, Grammar.mem_unescaped.mpr (.inr ⟨?_, sequence_take hnone⟩), (take_append_drop _ _).symm, rfl⟩
      obtain ⟨n, hn⟩ := Nat.exists_eq_succ_of_ne_zero hnone
      rw [hn]
      exact ⟨character, rest.take n, rfl, hhigh⟩
  · rw [if_neg hhigh]
    right
    refine ⟨[character], rest, Grammar.mem_unescaped.mpr (.inl ⟨character, rfl, ?_, ?_, h2, h1⟩), rfl, rfl⟩
    · exact UInt8.not_lt.mp hcontrol
    · exact UInt8.not_le.mp hhigh

theorem escapeString_induction {P : Bytes → Bytes → Prop} (hnil : P [] [])
    (hround : ∀ character rest text, P (escapeCharacter character rest).2 text →
      P (character :: rest) ((escapeCharacter character rest).1 ++ text)) (text : Bytes) :
    P text (escapeString text) := by
  have hloop : ∀ n, ∀ text : Bytes, text.length ≤ n → P text (escapeLoop n text) := by
    intro n
    induction n with
    | zero =>
      intro text hn
      obtain rfl := length_eq_zero_iff.mp (Nat.le_zero.mp hn)
      exact hnil
    | succ n ih =>
      intro text hn
      cases text with
      | nil => exact hnil
      | cons character rest =>
        refine hround character rest _ (ih _ ?_)
        have hrest : (escapeCharacter character rest).2.length ≤ rest.length := by
          rcases escapeCharacter_cases character rest with ⟨_, _, heq⟩ | ⟨_, heq⟩ | ⟨t, r, ht, hsplit, heq⟩
          · rw [heq]
          · rw [heq]
          · rw [heq]
            have hlen := congrArg List.length hsplit
            have hpos : t ≠ [] := by
              rcases Grammar.mem_unescaped.mp ht with ⟨b, rfl, _⟩ | ⟨⟨a, u, rfl, _⟩, _⟩ <;>
                exact cons_ne_nil _ _
            have := length_pos_iff.mpr hpos
            rw [length_cons, length_append] at hlen
            show r.length ≤ rest.length
            omega
        rw [length_cons] at hn
        omega
  exact hloop _ text (Nat.le_refl _)

/-! ## The text is a string -/

theorem hexDigit_spec (character : UInt8) :
    isHexDigit (hexDigit (character >>> 4)) = true ∧ isHexDigit (hexDigit (character &&& 0x0F)) = true ∧
      UInt8.ofNat (hexValue (hexDigit (character >>> 4)) * 16 + hexValue (hexDigit (character &&& 0x0F))) =
        character := by
  revert character
  refine Utf8.forall_byte ?_
  decide +kernel

theorem escapeByte_eq (character : UInt8) :
    escapeByte character = [0x5C, 0x75, 0x30, 0x30, hexDigit (character >>> 4), hexDigit (character &&& 0x0F)] := rfl

theorem escapeCharacter_mem (character : UInt8) (rest : Bytes) :
    (escapeCharacter character rest).1 ∈ Grammar.char := by
  rcases escapeCharacter_cases character rest with ⟨escape, hescape, heq⟩ | ⟨_, heq⟩ | ⟨t, r, ht, _, heq⟩
  · rw [heq]
    refine .inr (Grammar.mem_escaped.mpr (.inl ⟨escape, ?_, rfl⟩))
    have hall : ∀ pair ∈ shortEscapes, pair.2 ∈ ([0x22, 0x5C, 0x2F, 0x62, 0x66, 0x6E, 0x72, 0x74] : Bytes) := by
      rw [← forall_iff_forall_mem]
      decide
    exact hall _ hescape
  · rw [heq, escapeByte_eq]
    obtain ⟨hhigh, hlow, _⟩ := hexDigit_spec character
    exact .inr (Grammar.mem_escaped.mpr (.inr ⟨_, _, _, _, rfl, by decide, by decide, hhigh, hlow⟩))
  · rw [heq]
    exact .inl ht

/-- **What `EscapeString` puts out are characters** of a JSON string. -/
theorem escapeString_mem (text : Bytes) : escapeString text ∈ Grammar.char∗ := by
  refine escapeString_induction (P := fun _ text => text ∈ Grammar.char∗) (Language.nil_mem_kstar _) ?_ text
  intro character rest text htext
  exact append_mem_kstar (escapeCharacter_mem character rest) htext

variable {t : Bytes}

theorem isValidValue_string (h : t ∈ Grammar.string) : Parser.isValidValue t = .ok none := by
  have htext : t ∈ Grammar.text kMaximumDepth := by
    have hvalue : t ∈ Grammar.value (kMaximumDepth + 1) := .inr h
    have hmem := Language.append_mem_mul (Language.append_mem_mul Grammar.nil_mem_ws hvalue) Grammar.nil_mem_ws
    rw [nil_append, append_nil] at hmem
    exact hmem
  rcases Parser.isValidValue_correct t with ⟨_, hacc⟩ | ⟨hnot, _⟩
  · exact hacc
  · exact absurd htext hnot

theorem bytes_of_unescaped (h : t ∈ Grammar.unescaped) : ∀ b ∈ t, 0x20 ≤ b ∧ b ≠ 0x22 ∧ b ≠ 0x5C := by
  intro b hb
  rcases Grammar.mem_unescaped.mp h with ⟨a, rfl, hlow, _, hquote, hbackslash⟩ | ⟨⟨a, u, heq, ha⟩, hseq⟩
  · obtain rfl := mem_singleton.mp hb
    exact ⟨hlow, hquote, hbackslash⟩
  · rcases hseq.ascii_or_high with ⟨a', heq', ha'⟩ | ⟨_, hall⟩
    · rw [heq] at heq'
      obtain ⟨rfl, rfl⟩ := cons_eq_cons.mp heq'
      rw [UInt8.le_iff_toNat_le] at ha
      exact absurd ha (Nat.not_le.mpr (Nat.lt_succ_of_le ha'))
    · have hhigh := hall b hb
      refine ⟨UInt8.le_iff_toNat_le.mpr (Nat.le_trans (by decide) hhigh), ?_, ?_⟩
      all_goals
        rintro rfl
        exact absurd hhigh (by decide)

theorem le_of_mem_char (h : t ∈ Grammar.char) : ∀ b ∈ t, 0x20 ≤ b := by
  have hhex : ∀ {b : UInt8}, isHexDigit b = true → 0x20 ≤ b := by
    intro b
    unfold isHexDigit
    simp only [Bool.or_eq_true, Bool.and_eq_true, decide_eq_true_eq, UInt8.le_iff_toNat_le, UInt8.reduceToNat]
    omega
  rcases h with hplain | hescaped
  · exact fun b hb => (bytes_of_unescaped hplain b hb).1
  · rcases Grammar.mem_escaped.mp hescaped with ⟨e, he, rfl⟩ | ⟨a, b, c, d, rfl, ha, hb, hc, hd⟩
    · have hall : ∀ e ∈ ([0x22, 0x5C, 0x2F, 0x62, 0x66, 0x6E, 0x72, 0x74] : Bytes), 0x20 ≤ e := by
        rw [← forall_iff_forall_mem]
        decide
      intro b hb
      rcases mem_pair.mp hb with rfl | rfl
      · decide
      · exact hall _ he
    · intro x hx
      simp only [mem_cons, not_mem_nil, or_false] at hx
      rcases hx with rfl | rfl | rfl | rfl | rfl | rfl
      · decide
      · decide
      · exact hhex ha
      · exact hhex hb
      · exact hhex hc
      · exact hhex hd

theorem le_of_mem_chars (h : t ∈ Grammar.char∗) : ∀ b ∈ t, 0x20 ≤ b := by
  refine kstar_induction (P := fun t : Bytes => ∀ b ∈ t, 0x20 ≤ b) (fun b hb => nomatch hb) ?_ t h
  intro t ht u _ ih b hb
  rcases mem_append.mp hb with hb | hb
  · exact le_of_mem_char ht b hb
  · exact ih b hb

/-! ## The bytes again -/

def unescapeShort (escape : UInt8) : UInt8 := ((shortEscapes.find? (·.2 = escape)).map Prod.fst).getD escape

/-- `\u00` escapes as bytes; the decoders of JSON do not, they take `\u0080` as a character. -/
def unescapeBytes : Bytes → Bytes
  | [] => []
  | [byte] => [byte]
  | first :: escape :: rest =>
    if first ≠ 0x5C then first :: unescapeBytes (escape :: rest)
    else if escape ≠ 0x75 then unescapeShort escape :: unescapeBytes rest
    else
      match rest with
      | _ :: _ :: high :: low :: rest => UInt8.ofNat (hexValue high * 16 + hexValue low) :: unescapeBytes rest
      | _ => []

theorem unescapeBytes_cons {byte : UInt8} (h : byte ≠ 0x5C) (rest : Bytes) :
    unescapeBytes (byte :: rest) = byte :: unescapeBytes rest := by
  cases rest with
  | nil => rfl
  | cons escape rest =>
    rw [unescapeBytes.eq_def]
    exact if_pos h

theorem unescapeBytes_plain (h : ∀ b ∈ t, b ≠ 0x5C) (rest : Bytes) :
    unescapeBytes (t ++ rest) = t ++ unescapeBytes rest := by
  induction t with
  | nil => rfl
  | cons b t ih =>
    rw [cons_append, unescapeBytes_cons (h b mem_cons_self), ih fun b hb => h b (mem_cons_of_mem _ hb)]
    rfl

/-- **The bytes of a text are in what is put out for it.** -/
theorem unescapeBytes_escape (text : Bytes) : unescapeBytes (escapeString text) = text := by
  refine escapeString_induction (P := fun text output => unescapeBytes output = text) rfl ?_ text
  intro character rest output ih
  rcases escapeCharacter_cases character rest with ⟨escape, hescape, heq⟩ | ⟨_, heq⟩ | ⟨t, r, ht, hsplit, heq⟩ <;>
    rw [heq] at ih ⊢
  · have hall : ∀ pair ∈ shortEscapes, pair.2 ≠ 0x75 ∧ unescapeShort pair.2 = pair.1 := by
      rw [← forall_iff_forall_mem]
      decide
    obtain ⟨hne, hshort⟩ := hall _ hescape
    show unescapeBytes (0x5C :: escape :: output) = character :: rest
    rw [unescapeBytes.eq_def]
    dsimp only
    rw [if_neg (by decide), if_pos hne, hshort, ih]
  · rw [escapeByte_eq]
    show UInt8.ofNat _ :: unescapeBytes output = character :: rest
    rw [(hexDigit_spec character).2.2, ih]
  · rw [hsplit, unescapeBytes_plain fun b hb => (bytes_of_unescaped ht b hb).2.2, ih]

/-- **The escaping of any bytes**: between quotes they are a JSON value without a control character, and
    different bytes are different texts. -/
theorem escapeString_correct :
    (∀ text, Parser.isValidValue (quoted text) = .ok none ∧ ∀ b ∈ quoted text, 0x20 ≤ b) ∧
      Function.Injective escapeString := by
  refine ⟨fun text => ⟨?_, ?_⟩, ?_⟩
  · exact isValidValue_string (Grammar.mem_string.mpr ⟨_, escapeString_mem text, rfl⟩)
  · intro b hb
    rcases mem_cons.mp hb with rfl | hb
    · decide
    · rcases mem_append.mp hb with hb | hb
      · exact le_of_mem_chars (escapeString_mem text) b hb
      · rw [mem_singleton.mp hb]
        decide
  · intro text text' heq
    rw [← unescapeBytes_escape text, heq, unescapeBytes_escape]

/-- A sequence that is cut off is put out byte by byte. -/
example : escapeString [0xE2, 0x82] = ascii "\\u00E2\\u0082" ∧
    escapeString [0xE2, 0x82, 0xAC] = [0xE2, 0x82, 0xAC] := by decide

end Cockpit.Json
