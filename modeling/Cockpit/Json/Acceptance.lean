/-
  The parser accepts the JSON texts of RFC 8259. What a function takes is a text of its rule (`…_sound`), and a
  text of the rule is taken whole, whatever follows it (`…_complete`).

  The blanks around a bracket belong to the array in the grammar, but the parser leaves those at the end to its
  caller.
-/
import Cockpit.Json.Grammar

namespace Cockpit.Json.Grammar

open Abnf ByteText Computability List

variable {p q r t : Bytes}

/-! ## Strings -/

variable {units : List StringUnit}

theorem parseEscape_sound (h : parseEscape p = some (units, r)) : ∃ t, 0x5C :: t ∈ escaped ∧ p = t ++ r := by
  cases p with
  | nil => cases h
  | cons escape rest =>
    have hone : ∀ b ∈ [0x22, 0x5C, 0x2F, 0x62, 0x66, 0x6E, 0x72, 0x74], [0x5C, b] ∈ escaped :=
      fun b hb => mem_escaped.mpr (.inl ⟨b, hb, rfl⟩)
    unfold parseEscape at h
    dsimp only at h
    split_ifs at h with hsame hb hf hn hr ht hu
    · cases h
      refine ⟨[escape], hone escape ?_, rfl⟩
      rcases hsame with rfl | rfl | rfl <;> decide
    · cases h
      exact ⟨[escape], hone escape (by rw [hb]; decide), rfl⟩
    · cases h
      exact ⟨[escape], hone escape (by rw [hf]; decide), rfl⟩
    · cases h
      exact ⟨[escape], hone escape (by rw [hn]; decide), rfl⟩
    · cases h
      exact ⟨[escape], hone escape (by rw [hr]; decide), rfl⟩
    · cases h
      exact ⟨[escape], hone escape (by rw [ht]; decide), rfl⟩
    · rcases rest with _ | ⟨a, _ | ⟨b, _ | ⟨c, _ | ⟨d, rest⟩⟩⟩⟩
      iterate 4 cases h
      dsimp only at h
      split_ifs at h with hdigits
      cases h
      simp only [Bool.and_eq_true] at hdigits
      subst hu
      exact ⟨[0x75, a, b, c, d], mem_escaped.mpr (.inr ⟨a, b, c, d, rfl, hdigits.1.1.1,
        hdigits.1.1.2, hdigits.1.2, hdigits.2⟩), rfl⟩

theorem parseEscape_complete (h : 0x5C :: t ∈ escaped) (q : Bytes) :
    ∃ units, parseEscape (t ++ q) = some (units, q) := by
  rcases mem_escaped.mp h with ⟨b, hb, ht⟩ | ⟨a, b, c, d, ht, ha, hb, hc, hd⟩
  · obtain rfl : t = [b] := tail_eq_of_cons_eq ht
    simp only [mem_cons, not_mem_nil, or_false] at hb
    rcases hb with rfl | rfl | rfl | rfl | rfl | rfl | rfl | rfl <;> exact ⟨_, rfl⟩
  · obtain rfl : t = [0x75, a, b, c, d] := tail_eq_of_cons_eq ht
    refine ⟨[.code (((hexValue a * 16 + hexValue b) * 16 + hexValue c) * 16 + hexValue d)], ?_⟩
    show (if isHexDigit a && isHexDigit b && isHexDigit c && isHexDigit d then _ else none) = _
    rw [ha, hb, hc, hd]
    rfl

theorem parseCharacter_sound {character : UInt8} {rest : Bytes} (hquote : character ≠ 0x22)
    (h : parseCharacter character rest = some (units, r)) : ∃ t ∈ char, character :: rest = t ++ r := by
  unfold parseCharacter at h
  dsimp only at h
  split_ifs at h with hcontrol hescape hhigh hnone
  · obtain ⟨t, ht, rfl⟩ := parseEscape_sound h
    subst hescape
    exact ⟨0x5C :: t, .inr ht, rfl⟩
  · cases h
    have hseq := sequence_take hnone
    refine ⟨_, .inl (mem_unescaped.mpr (.inr ⟨?_, hseq⟩)), (take_append_drop _ _).symm⟩
    obtain ⟨n, hn⟩ := Nat.exists_eq_succ_of_ne_zero hnone
    rw [hn]
    exact ⟨character, rest.take n, rfl, hhigh⟩
  · cases h
    refine ⟨[character], .inl (mem_unescaped.mpr (.inl ⟨character, rfl, ?_, ?_, hquote, hescape⟩)), rfl⟩
    · exact UInt8.not_lt.mp hcontrol
    · exact UInt8.not_le.mp hhigh

theorem parseCharacter_complete (h : t ∈ char) (q : Bytes) :
    ∃ character rest units, t = character :: rest ∧ character ≠ 0x22
      ∧ parseCharacter character (rest ++ q) = some (units, q) := by
  rcases h with hplain | hescaped
  · rcases mem_unescaped.mp hplain with ⟨b, rfl, hlow, hhigh, hquote, hescape⟩ | ⟨⟨a, u, rfl, ha⟩, hseq⟩
    · refine ⟨b, [], [.byte b], rfl, hquote, ?_⟩
      unfold parseCharacter
      rw [if_neg (UInt8.not_lt.mpr hlow), if_neg hescape, if_neg (UInt8.not_le.mpr hhigh)]
      rfl
    · have hlen := utf8SequenceLength_of_sequence hseq q
      have hcontrol : ¬a < 0x20 := UInt8.not_lt.mpr (UInt8.le_trans (by decide) ha)
      have hnot : ∀ b : UInt8, b < 0x80 → a ≠ b := by
        rintro b hb rfl
        exact absurd ha (UInt8.not_le.mpr hb)
      refine ⟨a, u, (a :: u).map .byte, rfl, hnot 0x22 (by decide), ?_⟩
      unfold parseCharacter
      rw [if_neg hcontrol, if_neg (hnot 0x5C (by decide)), if_pos ha]
      rw [cons_append] at hlen
      dsimp only
      rw [hlen, if_neg (by simp), ← cons_append, take_left, drop_left]
  · obtain ⟨_, rfl, u, _, rfl⟩ := Language.mem_mul.mp hescaped
    obtain ⟨units, hunits⟩ := parseEscape_complete hescaped q
    exact ⟨0x5C, u, units, rfl, by decide, hunits⟩

theorem parseCharacters_sound {n : Nat} (h : parseCharacters n p = some (units, r)) :
    ∃ t ∈ char∗, p = t ++ 0x22 :: r := by
  induction n generalizing p units with
  | zero => cases h
  | succ n ih =>
    cases p with
    | nil => cases h
    | cons character rest =>
      unfold parseCharacters at h
      split at h <;> rename_i hquote
      · cases h
        exact ⟨[], Language.nil_mem_kstar _, by rw [hquote]; rfl⟩
      · obtain ⟨⟨unit, left⟩, hone, h⟩ := Option.bind_eq_some_iff.mp h
        obtain ⟨⟨more, left'⟩, hmore, h⟩ := Option.bind_eq_some_iff.mp h
        cases h
        obtain ⟨t, ht, heq⟩ := parseCharacter_sound hquote hone
        obtain ⟨u, hu, rfl⟩ := ih hmore
        exact ⟨t ++ u, append_mem_kstar ht hu, by rw [heq, append_assoc]⟩

theorem parseCharacters_complete (h : t ∈ char∗) (q : Bytes) {n : Nat}
    (hn : (t ++ 0x22 :: q).length ≤ n) : ∃ units, parseCharacters n (t ++ 0x22 :: q) = some (units, q) := by
  revert n
  refine kstar_induction (P := fun t => ∀ {n : Nat}, (t ++ 0x22 :: q).length ≤ n →
    ∃ units, parseCharacters n (t ++ 0x22 :: q) = some (units, q)) ?_ ?_ t h
  · intro n hn
    obtain ⟨n, rfl⟩ : ∃ k, n = k + 1 := ⟨n - 1, by simp at hn; omega⟩
    exact ⟨[], if_pos rfl⟩
  · intro t ht u _ ih n hn
    obtain ⟨character, rest, units, rfl, hquote, hone⟩ := parseCharacter_complete ht (u ++ 0x22 :: q)
    rw [append_assoc, cons_append, length_cons, length_append] at hn
    obtain ⟨n, rfl⟩ : ∃ k, n = k + 1 := ⟨n - 1, by omega⟩
    obtain ⟨more, hmore⟩ := ih (n := n) (by omega)
    refine ⟨units ++ more, ?_⟩
    rw [append_assoc, cons_append]
    unfold parseCharacters
    rw [if_neg hquote, hone]
    exact Option.bind_eq_some_iff.mpr ⟨_, rfl, Option.bind_eq_some_iff.mpr ⟨_, hmore, rfl⟩⟩

theorem mem_string : t ∈ string ↔ ∃ u ∈ char∗, t = 0x22 :: (u ++ [0x22]) := by
  unfold string
  constructor
  · intro h
    obtain ⟨_, hopen, _, rfl, rfl⟩ := Language.mem_mul.mp h
    obtain ⟨_, rfl, u, hu, rfl⟩ := Language.mem_mul.mp hopen
    exact ⟨u, hu, rfl⟩
  · rintro ⟨u, hu, rfl⟩
    exact Language.append_mem_mul (a := 0x22 :: u) (Language.append_mem_mul (a := [0x22]) rfl hu) rfl

/-- What is taken is a string. -/
theorem parseString_sound {text : Bytes} (h : parseString p = some (text, r)) : ∃ t ∈ string, p = t ++ r := by
  obtain ⟨left, hquote, h⟩ := Option.bind_eq_some_iff.mp h
  obtain ⟨⟨units, left'⟩, hunits, h⟩ := Option.bind_eq_some_iff.mp h
  cases h
  obtain ⟨u, hu, rfl⟩ := parseCharacters_sound hunits
  refine ⟨_, mem_string.mpr ⟨u, hu, rfl⟩, ?_⟩
  rw [consume_eq.mp hquote, cons_append, append_assoc]
  rfl

/-- A string is taken whole. -/
theorem parseString_complete (h : t ∈ string) (q : Bytes) : ∃ text, parseString (t ++ q) = some (text, q) := by
  obtain ⟨u, hu, rfl⟩ := mem_string.mp h
  have hrest : u ++ [0x22] ++ q = u ++ 0x22 :: q := append_assoc u [0x22] q
  rw [cons_append, hrest]
  obtain ⟨units, hunits⟩ := parseCharacters_complete hu q (Nat.le_succ _)
  refine ⟨decode units, ?_⟩
  unfold parseString
  rw [consume_eq.mpr rfl]
  exact Option.bind_eq_some_iff.mpr ⟨_, rfl, Option.bind_eq_some_iff.mpr ⟨_, hunits, rfl⟩⟩

/-! ## Numbers and literals -/

theorem parseDigits_sound (h : parseDigits p = some r) : ∃ t ∈ atLeastOne digit, p = t ++ r := by
  cases p with
  | nil => cases h
  | cons first rest =>
    unfold parseDigits at h
    dsimp only at h
    split at h
    · rename_i hdigit
      cases h
      refine ⟨first :: rest.takeWhile isDigit, ?_, ?_⟩
      · exact mem_digits.mpr ⟨first, _, rfl, hdigit, fun d hd => mem_takeWhile_imp hd⟩
      · rw [cons_append, takeWhile_append_dropWhile]
    · cases h

theorem parseDigits_complete (h : t ∈ atLeastOne digit) (hq : EndsDigits q) : parseDigits (t ++ q) = some q := by
  obtain ⟨b, u, rfl, hb, hu⟩ := mem_digits.mp h
  have hall : (b :: u).dropWhile isDigit = [] :=
    dropWhile_eq_nil_iff.mpr fun d hd => by
      rcases mem_cons.mp hd with rfl | hd
      · exact hb
      · exact hu d hd
  rw [dropWhile_cons_of_pos hb] at hall
  refine parseDigits_append (r := []) ?_ hq
  unfold parseDigits
  dsimp only
  rw [if_pos hb, hall]

theorem parseSign_sound (p : Bytes) : ∃ t ∈ optional (word [0x2D]), p = t ++ parseSign p := by
  unfold parseSign
  cases hminus : consume 0x2D p with
  | none => exact ⟨[], mem_optional.mpr (.inl rfl), rfl⟩
  | some rest => exact ⟨[0x2D], mem_optional.mpr (.inr rfl), consume_eq.mp hminus⟩

theorem parseInteger_sound (h : parseInteger p = some r) : ∃ t ∈ int, p = t ++ r := by
  unfold parseInteger at h
  cases hzero : consume 0x30 p with
  | some rest =>
    rw [hzero] at h
    dsimp only at h
    split at h
    · cases h
    · cases h
      exact ⟨[0x30], mem_int.mpr (.inl rfl), consume_eq.mp hzero⟩
  | none =>
    rw [hzero] at h
    obtain ⟨t, ht, rfl⟩ := parseDigits_sound h
    obtain ⟨b, u, rfl, hb, hu⟩ := mem_digits.mp ht
    refine ⟨b :: u, mem_int.mpr (.inr ⟨b, u, rfl, hb, ?_, hu⟩), rfl⟩
    rintro rfl
    have hsome : consume 0x30 (0x30 :: (u ++ r)) = some (u ++ r) := consume_eq.mpr rfl
    rw [cons_append, hsome] at hzero
    cases hzero

theorem parseInteger_complete (h : t ∈ int) (hq : EndsDigits q) : parseInteger (t ++ q) = some q := by
  refine parseInteger_append (r := []) ?_ hq
  rcases mem_int.mp h with rfl | ⟨b, u, rfl, hb, hne, hu⟩
  · rfl
  · have hnone : consume 0x30 (b :: u) = none := if_neg hne
    have hdigits := parseDigits_complete (q := []) (mem_digits.mpr ⟨b, u, rfl, hb, hu⟩) trivial
    rw [append_nil] at hdigits
    unfold parseInteger
    rw [hnone]
    exact hdigits

theorem parseFraction_sound (h : parseFraction p = some r) : ∃ t ∈ optional frac, p = t ++ r := by
  unfold parseFraction at h
  cases hpoint : consume 0x2E p with
  | none =>
    rw [hpoint] at h
    cases h
    exact ⟨[], mem_optional.mpr (.inl rfl), rfl⟩
  | some rest =>
    rw [hpoint] at h
    obtain ⟨t, ht, rfl⟩ := parseDigits_sound h
    exact ⟨0x2E :: t, mem_optional.mpr (.inr (Language.append_mem_mul (a := [0x2E]) rfl ht)),
      consume_eq.mp hpoint⟩

/-- Only an exponent can follow. -/
def EndsFraction : Bytes → Prop
  | [] => True
  | next :: _ => isDigit next = false ∧ next ≠ 0x2E

theorem EndsFraction.digits (h : EndsFraction q) : EndsDigits q := by
  cases q with
  | nil => trivial
  | cons next q => exact h.1

theorem parseFraction_complete (h : t ∈ optional frac) (hq : EndsFraction q) : parseFraction (t ++ q) = some q := by
  rcases mem_optional.mp h with rfl | hfrac
  · cases q with
    | nil => rfl
    | cons next q =>
      have hnone : consume 0x2E (next :: q) = none := if_neg hq.2
      rw [nil_append]
      unfold parseFraction
      rw [hnone]
  · obtain ⟨_, rfl, u, hu, rfl⟩ := Language.mem_mul.mp hfrac
    exact parseDigits_complete hu hq.digits

theorem parseExponent_sound (h : parseExponent p = some r) : ∃ t ∈ optional exp, p = t ++ r := by
  cases p with
  | nil =>
    cases h
    exact ⟨[], mem_optional.mpr (.inl rfl), rfl⟩
  | cons first rest =>
    unfold parseExponent at h
    dsimp only at h
    split at h
    · rename_i hletter
      have hfirst : [first] ∈ oneOf (fun b : UInt8 => b == 0x65 || b == 0x45) :=
        singleton_mem_oneOf (by simpa using hletter)
      obtain ⟨u, hu, heq⟩ := parseDigits_sound h
      have hsign : ∃ s ∈ optional (oneOf fun b : UInt8 => b == 0x2D || b == 0x2B),
          rest = s ++ parseExponentSign rest := by
        cases rest with
        | nil => exact ⟨[], mem_optional.mpr (.inl rfl), rfl⟩
        | cons sign rest =>
          unfold parseExponentSign
          dsimp only
          split
          · rename_i hsign
            refine ⟨[sign], mem_optional.mpr (.inr (singleton_mem_oneOf ?_)), rfl⟩
            rw [Bool.or_eq_true, beq_iff_eq, beq_iff_eq]
            exact hsign.symm
          · exact ⟨[], mem_optional.mpr (.inl rfl), rfl⟩
      obtain ⟨s, hs, hrest⟩ := hsign
      refine ⟨first :: s ++ u, mem_optional.mpr (.inr ?_), ?_⟩
      · exact Language.append_mem_mul (Language.append_mem_mul (a := [first]) hfirst hs) hu
      · rw [hrest, heq, append_assoc]
        rfl
    · cases h
      exact ⟨[], mem_optional.mpr (.inl rfl), rfl⟩

theorem parseExponent_complete (h : t ∈ optional exp) (hq : Ends q) : parseExponent (t ++ q) = some q := by
  rcases mem_optional.mp h with rfl | hexp
  · cases q with
    | nil => rfl
    | cons next q => exact if_neg (by rw [not_or]; exact hq.2.2)
  · obtain ⟨_, hsigned, u, hu, rfl⟩ := Language.mem_mul.mp hexp
    obtain ⟨_, ⟨first, hfirst, rfl⟩, s, hs, rfl⟩ := Language.mem_mul.mp hsigned
    have hletter : first = 0x65 ∨ first = 0x45 := by simpa using hfirst
    have hdigits := parseDigits_complete hu hq.digits
    obtain ⟨b, u, rfl, hb, hu⟩ := mem_digits.mp hu
    have hrest : [first] ++ s ++ (b :: u) ++ q = first :: (s ++ (b :: u ++ q)) := by
      rw [append_assoc, append_assoc]
      rfl
    rw [hrest]
    unfold parseExponent
    dsimp only
    rw [if_pos hletter]
    have hsign : parseExponentSign (s ++ (b :: u ++ q)) = b :: u ++ q := by
      rcases mem_optional.mp hs with rfl | ⟨sign, hsign, rfl⟩
      · refine if_neg ?_
        rintro (rfl | rfl) <;> exact absurd hb (by decide)
      · refine if_pos ?_
        rw [Bool.or_eq_true, beq_iff_eq, beq_iff_eq] at hsign
        exact hsign.symm
    rw [hsign]
    exact hdigits

/-- What is taken is a number. -/
theorem parseNumber_sound {v : Value} (h : parseNumber p = some (v, r)) : ∃ t ∈ number, p = t ++ r := by
  obtain ⟨left, hinteger, h⟩ := Option.bind_eq_some_iff.mp h
  obtain ⟨left', hfraction, h⟩ := Option.bind_eq_some_iff.mp h
  obtain ⟨left'', hexponent, h⟩ := Option.bind_eq_some_iff.mp h
  cases h
  obtain ⟨s, hs, hsign⟩ := parseSign_sound p
  obtain ⟨i, hi, hint⟩ := parseInteger_sound hinteger
  obtain ⟨f, hf, hfrac⟩ := parseFraction_sound hfraction
  obtain ⟨e, he, hexp⟩ := parseExponent_sound hexponent
  refine ⟨s ++ i ++ f ++ e, ?_, ?_⟩
  · exact Language.append_mem_mul (Language.append_mem_mul (Language.append_mem_mul hs hi) hf) he
  · rw [hsign, hint, hfrac, hexp]
    simp only [append_assoc]

theorem endsFraction_exp (h : t ∈ optional exp) (hq : Ends q) : EndsFraction (t ++ q) := by
  rcases mem_optional.mp h with rfl | hexp
  · cases q with
    | nil => trivial
    | cons next q => exact ⟨hq.1, hq.2.1⟩
  · obtain ⟨_, hsigned, u, _, rfl⟩ := Language.mem_mul.mp hexp
    obtain ⟨_, ⟨first, hfirst, rfl⟩, s, _, rfl⟩ := Language.mem_mul.mp hsigned
    have hletter : first = 0x65 ∨ first = 0x45 := by simpa using hfirst
    rw [append_assoc, append_assoc]
    rcases hletter with rfl | rfl <;> exact ⟨by decide, by decide⟩

theorem endsDigits_frac (h : t ∈ optional frac) (hq : EndsFraction q) : EndsDigits (t ++ q) := by
  rcases mem_optional.mp h with rfl | hfrac
  · exact hq.digits
  · obtain ⟨_, rfl, u, _, rfl⟩ := Language.mem_mul.mp hfrac
    exact (by decide : isDigit 0x2E = false)

theorem exists_int (h : t ∈ int) : ∃ b u, t = b :: u ∧ isDigit b = true := by
  rcases mem_int.mp h with rfl | ⟨b, u, rfl, hb, _⟩
  · exact ⟨0x30, [], rfl, by decide⟩
  · exact ⟨b, u, rfl, hb⟩

/-- A number is taken whole, if nothing continues it. -/
theorem parseNumber_complete (h : t ∈ number) (hq : Ends q) : ∃ v, parseNumber (t ++ q) = some (v, q) := by
  obtain ⟨_, hrest, e, he, rfl⟩ := Language.mem_mul.mp h
  obtain ⟨_, hrest', f, hf, rfl⟩ := Language.mem_mul.mp hrest
  obtain ⟨s, hs, i, hi, rfl⟩ := Language.mem_mul.mp hrest'
  have heq := endsFraction_exp he hq
  have hassoc : s ++ i ++ f ++ e ++ q = s ++ (i ++ (f ++ (e ++ q))) := by
    simp only [append_assoc]
  have hsign : parseSign (s ++ (i ++ (f ++ (e ++ q)))) = i ++ (f ++ (e ++ q)) := by
    rcases mem_optional.mp hs with rfl | rfl
    · obtain ⟨b, u, rfl, hb⟩ := exists_int hi
      unfold parseSign
      have hnone : consume 0x2D (b :: u ++ (f ++ (e ++ q))) = none := by
        refine if_neg ?_
        rintro rfl
        exact absurd hb (by decide)
      rw [nil_append, hnone]
      rfl
    · rfl
  rw [hassoc]
  unfold parseNumber
  simp only [hsign, parseInteger_complete hi (endsDigits_frac hf heq), parseFraction_complete hf heq,
    parseExponent_complete he hq, Option.bind_eq_bind, Option.bind_some]
  exact ⟨_, rfl⟩

theorem parseLiteral_sound {text : Bytes} {value v : Value} (h : parseLiteral text value p = some (v, r)) :
    p = text ++ r := by
  unfold parseLiteral at h
  split at h
  · rename_i hliteral
    cases h
    exact (prefix_iff_eq_append.mp (List.isPrefixOf_iff_prefix.mp hliteral)).symm
  · cases h

theorem parseLiteral_complete (text : Bytes) (value : Value) (q : Bytes) :
    parseLiteral text value (text ++ q) = some (value, q) := by
  unfold parseLiteral
  rw [if_pos (List.isPrefixOf_iff_prefix.mpr (prefix_append text q)), drop_left]

/-! ## Arrays, objects and values -/

/-- **The function takes the texts of the rule**, with blanks before them, and leaves blanks that are at
    their end. -/
structure Accepts {α : Type} (f : Bytes → Option (α × Bytes)) (rule : Language UInt8) : Prop where
  sound : ∀ {p r : Bytes} {item : α}, f p = some (item, r) → ∃ w ∈ ws, ∃ t ∈ rule, p = w ++ (t ++ r)
  complete : ∀ {t q : Bytes}, t ∈ rule → Ends q →
    ∃ item, ∃ w ∈ ws, f (skipWhitespace (t ++ q)) = some (item, w ++ q)

theorem ends_of_not {next : UInt8} (h : isDigit next = false ∧ next ≠ 0x2E ∧ next ≠ 0x65 ∧ next ≠ 0x45)
    (q : Bytes) : Ends (next :: q) := h

theorem ends_ws {w : Bytes} (hw : w ∈ ws) (hq : Ends q) : Ends (w ++ q) := by
  cases w with
  | nil => exact hq
  | cons next w =>
    have hblank : isWhitespace next = true := mem_ws.mp hw next mem_cons_self
    refine ends_of_not ?_ (w ++ q)
    unfold isWhitespace at hblank
    simp only [Bool.or_eq_true, beq_iff_eq] at hblank
    rcases hblank with ((rfl | rfl) | rfl) | rfl <;> decide

section Elements

variable {α : Type} {f : Bytes → Option (α × Bytes)} {rule : Language UInt8} {closing : UInt8}

/-- What is taken is a row of elements. -/
theorem parseElements_sound (hf : Accepts f rule) {n : Nat} {items : List α}
    (h : parseElements f closing n p = some (items, r)) :
    ∃ w ∈ ws, ∃ t ∈ separated rule (structural 0x2C), ∃ w' ∈ ws, p = w ++ (t ++ (w' ++ closing :: r)) := by
  induction n generalizing p items with
  | zero => cases h
  | succ n ih =>
    obtain ⟨⟨item, left⟩, hitem, h⟩ := Option.bind_eq_some_iff.mp h
    obtain ⟨w, hw, t, ht, hp⟩ := hf.sound hitem
    obtain ⟨w', hw', hleft⟩ := exists_ws left
    rw [hp]
    dsimp only at h
    cases hnext : skipWhitespace left with
    | nil =>
      rw [hnext] at h
      cases h
    | cons next rest =>
      rw [hnext] at h hleft
      dsimp only at h
      split_ifs at h with hclose hcomma
      · cases h
        exact ⟨w, hw, t, mem_separated_of_mem ht, w', hw', by rw [hleft, hclose]⟩
      · obtain ⟨⟨more, left'⟩, hmore, h⟩ := Option.bind_eq_some_iff.mp h
        cases h
        obtain ⟨w₂, hw₂, u, hu, w₃, hw₃, hrest⟩ := ih hmore
        obtain ⟨w₁, hw₁, hblank⟩ := exists_ws rest
        refine ⟨w, hw, t ++ ((w' ++ 0x2C :: (w₁ ++ w₂)) ++ u), ?_, w₃, hw₃, ?_⟩
        · exact append_mem_separated ht
            (mem_structural.mpr ⟨w', hw', w₁ ++ w₂, append_mem_ws hw₁ hw₂, rfl⟩) hu
        · rw [hleft, hcomma, hblank, hrest]
          simp only [append_assoc, cons_append]

/-- A row of elements is taken whole. -/
theorem parseElements_complete (hf : Accepts f rule) (hclosing : closing ≠ 0x2C)
    (hwhite : isWhitespace closing = false) (hends : Ends (closing :: q))
    (ht : t ∈ separated rule (structural 0x2C)) {w : Bytes} (hw : w ∈ ws) {n : Nat} (hn : t.length < n) :
    ∃ items, parseElements f closing n (skipWhitespace (t ++ (w ++ closing :: q))) = some (items, q) := by
  revert n
  refine separated_induction (P := fun t => ∀ {n : Nat}, t.length < n →
    ∃ items, parseElements f closing n (skipWhitespace (t ++ (w ++ closing :: q))) = some (items, q))
    ?_ ?_ t ht
  · intro t ht n hn
    obtain ⟨n, rfl⟩ : ∃ k, n = k + 1 := ⟨n - 1, by omega⟩
    obtain ⟨item, w', hw', hitem⟩ := hf.complete ht (ends_ws hw hends)
    have hskip : skipWhitespace (w' ++ (w ++ closing :: q)) = closing :: q := by
      rw [skipWhitespace_ws hw', skipWhitespace_ws hw, skipWhitespace_cons hwhite]
    refine ⟨[item], ?_⟩
    unfold parseElements
    rw [hitem]
    dsimp only [Option.bind_eq_bind, Option.bind_some]
    rw [hskip]
    exact if_pos rfl
  · intro t ht s hs u ih n hn
    obtain ⟨w₁, hw₁, w₂, hw₂, rfl⟩ := mem_structural.mp hs
    rw [length_append, length_append, length_append, length_cons] at hn
    obtain ⟨n, rfl⟩ : ∃ k, n = k + 1 := ⟨n - 1, by omega⟩
    have hcomma : Ends (0x2C :: (w₂ ++ (u ++ (w ++ closing :: q)))) := ends_of_not (by decide) _
    obtain ⟨item, w', hw', hitem⟩ := hf.complete ht (ends_ws hw₁ hcomma)
    obtain ⟨items, hitems⟩ := ih (n := n) (by omega)
    have hassoc : t ++ (w₁ ++ 0x2C :: w₂ ++ u) ++ (w ++ closing :: q)
        = t ++ (w₁ ++ 0x2C :: (w₂ ++ (u ++ (w ++ closing :: q)))) := by
      simp only [append_assoc, cons_append]
    have hskip : skipWhitespace (w' ++ (w₁ ++ 0x2C :: (w₂ ++ (u ++ (w ++ closing :: q)))))
        = 0x2C :: (w₂ ++ (u ++ (w ++ closing :: q))) := by
      rw [skipWhitespace_ws hw', skipWhitespace_ws hw₁, skipWhitespace_cons (by decide)]
    refine ⟨item :: items, ?_⟩
    rw [hassoc]
    unfold parseElements
    rw [hitem]
    dsimp only [Option.bind_eq_bind, Option.bind_some]
    rw [hskip]
    dsimp only
    rw [if_neg hclosing.symm, if_pos rfl, skipWhitespace_ws hw₂, hitems]
    rfl

theorem mem_enclosed {opening : UInt8} :
    t ∈ enclosed opening closing rule ↔ ∃ w ∈ ws, ∃ w₁ ∈ ws, ∃ w₂ ∈ ws, ∃ w' ∈ ws,
      ∃ u ∈ optional (separated rule (structural 0x2C)),
        t = w ++ opening :: (w₁ ++ (u ++ (w₂ ++ closing :: w'))) := by
  unfold enclosed
  constructor
  · intro h
    obtain ⟨_, hbefore, _, hclose, rfl⟩ := Language.mem_mul.mp h
    obtain ⟨_, hopen, u, hu, rfl⟩ := Language.mem_mul.mp hbefore
    obtain ⟨w, hw, w₁, hw₁, rfl⟩ := mem_structural.mp hopen
    obtain ⟨w₂, hw₂, w', hw', rfl⟩ := mem_structural.mp hclose
    refine ⟨w, hw, w₁, hw₁, w₂, hw₂, w', hw', u, hu, ?_⟩
    simp only [append_assoc, cons_append]
  · rintro ⟨w, hw, w₁, hw₁, w₂, hw₂, w', hw', u, hu, rfl⟩
    have hopen : w ++ opening :: w₁ ∈ structural opening := mem_structural.mpr ⟨w, hw, w₁, hw₁, rfl⟩
    have hclose : w₂ ++ closing :: w' ∈ structural closing := mem_structural.mpr ⟨w₂, hw₂, w', hw', rfl⟩
    have h := Language.append_mem_mul (Language.append_mem_mul hopen hu) hclose
    simpa only [append_assoc, cons_append] using h

theorem parseEnclosed_sound (opening : UInt8) (hf : Accepts f rule) {items : List α}
    (h : parseEnclosed f closing p = some (items, r)) :
    ∃ t ∈ enclosed opening closing rule, opening :: p = t ++ r := by
  obtain ⟨w, hw, hp⟩ := exists_ws p
  unfold parseEnclosed at h
  split at h
  · rename_i rest hclose
    cases h
    rw [consume_eq.mp hclose] at hp
    refine ⟨opening :: (w ++ [closing]), ?_, ?_⟩
    · exact mem_enclosed.mpr ⟨[], nil_mem_ws, w, hw, [], nil_mem_ws, [], nil_mem_ws, [],
        mem_optional.mpr (.inl rfl), rfl⟩
    · rw [hp, cons_append, append_assoc]
      rfl
  · obtain ⟨w₁, hw₁, t, ht, w₂, hw₂, hrest⟩ := parseElements_sound hf h
    refine ⟨opening :: ((w ++ w₁) ++ (t ++ (w₂ ++ [closing]))), ?_, ?_⟩
    · exact mem_enclosed.mpr ⟨[], nil_mem_ws, w ++ w₁, append_mem_ws hw hw₁, w₂, hw₂, [], nil_mem_ws, t,
        mem_optional.mpr (.inr ht), rfl⟩
    · rw [hp, hrest]
      simp only [append_assoc, cons_append, nil_append]

theorem parseEnclosed_complete (hf : Accepts f rule) (hclosing : closing ≠ 0x2C)
    (hwhite : isWhitespace closing = false) (hends : ∀ q, Ends (closing :: q))
    (hnone : ∀ p, f (closing :: p) = none) {w₁ w₂ u : Bytes} (hw₁ : w₁ ∈ ws) (hw₂ : w₂ ∈ ws)
    (hu : u ∈ optional (separated rule (structural 0x2C))) (q : Bytes) :
    ∃ items, parseEnclosed f closing (w₁ ++ (u ++ (w₂ ++ closing :: q))) = some (items, q) := by
  unfold parseEnclosed
  rw [skipWhitespace_ws hw₁]
  rcases mem_optional.mp hu with rfl | hu
  · refine ⟨[], ?_⟩
    rw [nil_append, skipWhitespace_ws hw₂, skipWhitespace_cons hwhite, consume_eq.mpr rfl]
  · have hrow : ∀ {n : Nat}, u.length < n → ∃ items,
        parseElements f closing n (skipWhitespace (u ++ (w₂ ++ closing :: q))) = some (items, q) :=
      fun hn => parseElements_complete hf hclosing hwhite (hends q) hu hw₂ hn
    have hbegins : consume closing (skipWhitespace (u ++ (w₂ ++ closing :: q))) = none := by
      cases hclose : consume closing (skipWhitespace (u ++ (w₂ ++ closing :: q))) with
      | none => rfl
      | some rest =>
        obtain ⟨items, hitems⟩ := hrow (Nat.lt_succ_self _)
        rw [consume_eq.mp hclose] at hitems
        unfold parseElements at hitems
        rw [hnone] at hitems
        cases hitems
    rw [hbegins]
    refine hrow ?_
    rw [length_append, length_append]
    omega

end Elements

theorem skipWhitespace_string (h : t ∈ string) (q : Bytes) : skipWhitespace (t ++ q) = t ++ q := by
  obtain ⟨u, _, rfl⟩ := mem_string.mp h
  exact skipWhitespace_cons (by decide) _

theorem accepts_member {f : Bytes → Option (Value × Bytes)} {rule : Language UInt8}
    (hf : Accepts f rule) (hblank : ∀ p, f (skipWhitespace p) = f p) : Accepts (parseMember f) (member rule) where
  sound := by
    rintro p r ⟨key, item⟩ h
    obtain ⟨⟨key', left⟩, hkey, h⟩ := Option.bind_eq_some_iff.mp h
    obtain ⟨left', hcolon, h⟩ := Option.bind_eq_some_iff.mp h
    obtain ⟨⟨item', left''⟩, hitem, h⟩ := Option.bind_eq_some_iff.mp h
    cases h
    obtain ⟨s, hs, hp⟩ := parseString_sound hkey
    obtain ⟨w, hw, hleft⟩ := exists_ws left
    obtain ⟨w', hw', t, ht, hvalue⟩ := hf.sound hitem
    have hname : w ++ 0x3A :: w' ∈ structural 0x3A := mem_structural.mpr ⟨w, hw, w', hw', rfl⟩
    refine ⟨[], nil_mem_ws, s ++ (w ++ 0x3A :: w') ++ t, ?_, ?_⟩
    · exact Language.append_mem_mul (Language.append_mem_mul hs hname) ht
    · rw [hp, hleft, consume_eq.mp hcolon, hvalue]
      simp only [append_assoc, cons_append, nil_append]
  complete := by
    intro t q ht hq
    obtain ⟨_, hbefore, v, hv, rfl⟩ := Language.mem_mul.mp ht
    obtain ⟨s, hs, _, hname, rfl⟩ := Language.mem_mul.mp hbefore
    obtain ⟨w, hw, w', hw', rfl⟩ := mem_structural.mp hname
    have hassoc : s ++ (w ++ 0x3A :: w') ++ v ++ q = s ++ (w ++ 0x3A :: (w' ++ (v ++ q))) := by
      simp only [append_assoc, cons_append]
    obtain ⟨key, hkey⟩ := parseString_complete hs (w ++ 0x3A :: (w' ++ (v ++ q)))
    obtain ⟨item, w₂, hw₂, hitem⟩ := hf.complete hv hq
    have hvalue : f (w' ++ (v ++ q)) = some (item, w₂ ++ q) := by
      rw [← hblank, skipWhitespace_ws hw']
      exact hitem
    have hcolon : consume 0x3A (skipWhitespace (w ++ 0x3A :: (w' ++ (v ++ q)))) = some (w' ++ (v ++ q)) := by
      rw [skipWhitespace_ws hw, skipWhitespace_cons (by decide)]
      exact consume_eq.mpr rfl
    refine ⟨(key, item), w₂, hw₂, ?_⟩
    rw [hassoc, skipWhitespace_string hs]
    unfold parseMember
    simp only [hkey, hcolon, hvalue, Option.bind_eq_bind, Option.bind_some]

theorem exists_number (h : t ∈ number) : ∃ b u, t = b :: u ∧ (b = 0x2D ∨ isDigit b = true) := by
  obtain ⟨_, hrest, e, _, rfl⟩ := Language.mem_mul.mp h
  obtain ⟨_, hrest', f, _, rfl⟩ := Language.mem_mul.mp hrest
  obtain ⟨s, hs, i, hi, rfl⟩ := Language.mem_mul.mp hrest'
  obtain ⟨b, u, rfl, hb⟩ := exists_int hi
  rcases mem_optional.mp hs with rfl | rfl
  · exact ⟨b, _, rfl, .inr hb⟩
  · exact ⟨0x2D, _, rfl, .inl rfl⟩

theorem mem_value {n : Nat} : t ∈ value (n + 1) ↔ (t = ascii "false" ∨ t = ascii "null" ∨ t = ascii "true")
      ∨ t ∈ object (value n) ∨ t ∈ array (value n) ∨ t ∈ number ∨ t ∈ string := by
  show ((((t ∈ literal ∨ t ∈ object (value n)) ∨ t ∈ array (value n)) ∨ t ∈ number) ∨ t ∈ string) ↔ _
  have hliteral : t ∈ literal ↔ t = ascii "false" ∨ t = ascii "null" ∨ t = ascii "true" := or_assoc
  rw [hliteral, or_assoc, or_assoc, or_assoc]

theorem not_parseValue_bracket (n : Nat) (p : Bytes) : parseValue n (0x5D :: p) = none := by
  cases n with
  | zero | succ n => rfl

/-- **The parser takes the values of the grammar**, at every level. -/
theorem accepts_value (n : Nat) : Accepts (parseValue n) (value n) := by
  induction n with
  | zero => exact ⟨(fun h => nomatch h), fun h => absurd h (Language.notMem_zero _)⟩
  | succ n ih =>
    have hmember := accepts_member ih (parseValue_skipWhitespace n)
    constructor
    · intro p r v h
      obtain ⟨w, hw, hp⟩ := exists_ws p
      refine ⟨w, hw, ?_⟩
      unfold parseValue at h
      cases hnext : skipWhitespace p with
      | nil =>
        rw [hnext] at h
        cases h
      | cons first rest =>
        rw [hnext] at h hp
        suffices hvalue : ∃ t ∈ value (n + 1), first :: rest = t ++ r by
          obtain ⟨t, ht, heq⟩ := hvalue
          exact ⟨t, ht, by rw [hp, heq]⟩
        dsimp only at h
        split_ifs at h with hobject harray hstring htrue hfalse hnull
        · obtain ⟨⟨members, left⟩, hmembers, h⟩ := Option.bind_eq_some_iff.mp h
          cases h
          obtain ⟨t, ht, heq⟩ := parseEnclosed_sound 0x7B hmember hmembers
          exact ⟨t, mem_value.mpr (.inr (.inl ht)), by rw [hobject, heq]⟩
        · obtain ⟨⟨items, left⟩, hitems, h⟩ := Option.bind_eq_some_iff.mp h
          cases h
          obtain ⟨t, ht, heq⟩ := parseEnclosed_sound 0x5B ih hitems
          exact ⟨t, mem_value.mpr (.inr (.inr (.inl ht))), by rw [harray, heq]⟩
        · obtain ⟨⟨text, left⟩, htext, h⟩ := Option.bind_eq_some_iff.mp h
          cases h
          obtain ⟨t, ht, heq⟩ := parseString_sound htext
          exact ⟨t, mem_value.mpr (.inr (.inr (.inr (.inr ht)))), heq⟩
        · exact ⟨_, mem_value.mpr (.inl (.inr (.inr rfl))), parseLiteral_sound h⟩
        · exact ⟨_, mem_value.mpr (.inl (.inl rfl)), parseLiteral_sound h⟩
        · exact ⟨_, mem_value.mpr (.inl (.inr (.inl rfl))), parseLiteral_sound h⟩
        · obtain ⟨t, ht, heq⟩ := parseNumber_sound h
          exact ⟨t, mem_value.mpr (.inr (.inr (.inr (.inl ht)))), heq⟩
    · intro t q ht hq
      rw [parseValue_skipWhitespace]
      rcases mem_value.mp ht with hliteral | hobject | harray | hnum | hstring
      · rcases hliteral with rfl | rfl | rfl
        · exact ⟨_, [], nil_mem_ws, parseLiteral_complete (ascii "false") (.boolean false) q⟩
        · exact ⟨_, [], nil_mem_ws, parseLiteral_complete (ascii "null") .null q⟩
        · exact ⟨_, [], nil_mem_ws, parseLiteral_complete (ascii "true") (.boolean true) q⟩
      · obtain ⟨w, hw, w₁, hw₁, w₂, hw₂, w', hw', u, hu, rfl⟩ := mem_enclosed.mp hobject
        obtain ⟨members, hmembers⟩ := parseEnclosed_complete hmember (show (0x7D : UInt8) ≠ 0x2C by decide)
          (by decide) (ends_of_not (by decide)) (fun p => rfl) hw₁ hw₂ hu (w' ++ q)
        refine ⟨.object (members.map Prod.fst) (members.map Prod.snd), w', hw', ?_⟩
        have hassoc : w ++ 0x7B :: (w₁ ++ (u ++ (w₂ ++ 0x7D :: w'))) ++ q
            = w ++ 0x7B :: (w₁ ++ (u ++ (w₂ ++ 0x7D :: (w' ++ q)))) := by
          simp only [append_assoc, cons_append]
        rw [hassoc, ← parseValue_skipWhitespace, skipWhitespace_ws hw, parseValue_skipWhitespace]
        exact Option.bind_eq_some_iff.mpr ⟨_, hmembers, rfl⟩
      · obtain ⟨w, hw, w₁, hw₁, w₂, hw₂, w', hw', u, hu, rfl⟩ := mem_enclosed.mp harray
        obtain ⟨items, hitems⟩ := parseEnclosed_complete ih (show (0x5D : UInt8) ≠ 0x2C by decide)
          (by decide) (ends_of_not (by decide)) (not_parseValue_bracket n) hw₁ hw₂ hu (w' ++ q)
        refine ⟨.array items, w', hw', ?_⟩
        have hassoc : w ++ 0x5B :: (w₁ ++ (u ++ (w₂ ++ 0x5D :: w'))) ++ q
            = w ++ 0x5B :: (w₁ ++ (u ++ (w₂ ++ 0x5D :: (w' ++ q)))) := by
          simp only [append_assoc, cons_append]
        rw [hassoc, ← parseValue_skipWhitespace, skipWhitespace_ws hw, parseValue_skipWhitespace]
        exact Option.bind_eq_some_iff.mpr ⟨_, hitems, rfl⟩
      · obtain ⟨b, u, rfl, hb⟩ := exists_number hnum
        obtain ⟨v, hv⟩ := parseNumber_complete hnum hq
        refine ⟨v, [], nil_mem_ws, ?_⟩
        rw [cons_append, parseValue_number hb]
        exact hv
      · obtain ⟨text, htext⟩ := parseString_complete hstring q
        refine ⟨.string text, [], nil_mem_ws, ?_⟩
        obtain ⟨u, _, rfl⟩ := mem_string.mp hstring
        exact Option.bind_eq_some_iff.mpr ⟨_, htext, rfl⟩

/-- **The check accepts exactly the texts of the grammar.** -/
theorem isValidValue_iff (input : Bytes) : isValidValue input = true ↔ input ∈ text kMaximumDepth := by
  have haccepts := accepts_value (kMaximumDepth + 1)
  unfold isValidValue parse text
  constructor <;> intro h
  · obtain ⟨v, h⟩ := Option.isSome_iff_exists.mp h
    obtain ⟨⟨v', r⟩, hvalue, h⟩ := Option.bind_eq_some_iff.mp h
    dsimp only at h
    split at h
    · rename_i hempty
      rw [parseValue_skipWhitespace] at hvalue
      obtain ⟨w, hw, t, ht, rfl⟩ := haccepts.sound hvalue
      have hr : r ∈ ws := by
        obtain ⟨w', hw', hr⟩ := exists_ws r
        rw [hr, isEmpty_iff.mp hempty, append_nil]
        exact hw'
      rw [← append_assoc]
      exact Language.append_mem_mul (Language.append_mem_mul hw ht) hr
    · cases h
  · obtain ⟨_, hbefore, w', hw', rfl⟩ := Language.mem_mul.mp h
    obtain ⟨w, hw, t, ht, rfl⟩ := Language.mem_mul.mp hbefore
    have hends : Ends w' := by
      rw [← append_nil w']
      exact ends_ws hw' trivial
    obtain ⟨v, w₂, hw₂, hvalue⟩ := haccepts.complete ht hends
    have hrest : skipWhitespace (w₂ ++ w') = [] := by
      rw [skipWhitespace_ws hw₂, ← append_nil w', skipWhitespace_ws hw']
      rfl
    refine Option.isSome_iff_exists.mpr ⟨v, ?_⟩
    refine Option.bind_eq_some_iff.mpr ⟨(v, w₂ ++ w'), ?_, ?_⟩
    · rw [append_assoc, skipWhitespace_ws hw]
      exact hvalue
    · dsimp only
      rw [hrest]
      rfl

end Cockpit.Json.Grammar
