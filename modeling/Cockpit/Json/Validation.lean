/-
  `IsValidValue` is right: it ends, it reads nothing outside the text, and it accepts the texts of RFC 8259.
  Every function follows the one of the same name in `Json.Parser`, which takes the text that is left.
-/
import Cockpit.Json.Validator

namespace Cockpit.Json

open ByteText List

namespace Parser

/-! ## Rules -/

/-- What a function may do from a state, with what is to be left of the text. -/
inductive Outcome (s : Parser) : Option Bytes → Except Fault (Bool × Parser) → Prop
  | accepts {s' : Parser} (hinput : s'.input = s.input) (hpos : s'.position ≤ s'.input.length)
      (herror : s'.error = s.error) : Outcome s (some s'.rest) (.ok (true, s'))
  | rejects {s' : Parser} (herror : s'.error ≠ "") : Outcome s none (.ok (false, s'))

/-- Where `p` is left of the text, `m` ends without a fault; it accepts and leaves `r` if `o` is `some r`, and
    it rejects and says why if `o` is `none`. -/
def Follows (m : ParserM Bool) (p : Bytes) (o : Option Bytes) : Prop :=
  ∀ s : Parser, s.position ≤ s.input.length → s.rest = p → Outcome s o (m s)

variable {s : Parser}

theorem bind_ok {α β : Type} {m : ParserM α} {k : α → ParserM β} {s' : Parser} {a : α} (h : m s = .ok (a, s')) :
    (m >>= k) s = k a s' := by
  show (m s).bind _ = _
  rw [h]
  rfl

theorem length_rest (s : Parser) : s.rest.length = s.input.length - s.position := length_drop

variable {o : Option Bytes}

theorem Outcome.of_state {s' : Parser} {result : Except Fault (Bool × Parser)} (h : Outcome s' o result)
    (hinput : s'.input = s.input) (herror : s'.error = s.error) : Outcome s o result := by
  cases h with
  | accepts hinput' hpos herror' =>
    exact .accepts (hinput'.trans hinput) hpos (herror'.trans herror)
  | rejects herror' => exact .rejects herror'

variable {p : Bytes}

/-- Something that only looks, or moves the position. -/
theorem Follows.step {α : Type} {m : ParserM α} {k : α → ParserM Bool} {p' : Bytes} {a : α}
    (hm : ∀ s : Parser, s.position ≤ s.input.length → s.rest = p → ∃ s', m s = .ok (a, s') ∧ s'.input = s.input ∧
      s'.position ≤ s'.input.length ∧ s'.error = s.error ∧ s'.rest = p') (hk : Follows (k a) p' o) :
    Follows (m >>= k) p o := by
  intro s hpos hrest
  obtain ⟨s', hrun, hinput, hpos', herror, hrest'⟩ := hm s hpos hrest
  rw [bind_ok hrun]
  exact (hk s' hpos' hrest').of_state hinput herror

theorem Follows.accept (p : Bytes) : Follows (pure true) p (some p) := by
  rintro s hpos rfl
  exact .accepts rfl hpos rfl

variable {message : String}

theorem Follows.fail (h : message ≠ "") (p : Bytes) : Follows (Parser.fail message) p none := by
  intro s _ _
  refine .rejects ?_
  split
  · exact h
  · rename_i herror
    intro heq
    exact herror (by rw [heq]; rfl)

theorem Follows.andThen {first second : ParserM Bool} {f : Bytes → Option Bytes} (hfirst : Follows first p o)
    (hsecond : ∀ r, o = some r → Follows second r (f r)) : Follows (Parser.andThen first second) p (o.bind f) := by
  intro s hpos hrest
  unfold Parser.andThen
  have h := hfirst s hpos hrest
  generalize hresult : first s = result at h
  cases h with
  | @accepts s' hinput hpos' herror =>
    rw [bind_ok hresult]
    exact ((hsecond _ rfl) s' hpos' rfl).of_state hinput herror
  | @rejects s' herror =>
    rw [bind_ok hresult]
    exact .rejects herror

variable {k : Unit → ParserM Bool}

theorem Follows.advance {count : Nat} (hcount : count ≤ p.length) (hk : Follows (k ()) (p.drop count) o) :
    Follows (Parser.advance count >>= k) p o := by
  refine Follows.step (fun s hpos hrest => ⟨_, rfl, rfl, ?_, rfl, ?_⟩) hk
  · have hlen := s.length_rest
    rw [hrest] at hlen
    dsimp only
    omega
  · rw [← hrest]
    exact drop_drop.symm

theorem more_spec (hpos : s.position ≤ s.input.length) : Parser.more s = .ok (!s.rest.isEmpty, s) := by
  have hlen := s.length_rest
  unfold Parser.more
  cases hrest : s.rest with
  | nil =>
    rw [hrest, length_nil] at hlen
    rw [decide_eq_false (by omega)]
    rfl
  | cons first rest =>
    rw [hrest, length_cons] at hlen
    rw [decide_eq_true (by omega)]
    rfl

theorem atEnd_spec (hpos : s.position ≤ s.input.length) : Parser.atEnd s = .ok (s.rest.isEmpty, s) := by
  have hlen := s.length_rest
  unfold Parser.atEnd
  cases hrest : s.rest with
  | nil =>
    rw [hrest, length_nil] at hlen
    rw [decide_eq_true (by omega)]
    rfl
  | cons first rest =>
    rw [hrest, length_cons] at hlen
    rw [decide_eq_false (by omega)]
    rfl

theorem Follows.look {α : Type} {m : ParserM α} {k : α → ParserM Bool} {a : α}
    (hm : ∀ s : Parser, s.position ≤ s.input.length → s.rest = p → m s = .ok (a, s)) (hk : Follows (k a) p o) :
    Follows (m >>= k) p o :=
  Follows.step (fun s hpos hrest => ⟨s, hm s hpos hrest, rfl, hpos, rfl, hrest⟩) hk

theorem Follows.more {k : Bool → ParserM Bool} {p : Bytes} {o : Option Bytes}
    (hk : Follows (k !p.isEmpty) p o) : Follows (Parser.more >>= k) p o :=
  .look (fun _ hpos hrest => hrest ▸ more_spec hpos) hk

theorem Follows.atEnd {k : Bool → ParserM Bool} (hk : Follows (k p.isEmpty) p o) : Follows (Parser.atEnd >>= k) p o :=
  .look (fun _ hpos hrest => hrest ▸ atEnd_spec hpos) hk

variable {first : UInt8}

variable {index : Nat}

theorem byteAt_drop {input : Bytes} {position : Nat} (h : (input.drop position)[index]? = some first) :
    byteAt input (position + index) = .ok first := by
  rw [List.getElem?_drop] at h
  unfold byteAt
  rw [h]

theorem characterAt_spec (h : s.rest[index]? = some first) : Parser.characterAt index s = .ok (first, s) := by
  unfold Parser.characterAt
  rw [byteAt_drop h]

variable {rest : Bytes}

theorem character_spec (h : s.rest = first :: rest) : Parser.character s = .ok (first, s) :=
  characterAt_spec (by rw [h]; rfl)

theorem rest_advance (h : s.rest = first :: rest) : ({ s with position := s.position + 1 } : Parser).rest = rest := by
  show s.input.drop (s.position + 1) = rest
  rw [← drop_drop]
  show s.rest.drop 1 = rest
  rw [h]
  rfl

theorem Follows.characterAt {k : UInt8 → ParserM Bool} (h : p[index]? = some first) (hk : Follows (k first) p o) :
    Follows (Parser.characterAt index >>= k) p o :=
  .look (fun _ _ hrest => characterAt_spec (hrest ▸ h)) hk

theorem Follows.character {k : UInt8 → ParserM Bool} (hk : Follows (k first) (first :: p) o) :
    Follows (Parser.character >>= k) (first :: p) o :=
  .characterAt rfl hk

theorem Follows.rounds {k : Nat → ParserM Bool} (hk : Follows (k (p.length + 1)) p o) :
    Follows (Parser.rounds >>= k) p o := by
  refine .look (fun s _ hrest => ?_) hk
  rw [← hrest, length_rest]
  rfl

/-- It moves over the expected byte. -/
theorem consume_spec (hpos : s.position ≤ s.input.length) (expected : UInt8) :
    Parser.consume expected s = .ok ((Json.consume expected s.rest).isSome,
      if (Json.consume expected s.rest).isSome then { s with position := s.position + 1 } else s) := by
  unfold Parser.consume
  rw [bind_ok (more_spec hpos)]
  cases hrest : s.rest with
  | nil => rfl
  | cons first rest =>
    show (Parser.character >>= _) s = _
    rw [bind_ok (character_spec hrest)]
    unfold Json.consume
    dsimp only
    split <;> rfl

variable {yes : ParserM Bool}

variable {no : ParserM Bool} {expected : UInt8}

theorem Follows.consume (hyes : ∀ r, Json.consume expected p = some r → Follows yes r o)
    (hno : Json.consume expected p = none → Follows no p o) :
    Follows (do if ← Parser.consume expected then yes else no) p o := by
  cases hconsume : Json.consume expected p with
  | some r =>
    refine Follows.step (a := true) (fun s hpos hrest => ?_) (hyes r hconsume)
    have hrun := consume_spec hpos expected
    rw [hrest, hconsume] at hrun
    refine ⟨_, hrun, rfl, ?_, rfl, ?_⟩
    · have hlen := s.length_rest
      rw [hrest, consume_eq.mp hconsume, length_cons] at hlen
      show s.position + 1 ≤ s.input.length
      omega
    · exact rest_advance (hrest.trans (consume_eq.mp hconsume))
  | none =>
    refine Follows.look (a := false) (fun s hpos hrest => ?_) (hno hconsume)
    have hrun := consume_spec hpos expected
    rw [hrest, hconsume] at hrun
    exact hrun

theorem Follows.consume_nil (hno : Follows no [] o) :
    Follows (do if ← Parser.consume expected then yes else no) [] o :=
  .consume (fun _ hsome => nomatch hsome) fun _ => hno

theorem Follows.consume_cons {next : UInt8} (hyes : next = expected → Follows yes rest o)
    (hno : next ≠ expected → Follows no (next :: rest) o) :
    Follows (do if ← Parser.consume expected then yes else no) (next :: rest) o := by
  refine .consume ?_ ?_
  · intro r hsome
    obtain ⟨rfl, rfl⟩ := List.cons.inj (consume_eq.mp hsome)
    exact hyes rfl
  · intro hnone
    refine hno ?_
    rintro rfl
    rw [consume_eq.mpr rfl] at hnone
    cases hnone

variable {n : Nat}

/-- The loop ends within its bound. -/
theorem skipWhitespaceLoop_spec (hpos : s.position ≤ s.input.length) (hn : s.rest.length < n) :
    ∃ s', Parser.skipWhitespaceLoop n s = .ok ((), s') ∧ s'.input = s.input
      ∧ s'.position ≤ s'.input.length ∧ s'.error = s.error ∧ s'.rest = Json.skipWhitespace s.rest := by
  induction n generalizing s with
  | zero => exact absurd hn (Nat.not_lt_zero _)
  | succ n ih =>
    unfold Parser.skipWhitespaceLoop
    rw [bind_ok (more_spec hpos)]
    cases hrest : s.rest with
    | nil => exact ⟨s, rfl, rfl, hpos, rfl, hrest⟩
    | cons first rest =>
      show ∃ s', (Parser.character >>= _) s = _ ∧ _
      rw [bind_ok (character_spec hrest)]
      cases hblank : isWhitespace first with
      | false =>
        rw [skipWhitespace_cons hblank]
        exact ⟨s, rfl, rfl, hpos, rfl, hrest⟩
      | true =>
        have hnext := rest_advance hrest
        have hlen := s.length_rest
        rw [hrest, length_cons] at hlen hn
        obtain ⟨s', hrun, hinput, hpos', herror, hrest'⟩ :=
          ih (s := { s with position := s.position + 1 }) (by dsimp only; omega) (by rw [hnext]; omega)
        refine ⟨s', hrun, hinput, hpos', herror, ?_⟩
        rw [hrest', hnext]
        exact (dropWhile_cons_of_pos hblank).symm

theorem Follows.skipWhitespace (hk : Follows (k ()) (Json.skipWhitespace p) o) :
    Follows (Parser.skipWhitespace >>= k) p o := by
  refine Follows.step (a := ()) (fun s hpos hrest => ?_) hk
  rw [← hrest]
  refine skipWhitespaceLoop_spec hpos ?_
  rw [length_rest]
  exact Nat.lt_succ_self _

/-! ## Strings -/

/-- It reads nothing outside of the text. -/
theorem utf8SequenceLengthAt_spec {input : Bytes} {offset : Nat} (h : offset < input.length) :
    utf8SequenceLengthAt input offset = .ok (utf8SequenceLength (input.drop offset)) := by
  have hbyte : ∀ (index : Nat) {b : UInt8}, (input.drop offset)[index]? = some b →
      byteAt input (offset + index) = .ok b := fun _ _ => byteAt_drop
  have hlen : (input.drop offset).length = input.length - offset := length_drop
  unfold utf8SequenceLengthAt
  rw [if_neg (Nat.not_le.mpr h)]
  generalize input.drop offset = rest at hbyte hlen
  rcases rest with _ | ⟨first, rest⟩
  · rw [length_nil] at hlen
    omega
  rw [show byteAt input offset = .ok first from hbyte 0 rfl]
  dsimp only [utf8SequenceLength, Bind.bind, Except.bind]
  split
  · rfl
  split
  · rcases rest with _ | ⟨second, rest⟩
    · rw [if_neg (by simp only [length_cons, length_nil] at hlen; omega)]
    · rw [if_pos (by simp only [length_cons] at hlen; omega), hbyte 1 rfl]
  split
  · rcases rest with _ | ⟨second, _ | ⟨third, rest⟩⟩
    iterate 2
      · rw [if_pos (by simp only [length_cons, length_nil] at hlen; omega)]
    · rw [if_neg (by simp only [length_cons] at hlen; omega), hbyte 1 rfl,
        hbyte 2 rfl]
  split
  · rcases rest with _ | ⟨second, _ | ⟨third, _ | ⟨fourth, rest⟩⟩⟩
    iterate 3
      · rw [if_pos (by simp only [length_cons, length_nil] at hlen; omega)]
    · rw [if_neg (by simp only [length_cons] at hlen; omega), hbyte 1 rfl,
        hbyte 2 rfl, hbyte 3 rfl]
  · rfl

theorem Follows.hexDigits {indices : List Nat} {digits : Bytes} (h : indices.map (p[·]?) = digits.map some) :
    Follows (Parser.hexDigits indices) p (if digits.all isHexDigit then some p else none) := by
  induction indices generalizing digits with
  | nil =>
    cases digits with
    | nil => exact .accept p
    | cons => cases h
  | cons index indices ih =>
    cases digits with
    | nil => cases h
    | cons digit digits =>
      obtain ⟨hdigit, hrest⟩ := List.cons.inj h
      unfold Parser.hexDigits
      refine .characterAt hdigit ?_
      rw [all_cons]
      cases isHexDigit digit with
      | true => exact ih hrest
      | false => exact .fail (by decide) p

theorem parseUnicode_follows (p : Bytes) : Follows Parser.parseUnicode p
    (match p with
    | a :: b :: c :: d :: rest =>
      if isHexDigit a && isHexDigit b && isHexDigit c && isHexDigit d then some rest else none
    | _ => none) := by
  unfold Parser.parseUnicode
  have hlook : ∀ s : Parser, s.position ≤ s.input.length → s.rest = p →
      Parser.fewerThanFour s = .ok (decide (p.length < 4), s) := by
    intro s hpos hrest
    have hlen := s.length_rest
    rw [hrest] at hlen
    unfold Parser.fewerThanFour
    rw [decide_eq_decide.mpr (by omega : s.input.length < s.position + 4 ↔ p.length < 4)]
  refine .look hlook ?_
  rcases p with _ | ⟨a, _ | ⟨b, _ | ⟨c, _ | ⟨d, rest⟩⟩⟩⟩
  iterate 4 exact .fail (by decide) _
  have hmany : decide ((a :: b :: c :: d :: rest).length < 4) = false :=
    decide_eq_false (by simp only [length_cons]; omega)
  rw [hmany]
  have hdigits : Follows (Parser.hexDigits [0, 1, 2, 3]) (a :: b :: c :: d :: rest)
      (if [a, b, c, d].all isHexDigit then some (a :: b :: c :: d :: rest) else none) := .hexDigits rfl
  have hall : [a, b, c, d].all isHexDigit
      = (isHexDigit a && isHexDigit b && isHexDigit c && isHexDigit d) := by
    simp only [all_cons, all_nil, Bool.and_true, Bool.and_assoc]
  rw [hall] at hdigits
  have haccepts : ∀ r, (if (isHexDigit a && isHexDigit b && isHexDigit c && isHexDigit d) = true
      then some (a :: b :: c :: d :: rest) else none) = some r →
      Follows (do Parser.advance 4; return true) r (some (r.drop 4)) := by
    intro r hr
    split at hr
    · cases hr
      exact .advance (by simp only [length_cons]; omega) (.accept _)
    · cases hr
  have h := hdigits.andThen haccepts
  show Follows (Parser.andThen _ _) _
    (if (isHexDigit a && isHexDigit b && isHexDigit c && isHexDigit d) = true then some rest else none)
  cases hhex : isHexDigit a && isHexDigit b && isHexDigit c && isHexDigit d with
  | true | false =>
    rw [hhex] at h
    exact h

theorem parseEscape_follows (p : Bytes) : Follows Parser.parseEscape p ((Json.parseEscape p).map Prod.snd) := by
  unfold Parser.parseEscape
  refine .atEnd ?_
  cases p with
  | nil => exact .fail (by decide) _
  | cons escape rest =>
    refine .character (.advance (by simp only [length_cons]; omega) ?_)
    rw [drop_one, tail_cons]
    unfold Json.parseEscape
    dsimp only
    by_cases hshort : escape ∈ [0x22, 0x5C, 0x2F, 0x62, 0x66, 0x6E, 0x72, 0x74] <;>
      simp only [mem_cons, not_mem_nil, or_false] at hshort
    · rcases hshort with rfl | rfl | rfl | rfl | rfl | rfl | rfl | rfl <;> exact .accept rest
    · rw [if_neg hshort]
      simp only [not_or] at hshort
      obtain ⟨hquote, hbackslash, hslash, hb, hf, hn, hr, ht⟩ := hshort
      have hsame : ¬(escape = 0x22 ∨ escape = 0x5C ∨ escape = 0x2F) := by
        rintro (h | h | h)
        · exact hquote h
        · exact hbackslash h
        · exact hslash h
      rw [if_neg hsame, if_neg hb, if_neg hf, if_neg hn, if_neg hr, if_neg ht]
      by_cases hu : escape = 0x75
      · rw [if_pos hu, if_pos hu]
        have hcode := parseUnicode_follows rest
        rcases rest with _ | ⟨a, _ | ⟨b, _ | ⟨c, _ | ⟨d, rest⟩⟩⟩⟩
        iterate 4 exact hcode
        dsimp only at hcode ⊢
        split
        · rename_i hdigits
          rw [if_pos hdigits] at hcode
          exact hcode
        · rename_i hdigits
          rw [if_neg hdigits] at hcode
          exact hcode
      · rw [if_neg hu, if_neg hu]
        exact .fail (by decide) rest

theorem parseSequence_follows (first : UInt8) (rest : Bytes) : Follows Parser.parseSequence (first :: rest)
      (if utf8SequenceLength (first :: rest) = 0 then none
      else some ((first :: rest).drop (utf8SequenceLength (first :: rest)))) := by
  unfold Parser.parseSequence
  refine .look (a := utf8SequenceLength (first :: rest)) ?_ ?_
  · intro s hpos hrest
    have hlen := s.length_rest
    rw [hrest, length_cons] at hlen
    unfold Parser.sequenceLength
    rw [utf8SequenceLengthAt_spec (by omega), show s.input.drop s.position = first :: rest from hrest]
  · split
    · exact .fail (by decide) _
    · exact .advance (utf8SequenceLength_le _) (.accept _)

theorem map_snd_bind {α β γ : Type} (x : Option (α × Bytes)) (f : Bytes → Option (β × Bytes)) (g : α → β → γ) :
    (do let (a, r) ← x; let (b, r) ← f r; some (g a b, r) : Option (γ × Bytes)).map Prod.snd
      = (x.map Prod.snd).bind fun r => (f r).map Prod.snd := by
  cases x with
  | none => rfl
  | some found =>
    show Option.map Prod.snd ((f found.2).bind _) = (f found.2).map Prod.snd
    cases f found.2 <;> rfl

theorem parseCharacters_follows (hn : p.length < n) :
    Follows (Parser.parseCharacters n) p ((Json.parseCharacters n p).map Prod.snd) := by
  induction n generalizing p with
  | zero => exact absurd hn (Nat.not_lt_zero _)
  | succ n ih =>
    unfold Parser.parseCharacters
    refine .more ?_
    cases p with
    | nil => exact .fail (by decide) _
    | cons character rest =>
      refine .character ?_
      rw [length_cons] at hn
      have hone : 1 ≤ (character :: rest).length := Nat.succ_le_succ (Nat.zero_le _)
      unfold Json.parseCharacters
      by_cases hquote : character = 0x22
      · rw [if_pos hquote, if_pos hquote]
        exact .advance hone (.accept rest)
      rw [if_neg hquote, if_neg hquote, map_snd_bind]
      unfold Json.parseCharacter
      by_cases hcontrol : character < 0x20
      · rw [if_pos hcontrol, if_pos hcontrol]
        exact .fail (by decide) _
      rw [if_neg hcontrol, if_neg hcontrol]
      by_cases hescape : character = 0x5C
      · rw [if_pos hescape, if_pos hescape]
        refine .advance hone (Follows.andThen (parseEscape_follows rest) ?_)
        intro r hr
        obtain ⟨⟨units, _⟩, hfound, rfl⟩ := Option.map_eq_some_iff.mp hr
        have hlt := length_parseEscape_lt hfound
        exact ih (by dsimp only; omega)
      rw [if_neg hescape, if_neg hescape]
      by_cases hhigh : 0x80 ≤ character
      · rw [if_pos hhigh, if_pos hhigh]
        have hseq := parseSequence_follows character rest
        have h : Follows (Parser.andThen Parser.parseSequence (Parser.parseCharacters n)) _ _ :=
          hseq.andThen (f := fun r => (Json.parseCharacters n r).map Prod.snd) ?_
        · dsimp only
          split
          · rename_i hnone
            rw [if_pos hnone] at h
            exact h
          · rename_i hsome
            rw [if_neg hsome] at h
            exact h
        · intro r hr
          split at hr
          · cases hr
          · cases hr
            rename_i hsome
            refine ih ?_
            rw [length_drop, length_cons]
            omega
      · rw [if_neg hhigh, if_neg hhigh]
        exact .advance hone (ih (p := rest) (by omega))

theorem parseString_follows (p : Bytes) : Follows Parser.parseString p ((Json.parseString p).map Prod.snd) := by
  unfold Parser.parseString
  refine .consume ?_ ?_
  · intro r hr
    refine .rounds ?_
    have h := parseCharacters_follows (Nat.lt_succ_self r.length)
    unfold Json.parseString
    rw [hr]
    dsimp only [Option.bind_eq_bind, Option.bind_some]
    cases hfound : Json.parseCharacters (r.length + 1) r with
    | none | some found =>
      rw [hfound] at h
      exact h
  · intro hnone
    unfold Json.parseString
    rw [hnone]
    exact .fail (by decide) p

/-! ## Literals and numbers -/

theorem parseLiteral_follows (literal : Bytes) (value : Value) (p : Bytes) :
    Follows (Parser.parseLiteral literal) p ((Json.parseLiteral literal value p).map Prod.snd) := by
  unfold Parser.parseLiteral Json.parseLiteral
  refine .look (a := p.take literal.length) ?_ ?_
  · rintro s hpos rfl
    exact if_pos hpos
  · by_cases hliteral : literal <+: p
    · rw [if_pos (prefix_iff_eq_take.mp hliteral).symm, if_pos (List.isPrefixOf_iff_prefix.mpr hliteral)]
      exact .advance hliteral.length_le (.accept _)
    · rw [if_neg fun h => hliteral (prefix_iff_eq_take.mpr h.symm),
        if_neg fun h => hliteral (List.isPrefixOf_iff_prefix.mp h)]
      exact .fail (by decide) p

theorem parseDigitsLoop_spec (hpos : s.position ≤ s.input.length) (hrest : s.rest = first :: rest)
    (hn : rest.length < n) : ∃ s', Parser.parseDigitsLoop n s = .ok ((), s') ∧ s'.input = s.input
      ∧ s'.position ≤ s'.input.length ∧ s'.error = s.error ∧ s'.rest = rest.dropWhile isDigit := by
  induction n generalizing s first rest with
  | zero => exact absurd hn (Nat.not_lt_zero _)
  | succ n ih =>
    have hlen := s.length_rest
    rw [hrest, length_cons] at hlen
    have hnext := rest_advance hrest
    unfold Parser.parseDigitsLoop
    rw [bind_ok (m := Parser.advance 1) (s := s) rfl, bind_ok (more_spec (by dsimp only; omega)), hnext]
    cases rest with
    | nil => exact ⟨_, rfl, rfl, by dsimp only; omega, rfl, hnext⟩
    | cons second rest =>
      show ∃ s', (Parser.character >>= _) _ = _ ∧ _
      rw [bind_ok (character_spec hnext)]
      rw [length_cons] at hn
      cases hdigit : isDigit second with
      | false =>
        rw [dropWhile_cons_of_neg (by rw [hdigit]; decide)]
        exact ⟨_, rfl, rfl, by dsimp only; omega, rfl, hnext⟩
      | true =>
        rw [dropWhile_cons_of_pos hdigit]
        exact ih (s := { s with position := s.position + 1 }) (by dsimp only; omega) hnext (by omega)

theorem parseDigits_follows (hmessage : message ≠ "") (p : Bytes) :
    Follows (Parser.parseDigits message) p (Json.parseDigits p) := by
  unfold Parser.parseDigits
  refine .atEnd ?_
  cases p with
  | nil => exact .fail hmessage _
  | cons first rest =>
    refine .character ?_
    unfold Json.parseDigits
    dsimp only
    cases hdigit : isDigit first with
    | false => exact .fail hmessage _
    | true =>
      refine .rounds (Follows.step (a := ()) (fun s hpos hrest => ?_) (.accept _))
      refine parseDigitsLoop_spec hpos hrest ?_
      rw [length_cons]
      omega

theorem parseInteger_follows (p : Bytes) : Follows Parser.parseInteger p (Json.parseInteger p) := by
  unfold Parser.parseInteger
  refine .consume ?_ ?_
  · intro r hzero
    unfold Json.parseInteger
    rw [hzero]
    refine .more ?_
    cases r with
    | nil => exact .accept _
    | cons first rest =>
      refine .character ?_
      show Follows _ _ (if isDigit first then none else some (first :: rest))
      cases isDigit first with
      | false => exact .accept _
      | true => exact .fail (by decide) _
  · intro hzero
    unfold Json.parseInteger
    rw [hzero]
    exact parseDigits_follows (by decide) p

theorem parseFraction_follows (p : Bytes) : Follows Parser.parseFraction p (Json.parseFraction p) := by
  unfold Parser.parseFraction
  refine .consume ?_ ?_
  · intro r hpoint
    unfold Json.parseFraction
    rw [hpoint]
    exact parseDigits_follows (by decide) r
  · intro hpoint
    unfold Json.parseFraction
    rw [hpoint]
    exact .accept p

theorem Follows.parseExponentSign (hk : Follows (k ()) (Json.parseExponentSign p) o) :
    Follows (Parser.parseExponentSign >>= k) p o := by
  refine Follows.step (a := ()) (fun s hpos hrest => ?_) hk
  unfold Parser.parseExponentSign
  rw [bind_ok (more_spec hpos), hrest]
  cases p with
  | nil => exact ⟨s, rfl, rfl, hpos, rfl, hrest⟩
  | cons sign rest =>
    show ∃ s', (Parser.character >>= _) s = _ ∧ _
    rw [bind_ok (character_spec hrest)]
    unfold Json.parseExponentSign
    dsimp only
    split
    · have hlen := s.length_rest
      rw [hrest, length_cons] at hlen
      exact ⟨_, rfl, rfl, by dsimp only; omega, rfl, rest_advance hrest⟩
    · exact ⟨s, rfl, rfl, hpos, rfl, hrest⟩

theorem parseExponent_follows (p : Bytes) : Follows Parser.parseExponent p (Json.parseExponent p) := by
  unfold Parser.parseExponent
  refine .more ?_
  cases p with
  | nil => exact .accept _
  | cons first rest =>
    refine .character ?_
    unfold Json.parseExponent
    dsimp only
    split
    · exact .advance (Nat.succ_le_succ (Nat.zero_le _))
        (.parseExponentSign (parseDigits_follows (by decide) _))
    · exact .accept _

theorem andThen_assoc (first second third : ParserM Bool) : Parser.andThen first (Parser.andThen second third)
      = Parser.andThen (Parser.andThen first second) third := by
  unfold Parser.andThen
  rw [bind_assoc]
  refine bind_congr fun accepted => ?_
  cases accepted <;> rfl

theorem Follows.consumeSign {k : Bool → ParserM Bool} (hk : ∀ found, Follows (k found) (parseSign p) o) :
    Follows (Parser.consume 0x2D >>= k) p o := by
  intro s hpos hrest
  rw [bind_ok (consume_spec hpos 0x2D), hrest]
  have hlen := s.length_rest
  cases hminus : Json.consume 0x2D p with
  | some r =>
    have hsign : parseSign p = r := by
      unfold parseSign
      rw [hminus]
      rfl
    rw [hrest, consume_eq.mp hminus, length_cons] at hlen
    have hnext : ({ s with position := s.position + 1 } : Parser).rest = r :=
      rest_advance (hrest.trans (consume_eq.mp hminus))
    refine Outcome.of_state (hk true { s with position := s.position + 1 } ?_ (hnext.trans hsign.symm))
      rfl rfl
    dsimp only
    omega
  | none =>
    have hsign : parseSign p = p := by
      unfold parseSign
      rw [hminus]
      rfl
    exact hk false s hpos (hrest.trans hsign.symm)

/-- `ParseNumber` behind its start. -/
def parseSigned : ParserM Bool := do
  let _ ← Parser.consume 0x2D
  if ← Parser.atEnd then Parser.fail "invalid JSON number"
  else Parser.andThen (Parser.andThen Parser.parseInteger Parser.parseFraction) Parser.parseExponent

theorem parseSigned_follows (p : Bytes) : Follows parseSigned p ((Json.parseNumber p).map Prod.snd) := by
  have hnum : (Json.parseNumber p).map Prod.snd
      = ((Json.parseInteger (parseSign p)).bind Json.parseFraction).bind Json.parseExponent := by
    unfold Json.parseNumber
    cases Json.parseInteger (parseSign p) with
    | none => rfl
    | some r =>
      dsimp only [Option.bind_eq_bind, Option.bind_some]
      cases Json.parseFraction r with
      | none => rfl
      | some r =>
        dsimp only [Option.bind_some]
        cases Json.parseExponent r <;> rfl
  have hthree : ∀ p, Follows
      (Parser.andThen (Parser.andThen Parser.parseInteger Parser.parseFraction) Parser.parseExponent) p
      (((Json.parseInteger p).bind Json.parseFraction).bind Json.parseExponent) := fun p =>
    ((parseInteger_follows p).andThen fun r _ => parseFraction_follows r).andThen
      fun r _ => parseExponent_follows r
  refine .consumeSign fun found => .atEnd ?_
  rw [hnum]
  cases hsign : parseSign p with
  | nil => exact .fail (by decide) _
  | cons first rest => exact hthree (first :: rest)

theorem parseNumber_eq (s : Parser) :
    Parser.parseNumber s = Parser.andThen parseSigned (Parser.isPast s.position) s := by
  have hparts : ∀ start, (do
      let _ ← Parser.consume 0x2D
      if ← Parser.atEnd then Parser.fail "invalid JSON number"
      else Parser.andThen Parser.parseInteger (Parser.andThen Parser.parseFraction
        (Parser.andThen Parser.parseExponent (Parser.isPast start))))
      = Parser.andThen parseSigned (Parser.isPast start) := by
    intro start
    rw [andThen_assoc, andThen_assoc, Parser.andThen.eq_def parseSigned, parseSigned, bind_assoc]
    refine bind_congr fun found => ?_
    rw [bind_assoc]
    refine bind_congr fun ended => ?_
    cases ended <;> rfl
  exact congrFun (hparts s.position) s

theorem parseNumber_follows (p : Bytes) : Follows Parser.parseNumber p ((Json.parseNumber p).map Prod.snd) := by
  intro s hpos hrest
  have hrun := parseSigned_follows p s hpos hrest
  rw [parseNumber_eq]
  unfold Parser.andThen
  generalize hnum : (Json.parseNumber p).map Prod.snd = o at hrun
  generalize hend : parseSigned s = result at hrun
  cases hrun with
  | @accepts s' hinput hpos' herror =>
    rw [bind_ok hend]
    obtain ⟨⟨v, r⟩, hfound, hr⟩ := Option.map_eq_some_iff.mp hnum
    have hlt := length_parseNumber_lt hfound
    dsimp only at hr
    rw [← hrest, hr, length_rest, length_rest, hinput] at hlt
    show Outcome s (some s'.rest) (.ok (decide (s.position < s'.position), s'))
    rw [decide_eq_true (by omega)]
    exact .accepts hinput hpos' herror
  | @rejects s' herror =>
    rw [bind_ok hend]
    exact .rejects herror

/-! ## Arrays, objects and values -/

/-- What follows an element. -/
def behindElement (more : Bytes → Option Bytes) (close : UInt8) (p : Bytes) : Option Bytes :=
  match Json.skipWhitespace p with
  | [] => none
  | next :: rest =>
    if next = close then some rest
    else if next = 0x2C then more (Json.skipWhitespace rest)
    else none

variable {element : ParserM Bool}

theorem parseElements_follows {α : Type} {f : Bytes → Option (α × Bytes)}
    (helement : ∀ p, Follows element p ((f p).map Prod.snd))
    (hlt : ∀ p item r, f p = some (item, r) → r.length < p.length) (close : UInt8) (hmessage : message ≠ "")
    (hn : p.length < n) : Follows (Parser.parseElements element close message n) p
      ((Json.parseElements f close n p).map Prod.snd) := by
  induction n generalizing p with
  | zero => exact absurd hn (Nat.not_lt_zero _)
  | succ n ih =>
    unfold Parser.parseElements
    have hafter : ∀ r, (f p).map Prod.snd = some r → Follows (do
        Parser.skipWhitespace
        if ← Parser.consume close then return true
        else if ← Parser.consume 0x2C then
          Parser.skipWhitespace
          Parser.parseElements element close message n
        else Parser.fail message) r
        (behindElement (fun q => (Json.parseElements f close n q).map Prod.snd) close r) := by
      intro r hr
      unfold behindElement
      obtain ⟨⟨item, left⟩, hfound, hleft⟩ := Option.map_eq_some_iff.mp hr
      dsimp only at hleft
      subst hleft
      have hshort := hlt _ _ _ hfound
      have hskip := length_skipWhitespace_le left
      refine .skipWhitespace ?_
      cases hnext : Json.skipWhitespace left with
      | nil => exact .consume_nil (.consume_nil (.fail hmessage _))
      | cons next rest =>
        rw [hnext, length_cons] at hskip
        have hskip' := length_skipWhitespace_le rest
        dsimp only
        refine .consume_cons ?_ ?_ <;> intro hclose
        · rw [if_pos hclose]
          exact .accept rest
        · rw [if_neg hclose]
          refine .consume_cons ?_ ?_
          · intro hcomma
            rw [if_pos hcomma]
            exact .skipWhitespace (ih (by omega))
          · intro hcomma
            rw [if_neg hcomma]
            exact .fail hmessage _
    have h := (helement p).andThen hafter
    unfold Json.parseElements
    cases hfound : f p with
    | none =>
      rw [hfound] at h
      exact h
    | some found =>
      rw [hfound] at h
      dsimp only [Option.map_some, Option.bind_some, Option.bind_eq_bind, behindElement] at h ⊢
      cases hnext : Json.skipWhitespace found.2 with
      | nil =>
        rw [hnext] at h
        exact h
      | cons next rest =>
        rw [hnext] at h
        dsimp only at h ⊢
        by_cases hclose : next = close
        · rw [if_pos hclose] at h ⊢
          exact h
        rw [if_neg hclose] at h ⊢
        by_cases hcomma : next = 0x2C
        · rw [if_pos hcomma] at h ⊢
          cases hmore : Json.parseElements f close n (Json.skipWhitespace rest) with
          | none | some more =>
            rw [hmore] at h
            exact h
        · rw [if_neg hcomma] at h ⊢
          exact h

theorem parseEnclosed_follows {α : Type} {f : Bytes → Option (α × Bytes)}
    (helement : ∀ p, Follows element p ((f p).map Prod.snd))
    (hlt : ∀ p item r, f p = some (item, r) → r.length < p.length) (close : UInt8) (hmessage : message ≠ "")
    (opening : UInt8) (p : Bytes) : Follows (Parser.parseEnclosed element close message) (opening :: p)
      ((Json.parseEnclosed f close p).map Prod.snd) := by
  unfold Parser.parseEnclosed Json.parseEnclosed
  refine .advance (Nat.succ_le_succ (Nat.zero_le _)) (.skipWhitespace ?_)
  rw [drop_one, tail_cons]
  refine .consume ?_ ?_
  · intro r hclose
    rw [hclose]
    exact .accept r
  · intro hclose
    rw [hclose]
    refine .rounds ?_
    have hskip := length_skipWhitespace_le p
    dsimp only
    rw [parseElements_rounds hlt (n := p.length + 1) (m := (Json.skipWhitespace p).length + 1) (by omega)
      (by omega)]
    exact parseElements_follows helement hlt close hmessage (Nat.lt_succ_self _)

theorem parseMember_follows {value : ParserM Bool} {f : Bytes → Option (Value × Bytes)}
    (hvalue : ∀ p, Follows value p ((f p).map Prod.snd)) (p : Bytes) :
    Follows (Parser.parseMember value) p ((Json.parseMember f p).map Prod.snd) := by
  have hafter : ∀ r, Follows (do
      Parser.skipWhitespace
      if ← Parser.consume 0x3A then value else Parser.fail "expected ':' after JSON object key") r
      ((Json.consume 0x3A (Json.skipWhitespace r)).bind fun r => (f r).map Prod.snd) := by
    intro r
    refine .skipWhitespace (.consume ?_ ?_)
    · intro r' hcolon
      rw [hcolon]
      exact hvalue r'
    · intro hcolon
      rw [hcolon]
      exact .fail (by decide) _
  have h := (parseString_follows p).andThen fun r _ => hafter r
  have hsame : (Json.parseMember f p).map Prod.snd = ((Json.parseString p).map Prod.snd).bind fun r =>
      (Json.consume 0x3A (Json.skipWhitespace r)).bind fun r => (f r).map Prod.snd := by
    unfold Json.parseMember
    cases Json.parseString p with
    | none => rfl
    | some found =>
      dsimp only [Option.bind_eq_bind, Option.bind_some, Option.map_some]
      cases Json.consume 0x3A (Json.skipWhitespace found.2) with
      | none => rfl
      | some r =>
        dsimp only [Option.bind_some]
        cases f r <;> rfl
  rw [hsame]
  exact h

/-- **A value, at every depth**: `ParseValue(depth)` has `levels` left, and one call for each. -/
theorem parseValue_follows {levels calls depth : Nat} (hlevels : levels + depth = kMaximumDepth + 1)
    (hcalls : levels < calls) (p : Bytes) :
    Follows (Parser.parseValue calls depth) p ((Json.parseValue levels p).map Prod.snd) := by
  induction levels generalizing calls depth p with
  | zero =>
    obtain ⟨calls, rfl⟩ : ∃ k, calls = k + 1 := ⟨calls - 1, by omega⟩
    unfold Parser.parseValue
    rw [if_pos (by omega)]
    exact .fail (by decide) p
  | succ levels ih =>
    obtain ⟨calls, rfl⟩ : ∃ k, calls = k + 1 := ⟨calls - 1, by omega⟩
    have hvalue : ∀ p, Follows (Parser.parseValue calls (depth + 1)) p
        ((Json.parseValue levels p).map Prod.snd) := fun p => ih (by omega) (by omega) p
    have hlt : ∀ p v r, Json.parseValue levels p = some (v, r) → r.length < p.length :=
      fun p v r h => length_parseValue_lt h
    unfold Parser.parseValue Json.parseValue
    rw [if_neg (by omega)]
    refine .skipWhitespace (.atEnd ?_)
    cases hnext : Json.skipWhitespace p with
    | nil => exact .fail (by decide) _
    | cons first rest =>
      refine .character ?_
      dsimp only
      by_cases hobject : first = 0x7B
      · rw [if_pos hobject, if_pos hobject]
        have h := parseEnclosed_follows (parseMember_follows hvalue)
          (fun p member r => length_parseMember_lt hlt) 0x7D
          (show "expected ',' or '\x7d' in JSON object" ≠ "" by decide) first rest
        unfold Json.parseObject
        cases hmembers : Json.parseEnclosed (Json.parseMember (Json.parseValue levels)) 0x7D rest with
        | none | some members =>
          rw [hmembers] at h
          exact h
      rw [if_neg hobject, if_neg hobject]
      by_cases harray : first = 0x5B
      · rw [if_pos harray, if_pos harray]
        have h := parseEnclosed_follows hvalue hlt 0x5D
          (show "expected ',' or ']' in JSON array" ≠ "" by decide) first rest
        unfold Json.parseArray
        cases hitems : Json.parseEnclosed (Json.parseValue levels) 0x5D rest with
        | none | some items =>
          rw [hitems] at h
          exact h
      rw [if_neg harray, if_neg harray]
      by_cases hstring : first = 0x22
      · rw [if_pos hstring, if_pos hstring]
        have h := parseString_follows (first :: rest)
        cases htext : Json.parseString (first :: rest) with
        | none | some text =>
          rw [htext] at h
          exact h
      rw [if_neg hstring, if_neg hstring]
      by_cases htrue : first = 0x74
      · rw [if_pos htrue, if_pos htrue]
        exact parseLiteral_follows _ _ _
      rw [if_neg htrue, if_neg htrue]
      by_cases hfalse : first = 0x66
      · rw [if_pos hfalse, if_pos hfalse]
        exact parseLiteral_follows _ _ _
      rw [if_neg hfalse, if_neg hfalse]
      by_cases hnull : first = 0x6E
      · rw [if_pos hnull, if_pos hnull]
        exact parseLiteral_follows _ _ _
      rw [if_neg hnull, if_neg hnull]
      exact parseNumber_follows (first :: rest)

theorem parse_follows (input : Bytes) : Follows Parser.parse input ((Json.parse input).map fun _ => []) := by
  have hlast : ∀ r, Follows (do
      Parser.skipWhitespace
      if ← Parser.atEnd then return true else Parser.fail "unexpected trailing characters") r
      (if (Json.skipWhitespace r).isEmpty then some [] else none) := by
    intro r
    refine .skipWhitespace (.atEnd ?_)
    cases hrest : Json.skipWhitespace r with
    | nil => exact .accept []
    | cons first rest => exact .fail (by decide) _
  have hlevels : kMaximumDepth + 1 + 0 = kMaximumDepth + 1 := rfl
  have h := (parseValue_follows hlevels (Nat.lt_succ_self (kMaximumDepth + 1))
    (Json.skipWhitespace input)).andThen fun r _ => hlast r
  unfold Parser.parse
  refine .skipWhitespace ?_
  unfold Json.parse
  cases hvalue : Json.parseValue (kMaximumDepth + 1) (Json.skipWhitespace input) with
  | none =>
    rw [hvalue] at h
    exact h
  | some found =>
    rw [hvalue] at h
    dsimp only [Option.map_some, Option.bind_some, Option.bind_eq_bind] at h ⊢
    by_cases hempty : (Json.skipWhitespace found.2).isEmpty
    · rw [if_pos hempty] at h ⊢
      exact h
    · rw [if_neg hempty] at h ⊢
      exact h

/-- **`IsValidValue` accepts the JSON texts of RFC 8259, with at most `kMaximumDepth` arrays and objects
    around a value, and nothing else**; on every input it ends, reads no byte outside the text, and gives the error of a text
    that it does not accept. -/
theorem isValidValue_correct (input : Bytes) :
    (input ∈ Grammar.text kMaximumDepth ∧ isValidValue input = .ok none)
      ∨ (input ∉ Grammar.text kMaximumDepth
        ∧ ∃ error, error ≠ "" ∧ isValidValue input = .ok (some error)) := by
  have hrun := parse_follows input { input := input } (Nat.zero_le _) rfl
  rw [← Grammar.isValidValue_iff]
  unfold isValidValue Json.isValidValue
  generalize Parser.parse { input := input } = result at hrun
  cases hparse : Json.parse input with
  | some value =>
    left
    rw [hparse, Option.map_some] at hrun
    generalize hnothing : (some [] : Option Bytes) = left at hrun
    cases hrun with
    | accepts => exact ⟨rfl, rfl⟩
    | rejects => cases hnothing
  | none =>
    right
    rw [hparse, Option.map_none] at hrun
    cases hrun with
    | @rejects s' herror =>
      refine ⟨Bool.false_ne_true, s'.error, herror, ?_⟩
      dsimp only
      rw [if_neg]
      intro hempty
      exact herror (String.isEmpty_iff.mp hempty)

end Parser

end Cockpit.Json
