/-
  JSON that the cockpit writes: numerals, escaped strings, and objects of named members.
-/
import Mathlib.Data.List.Forall2
import Cockpit.Json.Laws

namespace Cockpit.Json

open ByteText List Option

/-- An escaped string in its quotes. -/
def quoted (text : Bytes) : Bytes := 0x22 :: (escapeString text ++ [0x22])

def memberText (key : String) (value : Bytes) : Bytes := 0x22 :: (ascii key ++ 0x22 :: 0x3A :: value)

def membersText (members : List (String × Bytes)) : Bytes :=
  members.flatMap fun member => memberText member.1 member.2 ++ [0x2C]

/-- An object, by its last member and those before it. -/
def objectText (members : List (String × Bytes)) (key : String) (value : Bytes) : Bytes :=
  0x7B :: (membersText members ++ (memberText key value ++ [0x7D]))

/-- The parser takes just this text for the value, wherever something follows that ends a number. -/
def Denotes (levels : Nat) (text : Bytes) (value : Value) : Prop :=
  ∀ q, Ends q → ∃ rest, parseValue levels (text ++ q) = some (value, rest) ∧
    skipWhitespace rest = skipWhitespace q

variable {text : Bytes}

variable {value : Value} {n : Nat}

theorem Denotes.of_parseValue {m : Nat} {r : Bytes} (h : parseValue n text = some (value, r))
    (hrest : skipWhitespace r = []) (hdepth : value.depth < m) : Denotes m text value :=
  fun q hq => ⟨r ++ q, parseValue_append h hdepth hq, skipWhitespace_append_of_nil hrest⟩

/-! ## Numerals -/

theorem parseDigits_eq_nil {b : UInt8} (h : ∀ d ∈ b :: text, isDigit d = true) :
    parseDigits (b :: text) = some [] := by
  unfold parseDigits
  dsimp only
  have hrest : (text ++ []).dropWhile isDigit = [] :=
    dropWhile_append_of_pos fun d hd => h d (mem_cons_of_mem b hd)
  rw [append_nil] at hrest
  rw [if_pos (h b mem_cons_self), hrest]

theorem parseInteger_natNumeral (n : Nat) : parseInteger (natNumeral n) = some [] := by
  obtain ⟨b, text, heq, hzero⟩ := natNumeral_eq_cons n
  have hdigits := isDigit_of_mem_natNumeral (n := n)
  rw [heq] at hdigits ⊢
  by_cases hb : b = 0x30
  · rw [hb, hzero hb]
    rfl
  · have hnone : consume 0x30 (b :: text) = none := if_neg hb
    unfold parseInteger
    rw [hnone]
    exact parseDigits_eq_nil hdigits

theorem parseSign_natNumeral (n : Nat) (q : Bytes) : parseSign (natNumeral n ++ q) = natNumeral n ++ q := by
  obtain ⟨b, text, heq, -⟩ := natNumeral_eq_cons n
  have hb := isDigit_of_mem_natNumeral b (by rw [heq]; exact mem_cons_self)
  have hnone : consume 0x2D (natNumeral n ++ q) = none := by
    rw [heq]
    exact if_neg (ne_of_isDigit hb (by decide))
  unfold parseSign
  rw [hnone]
  rfl

def signed (negative : Bool) (n : Nat) (rest : Bytes) : Bytes :=
  if negative then 0x2D :: (natNumeral n ++ rest) else natNumeral n ++ rest

theorem parseSign_signed (negative : Bool) (n : Nat) (q : Bytes) :
    parseSign (signed negative n q) = natNumeral n ++ q := by
  cases negative with
  | true => rfl
  | false => exact parseSign_natNumeral n q

theorem exists_signed (negative : Bool) (n : Nat) (q : Bytes) :
    ∃ b text, signed negative n q = b :: text ∧ (b = 0x2D ∨ isDigit b = true) := by
  cases negative with
  | true => exact ⟨0x2D, natNumeral n ++ q, rfl, .inl rfl⟩
  | false =>
    obtain ⟨b, text, heq, -⟩ := natNumeral_eq_cons n
    refine ⟨b, text ++ q, by rw [← cons_append, ← heq]; rfl, .inr ?_⟩
    exact isDigit_of_mem_natNumeral b (by rw [heq]; exact mem_cons_self)

theorem denotes_signed {negative : Bool} {levels : Nat} {fraction : Bytes} (hlevels : 0 < levels)
    (hfraction : fraction = [] ∨ ∃ d, isDigit d = true ∧ fraction = [0x2E, d]) :
    Denotes levels (signed negative n fraction) (.number (signed negative n fraction)) := by
  have hnum : parseNumber (signed negative n fraction) =
      some (.number (signed negative n fraction), []) := by
    refine bind_eq_some_iff.mpr ⟨fraction, ?_, ?_⟩
    · rw [parseSign_signed]
      refine parseInteger_append (parseInteger_natNumeral n) ?_
      obtain rfl | ⟨d, _, rfl⟩ := hfraction
      · trivial
      · exact (by decide : isDigit 0x2E = false)
    · refine bind_eq_some_iff.mpr ⟨[], ?_, ?_⟩
      · obtain rfl | ⟨d, hd, rfl⟩ := hfraction
        · rfl
        · exact parseDigits_eq_nil fun d' hd' => by rwa [mem_singleton.mp hd']
      · refine bind_eq_some_iff.mpr ⟨[], rfl, ?_⟩
        rw [length_nil, Nat.sub_zero, take_length]
  refine Denotes.of_parseValue (n := 1) (r := []) ?_ rfl hlevels
  obtain ⟨b, text, heq, hb⟩ := exists_signed negative n fraction
  rw [heq] at hnum ⊢
  rw [parseValue_number hb]
  exact hnum

theorem intNumeral_eq_signed (n : Int) : intNumeral n = signed (n < 0) n.natAbs [] := by
  unfold intNumeral signed
  rw [append_nil]
  by_cases h : n < 0 <;> simp [h]

theorem denotes_intNumeral {levels : Nat} (hlevels : 0 < levels) (n : Int) :
    Denotes levels (intNumeral n) (.number (intNumeral n)) := by
  rw [intNumeral_eq_signed]
  exact denotes_signed hlevels (.inl rfl)

theorem denotes_boolean {levels : Nat} (hlevels : 0 < levels) (value : Bool) :
    Denotes levels (ascii (if value then "true" else "false")) (.boolean value) := by
  refine Denotes.of_parseValue (n := 1) (r := []) ?_ rfl hlevels
  cases value <;> rfl

/-! ## Strings -/

theorem decode_code_of_lt {unit : Nat} (h : unit < 0xD800) (units : List StringUnit) :
    decode (.code unit :: units) = utf8Bytes unit ++ decode units := by
  cases units with
  | nil => rfl
  | cons next units =>
    cases next with
    | byte value => rfl
    | code low =>
      rw [decode, if_neg (by omega)]

/-- `escapeString` puts out `first :: tail` for the character and the `more` bytes of its UTF-8 sequence;
    the parser takes this in one round and has the bytes back. -/
structure Escaped (character : UInt8) (more : Bytes) (first : UInt8) (tail : Bytes)
    (units : List StringUnit) : Prop where
  escape : ∀ rest, escapeCharacter character (more ++ rest) = (first :: tail, rest)
  quote : first ≠ 0x22
  parse : ∀ q, parseCharacter first (tail ++ q) = some (units, q)
  decode : ∀ following, decode (units ++ following) = character :: (more ++ decode following)
  line : newline ∉ first :: tail

variable {character : UInt8}

theorem escaped_short (h : character ∈ [0x5C, 0x22, 0x08, 0x0C, 0x0A, 0x0D, 0x09]) :
    ∃ escape, Escaped character [] 0x5C [escape] [.byte character] := by
  simp only [mem_cons, not_mem_nil, or_false] at h
  rcases h with rfl | rfl | rfl | rfl | rfl | rfl | rfl
  · exact ⟨0x5C, fun _ => rfl, by decide, fun _ => rfl, fun _ => rfl, by decide⟩
  · exact ⟨0x22, fun _ => rfl, by decide, fun _ => rfl, fun _ => rfl, by decide⟩
  · exact ⟨0x62, fun _ => rfl, by decide, fun _ => rfl, fun _ => rfl, by decide⟩
  · exact ⟨0x66, fun _ => rfl, by decide, fun _ => rfl, fun _ => rfl, by decide⟩
  · exact ⟨0x6E, fun _ => rfl, by decide, fun _ => rfl, fun _ => rfl, by decide⟩
  · exact ⟨0x72, fun _ => rfl, by decide, fun _ => rfl, fun _ => rfl, by decide⟩
  · exact ⟨0x74, fun _ => rfl, by decide, fun _ => rfl, fun _ => rfl, by decide⟩

theorem hexDigits_spec (h : character < 0x20) :
    isHexDigit (hexDigit (character >>> 4)) = true ∧ isHexDigit (hexDigit (character &&& 0x0F)) = true ∧
      hexValue (hexDigit (character >>> 4)) * 16 + hexValue (hexDigit (character &&& 0x0F)) =
        character.toNat ∧
      newline ∉ [hexDigit (character >>> 4), hexDigit (character &&& 0x0F)] := by
  have hall : ∀ n : Fin 32,
      isHexDigit (hexDigit (UInt8.ofNat n >>> 4)) = true ∧
      isHexDigit (hexDigit (UInt8.ofNat n &&& 0x0F)) = true ∧
      hexValue (hexDigit (UInt8.ofNat n >>> 4)) * 16 + hexValue (hexDigit (UInt8.ofNat n &&& 0x0F)) =
        (UInt8.ofNat n).toNat ∧
      newline ∉ [hexDigit (UInt8.ofNat n >>> 4), hexDigit (UInt8.ofNat n &&& 0x0F)] := by
    decide
  have := hall ⟨character.toNat, UInt8.lt_iff_toNat_lt.mp h⟩
  rwa [UInt8.ofNat_toNat] at this

theorem escaped_control (hshort : character ∉ [0x5C, 0x22, 0x08, 0x0C, 0x0A, 0x0D, 0x09]) (h : character < 0x20) :
    ∃ tail units, Escaped character [] 0x5C tail units := by
  obtain ⟨hhigh, hlow, hvalue, hline⟩ := hexDigits_spec h
  simp only [mem_cons, not_mem_nil, or_false, not_or] at hshort
  obtain ⟨h1, h2, h3, h4, h5, h6, h7⟩ := hshort
  refine ⟨[0x75, 0x30, 0x30, hexDigit (character >>> 4), hexDigit (character &&& 0x0F)],
    [.code character.toNat], fun rest => ?_, by decide, fun q => ?_, fun following => ?_, ?_⟩
  · unfold escapeCharacter
    rw [if_neg h1, if_neg h2, if_neg h3, if_neg h4, if_neg h5, if_neg h6, if_neg h7, if_pos h]
    rfl
  · show (if (isHexDigit 0x30 && isHexDigit 0x30 && isHexDigit (hexDigit (character >>> 4)) &&
      isHexDigit (hexDigit (character &&& 0x0F))) = true then _ else _) = _
    rw [hhigh, hlow, if_pos (by decide)]
    simp only [show hexValue 0x30 = 0 from rfl, Nat.zero_mul, Nat.zero_add, hvalue]
    rfl
  · have hlt : character.toNat < 0x20 := UInt8.lt_iff_toNat_lt.mp h
    rw [singleton_append, decode_code_of_lt (by omega)]
    unfold utf8Bytes
    rw [if_pos (by omega), UInt8.ofNat_toNat]
    rfl
  · have hhead : newline ∉ ([0x5C, 0x75, 0x30, 0x30] : Bytes) := by decide
    exact fun hmem => (mem_append.mp (show _ ∈ ([0x5C, 0x75, 0x30, 0x30] : Bytes) ++ _ from hmem)).elim
      hhead hline

theorem escaped_plain (hquote : character ≠ 0x22) (hescape : character ≠ 0x5C) (hlow : 0x20 ≤ character)
    (hhigh : character ≤ 0x7F) : Escaped character [] character [] [.byte character] := by
  have hcontrol : ¬character < 0x20 := UInt8.not_lt.mpr hlow
  have hascii : ¬0x80 ≤ character := fun h => absurd (UInt8.le_trans h hhigh) (by decide)
  have hne {c : UInt8} (hc : c < 0x20) : character ≠ c := by
    rintro rfl
    exact hcontrol hc
  refine ⟨fun rest => ?_, hquote, fun q => ?_, fun _ => rfl, ?_⟩
  · unfold escapeCharacter
    rw [if_neg hescape, if_neg hquote, if_neg (hne (by decide)), if_neg (hne (by decide)),
      if_neg (hne (by decide)), if_neg (hne (by decide)), if_neg (hne (by decide)), if_neg hcontrol,
      if_neg hascii]
    rfl
  · unfold parseCharacter
    rw [if_neg hcontrol, if_neg hescape, if_neg hascii]
    rfl
  · rw [mem_singleton]
    exact (hne (by decide)).symm

theorem escaped_sequence {more : Bytes} (hlow : 0xC2 ≤ character) (hmore : ∀ b ∈ more, isTail b = true)
    (hlen : ∀ rest, utf8SequenceLength (character :: (more ++ rest)) = more.length + 1) :
    Escaped character more character more ((character :: more).map .byte) := by
  have hhigh : 0x80 ≤ character := UInt8.le_trans (by decide) hlow
  have hcontrol : ¬character < 0x20 := UInt8.not_lt.mpr (UInt8.le_trans (by decide) hhigh)
  have hne {c : UInt8} (hc : c < 0x80) : character ≠ c := by
    rintro rfl
    exact UInt8.not_lt.mpr hhigh hc
  have htake (rest : Bytes) : (character :: (more ++ rest)).take (more.length + 1) = character :: more := by
    rw [take_succ_cons, take_left]
  have hdrop (rest : Bytes) : (character :: (more ++ rest)).drop (more.length + 1) = rest := by
    rw [drop_succ_cons, drop_left]
  refine ⟨fun rest => ?_, hne (by decide), fun q => ?_, fun following => ?_, ?_⟩
  · unfold escapeCharacter
    dsimp only
    rw [if_neg (hne (by decide)), if_neg (hne (by decide)), if_neg (hne (by decide)),
      if_neg (hne (by decide)), if_neg (hne (by decide)), if_neg (hne (by decide)),
      if_neg (hne (by decide)), if_neg hcontrol, if_pos hhigh, hlen, if_neg (Nat.succ_ne_zero _),
      htake, hdrop]
  · unfold parseCharacter
    dsimp only
    rw [if_neg hcontrol, if_neg (hne (by decide)), if_pos hhigh, hlen, if_neg (Nat.succ_ne_zero _),
      htake, hdrop]
  · have hbytes (bytes : Bytes) : Json.decode (bytes.map .byte ++ following) = bytes ++ Json.decode following := by
      induction bytes with
      | nil => rfl
      | cons b bytes ih => exact congrArg (b :: ·) ih
    exact hbytes (character :: more)
  · intro hmem
    obtain heq | hmem := mem_cons.mp hmem
    · exact hne (by decide) heq.symm
    · exact absurd (hmore _ hmem) (by decide)

theorem escaped_ascii (h : character ≤ 0x7F) : ∃ first tail units, Escaped character [] first tail units := by
  by_cases hshort : character ∈ [0x5C, 0x22, 0x08, 0x0C, 0x0A, 0x0D, 0x09]
  · obtain ⟨escape, hescaped⟩ := escaped_short hshort
    exact ⟨_, _, _, hescaped⟩
  by_cases hcontrol : character < 0x20
  · obtain ⟨tail, units, hescaped⟩ := escaped_control hshort hcontrol
    exact ⟨_, _, _, hescaped⟩
  · simp only [mem_cons, not_mem_nil, or_false, not_or] at hshort
    exact ⟨_, _, _, escaped_plain hshort.2.1 hshort.1 (UInt8.not_lt.mp hcontrol) h⟩

section

variable (h : WellFormed text)
include h

/-- A text in UTF-8 is empty, or begins with a character. -/
theorem wellFormed_cases :
    text = [] ∨ ∃ character more rest first tail units, text = character :: (more ++ rest) ∧
      Escaped character more first tail units ∧ WellFormed rest := by
  cases h with
  | nil => exact .inl rfl
  | @one a rest ha h =>
    obtain ⟨first, tail, units, hescaped⟩ := escaped_ascii ha
    exact .inr ⟨a, [], rest, first, tail, units, rfl, hescaped, h⟩
  | @two a b rest hlow hhigh hb h =>
    refine .inr ⟨a, [b], rest, _, _, _, rfl, escaped_sequence hlow ?_ ?_, h⟩
    · simpa using hb
    · exact utf8SequenceLength_two hlow hhigh hb
  | @three a b c rest hlow hhigh hb hc hshort hsurrogate h =>
    refine .inr ⟨a, [b, c], rest, _, _, _, rfl, escaped_sequence ?_ ?_ ?_, h⟩
    · exact UInt8.le_trans (by decide) hlow
    · simpa using ⟨hb, hc⟩
    · exact utf8SequenceLength_three hlow hhigh hb hc hshort hsurrogate
  | @four a b c d rest hlow hhigh hb hc hd hshort hlast h =>
    refine .inr ⟨a, [b, c, d], rest, _, _, _, rfl, escaped_sequence ?_ ?_ ?_, h⟩
    · exact UInt8.le_trans (by decide) hlow
    · simpa using ⟨hb, hc, hd⟩
    · exact utf8SequenceLength_four hlow hhigh hb hc hd hshort hlast

/-- **Escaped text is read back**, up to the quote after it, and has no newline in it. -/
theorem escapeLoop_spec (hn : text.length ≤ n) (q : Bytes) :
    newline ∉ escapeLoop n text ∧
      ∃ units, decode units = text ∧ ∀ m, (escapeLoop n text).length < m →
        parseCharacters m (escapeLoop n text ++ 0x22 :: q) = some (units, q) := by
  induction n generalizing text with
  | zero =>
    obtain rfl := length_eq_zero_iff.mp (Nat.le_zero.mp hn)
    refine ⟨nofun, [], rfl, fun m hm => ?_⟩
    obtain ⟨m, rfl⟩ : ∃ k, m = k + 1 := ⟨m - 1, by omega⟩
    rfl
  | succ n ih =>
    obtain rfl | ⟨character, more, rest, first, tail, units, rfl, hescaped, hrest⟩ := wellFormed_cases h
    · refine ⟨nofun, [], rfl, fun m hm => ?_⟩
      obtain ⟨m, rfl⟩ : ∃ k, m = k + 1 := ⟨m - 1, by omega⟩
      rfl
    · have hlen : rest.length ≤ n := by
        rw [length_cons, length_append] at hn
        omega
      obtain ⟨hline, following, hdecode, hparse⟩ := ih hrest hlen
      have hloop : escapeLoop (n + 1) (character :: (more ++ rest)) = first :: tail ++ escapeLoop n rest := by
        rw [escapeLoop, hescaped.escape]
      rw [hloop]
      refine ⟨fun hmem => (mem_append.mp hmem).elim hescaped.line hline,
        units ++ following, by rw [hescaped.decode, hdecode], fun m hm => ?_⟩
      rw [cons_append, length_cons, length_append] at hm
      obtain ⟨m, rfl⟩ : ∃ k, m = k + 1 := ⟨m - 1, by omega⟩
      rw [cons_append, cons_append, parseCharacters, if_neg hescaped.quote, append_assoc, hescaped.parse]
      refine bind_eq_some_iff.mpr ⟨_, rfl, ?_⟩
      exact bind_eq_some_iff.mpr ⟨_, hparse m (by omega), rfl⟩

theorem newline_notMem_escapeString : newline ∉ escapeString text :=
  (escapeLoop_spec h (Nat.le_refl _) []).1

theorem parseString_quoted (q : Bytes) : parseString (quoted text ++ q) = some (text, q) := by
  obtain ⟨-, units, hdecode, hparse⟩ := escapeLoop_spec h (Nat.le_refl _) q
  have hrest : quoted text ++ q = 0x22 :: (escapeString text ++ 0x22 :: q) := by
    unfold quoted
    rw [cons_append, append_assoc]
    rfl
  have hlt : (escapeString text).length < (escapeString text ++ 0x22 :: q).length + 1 := by
    rw [length_append]
    omega
  rw [hrest]
  show (parseCharacters ((escapeString text ++ 0x22 :: q).length + 1) (escapeString text ++ 0x22 :: q) >>=
    fun found => some (decode found.1, found.2)) = some (text, q)
  rw [show parseCharacters _ (escapeString text ++ 0x22 :: q) = _ from hparse _ hlt, ← hdecode]
  rfl

end

theorem denotes_quoted {levels : Nat} (hlevels : 0 < levels) (h : WellFormed text) :
    Denotes levels (quoted text) (.string text) := by
  refine Denotes.of_parseValue (n := 1) (r := []) ?_ rfl hlevels
  have hstring := parseString_quoted h []
  rw [append_nil] at hstring
  show (parseString (quoted text) >>= fun found => some (Value.string found.1, found.2)) = _
  rw [hstring]
  rfl

/-! ## Objects -/

/-- Nothing to escape. -/
def PlainKey (key : String) : Prop :=
  escapeString (ascii key) = ascii key ∧ (∀ b ∈ ascii key, b ≤ 0x7F)

instance (key : String) : Decidable (PlainKey key) := @instDecidableAnd _ _ _ (List.decidableBAll _ _)

theorem parseString_key {key : String} (h : PlainKey key) (q : Bytes) :
    parseString (0x22 :: (ascii key ++ 0x22 :: q)) = some (ascii key, q) := by
  have hquoted := parseString_quoted (WellFormed.of_ascii h.2) q
  unfold quoted at hquoted
  rw [h.1, cons_append, append_assoc] at hquoted
  exact hquoted

theorem parseMember_eq {key : String} (h : PlainKey key) (value : Bytes → Option (Value × Bytes)) (q : Bytes) :
    parseMember value (memberText key q) = (value q).bind fun found => some ((ascii key, found.1), found.2) := by
  unfold parseMember memberText
  rw [parseString_key h]
  rfl

theorem memberText_append (key : String) (value q : Bytes) :
    memberText key value ++ q = memberText key (value ++ q) := by
  unfold memberText
  simp only [cons_append, append_assoc]

theorem membersText_cons (key : String) (value : Bytes) (members : List (String × Bytes)) (q : Bytes) :
    membersText ((key, value) :: members) ++ q = memberText key (value ++ 0x2C :: (membersText members ++ q)) := by
  unfold membersText
  rw [flatMap_cons, append_assoc, append_assoc, memberText_append]
  rfl

theorem exists_members (members : List (String × Bytes)) (key : String) (q : Bytes) :
    ∃ rest, membersText members ++ memberText key q = 0x22 :: rest := by
  cases members with
  | nil => exact ⟨_, rfl⟩
  | cons member members => exact ⟨_, membersText_cons member.1 member.2 members _⟩

theorem skipWhitespace_members (members : List (String × Bytes)) (key : String) (q : Bytes) :
    skipWhitespace (membersText members ++ memberText key q) = membersText members ++ memberText key q := by
  obtain ⟨rest, heq⟩ := exists_members members key q
  rw [heq]
  exact skipWhitespace_cons (by decide) rest

theorem length_members (members : List (String × Bytes)) (key : String) (q : Bytes) :
    members.length < (membersText members ++ memberText key q).length := by
  induction members with
  | nil => exact Nat.succ_pos _
  | cons member members ih =>
    obtain ⟨name, value⟩ := member
    rw [membersText_cons, ← memberText_append, length_append, length_cons, length_cons]
    omega

/-- What the members of an object denote: the last key and value come after `members`. -/
structure MembersDenote (levels : Nat) (members : List (String × Bytes)) (values : List Value) : Prop where
  keys : ∀ member ∈ members, PlainKey member.1
  values : List.Forall₂ (fun member value => Denotes levels member.2 value) members values

variable {levels : Nat} {members : List (String × Bytes)} {values : List Value} {key : String}

theorem parseElements_members (h : MembersDenote levels members values) (key : String) (hn : members.length < n)
    (q : Bytes) :
    ∃ m, 0 < m ∧ parseElements (parseMember (parseValue levels)) 0x7D n (membersText members ++ memberText key q) =
      (parseElements (parseMember (parseValue levels)) 0x7D m (memberText key q)).bind fun found =>
        some ((members.map fun member => ascii member.1).zip values ++ found.1, found.2) := by
  induction members generalizing n values with
  | nil =>
    obtain ⟨-, hvalues⟩ := h
    cases hvalues
    refine ⟨n, hn, ?_⟩
    show parseElements _ _ n (memberText key q) = _
    cases parseElements (parseMember (parseValue levels)) 0x7D n (memberText key q) <;> rfl
  | cons member members ih =>
    obtain ⟨hkeys, hvalues⟩ := h
    obtain ⟨name, text⟩ := member
    obtain ⟨n, rfl⟩ : ∃ k, n = k + 1 := ⟨n - 1, by omega⟩
    cases hvalues with
    | cons hvalue hvalues =>
      rename_i value values
      obtain ⟨m, hm, heq⟩ := ih ⟨fun member hmem => hkeys member (mem_cons_of_mem _ hmem), hvalues⟩
        (n := n) (by rw [length_cons] at hn; omega)
      refine ⟨m, hm, ?_⟩
      obtain ⟨rest, hparse, hskip⟩ := hvalue (0x2C :: (membersText members ++ memberText key q))
        ⟨by decide, by decide, by decide, by decide⟩
      rw [skipWhitespace_cons (by decide)] at hskip
      rw [membersText_cons, parseElements, parseMember_eq (hkeys (name, text) mem_cons_self), hparse]
      dsimp only [bind_eq_bind, bind_some]
      rw [hskip]
      dsimp only
      rw [if_neg (by decide), if_pos rfl, skipWhitespace_members, heq]
      cases parseElements (parseMember (parseValue levels)) 0x7D m (memberText key q) <;> rfl

theorem parseValue_members (h : MembersDenote levels members values) (key : String) (q : Bytes) :
    ∃ m, parseValue (levels + 1) (0x7B :: (membersText members ++ memberText key q)) =
      (parseElements (parseMember (parseValue levels)) 0x7D (m + 1) (memberText key q)).bind fun found =>
        some (.object ((members.map fun member => ascii member.1) ++ found.1.map Prod.fst)
          (values ++ found.1.map Prod.snd), found.2) := by
  obtain ⟨m, hm, heq⟩ := parseElements_members h key
    (Nat.lt_succ_of_lt (length_members members key q)) q
  refine ⟨m - 1, ?_⟩
  rw [Nat.sub_add_cancel hm]
  have hobject : parseValue (levels + 1) (0x7B :: (membersText members ++ memberText key q)) =
      parseObject (parseValue levels) (membersText members ++ memberText key q) := by
    rw [parseValue, skipWhitespace_cons (by decide)]
    exact if_pos rfl
  have hclose : consume 0x7D (membersText members ++ memberText key q) = none := by
    obtain ⟨rest, hrest⟩ := exists_members members key q
    rw [hrest]
    rfl
  rw [hobject]
  unfold parseObject parseEnclosed
  rw [skipWhitespace_members, hclose]
  dsimp only
  rw [heq]
  have hlen : (members.map fun member => ascii member.1).length = values.length := by
    rw [length_map]
    exact h.values.length_eq
  cases parseElements (parseMember (parseValue levels)) 0x7D m (memberText key q) with
  | none => rfl
  | some found =>
    dsimp only [bind_eq_bind, bind_some]
    rw [map_append, map_append, map_fst_zip (Nat.le_of_eq hlen), map_snd_zip (Nat.le_of_eq hlen.symm)]

theorem parse_eq_some :
    parse text = some value ↔
      ∃ rest, parseValue (kMaximumDepth + 1) text = some (value, rest) ∧ skipWhitespace rest = [] := by
  unfold parse
  rw [parseValue_skipWhitespace]
  constructor
  · intro h
    obtain ⟨⟨found, rest⟩, hparse, h⟩ := bind_eq_some_iff.mp h
    dsimp only at h
    split_ifs at h with hblank
    cases h
    exact ⟨rest, hparse, isEmpty_iff.mp hblank⟩
  · rintro ⟨rest, hparse, hblank⟩
    refine bind_eq_some_iff.mpr ⟨_, hparse, ?_⟩
    dsimp only
    rw [hblank]
    rfl

/-- **An object that is written denotes its members.** -/
theorem parse_objectText (h : MembersDenote kMaximumDepth members values) (hkey : PlainKey key)
    (hvalue : Denotes kMaximumDepth text value) :
    parse (objectText members key text) =
      some (.object ((members.map fun member => ascii member.1) ++ [ascii key]) (values ++ [value])) := by
  obtain ⟨m, heq⟩ := parseValue_members h key (text ++ [0x7D])
  obtain ⟨rest, hparse, hskip⟩ := hvalue [0x7D] ⟨by decide, by decide, by decide, by decide⟩
  rw [parse_eq_some]
  refine ⟨[], ?_, rfl⟩
  unfold objectText
  rw [memberText_append, heq, parseElements, parseMember_eq hkey, hparse]
  dsimp only [bind_eq_bind, bind_some]
  rw [hskip]
  rfl

end Cockpit.Json
