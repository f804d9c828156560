/-
  `FindJsonFieldValue` and `ExtractStringField` on a text that `IsValidValue` has accepted. The scanner goes
  from quote to quote and knows nothing of objects; it is right because outside of strings there is no quote,
  and no colon follows a value that is a string.
-/
import Cockpit.Json.Members
import Cockpit.Llm.JsonStrings

namespace Cockpit.Llm

open Abnf ByteText Computability Json List Option
open Cockpit.Voice (isSpace)

variable {field t q : Bytes} {members : List Member} {part : Part}

/-! ## Strings -/

variable {w : Bytes}

theorem isSpace_of_ws (hw : w ∈ Grammar.ws) : ∀ b ∈ w, isSpace b = true := by
  intro b hb
  have hblank := Grammar.mem_ws.mp hw b hb
  unfold isWhitespace at hblank
  simp only [Bool.or_eq_true, beq_iff_eq] at hblank
  rcases hblank with ((rfl | rfl) | rfl) | rfl <;> decide

theorem dropWhile_ws (hw : w ∈ Grammar.ws) (q : Bytes) :
    (w ++ q).dropWhile isSpace = q.dropWhile isSpace := dropWhile_append_of_pos (isSpace_of_ws hw)

theorem not_mem_scalar (h : t ∈ Grammar.literal + Grammar.number) : quote ∉ t := by
  have hdigits : Avoids quote (atLeastOne Grammar.digit) := (Avoids.oneOf (by decide)).atLeastOne
  have hliteral : Avoids quote Grammar.literal :=
    ((Avoids.word (by decide)).add (.word (by decide))).add (.word (by decide))
  have hint : Avoids quote Grammar.int :=
    (Avoids.word (by decide)).add ((Avoids.oneOf (by decide)).mul (Avoids.oneOf (by decide)).kstar)
  have hfrac : Avoids quote Grammar.frac := (Avoids.word (by decide)).mul hdigits
  have hexp : Avoids quote Grammar.exp :=
    ((Avoids.oneOf (by decide)).mul (Avoids.oneOf (by decide)).optional).mul hdigits
  have hnum : Avoids quote Grammar.number :=
    (((Avoids.word (by decide)).optional.mul hint).mul hfrac.optional).mul hexp.optional
  exact hliteral.add hnum t h

/-- It means itself inside of a string. -/
def IsPlain (b : UInt8) : Prop := b ≠ quote ∧ b ≠ backslash

theorem isPlain_hexDigit {b : UInt8} (h : isHexDigit b = true) : IsPlain b := by
  constructor
  all_goals
    rintro rfl
    cases h

/-- **A character of a string** is plain bytes, or a backslash, any byte and plain bytes. -/
theorem char_cases (h : t ∈ Grammar.char) :
    (∀ b ∈ t, IsPlain b) ∨ ∃ escape more, t = backslash :: escape :: more ∧ ∀ b ∈ more, IsPlain b := by
  rcases h with hplain | hescaped
  · left
    intro b hb
    exact (bytes_of_unescaped hplain b hb).2
  · right
    rcases Grammar.mem_escaped.mp hescaped with ⟨escape, _, rfl⟩ | ⟨a, b, c, d, rfl, ha, hb, hc, hd⟩
    · exact ⟨escape, [], rfl, nofun⟩
    · refine ⟨0x75, [a, b, c, d], rfl, fun x hx => ?_⟩
      simp only [mem_cons, not_mem_nil, or_false] at hx
      rcases hx with rfl | rfl | rfl | rfl
      · exact isPlain_hexDigit ha
      · exact isPlain_hexDigit hb
      · exact isPlain_hexDigit hc
      · exact isPlain_hexDigit hd

/-! ## The scan inside a string -/

theorem findFrom_plain {plain : Bytes} (h : ∀ b ∈ plain, IsPlain b) (name q : Bytes) :
    findFrom field (some (name, false)) (plain ++ q) = findFrom field (some (name ++ plain, false)) q := by
  induction plain generalizing name with
  | nil => rw [append_nil, nil_append]
  | cons b plain ih =>
    obtain ⟨hquote, hbackslash⟩ := h b List.mem_cons_self
    have hround : findFrom field (some (name, false)) (b :: (plain ++ q)) =
        findFrom field (some (name ++ [b], false)) (plain ++ q) := by
      rw [findFrom, if_neg fun hends => hquote hends.2]
      rw [decide_eq_false hbackslash]
      rfl
    rw [cons_append, hround, ih fun b hb => h b (List.mem_cons_of_mem _ hb), append_assoc]
    rfl

theorem findFrom_character {character : Bytes} (h : character ∈ Grammar.char) (name q : Bytes) :
    findFrom field (some (name, false)) (character ++ q) = findFrom field (some (name ++ character, false)) q := by
  rcases char_cases h with hplain | ⟨escape, more, rfl, hplain⟩
  · exact findFrom_plain hplain name q
  · have hescape : findFrom field (some (name, false)) (backslash :: escape :: (more ++ q)) =
        findFrom field (some (name ++ [backslash] ++ [escape], false)) (more ++ q) := by
      rw [findFrom, if_neg (by decide), findFrom, if_neg (by simp)]
      rfl
    rw [cons_append, cons_append, hescape, findFrom_plain hplain, append_assoc, append_assoc]
    rfl

variable {characters : Bytes}

/-- **The scan of a string** comes to its end, and looks there for a colon. -/
theorem findFrom_string (h : characters ∈ Grammar.char∗) (q : Bytes) :
    findFrom field none (quote :: (characters ++ quote :: q)) =
      if characters = field ∧ (q.dropWhile isSpace).head? = some 0x3A then some (q.dropWhile isSpace).tail
      else findFrom field none q := by
  have hinside : ∀ name, findFrom field (some (name, false)) (characters ++ quote :: q) =
      findFrom field (some (name ++ characters, false)) (quote :: q) := by
    refine kstar_induction (P := fun t => ∀ name, findFrom field (some (name, false)) (t ++ quote :: q) =
      findFrom field (some (name ++ t, false)) (quote :: q)) ?_ ?_ characters h
    · intro name
      rw [append_nil]
      rfl
    · intro t ht u _ ih name
      rw [append_assoc, findFrom_character ht, ih, append_assoc]
  rw [findFrom, if_pos rfl, hinside, nil_append, findFrom, if_pos ⟨rfl, rfl⟩]

theorem rawString_plain {plain : Bytes} (h : ∀ b ∈ plain, IsPlain b) (q : Bytes) :
    rawString false (plain ++ q) = (rawString false q).map (plain ++ ·) := by
  induction plain with
  | nil =>
    show rawString false q = (rawString false q).map id
    rw [Option.map_id, id]
  | cons b plain ih =>
    obtain ⟨hquote, hbackslash⟩ := h b List.mem_cons_self
    rw [cons_append, rawString, if_neg fun hends => hquote hends.2, decide_eq_false hbackslash]
    show (rawString false (plain ++ q)).map _ = _
    rw [ih fun b hb => h b (List.mem_cons_of_mem _ hb), Option.map_map]
    rfl

theorem rawString_character {character : Bytes} (h : character ∈ Grammar.char) (q : Bytes) :
    rawString false (character ++ q) = (rawString false q).map (character ++ ·) := by
  rcases char_cases h with hplain | ⟨escape, more, rfl, hplain⟩
  · exact rawString_plain hplain q
  · rw [cons_append, cons_append, rawString, if_neg (by decide)]
    show (rawString true (escape :: (more ++ q))).map _ = _
    rw [rawString, if_neg (by simp)]
    show ((rawString false (more ++ q)).map _).map _ = _
    rw [rawString_plain hplain, Option.map_map, Option.map_map]
    rfl

theorem rawString_string (h : characters ∈ Grammar.char∗) (q : Bytes) :
    rawString false (characters ++ quote :: q) = some characters := by
  refine kstar_induction (P := fun t => rawString false (t ++ quote :: q) = some t) ?_ ?_ characters h
  · rw [nil_append, rawString, if_pos ⟨rfl, rfl⟩]
  · intro t ht u _ ih
    rw [append_assoc, rawString_character ht, ih]
    rfl

/-! ## The scan of a text -/

/-- What came before is no key. -/
def NoColon (q : Bytes) : Prop := (q.dropWhile isSpace).head? ≠ some 0x3A

theorem noColon_cons {b : UInt8} (hspace : isSpace b = false) (hne : b ≠ 0x3A) (q : Bytes) : NoColon (b :: q) := by
  unfold NoColon
  rw [dropWhile_cons_of_neg (by rw [hspace]; exact Bool.false_ne_true)]
  exact fun h => hne (Option.some.inj h)

theorem noColon_ws (hw : w ∈ Grammar.ws) (h : NoColon q) : NoColon (w ++ q) := by
  unfold NoColon
  rw [dropWhile_ws hw]
  exact h

theorem noColon_closing (bracket : Bracket) (q : Bytes) : NoColon (bracket.closing :: q) := by
  cases bracket with
  | array | object => exact noColon_cons (by decide) (by decide) q

/-- What is behind the first key of this name. -/
def firstField (field : Bytes) (members : List Member) : Option Bytes :=
  (members.find? (·.key = field)).map Member.behind

theorem firstField_append (field : Bytes) (members members' : List Member) :
    firstField field (members ++ members') = (firstField field members).or (firstField field members') := by
  unfold firstField
  rw [List.find?_append, map_or]

theorem findFrom_no_quote {t : Bytes} (h : quote ∉ t) (q : Bytes) : findFrom field none (t ++ q) = findFrom field none q := by
  induction t with
  | nil => rfl
  | cons b t ih =>
    have hne : b ≠ quote := fun heq => h (heq ▸ List.mem_cons_self)
    rw [cons_append, findFrom, if_neg hne]
    exact ih fun hmem => h (List.mem_cons_of_mem _ hmem)

theorem findFrom_ws (hw : w ∈ Grammar.ws) (q : Bytes) : findFrom field none (w ++ q) = findFrom field none q := by
  refine findFrom_no_quote (fun hmem => ?_) q
  have hspace := isSpace_of_ws hw quote hmem
  cases hspace

/-- **The scan of a part** finds the first of its members with the key, or goes on behind it. -/
theorem findFrom_lists (field : Bytes) (h : Lists part t q members) (hq : NoColon q) :
    findFrom field none (t ++ q) = (firstField field members).or (findFrom field none q) := by
  induction h with
  | scalar h => exact findFrom_no_quote (not_mem_scalar h) _
  | @string characters q h =>
    have hassoc : 0x22 :: (characters ++ [0x22]) ++ q = quote :: (characters ++ quote :: q) := by
      rw [cons_append, append_assoc]
      rfl
    rw [hassoc, findFrom_string h, if_neg fun hcolon => hq hcolon.2]
    rfl
  | @empty bracket w q hw =>
    have hopening : bracket.opening ≠ quote := by cases bracket <;> decide
    have hclosing : bracket.closing ≠ quote := by cases bracket <;> decide
    rw [cons_append, append_assoc, findFrom, if_neg hopening, findFrom_ws hw]
    show findFrom field none (bracket.closing :: q) = _
    rw [findFrom, if_neg hclosing]
    rfl
  | @enclosed bracket t q members _ ih =>
    have hopening : bracket.opening ≠ quote := by cases bracket <;> decide
    have hclosing : bracket.closing ≠ quote := by cases bracket <;> decide
    rw [cons_append, append_assoc, findFrom, if_neg hopening]
    show findFrom field none (t ++ bracket.closing :: q) = _
    rw [ih (noColon_closing bracket q), findFrom, if_neg hclosing]
  | @item w t w' q members hw hw' _ ih =>
    rw [append_assoc, append_assoc, findFrom_ws hw, ih (noColon_ws hw' hq), findFrom_ws hw']
  | @member w key w₁ w₂ t w' q members hw hkey hw₁ hw₂ hw' _ ih =>
    have hassoc : w ++ 0x22 :: (key ++ 0x22 :: (w₁ ++ 0x3A :: (w₂ ++ (t ++ w')))) ++ q =
        w ++ quote :: (key ++ quote :: (w₁ ++ 0x3A :: (w₂ ++ (t ++ (w' ++ q))))) := by
      simp only [append_assoc, cons_append]
      rfl
    have hcolon : (w₁ ++ 0x3A :: (w₂ ++ (t ++ (w' ++ q)))).dropWhile isSpace = 0x3A :: (w₂ ++ (t ++ (w' ++ q))) := by
      rw [dropWhile_ws hw₁, dropWhile_cons_of_neg (by decide)]
    have hvalue : findFrom field none (w₁ ++ 0x3A :: (w₂ ++ (t ++ (w' ++ q)))) =
        (firstField field members).or (findFrom field none q) := by
      rw [findFrom_ws hw₁, findFrom, if_neg (by decide), findFrom_ws hw₂, ih (noColon_ws hw' hq), findFrom_ws hw']
    rw [hassoc, findFrom_ws hw, findFrom_string hkey, hcolon]
    by_cases heq : key = field
    · rw [if_pos ⟨heq, rfl⟩]
      unfold firstField
      rw [List.find?_cons_of_pos (by rw [heq]; exact decide_eq_true rfl)]
      rfl
    · rw [if_neg fun hfound => heq hfound.1, hvalue]
      unfold firstField
      rw [List.find?_cons_of_neg (by rw [decide_eq_true_eq]; exact heq)]
  | last _ ih => exact ih hq
  | @more bracket t u q members members' _ _ ih ih' =>
    rw [append_assoc, cons_append, ih (noColon_cons (by decide) (by decide) _), findFrom,
      if_neg (by decide), ih' hq, firstField_append, Option.or_assoc]

/-! ## The value of a field -/

variable {m : Member}

theorem dropWhile_behind {r : Bytes} {first : UInt8} {value : Bytes} (hw : w ∈ Grammar.ws)
    (hbehind : m.behind = w ++ (m.value ++ r)) (hvalue : m.value = first :: value) (hfirst : isSpace first = false) :
    m.behind.dropWhile isSpace = first :: (value ++ r) := by
  rw [hbehind, dropWhile_ws hw, hvalue, cons_append,
    dropWhile_cons_of_neg (by rw [hfirst]; exact Bool.false_ne_true)]

theorem extractStringField_string {body : Bytes} (hfind : findJsonFieldValue body field = some m.behind)
    (hplace : ∃ w ∈ Grammar.ws, ∃ r, m.behind = w ++ (m.value ++ r)) (hcharacters : characters ∈ Grammar.char∗)
    (hvalue : m.value = quote :: (characters ++ [quote])) :
    extractStringField body field = .ok (some (decodeJsonString characters)) := by
  obtain ⟨w, hw, r, hbehind⟩ := hplace
  have hstart := dropWhile_behind hw hbehind hvalue (by decide)
  have hnull : (quote :: (characters ++ [quote] ++ r)).take 4 ≠ ascii "null" := by
    intro heq
    have hhead := congrArg List.head? heq
    rw [take_succ_cons, List.head?_cons] at hhead
    revert hhead
    decide
  have hraw : rawString false (characters ++ [quote] ++ r) = some characters := by
    rw [append_assoc]
    exact rawString_string hcharacters r
  unfold extractStringField
  rw [hfind]
  dsimp only
  rw [hstart, if_neg hnull, List.head?_cons, if_neg (not_not_intro rfl), tail_cons, hraw]

theorem extractStringField_null {body : Bytes} (hfind : findJsonFieldValue body field = some m.behind)
    (hplace : ∃ w ∈ Grammar.ws, ∃ r, m.behind = w ++ (m.value ++ r)) (hvalue : m.value = ascii "null") :
    extractStringField body field = .ok (some []) := by
  obtain ⟨w, hw, r, hbehind⟩ := hplace
  have hstart := dropWhile_behind hw hbehind (hvalue.trans (show ascii "null" = 0x6E :: [0x75, 0x6C, 0x6C] from rfl))
    (by decide)
  unfold extractStringField
  rw [hfind]
  dsimp only
  rw [hstart]
  exact if_pos rfl

/-- **The fields of an accepted text**, whatever is in its strings: the scanner finds the first member with the key and
    stands behind its colon, or finds nothing where there is none; and the value of a string or of `null` is extracted. -/
theorem jsonFields_correct (body field : Bytes) (hacc : Parser.isValidValue body = .ok none) :
    (∃ members, MembersOf body members) ∧ ∀ members, MembersOf body members →
      findJsonFieldValue body field = (members.find? (·.key = field)).map Member.behind ∧
      (members.find? (·.key = field) = none → extractStringField body field = .ok none) ∧
      ∀ m ∈ members.find? (·.key = field),
        (∃ front, ∃ w ∈ Grammar.ws, body = front ++ quote :: (m.key ++ quote :: (w ++ 0x3A :: m.behind))) ∧
        (∀ characters ∈ Grammar.char∗, m.value = quote :: (characters ++ [quote]) →
          extractStringField body field = .ok (some (decodeJsonString characters))) ∧
        (m.value = ascii "null" → extractStringField body field = .ok (some [])) := by
  refine ⟨exists_membersOf hacc, fun members h => ?_⟩
  have hfind : findJsonFieldValue body field = firstField field members := by
    have hscan := findFrom_lists field h (by unfold NoColon; exact nofun)
    rw [append_nil] at hscan
    show findFrom field none body = _
    rw [hscan]
    exact or_none
  refine ⟨hfind, fun hnone => ?_, fun m hm => ?_⟩
  · unfold extractStringField
    rw [hfind]
    unfold firstField
    rw [hnone]
    rfl
  · have hmem : m ∈ members := mem_of_find?_eq_some hm
    have hbehind : findJsonFieldValue body field = some m.behind := by
      rw [hfind]
      unfold firstField
      rw [show members.find? _ = some m from hm]
      rfl
    have hvalue := h.behind_eq m hmem
    refine ⟨?_, fun characters hcharacters hstring => ?_, fun hnull => ?_⟩
    · obtain ⟨front, w, hw, heq⟩ := h.place m hmem
      rw [append_nil] at heq
      exact ⟨front, w, hw, heq⟩
    · exact extractStringField_string hbehind hvalue hcharacters hstring
    · exact extractStringField_null hbehind hvalue hnull

/-- A value that looks like the key. -/
theorem jsonFields_decoy :
    Parser.isValidValue (ascii "[\"\\\"content\\\":\",\x7b\"content\" : \"hi\"\x7d]") = .ok none ∧
      ∃ members, MembersOf (ascii "[\"\\\"content\\\":\",\x7b\"content\" : \"hi\"\x7d]") members ∧
        findJsonFieldValue (ascii "[\"\\\"content\\\":\",\x7b\"content\" : \"hi\"\x7d]") (ascii "content") =
          (members.find? (·.key = ascii "content")).map Member.behind := by
  have hacc : Parser.isValidValue (ascii "[\"\\\"content\\\":\",\x7b\"content\" : \"hi\"\x7d]") = .ok none := by
    decide +kernel
  obtain ⟨⟨members, hmembers⟩, hall⟩ := jsonFields_correct _ (ascii "content") hacc
  exact ⟨hacc, members, hmembers, (hall members hmembers).1⟩

example : extractStringField (ascii "[\"\\\"content\\\":\",\x7b\"content\" : \"hi\"\x7d]") (ascii "content") =
    .ok (some (ascii "hi")) := by decide +kernel

/-- **A text that was escaped into a member comes back**, whatever stands around the member in an accepted body. -/
theorem extractStringField_escapeString (body field text : Bytes) (members : List Member) (m : Member)
    (hmembers : MembersOf body members) (hfirst : members.find? (·.key = field) = some m)
    (hvalue : m.value = quote :: (escapeString text ++ [quote])) (htext : Utf8.Valid text) :
    extractStringField body field = .ok (some text) := by
  have hscan := findFrom_lists field hmembers (by unfold NoColon; exact nofun)
  have hfind : findJsonFieldValue body field = some m.behind := by
    rw [append_nil, firstField, hfirst] at hscan
    exact hscan
  rw [extractStringField_string hfind (hmembers.behind_eq m (mem_of_find?_eq_some hfirst)) (escapeString_mem text)
    hvalue, decodeJsonString_escapeString htext]

/-- Behind another member, between blanks, with an escaped quote, an escaped line feed and an accent. -/
theorem extractStringField_escapeString_accent :
    extractStringField (ascii "\x7b\"a\":null, \"b\" : \"\\\"" ++ [0xC3, 0xA9] ++ ascii "\\n\" \x7d") (ascii "b") =
      .ok (some ([0x22, 0xC3, 0xA9, 0x0A])) := by
  have hblank : [0x20] ∈ Grammar.ws := by
    refine Grammar.mem_ws.mpr fun b hb => ?_
    rw [mem_singleton.mp hb]
    rfl
  have hnil : [] ∈ Grammar.ws := Grammar.nil_mem_ws
  have hnull : ∀ q, Lists .value (ascii "null") q [] := fun q => .scalar (.inl (.inl (.inr rfl)))
  have htext : Lists .value (quote :: (escapeString [0x22, 0xC3, 0xA9, 0x0A] ++ [quote])) ([0x20] ++ [0x7D]) [] :=
    .string (escapeString_mem _)
  exact extractStringField_escapeString _ _ _ _ _
    (Lists.item hnil hnil (.enclosed .object
      (.more (.member hnil (escapeString_mem (ascii "a")) hnil hnil hnil (hnull _))
        (.last (.member hblank (escapeString_mem (ascii "b")) hblank hblank hblank htext)))))
    rfl rfl ⟨['"', 'é', '\n'], by decide⟩

end Cockpit.Llm
