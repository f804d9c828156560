/-
  `SplitSpeechText`: a text is cut behind each hard boundary, and where a segment gets too long behind its last
  soft boundary, or where it is. Texts are bytes, not all of them valid UTF-8.
-/

namespace Cockpit.Voice

/-- One code point. -/
structure TextToken where
  bytes : List UInt8
  hardBoundary : Bool
  softBoundary : Bool

/-- The length that the lead byte announces. -/
def utf8CodePointBytes (lead : UInt8) : Nat :=
  if lead &&& 0x80 = 0 then 1
  else if lead &&& 0xE0 = 0xC0 then 2
  else if lead &&& 0xF0 = 0xE0 then 3
  else if lead &&& 0xF8 = 0xF0 then 4
  else 1

/-- `.` `?` `!` `;` and the line feed, and the full-width `。` `？` `！` `；`. -/
def isHardBoundary (token : List UInt8) : Bool :=
  token = [0x2E] || token = [0x3F] || token = [0x21] || token = [0x3B] || token = [0x0A] ||
    token = [0xE3, 0x80, 0x82] || token = [0xEF, 0xBC, 0x9F] || token = [0xEF, 0xBC, 0x81] ||
    token = [0xEF, 0xBC, 0x9B]

/-- The blank, the tab, `,` and `:`, and the full-width `，` `：` `、`. -/
def isSoftBoundary (token : List UInt8) : Bool :=
  token = [0x20] || token = [0x09] || token = [0x2C] || token = [0x3A] ||
    token = [0xEF, 0xBC, 0x8C] || token = [0xEF, 0xBC, 0x9A] || token = [0xE3, 0x80, 0x81]

/-- `std::isspace` in the C locale. -/
def isSpace (byte : UInt8) : Bool := byte = 0x20 || (0x09 ≤ byte && byte ≤ 0x0D)

def trimAsciiWhitespace (input : List UInt8) : List UInt8 :=
  (((input.dropWhile isSpace).reverse).dropWhile isSpace).reverse

theorem utf8CodePointBytes_pos (lead : UInt8) : 0 < utf8CodePointBytes lead := by
  unfold utf8CodePointBytes
  repeat' split
  all_goals omega

/-- The text's code points; a truncated one is what is left. -/
def tokens : List UInt8 → List TextToken
  | [] => []
  | lead :: text =>
    let token := (lead :: text).take (utf8CodePointBytes lead)
    ⟨token, isHardBoundary token, isSoftBoundary token⟩ ::
      tokens ((lead :: text).drop (utf8CodePointBytes lead))
termination_by text => text.length
decreasing_by
  have := utf8CodePointBytes_pos lead
  rw [List.length_drop, List.length_cons]
  omega

/-- A segment without the whitespace around it, unless nothing is left of it. -/
def segment (tokens : List TextToken) : List (List UInt8) :=
  let trimmed := trimAsciiWhitespace (tokens.flatMap TextToken.bytes)
  if trimmed = [] then [] else [trimmed]

/-- How many tokens of the segment there are up to its last soft boundary. -/
def lastSoftBoundary (tokens : List TextToken) : Option Nat :=
  match tokens.reverse.findIdx? TextToken.softBoundary with
  | some behind => some (tokens.length - behind)
  | none => none

/-- Where to cut behind the last of the tokens seen. -/
def segmentEnd (maxCodepoints : Nat) (seen : List TextToken) (last : TextToken) : Option Nat :=
  if last.hardBoundary then some seen.length
  else if seen.length ≥ maxCodepoints then some ((lastSoftBoundary seen).getD seen.length)
  else none

/-- The loop of `SplitSpeechText`; `current` is the segment so far. -/
def splitTokens (maxCodepoints : Nat) (current rest : List TextToken) : List (List UInt8) :=
  match rest with
  | [] => segment current
  | token :: rest =>
    let seen := current ++ [token]
    match segmentEnd maxCodepoints seen token with
    | some n =>
      -- a cut behind the very last token is left to the end of the loop; no cut is in front of all
      if n = 0 ∨ (n ≥ seen.length ∧ rest = []) then splitTokens maxCodepoints seen rest
      else segment (seen.take n) ++ splitTokens maxCodepoints [] (seen.drop n ++ rest)
    | none => splitTokens maxCodepoints seen rest
termination_by (current.length + rest.length, rest.length)
decreasing_by
  all_goals simp_wf
  all_goals grind

/-- `SplitSpeechText`. -/
def splitSpeechText (text : List UInt8) (maxCodepoints : Nat) : List (List UInt8) :=
  if text = [] || maxCodepoints = 0 then [] else splitTokens maxCodepoints [] (tokens text)

end Cockpit.Voice
