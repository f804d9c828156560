/-
  `IsValidValue`, byte by byte, with a position and the first error. A run that ends in `ok` is one in which the
  code ends by itself and reads nothing outside the text.
-/
import Cockpit.Json.Acceptance

namespace Cockpit.Json

open ByteText

/-- An access behind the text, or a loop's bound that does not suffice. -/
inductive Fault where
  | pastEnd
  | endless
  deriving DecidableEq

/-- `Parser`. -/
structure Parser where
  input : Bytes
  position : Nat := 0
  error : String := ""

abbrev ParserM := StateT Parser (Except Fault)

/-- `input_[i]`. -/
def byteAt (input : Bytes) (offset : Nat) : Except Fault UInt8 :=
  match input[offset]? with
  | some character => .ok character
  | none => .error .pastEnd

def utf8SequenceLengthAt (input : Bytes) (offset : Nat) : Except Fault Nat :=
  if input.length ≤ offset then .ok 0
  else do
    let first ← byteAt input offset
    if first ≤ 0x7F then .ok 1
    else if 0xC2 ≤ first ∧ first ≤ 0xDF then
      if offset + 1 < input.length then do
        let second ← byteAt input (offset + 1)
        .ok (if isContinuationByte second then 2 else 0)
      else .ok 0
    else if 0xE0 ≤ first ∧ first ≤ 0xEF then
      if input.length ≤ offset + 2 then .ok 0
      else do
        let second ← byteAt input (offset + 1)
        let third ← byteAt input (offset + 2)
        .ok (if !isContinuationByte third || !isContinuationByte second ||
            (first == 0xE0 && second < 0xA0) || (first == 0xED && 0x9F < second) then 0
          else 3)
    else if 0xF0 ≤ first ∧ first ≤ 0xF4 then
      if input.length ≤ offset + 3 then .ok 0
      else do
        let second ← byteAt input (offset + 1)
        let third ← byteAt input (offset + 2)
        let fourth ← byteAt input (offset + 3)
        .ok (if !isContinuationByte second || !isContinuationByte third || !isContinuationByte fourth ||
            (first == 0xF0 && second < 0x90) || (first == 0xF4 && 0x8F < second) then 0
          else 4)
    else .ok 0

namespace Parser

/-! ## Access to the text -/

def rest (s : Parser) : Bytes := s.input.drop s.position

def more : ParserM Bool := fun s => .ok (decide (s.position < s.input.length), s)

def atEnd : ParserM Bool := fun s => .ok (decide (s.position = s.input.length), s)

def characterAt (index : Nat) : ParserM UInt8 := fun s =>
  match byteAt s.input (s.position + index) with
  | .ok character => .ok (character, s)
  | .error fault => .error fault

def character : ParserM UInt8 := characterAt 0

def advance (count : Nat) : ParserM Unit := fun s => .ok ((), { s with position := s.position + count })

def sequenceLength : ParserM Nat := fun s =>
  match utf8SequenceLengthAt s.input s.position with
  | .ok length => .ok (length, s)
  | .error fault => .error fault

def substring (count : Nat) : ParserM Bytes := fun s =>
  if s.position ≤ s.input.length then .ok ((s.input.drop s.position).take count, s)
  else .error .pastEnd

/-- A bound for a loop: what is left, and one more. -/
def rounds : ParserM Nat := fun s => .ok (s.input.length - s.position + 1, s)

/-- The bound did not suffice. -/
def endless {α : Type} : ParserM α := fun _ => .error .endless

/-- The first error is kept. -/
def fail (message : String) : ParserM Bool := fun s =>
  .ok (false, if s.error.isEmpty then { s with error := message } else s)

def consume (expected : UInt8) : ParserM Bool := do
  if ← more then
    if (← character) = expected then
      advance 1
      return true
    else return false
  else return false

def skipWhitespaceLoop : Nat → ParserM Unit
  | 0 => endless
  | rounds + 1 => do
    if ← more then
      if isWhitespace (← character) then
        advance 1
        skipWhitespaceLoop rounds

def skipWhitespace : ParserM Unit := do
  skipWhitespaceLoop (← rounds)

/-- `first && second`. -/
def andThen (first second : ParserM Bool) : ParserM Bool := do
  if ← first then second else return false

/-! ## Strings -/

def hexDigits : List Nat → ParserM Bool
  | [] => return true
  | index :: indices => do
    if isHexDigit (← characterAt index) then hexDigits indices
    else fail "invalid JSON unicode escape"

def fewerThanFour : ParserM Bool := fun s => .ok (decide (s.input.length < s.position + 4), s)

def parseUnicode : ParserM Bool := do
  if ← fewerThanFour then fail "incomplete JSON unicode escape"
  else andThen (hexDigits [0, 1, 2, 3]) do
    advance 4
    return true

def parseEscape : ParserM Bool := do
  if ← atEnd then fail "incomplete JSON escape sequence"
  else
    let escape ← character
    advance 1
    if escape = 0x22 ∨ escape = 0x5C ∨ escape = 0x2F ∨ escape = 0x62 ∨ escape = 0x66 ∨ escape = 0x6E ∨
        escape = 0x72 ∨ escape = 0x74 then
      return true
    else if escape = 0x75 then parseUnicode
    else fail "invalid JSON escape sequence"

def parseSequence : ParserM Bool := do
  let length ← sequenceLength
  if length = 0 then fail "invalid UTF-8 in JSON string"
  else
    advance length
    return true

def parseCharacters : Nat → ParserM Bool
  | 0 => endless
  | rounds + 1 => do
    if ← more then
      let character ← character
      if character = 0x22 then
        advance 1
        return true
      else if character < 0x20 then fail "unescaped control character in JSON string"
      else if character = 0x5C then
        advance 1
        andThen parseEscape (parseCharacters rounds)
      else if 0x80 ≤ character then andThen parseSequence (parseCharacters rounds)
      else
        advance 1
        parseCharacters rounds
    else fail "unterminated JSON string"

def parseString : ParserM Bool := do
  if ← consume 0x22 then parseCharacters (← rounds)
  else fail "expected JSON string"

/-! ## Literals and numbers -/

def parseLiteral (literal : Bytes) : ParserM Bool := do
  if (← substring literal.length) = literal then
    advance literal.length
    return true
  else fail "invalid JSON literal"

def parseDigitsLoop : Nat → ParserM Unit
  | 0 => endless
  | rounds + 1 => do
    advance 1
    if ← more then
      if isDigit (← character) then parseDigitsLoop rounds

def parseDigits (message : String) : ParserM Bool := do
  if ← atEnd then fail message
  else if isDigit (← character) then
    parseDigitsLoop (← rounds)
    return true
  else fail message

def parseInteger : ParserM Bool := do
  if ← consume 0x30 then
    if ← more then
      if isDigit (← character) then fail "invalid leading zero in JSON number"
      else return true
    else return true
  else parseDigits "invalid JSON number"

def parseFraction : ParserM Bool := do
  if ← consume 0x2E then parseDigits "invalid JSON fraction" else return true

def parseExponentSign : ParserM Unit := do
  if ← more then
    let sign ← character
    if sign = 0x2B ∨ sign = 0x2D then advance 1

def parseExponent : ParserM Bool := do
  if ← more then
    let letter ← character
    if letter = 0x65 ∨ letter = 0x45 then
      advance 1
      parseExponentSign
      parseDigits "invalid JSON exponent"
    else return true
  else return true

def isPast (start : Nat) : ParserM Bool := fun s => .ok (decide (start < s.position), s)

def parseNumber : ParserM Bool := do
  let start := (← get).position
  let _ ← consume 0x2D
  if ← atEnd then fail "invalid JSON number"
  else andThen parseInteger (andThen parseFraction (andThen parseExponent (isPast start)))

/-! ## Arrays, objects and values -/

def parseElements (element : ParserM Bool) (close : UInt8) (message : String) : Nat → ParserM Bool
  | 0 => endless
  | rounds + 1 => andThen element do
    skipWhitespace
    if ← consume close then return true
    else if ← consume 0x2C then
      skipWhitespace
      parseElements element close message rounds
    else fail message

def parseEnclosed (element : ParserM Bool) (close : UInt8) (message : String) : ParserM Bool := do
  advance 1
  skipWhitespace
  if ← consume close then return true
  else parseElements element close message (← rounds)

def parseArray (value : ParserM Bool) : ParserM Bool :=
  parseEnclosed value 0x5D "expected ',' or ']' in JSON array"

def parseMember (value : ParserM Bool) : ParserM Bool :=
  andThen parseString do
    skipWhitespace
    if ← consume 0x3A then value else fail "expected ':' after JSON object key"

def parseObject (value : ParserM Bool) : ParserM Bool :=
  parseEnclosed (parseMember value) 0x7D "expected ',' or '\x7d' in JSON object"

def parseValue : Nat → Nat → ParserM Bool
  | 0, _ => endless
  | calls + 1, depth => do
    if kMaximumDepth < depth then fail "JSON nesting is too deep"
    else
      skipWhitespace
      if ← atEnd then fail "expected JSON value"
      else
        let first ← character
        if first = 0x7B then parseObject (parseValue calls (depth + 1))
        else if first = 0x5B then parseArray (parseValue calls (depth + 1))
        else if first = 0x22 then parseString
        else if first = 0x74 then parseLiteral (ascii "true")
        else if first = 0x66 then parseLiteral (ascii "false")
        else if first = 0x6E then parseLiteral (ascii "null")
        else parseNumber

def parse : ParserM Bool := do
  skipWhitespace
  andThen (parseValue (kMaximumDepth + 2) 0) do
    skipWhitespace
    if ← atEnd then return true else fail "unexpected trailing characters"

/-- The error, if there is one. -/
def isValidValue (input : Bytes) : Except Fault (Option String) :=
  match parse { input := input } with
  | .ok (true, _) => .ok none
  | .ok (false, s) => .ok (some (if s.error.isEmpty then "invalid JSON value" else s.error))
  | .error fault => .error fault

end Parser

end Cockpit.Json
