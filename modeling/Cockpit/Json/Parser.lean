/-
  The JSON of the cockpit: the check whether a text is a JSON value, and the escaping of strings. The code only
  says whether the text is valid; here each function also returns the `Value` that the text it went through
  denotes.

  The bound of a loop is the length of the text that is left: every round takes at least one byte.
-/
import Cockpit.Lib.ByteText

namespace Cockpit.Json

open ByteText

def kMaximumDepth : Nat := 128

/-- What a JSON text denotes: a number by its text, a string by its bytes, and the members of an object
    by their keys and values in order. -/
inductive Value where
  | null
  | boolean (value : Bool)
  | number (text : Bytes)
  | string (text : Bytes)
  | array (items : List Value)
  | object (keys : List Bytes) (values : List Value)

mutual

/-- How deep arrays and objects are nested. -/
def Value.depth : Value → Nat
  | .array items => depths items
  | .object _ values => depths values
  | _ => 0

def depths : List Value → Nat
  | [] => 0
  | item :: items => max (item.depth + 1) (depths items)

end

/-! ## UTF-8 -/

def isHexDigit (character : UInt8) : Bool :=
  (0x30 ≤ character && character ≤ 0x39) || (0x61 ≤ character && character ≤ 0x66) ||
    (0x41 ≤ character && character ≤ 0x46)

def isContinuationByte (character : UInt8) : Bool := 0x80 ≤ character && character ≤ 0xBF

/-- The length of a valid sequence, else 0. -/
def utf8SequenceLength : Bytes → Nat
  | [] => 0
  | first :: rest =>
    if first ≤ 0x7F then 1
    else if 0xC2 ≤ first ∧ first ≤ 0xDF then
      match rest with
      | second :: _ => if isContinuationByte second then 2 else 0
      | [] => 0
    else if 0xE0 ≤ first ∧ first ≤ 0xEF then
      match rest with
      | second :: third :: _ =>
        if !isContinuationByte third || !isContinuationByte second ||
            (first == 0xE0 && second < 0xA0) || (first == 0xED && 0x9F < second) then 0
        else 3
      | _ => 0
    else if 0xF0 ≤ first ∧ first ≤ 0xF4 then
      match rest with
      | second :: third :: fourth :: _ =>
        if !isContinuationByte second || !isContinuationByte third || !isContinuationByte fourth ||
            (first == 0xF0 && second < 0x90) || (first == 0xF4 && 0x8F < second) then 0
        else 4
      | _ => 0
    else 0

/-! ## Strings -/

/-- What one step through a string denotes: a byte, or the UTF-16 code unit of a `\u` escape. -/
inductive StringUnit where
  | byte (value : UInt8)
  | code (unit : Nat)
  deriving DecidableEq

def utf8Bytes (point : Nat) : Bytes :=
  if point < 0x80 then [UInt8.ofNat point]
  else if point < 0x800 then [UInt8.ofNat (0xC0 + point / 0x40), UInt8.ofNat (0x80 + point % 0x40)]
  else if point < 0x10000 then
    [UInt8.ofNat (0xE0 + point / 0x1000), UInt8.ofNat (0x80 + point / 0x40 % 0x40),
      UInt8.ofNat (0x80 + point % 0x40)]
  else
    [UInt8.ofNat (0xF0 + point / 0x40000), UInt8.ofNat (0x80 + point / 0x1000 % 0x40),
      UInt8.ofNat (0x80 + point / 0x40 % 0x40), UInt8.ofNat (0x80 + point % 0x40)]

/-- What the units of a string stand for. -/
def decode : List StringUnit → Bytes
  | [] => []
  | .byte value :: units => value :: decode units
  | .code high :: .code low :: units =>
    if 0xD800 ≤ high ∧ high < 0xDC00 ∧ 0xDC00 ≤ low ∧ low < 0xE000 then
      utf8Bytes (0x10000 + (high - 0xD800) * 0x400 + (low - 0xDC00)) ++ decode units
    else utf8Bytes high ++ decode (.code low :: units)
  | .code unit :: units => utf8Bytes unit ++ decode units

def hexValue (character : UInt8) : Nat :=
  if character ≤ 0x39 then character.toNat - 0x30
  else if character ≤ 0x46 then character.toNat - 0x41 + 10
  else character.toNat - 0x61 + 10

def isWhitespace (character : UInt8) : Bool :=
  character == 0x20 || character == 0x0A || character == 0x0D || character == 0x09

variable (input : Bytes)

def skipWhitespace : Bytes := input.dropWhile isWhitespace

def consume (character : UInt8) : Bytes → Option Bytes
  | first :: rest => if first = character then some rest else none
  | [] => none

def parseEscape : Bytes → Option (List StringUnit × Bytes)
  | [] => none
  | escape :: rest =>
    if escape = 0x22 ∨ escape = 0x5C ∨ escape = 0x2F then some ([.byte escape], rest)
    else if escape = 0x62 then some ([.byte 0x08], rest)
    else if escape = 0x66 then some ([.byte 0x0C], rest)
    else if escape = 0x6E then some ([.byte 0x0A], rest)
    else if escape = 0x72 then some ([.byte 0x0D], rest)
    else if escape = 0x74 then some ([.byte 0x09], rest)
    else if escape = 0x75 then
      match rest with
      | a :: b :: c :: d :: rest =>
        if isHexDigit a && isHexDigit b && isHexDigit c && isHexDigit d then
          some ([.code (((hexValue a * 16 + hexValue b) * 16 + hexValue c) * 16 + hexValue d)], rest)
        else none
      | _ => none
    else none

def parseCharacter (character : UInt8) (rest : Bytes) : Option (List StringUnit × Bytes) :=
  if character < 0x20 then none
  else if character = 0x5C then parseEscape rest
  else if 0x80 ≤ character then
    let length := utf8SequenceLength (character :: rest)
    if length = 0 then none
    else some (((character :: rest).take length).map .byte, (character :: rest).drop length)
  else some ([.byte character], rest)

/-- Up to the closing quote. -/
def parseCharacters : Nat → Bytes → Option (List StringUnit × Bytes)
  | 0, _ => none
  | _ + 1, [] => none
  | rounds + 1, character :: rest =>
    if character = 0x22 then some ([], rest)
    else do
      let (units, rest) ← parseCharacter character rest
      let (more, rest) ← parseCharacters rounds rest
      some (units ++ more, rest)

def parseString : Option (Bytes × Bytes) := do
  let rest ← consume 0x22 input
  let (units, rest) ← parseCharacters (rest.length + 1) rest
  some (decode units, rest)

/-! ## Numbers and literals -/

def parseDigits : Bytes → Option Bytes
  | first :: rest => if isDigit first then some (rest.dropWhile isDigit) else none
  | [] => none

def parseSign : Bytes := (consume 0x2D input).getD input

def parseInteger : Option Bytes :=
  match consume 0x30 input with
  | some rest => if rest.head?.any isDigit then none else some rest
  | none => parseDigits input

def parseFraction : Option Bytes :=
  match consume 0x2E input with
  | some rest => parseDigits rest
  | none => some input

def parseExponentSign : Bytes → Bytes
  | first :: rest => if first = 0x2B ∨ first = 0x2D then rest else first :: rest
  | [] => []

def parseExponent : Bytes → Option Bytes
  | first :: rest =>
    if first = 0x65 ∨ first = 0x45 then parseDigits (parseExponentSign rest) else some (first :: rest)
  | [] => some []

def parseNumber : Option (Value × Bytes) := do
  let rest ← parseInteger (parseSign input)
  let rest ← parseFraction rest
  let rest ← parseExponent rest
  some (.number (input.take (input.length - rest.length)), rest)

def parseLiteral (literal : Bytes) (value : Value) (input : Bytes) : Option (Value × Bytes) :=
  if literal.isPrefixOf input then some (value, input.drop literal.length) else none

/-! ## Arrays, objects and values -/

/-- Elements and commas, up to the closing bracket. -/
def parseElements {α : Type} (element : Bytes → Option (α × Bytes)) (close : UInt8) :
    Nat → Bytes → Option (List α × Bytes)
  | 0, _ => none
  | rounds + 1, input => do
    let (item, rest) ← element input
    match skipWhitespace rest with
    | [] => none
    | next :: rest =>
      if next = close then some ([item], rest)
      else if next = 0x2C then do
        let (items, rest) ← parseElements element close rounds (skipWhitespace rest)
        some (item :: items, rest)
      else none

def parseEnclosed {α : Type} (element : Bytes → Option (α × Bytes)) (close : UInt8) (input : Bytes) :
    Option (List α × Bytes) :=
  match consume close (skipWhitespace input) with
  | some rest => some ([], rest)
  | none => parseElements element close (input.length + 1) (skipWhitespace input)

def parseArray (value : Bytes → Option (Value × Bytes)) (input : Bytes) : Option (Value × Bytes) := do
  let (items, rest) ← parseEnclosed value 0x5D input
  some (.array items, rest)

def parseMember (value : Bytes → Option (Value × Bytes)) (input : Bytes) : Option ((Bytes × Value) × Bytes) := do
  let (key, rest) ← parseString input
  let rest ← consume 0x3A (skipWhitespace rest)
  let (item, rest) ← value rest
  some ((key, item), rest)

def parseObject (value : Bytes → Option (Value × Bytes)) (input : Bytes) : Option (Value × Bytes) := do
  let (members, rest) ← parseEnclosed (parseMember value) 0x7D input
  some (.object (members.map Prod.fst) (members.map Prod.snd), rest)

/-- A value within so many levels. -/
def parseValue : Nat → Bytes → Option (Value × Bytes)
  | 0, _ => none
  | levels + 1, input =>
    match skipWhitespace input with
    | [] => none
    | first :: rest =>
      if first = 0x7B then parseObject (parseValue levels) rest
      else if first = 0x5B then parseArray (parseValue levels) rest
      else if first = 0x22 then do
        let (text, rest) ← parseString (first :: rest)
        some (.string text, rest)
      else if first = 0x74 then parseLiteral (ascii "true") (.boolean true) (first :: rest)
      else if first = 0x66 then parseLiteral (ascii "false") (.boolean false) (first :: rest)
      else if first = 0x6E then parseLiteral (ascii "null") .null (first :: rest)
      else parseNumber (first :: rest)

/-- The whole text. -/
def parse : Option Value := do
  let (value, rest) ← parseValue (kMaximumDepth + 1) (skipWhitespace input)
  if (skipWhitespace rest).isEmpty then some value else none

def isValidValue : Bool := (parse input).isSome

/-! ## Escaping -/

def hexDigit (value : UInt8) : UInt8 := if value < 10 then 0x30 + value else 0x41 + value - 10

def escapeByte (character : UInt8) : Bytes :=
  ascii "\\u00" ++ [hexDigit (character >>> 4), hexDigit (character &&& 0x0F)]

def escapeCharacter (character : UInt8) (rest : Bytes) : Bytes × Bytes :=
  if character = 0x5C then (ascii "\\\\", rest)
  else if character = 0x22 then (ascii "\\\"", rest)
  else if character = 0x08 then (ascii "\\b", rest)
  else if character = 0x0C then (ascii "\\f", rest)
  else if character = 0x0A then (ascii "\\n", rest)
  else if character = 0x0D then (ascii "\\r", rest)
  else if character = 0x09 then (ascii "\\t", rest)
  else if character < 0x20 then (escapeByte character, rest)
  else if 0x80 ≤ character then
    let length := utf8SequenceLength (character :: rest)
    if length = 0 then (escapeByte character, rest)
    else ((character :: rest).take length, (character :: rest).drop length)
  else ([character], rest)

def escapeLoop : Nat → Bytes → Bytes
  | 0, _ => []
  | _ + 1, [] => []
  | rounds + 1, character :: rest =>
    (escapeCharacter character rest).1 ++ escapeLoop rounds (escapeCharacter character rest).2

/-- `EscapeString`. -/
def escapeString : Bytes := escapeLoop input.length input

example : isValidValue (ascii " \x7b\"a\": [1, -2.5e+3, \"\\u0041\\n\"]\x7d\n") = true := by decide

end Cockpit.Json
