/-
  The lines of the streamed response: `ConsumeSseLines`, and how it finds a field in the JSON text of a line.
  Indices of the source are what is left of the text here.
-/
import Cockpit.Json.Validator
import Cockpit.Llm.HttpBody

namespace Cockpit.Llm

open ByteText Incremental
open Cockpit.Voice (isSpace)

def quote : UInt8 := 0x22

def backslash : UInt8 := 0x5C

/-! ## The strings of a JSON text -/

def hexDigitValue (character : UInt8) : UInt32 :=
  if 0x30 ≤ character ∧ character ≤ 0x39 then character.toUInt32 - 0x30
  else if 0x61 ≤ character ∧ character ≤ 0x66 then character.toUInt32 - 0x61 + 10
  else character.toInt8.toInt32.toUInt32 - 0x41 + 10

def decodeCodeUnit (digits : List UInt8) : UInt32 :=
  digits.foldl (fun value character => (value <<< 4) ||| hexDigitValue character) 0

def continuationByte (codepoint shift : UInt32) : UInt8 :=
  (0x80 ||| ((codepoint >>> shift) &&& (0x3F : UInt32))).toUInt8

def leadByte (mark codepoint shift : UInt32) : UInt8 := (mark ||| (codepoint >>> shift)).toUInt8

/-- `AppendUtf8`. -/
def appendUtf8 (codepoint : UInt32) : Bytes :=
  if codepoint ≤ 0x7F then [codepoint.toUInt8]
  else if codepoint ≤ 0x7FF then [leadByte 0xC0 codepoint 6, continuationByte codepoint 0]
  else if codepoint ≤ 0xFFFF then
    [leadByte 0xE0 codepoint 12, continuationByte codepoint 6, continuationByte codepoint 0]
  else
    [leadByte 0xF0 codepoint 18, continuationByte codepoint 12, continuationByte codepoint 6,
      continuationByte codepoint 0]

def unescape (escaped : UInt8) : UInt8 :=
  if escaped = 0x62 then 0x08
  else if escaped = 0x66 then 0x0C
  else if escaped = 0x6E then 0x0A
  else if escaped = 0x72 then 0x0D
  else if escaped = 0x74 then 0x09
  else escaped

/-- The code unit that follows, if it is one. -/
def lowSurrogate (high : UInt32) (rest : Bytes) : Option UInt32 :=
  match rest with
  | slash :: u :: a :: b :: c :: d :: _ =>
    let low := decodeCodeUnit [a, b, c, d]
    if 0xD800 ≤ high ∧ high ≤ 0xDBFF ∧ slash = backslash ∧ u = 0x75 ∧ 0xDC00 ≤ low ∧ low ≤ 0xDFFF
    then some low
    else none
  | _ => none

def decodeFrom : Nat → Bytes → Bytes
  | _, [] => []
  | skip + 1, _ :: rest => decodeFrom skip rest
  | 0, character :: rest =>
    if character ≠ backslash then character :: decodeFrom 0 rest
    else
      match rest with
      | [] => []
      | escaped :: digits =>
        if escaped ≠ 0x75 then unescape escaped :: decodeFrom 1 rest
        else if digits.length < 4 then decodeFrom 1 rest
        else
          let codepoint := decodeCodeUnit (digits.take 4)
          match lowSurrogate codepoint (digits.drop 4) with
          | some low =>
            appendUtf8 ((0x10000 : UInt32) + ((codepoint - 0xD800) <<< 10) + (low - 0xDC00)) ++
              decodeFrom 11 rest
          | none => appendUtf8 codepoint ++ decodeFrom 5 rest

def decodeJsonString (value : Bytes) : Bytes := decodeFrom 0 value

/-! ## The fields of a JSON text -/

def findFrom (field : Bytes) : Option (Bytes × Bool) → Bytes → Option Bytes
  | _, [] => none
  | none, character :: rest =>
    if character = quote then findFrom field (some ([], false)) rest else findFrom field none rest
  | some (name, escaped), character :: rest =>
    if !escaped ∧ character = quote then
      let value := rest.dropWhile isSpace
      if name = field ∧ value.head? = some 0x3A then some value.tail else findFrom field none rest
    else findFrom field (some (name ++ [character], !escaped && character = backslash)) rest

/-- Go from string to string until one is the field. -/
def findJsonFieldValue (body field : Bytes) : Option Bytes := findFrom field none body

/-- Up to the closing quote. -/
def rawString : Bool → Bytes → Option Bytes
  | _, [] => none
  | escaped, character :: rest =>
    if !escaped ∧ character = quote then some []
    else (rawString (!escaped && character = backslash) rest).map (character :: ·)

def notString (field : Bytes) : Bytes :=
  ascii "llama-server response " ++ field ++ ascii " was not a string"

def notTerminated (field : Bytes) : Bytes :=
  ascii "llama-server response " ++ field ++ ascii " was not terminated"

/-- No parser: the text was accepted before. -/
def extractStringField (body field : Bytes) : Except Bytes (Option Bytes) :=
  match findJsonFieldValue body field with
  | none => .ok none
  | some value =>
    let start := value.dropWhile isSpace
    if start.take 4 = ascii "null" then .ok (some [])
    else if start.head? ≠ some quote then .error (notString field)
    else
      match rawString false start.tail with
      | some raw => .ok (some (decodeJsonString raw))
      | none => .error (notTerminated field)

/-! ## The lines -/

structure SseState where
  responseText : Bytes := []
  receivedContent : Bool := false
  receivedReasoning : Bool := false
  streamFinished : Bool := false
  deriving DecidableEq

/-- How a line ends the stream. -/
inductive SseStop where
  | done (s : SseState)
  | failed (failure : Failure)
  deriving DecidableEq

/-- What follows `data:`. -/
def payload (line : Bytes) : Option Bytes :=
  let line := if line.getLast? = some 0x0D then line.dropLast else line
  if ascii "data:" <+: line then some ((line.drop 5).dropWhile (· = 0x20)) else none

namespace SseState

def extractFields (s : SseState) (payload : Bytes) : Except Bytes SseState := do
  let content := (← extractStringField payload (ascii "content")).getD []
  let s := if content = [] then s
    else { s with responseText := s.responseText ++ content, receivedContent := true }
  let reasoning := (← extractStringField payload (ascii "reasoning_content")).getD []
  let s := if reasoning = [] then s else { s with receivedReasoning := true }
  let finishReason := (← extractStringField payload (ascii "finish_reason")).getD []
  return if finishReason = [] then s else { s with streamFinished := true }

/-- One complete line. -/
def consumeLine (s : SseState) (line : Bytes) : Except SseStop SseState :=
  match payload line with
  | none => .ok s
  | some payload =>
    if payload = ascii "[DONE]" then .error (.done s)
    else
      match Json.Parser.isValidValue payload with
      | .error _ => .error (.failed .exception)
      | .ok (some error) =>
        .error (.failed (.error (ascii "invalid streamed local LLM JSON response: " ++ ascii error)))
      | .ok none =>
        match s.extractFields payload with
        | .error error => .error (.failed (.error error))
        | .ok s => .ok s

def round (s : SseState) (pending : Bytes) : Round SseState UInt8 SseStop :=
  match cutAt [newline] pending with
  | none => .wait
  | some (line, rest) =>
    match s.consumeLine line with
    | .ok s => .next s rest
    | .error stop => .stop stop

variable {s s' : SseState} {p r : Bytes} {stop : SseStop}

theorem round_next (h : s.round p = .next s' r) :
    ∃ line, cutAt [newline] p = some (line, r) ∧ s.consumeLine line = .ok s' := by
  unfold round at h
  split at h
  case h_1 => cases h
  case h_2 line rest hcut =>
    split at h
    case h_1 hline =>
      cases h
      exact ⟨line, hcut, hline⟩
    case h_2 => cases h

theorem round_stop (h : s.round p = .stop stop) :
    ∃ line rest, cutAt [newline] p = some (line, rest) ∧ s.consumeLine line = .error stop := by
  unfold round at h
  split at h
  case h_1 => cases h
  case h_2 line rest hcut =>
    split at h
    case h_1 => cases h
    case h_2 hline =>
      cases h
      exact ⟨line, rest, hcut, hline⟩

end SseState

def consumeSseLines : Scanner SseState UInt8 SseStop where
  round := SseState.round
  shrinks := by
    intro s s' p r h
    obtain ⟨line, hcut, _⟩ := SseState.round_next h
    have := length_cutAt hcut
    rw [List.length_singleton] at this
    omega
  next_append := by
    intro s s' p r q h
    obtain ⟨line, hcut, hline⟩ := SseState.round_next h
    unfold SseState.round
    rw [cutAt_append hcut q]
    dsimp only
    rw [hline]
  stop_append := by
    intro s p stop q h
    obtain ⟨line, rest, hcut, hline⟩ := SseState.round_stop h
    unfold SseState.round
    rw [cutAt_append hcut q]
    dsimp only
    rw [hline]

end Cockpit.Llm
