/-
  The HTTP response of the llama-server: the status line, the headers, and `HttpBodyDecoder`. `std::size_t` has
  64 bits, and where the source adds to one the sum wraps.
-/
import Mathlib.Algebra.Group.Int.Defs
import Mathlib.Algebra.Group.Nat.Defs
import Cockpit.Lib.Incremental
import Cockpit.Json.Parser
import Cockpit.Voice.SpeechSegmenter

namespace Cockpit.Llm

open ByteText Incremental List
open Cockpit.Json (isHexDigit hexValue)
open Cockpit.Voice (isSpace)

def crlf : Bytes := [0x0D, 0x0A]

/-! ## The head of the response -/

/-- `stream >> code`. -/
def extractInt (text : Bytes) : Option Int :=
  let number := text.dropWhile isSpace
  let signed := number.head? = some 0x2D ∨ number.head? = some 0x2B
  let digits := (if signed then number.tail else number).takeWhile isDigit
  let value : Int := if number.head? = some 0x2D then -(ofDigits digits : Int) else ofDigits digits
  if digits ≠ [] ∧ -2 ^ 31 ≤ value ∧ value < 2 ^ 31 then some value else none

def parseHttpStatus (response : Bytes) : Option Int :=
  match cutAt crlf response with
  | none => none
  | some (line, _) =>
    let version := line.dropWhile isSpace
    if version = [] then none else extractInt (version.dropWhile fun character => !isSpace character)

def toLower (character : UInt8) : UInt8 :=
  if 0x41 ≤ character ∧ character ≤ 0x5A then character + 0x20 else character

def usesChunkedEncoding (headers : Bytes) : Bool :=
  (cutAt (ascii "\r\ntransfer-encoding: chunked") (headers.map toLower)).isSome

/-! ## The size of a chunk -/

def hexDigits (text : Bytes) : Bytes × Bytes :=
  match text with
  | zero :: x :: digit :: rest =>
    if zero = 0x30 ∧ (x = 0x78 ∨ x = 0x58) ∧ isHexDigit digit then
      (digit :: rest.takeWhile isHexDigit, rest.dropWhile isHexDigit)
    else (text.takeWhile isHexDigit, text.dropWhile isHexDigit)
  | _ => (text.takeWhile isHexDigit, text.dropWhile isHexDigit)

/-- `std::stoull` in base 16. -/
def stoull (text : Bytes) : Option (Nat × Bytes) :=
  let number := text.dropWhile isSpace
  let signed := number.head? = some 0x2D ∨ number.head? = some 0x2B
  let (digits, rest) := hexDigits (if signed then number.tail else number)
  let magnitude := digits.foldl (fun n digit => 16 * n + hexValue digit) 0
  if digits = [] ∨ 2 ^ 64 ≤ magnitude then none
  else some (if number.head? = some 0x2D then (2 ^ 64 - magnitude) % 2 ^ 64 else magnitude, rest)

/-- Extensions are left out. -/
def chunkSize (line : Bytes) : Option Nat :=
  match stoull (line.takeWhile (· ≠ 0x3B)) with
  | some (size, []) => some size
  | _ => none

/-! ## The decoder -/

/-- How a part of the client ends before its time: with a text for the result, or with an exception that
    nothing catches. -/
inductive Failure where
  | error (text : Bytes)
  | exception
  deriving DecidableEq

def invalidSize : Failure := .error (ascii "llama-server response had an invalid HTTP chunk size")

def invalidTerminator : Failure :=
  .error (ascii "llama-server response had an invalid HTTP chunk terminator")

/-- What the loop of `Feed` works on, besides `pending_`. -/
structure ChunkState where
  chunkSize : Option Nat := none
  complete : Bool := false
  decoded : Bytes := []
  deriving DecidableEq

namespace ChunkState

/-- One round for a size line. -/
def readSize (s : ChunkState) (pending : Bytes) : Round ChunkState UInt8 Failure :=
  match cutAt crlf pending with
  | none => .wait
  | some (line, rest) =>
    match Llm.chunkSize line with
    | none => .stop invalidSize
    | some size => .next { s with chunkSize := some size, complete := size = 0 } rest

/-- One round for the data of a chunk with the line end behind it. -/
def readData (s : ChunkState) (size : Nat) (pending : Bytes) : Round ChunkState UInt8 Failure :=
  if pending.length < (size + 2) % 2 ^ 64 then .wait
  else if 2 ^ 64 ≤ size + 2 then .stop .exception
  else if (pending.drop size).take 2 ≠ crlf then .stop invalidTerminator
  else .next { s with chunkSize := none, decoded := s.decoded ++ pending.take size }
    (pending.drop (size + 2))

def round (s : ChunkState) (pending : Bytes) : Round ChunkState UInt8 Failure :=
  if s.complete then .wait
  else
    match s.chunkSize with
    | none => s.readSize pending
    | some size => s.readData size pending

variable {s s' : ChunkState} {p r : Bytes} {e : Failure}

theorem readSize_next (h : s.readSize p = .next s' r) : ∃ line size,
    cutAt crlf p = some (line, r) ∧ Llm.chunkSize line = some size ∧
      s' = { s with chunkSize := some size, complete := size = 0 } := by
  unfold readSize at h
  split at h
  case h_1 => cases h
  case h_2 line rest hcut =>
    split at h
    case h_1 => cases h
    case h_2 size hsize =>
      cases h
      exact ⟨line, size, hcut, hsize, rfl⟩

theorem readSize_stop (h : s.readSize p = .stop e) : ∃ line r,
    cutAt crlf p = some (line, r) ∧ Llm.chunkSize line = none ∧ e = invalidSize := by
  unfold readSize at h
  split at h
  case h_1 => cases h
  case h_2 line rest hcut =>
    split at h
    case h_1 hsize =>
      cases h
      exact ⟨line, rest, hcut, hsize, rfl⟩
    case h_2 => cases h

variable {size : Nat}

theorem readData_next (h : s.readData size p = .next s' r) :
    size + 2 ≤ p.length ∧ size + 2 < 2 ^ 64 ∧ (p.drop size).take 2 = crlf ∧ r = p.drop (size + 2) ∧
      s' = { s with chunkSize := none, decoded := s.decoded ++ p.take size } := by
  unfold readData at h
  split at h
  case isTrue => cases h
  case isFalse hlen =>
    split at h
    case isTrue => cases h
    case isFalse hwraps =>
      split at h
      case isTrue => cases h
      case isFalse hend =>
        cases h
        rw [Nat.mod_eq_of_lt (by omega)] at hlen
        exact ⟨by omega, by omega, not_not.mp hend, rfl, rfl⟩

theorem readData_stop (h : s.readData size p = .stop e) :
    (size + 2) % 2 ^ 64 ≤ p.length ∧
      ((2 ^ 64 ≤ size + 2 ∧ e = .exception)
        ∨ (size + 2 < 2 ^ 64 ∧ (p.drop size).take 2 ≠ crlf ∧ e = invalidTerminator)) := by
  unfold readData at h
  split at h
  case isTrue => cases h
  case isFalse hlen =>
    refine ⟨by omega, ?_⟩
    split at h
    case isTrue hwraps =>
      cases h
      exact Or.inl ⟨hwraps, rfl⟩
    case isFalse hwraps =>
      split at h
      case isTrue hend =>
        cases h
        exact Or.inr ⟨by omega, hend, rfl⟩
      case isFalse => cases h

theorem take_drop_append (h : size + 2 ≤ p.length) (q : Bytes) :
    ((p ++ q).drop size).take 2 = (p.drop size).take 2 := by
  rw [drop_append_of_le_length (by omega), take_append_of_le_length]
  rw [length_drop]
  omega

theorem round_shrinks (h : s.round p = .next s' r) : r.length < p.length := by
  unfold round at h
  split at h
  case isTrue => cases h
  case isFalse =>
    split at h
    case h_1 =>
      obtain ⟨line, size, hcut, _, _⟩ := readSize_next h
      have := length_cutAt hcut
      have : crlf.length = 2 := rfl
      omega
    case h_2 size _ =>
      obtain ⟨hlen, _, _, hr, _⟩ := readData_next h
      rw [hr, length_drop]
      omega

theorem round_next_append (q : Bytes) (h : s.round p = .next s' r) : s.round (p ++ q) = .next s' (r ++ q) := by
  unfold round at h ⊢
  split at h
  case isTrue => cases h
  case isFalse hcomplete =>
    rw [if_neg hcomplete]
    split at h
    case h_1 =>
      obtain ⟨line, size, hcut, hsize, hs'⟩ := readSize_next h
      unfold readSize
      rw [cutAt_append hcut q]
      dsimp only
      rw [hsize, hs']
    case h_2 size _ =>
      obtain ⟨hlen, hwraps, hend, hr, hs'⟩ := readData_next h
      unfold readData
      rw [length_append, Nat.mod_eq_of_lt hwraps, if_neg (by omega), if_neg (by omega),
        take_drop_append hlen, if_neg (not_not.mpr hend), take_append_of_le_length (by omega),
        drop_append_of_le_length hlen, hr, hs']

theorem round_stop_append (q : Bytes) (h : s.round p = .stop e) : s.round (p ++ q) = .stop e := by
  unfold round at h ⊢
  split at h
  case isTrue => cases h
  case isFalse hcomplete =>
    rw [if_neg hcomplete]
    split at h
    case h_1 =>
      obtain ⟨line, rest, hcut, hsize, he⟩ := readSize_stop h
      unfold readSize
      rw [cutAt_append hcut q]
      dsimp only
      rw [hsize, he]
    case h_2 size _ =>
      obtain ⟨hlen, ⟨hwraps, he⟩ | ⟨hwraps, hend, he⟩⟩ := readData_stop h
      · unfold readData
        rw [length_append, if_neg (by omega), if_pos hwraps, he]
      · rw [Nat.mod_eq_of_lt hwraps] at hlen
        unfold readData
        rw [length_append, Nat.mod_eq_of_lt hwraps, if_neg (by omega), if_neg (by omega),
          take_drop_append hlen, if_pos hend, he]

def after (before : Bytes) (s : ChunkState) : ChunkState := { s with decoded := before ++ s.decoded }

theorem readSize_after (before : Bytes) (s : ChunkState) (p : Bytes) :
    (s.after before).readSize p = (s.readSize p).map (after before) := by
  unfold readSize
  cases cutAt crlf p with
  | none => rfl
  | some cut =>
    dsimp only
    cases Llm.chunkSize cut.1 <;> rfl

theorem readData_after (before : Bytes) (s : ChunkState) (size : Nat) (p : Bytes) :
    (s.after before).readData size p = (s.readData size p).map (after before) := by
  unfold readData after
  rw [append_assoc]
  repeat' split
  all_goals rfl

/-- What was decoded before has no part in a round. -/
theorem round_after (before : Bytes) (s : ChunkState) (p : Bytes) :
    (s.after before).round p = (s.round p).map (after before) := by
  have hsize : (s.after before).chunkSize = s.chunkSize := rfl
  have hcomplete : (s.after before).complete = s.complete := rfl
  unfold round
  rw [hsize, hcomplete]
  cases s.complete with
  | true => rfl
  | false =>
    cases s.chunkSize with
    | none => exact readSize_after before s p
    | some size => exact readData_after before s size p

end ChunkState

/-- The loop of `Feed`; an iteration of the source is a round of either kind, or one of both. -/
def chunks : Scanner ChunkState UInt8 Failure where
  round := ChunkState.round
  shrinks := ChunkState.round_shrinks
  next_append := ChunkState.round_next_append
  stop_append := ChunkState.round_stop_append

/-- `HttpBodyDecoder`. -/
structure HttpBodyDecoder where
  chunked : Bool
  pending : Bytes := []
  chunkSize : Option Nat := none
  complete : Bool := false
  deriving DecidableEq

namespace HttpBodyDecoder

/-- Go through the chunks that are complete. -/
def feed (d : HttpBodyDecoder) (input : Bytes) : Except Failure (HttpBodyDecoder × Bytes) :=
  if !d.chunked then .ok (d, input)
  else
    match chunks.scan { chunkSize := d.chunkSize, complete := d.complete } (d.pending ++ input) with
    | .paused s pending =>
      .ok ({ d with pending := pending, chunkSize := s.chunkSize, complete := s.complete }, s.decoded)
    | .stopped failure => .error failure

end HttpBodyDecoder

end Cockpit.Llm
