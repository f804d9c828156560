/-
  `TranscriptNormalizer`: a transcript is brought to lower case, full-width forms to ASCII, and what separates
  words to single blanks.

  Texts are bytes; those that are not UTF-8 are passed on one at a time.  The text from the offset on stands
  for the text and the offset.
-/

namespace Cockpit.Voice.TranscriptNormalizer

/-- A byte that is not UTF-8 is passed on alone. -/
structure Utf8CodePoint where
  value : Nat := 0
  size : Nat := 1
  valid : Bool := false

def isContinuation (value : UInt8) : Bool := value &&& 0xC0 = 0x80

/-- What the first byte says: the size, its bits of the value, and the least value of this size. -/
def leadOf (first : UInt8) : Option (Nat × Nat × Nat) :=
  if first &&& 0xE0 = 0xC0 then some (2, (first &&& 0x1F).toNat, 0x80)
  else if first &&& 0xF0 = 0xE0 then some (3, (first &&& 0x0F).toNat, 0x800)
  else if first &&& 0xF8 = 0xF0 then some (4, (first &&& 0x07).toNat, 0x10000)
  else none

/-- The loop of `Decode` over the other bytes. -/
def continueValue : Nat → List UInt8 → Option Nat
  | value, [] => some value
  | value, next :: rest =>
    if isContinuation next then continueValue ((value <<< 6) ||| (next &&& 0x3F).toNat) rest else none

/-- `Decode`, at the front of what is left. -/
def decode (first : UInt8) (rest : List UInt8) : Utf8CodePoint :=
  if first < 0x80 then ⟨first.toNat, 1, true⟩
  else
    match leadOf first with
    | none => ⟨first.toNat, 1, false⟩
    | some (size, value, minimum) =>
      if rest.length + 1 < size then ⟨first.toNat, 1, false⟩
      else
        match continueValue value (rest.take (size - 1)) with
        | none => ⟨first.toNat, 1, false⟩
        | some value =>
          if value < minimum ∨ 0x10FFFF < value ∨ (0xD800 ≤ value ∧ value ≤ 0xDFFF) then
            ⟨first.toNat, 1, false⟩
          else ⟨value, size, true⟩

/-- A blank, `,` `.` `!` `?` `;` and `:`, and some of the full-width ones. -/
def isSeparator (value : Nat) : Bool :=
  if value < 0x80 then
    value = 0x20 || (0x09 ≤ value && value ≤ 0x0D) || value = 0x2C || value = 0x2E || value = 0x21 ||
      value = 0x3F || value = 0x3B || value = 0x3A
  else
    value = 0x3000 || value = 0x3001 || value = 0x3002 || value = 0xFF0C || value = 0xFF1B || value = 0xFF1A

/-- `AppendCodePoint`. -/
def appendCodePoint (value : Nat) : List UInt8 :=
  if value ≤ 0x7F then [UInt8.ofNat value]
  else if value ≤ 0x7FF then [UInt8.ofNat (0xC0 ||| (value >>> 6)), UInt8.ofNat (0x80 ||| (value &&& 0x3F))]
  else if value ≤ 0xFFFF then
    [UInt8.ofNat (0xE0 ||| (value >>> 12)), UInt8.ofNat (0x80 ||| ((value >>> 6) &&& 0x3F)),
      UInt8.ofNat (0x80 ||| (value &&& 0x3F))]
  else
    [UInt8.ofNat (0xF0 ||| (value >>> 18)), UInt8.ofNat (0x80 ||| ((value >>> 12) &&& 0x3F)),
      UInt8.ofNat (0x80 ||| ((value >>> 6) &&& 0x3F)), UInt8.ofNat (0x80 ||| (value &&& 0x3F))]

/-- The value of a full-width form is that of the ASCII one, and those of the curly apostrophes are that of
    the straight one. -/
def narrow (value : Nat) : Nat :=
  let value := if 0xFF01 ≤ value ∧ value ≤ 0xFF5E then value - 0xFEE0 else value
  if value = 0x2018 ∨ value = 0x2019 then 0x27 else value

/-- ASCII only. -/
def lower (value : Nat) : Nat := if 0x41 ≤ value ∧ value ≤ 0x5A then value + 0x20 else value

theorem two_le_of_leadOf {first : UInt8} {size value minimum : Nat}
    (h : leadOf first = some (size, value, minimum)) : 2 ≤ size := by
  unfold leadOf at h
  split at h
  · obtain ⟨rfl, -⟩ := Prod.mk.inj (Option.some.inj h)
    decide
  · split at h
    · obtain ⟨rfl, -⟩ := Prod.mk.inj (Option.some.inj h)
      decide
    · split at h
      · obtain ⟨rfl, -⟩ := Prod.mk.inj (Option.some.inj h)
        decide
      · cases h

theorem size_decode_pos (first : UInt8) (rest : List UInt8) : 0 < (decode first rest).size := by
  unfold decode
  split
  · exact Nat.one_pos
  · split
    · exact Nat.one_pos
    · rename_i size value minimum hlead
      have hsize := two_le_of_leadOf hlead
      split
      · exact Nat.one_pos
      · split
        · exact Nat.one_pos
        · split
          · exact Nat.one_pos
          · show 0 < size
            omega

/-- The loop of `Normalize`, with what has been written. -/
def normalizeLoop (normalized : List UInt8) (pendingSpace : Bool) : List UInt8 → List UInt8
  | [] => normalized
  | first :: rest =>
    let decoded := decode first rest
    let space : List UInt8 := if pendingSpace && normalized ≠ [] then [0x20] else []
    let text := (first :: rest).drop decoded.size
    if !decoded.valid then normalizeLoop (normalized ++ space ++ [UInt8.ofNat decoded.value]) false text
    else
      let value := narrow decoded.value
      if isSeparator value then normalizeLoop normalized (normalized ≠ []) text
      else normalizeLoop (normalized ++ space ++ appendCodePoint (lower value)) false text
termination_by text => text.length
decreasing_by
  all_goals
    have hsize := size_decode_pos first rest
    simp only [List.length_drop, List.length_cons]
    omega

/-- `Normalize`. -/
def normalize (transcript : List UInt8) : List UInt8 := normalizeLoop [] false transcript

end Cockpit.Voice.TranscriptNormalizer
