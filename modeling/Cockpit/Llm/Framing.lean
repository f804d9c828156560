/-
  What stands in a response, without the loops that find it.
-/
import Cockpit.Llm.SseLines

namespace Cockpit.Llm

open ByteText Incremental List

/-! ## Chunks -/

/-- A size line and as many bytes of data. -/
def Chunk (chunk data : Bytes) : Prop :=
  ∃ line, cutAt crlf chunk = some (line, data ++ crlf) ∧ chunkSize line = some data.length ∧
    data ≠ [] ∧ data.length + 2 < 2 ^ 64

/-- Chunks one after the other, and their data. -/
inductive Chunks : Bytes → Bytes → Prop where
  | nil : Chunks [] []
  | cons {chunk data wire text : Bytes} : Chunk chunk data → Chunks wire text →
    Chunks (chunk ++ wire) (data ++ text)

/-- No chunk can begin here: the size line is none, the size is one of the two that do not leave room for
    the line end, or there is no line end where the data are over. -/
inductive BrokenChunk : Bytes → Prop where
  | size {rest line behind : Bytes} (hline : cutAt crlf rest = some (line, behind))
      (hsize : chunkSize line = none) : BrokenChunk rest
  | wraps {rest line behind : Bytes} {size : Nat} (hline : cutAt crlf rest = some (line, behind))
      (hsize : chunkSize line = some size) (hwraps : 2 ^ 64 ≤ size + 2)
      (hlen : (size + 2) % 2 ^ 64 ≤ behind.length) : BrokenChunk rest
  | terminator {rest line behind : Bytes} {size : Nat} (hline : cutAt crlf rest = some (line, behind))
      (hsize : chunkSize line = some size) (hpos : size ≠ 0) (hlen : size + 2 ≤ behind.length)
      (hwraps : size + 2 < 2 ^ 64) (hend : (behind.drop size).take 2 ≠ crlf) : BrokenChunk rest

/-- Behind some chunks the framing is broken. -/
def FramingBreaks (body : Bytes) : Prop :=
  ∃ wire text rest, body = wire ++ rest ∧ Chunks wire text ∧ BrokenChunk rest

variable {chunk data wire text rest body line behind : Bytes} {size : Nat}

theorem Chunk.ne_nil (h : Chunk chunk data) : chunk ≠ [] := by
  obtain ⟨line, hcut, _⟩ := h
  intro hnil
  have := length_cutAt hcut
  rw [hnil, length_nil] at this
  have : crlf.length = 2 := rfl
  omega

theorem Chunk.eq_of_prefix {chunk' data' : Bytes} (h : Chunk chunk data) (h' : Chunk chunk' data')
    (hle : chunk <+: chunk') : chunk = chunk' := by
  obtain ⟨line, hcut, hsize, _⟩ := h
  obtain ⟨line', hcut', hsize', _⟩ := h'
  obtain ⟨more, rfl⟩ := hle
  rw [cutAt_append hcut more, Option.some.injEq, Prod.mk.injEq] at hcut'
  obtain ⟨rfl, hdata⟩ := hcut'
  rw [hsize, Option.some.injEq] at hsize'
  have hlen := congrArg List.length hdata
  simp only [length_append] at hlen
  have hmore : more.length = 0 := by omega
  rw [length_eq_zero_iff.mp hmore, append_nil]

/-! ## The loop of `Feed` on the chunks -/

def between (decoded : Bytes) : ChunkState := { decoded := decoded }

theorem round_size (decoded : Bytes) (hline : cutAt crlf rest = some (line, behind))
    (hsize : chunkSize line = some size) :
    chunks.round (between decoded) rest =
      .next { between decoded with chunkSize := some size, complete := size = 0 } behind := by
  show ChunkState.readSize _ rest = _
  unfold ChunkState.readSize
  rw [hline]
  dsimp only
  rw [hsize]

theorem round_data (decoded : Bytes) (hpos : size ≠ 0) :
    chunks.round { between decoded with chunkSize := some size, complete := size = 0 } behind =
      ChunkState.readData { between decoded with chunkSize := some size, complete := size = 0 } size
        behind := by
  show ChunkState.round _ behind = _
  unfold ChunkState.round
  rw [decide_eq_false hpos]
  rfl

theorem reach_chunk (h : Chunk chunk data) (decoded rest : Bytes) :
    chunks.reach (between decoded) (chunk ++ rest) = chunks.reach (between (decoded ++ data)) rest := by
  obtain ⟨line, hcut, hsize, hne, hwraps⟩ := h
  have hpos : data.length ≠ 0 := fun h => hne (length_eq_zero_iff.mp h)
  have hlen : (data ++ crlf ++ rest).length = data.length + 2 + rest.length := by
    simp only [length_append, crlf, length_cons, length_nil]
  rw [chunks.reach_next (round_size decoded (cutAt_append hcut rest) hsize)]
  refine chunks.reach_next ?_
  rw [round_data decoded hpos, ChunkState.readData, Nat.mod_eq_of_lt hwraps, if_neg (by omega),
    if_neg (by omega), if_neg, append_assoc, take_left]
  · congr 1
    · rw [decide_eq_false hpos]
      rfl
    · rw [← append_assoc]
      exact drop_left' (by rw [length_append]; rfl)
  · rw [append_assoc, drop_left]
    exact not_not.mpr rfl

theorem reach_chunks (h : Chunks wire text) (decoded rest : Bytes) :
    chunks.reach (between decoded) (wire ++ rest) = chunks.reach (between (decoded ++ text)) rest := by
  induction h generalizing decoded with
  | nil => rw [nil_append, append_nil]
  | cons hchunk _ ih => rw [append_assoc, reach_chunk hchunk, ih, append_assoc]

theorem scan_chunk (h : Chunk chunk data) (decoded rest : Bytes) :
    chunks.scan (between decoded) (chunk ++ rest) = chunks.scan (between (decoded ++ data)) rest := by
  rw [chunks.scan_eq_reach, reach_chunk h, ← chunks.scan_eq_reach]

theorem scan_chunks (h : Chunks wire text) (decoded rest : Bytes) :
    chunks.scan (between decoded) (wire ++ rest) = chunks.scan (between (decoded ++ text)) rest := by
  rw [chunks.scan_eq_reach, reach_chunks h, ← chunks.scan_eq_reach]

theorem scan_broken (h : BrokenChunk rest) (decoded : Bytes) :
    ∃ failure, chunks.scan (between decoded) rest = .stopped failure := by
  cases h with
  | size hline hsize =>
    refine ⟨invalidSize, chunks.scan_stop ?_⟩
    show ChunkState.readSize _ rest = _
    unfold ChunkState.readSize
    rw [hline]
    dsimp only
    rw [hsize]
  | wraps hline hsize hwraps hlen =>
    refine ⟨.exception, ?_⟩
    rw [chunks.scan_next (round_size decoded hline hsize)]
    refine chunks.scan_stop ?_
    rw [round_data decoded (by omega), ChunkState.readData, if_neg (by omega), if_pos hwraps]
  | terminator hline hsize hpos hlen hwraps hend =>
    refine ⟨invalidTerminator, ?_⟩
    rw [chunks.scan_next (round_size decoded hline hsize)]
    refine chunks.scan_stop ?_
    rw [round_data decoded hpos, ChunkState.readData, Nat.mod_eq_of_lt hwraps, if_neg (by omega),
      if_neg (by omega), if_pos hend]

/-- Nothing is decoded yet. -/
def Waits (rest : Bytes) : Prop :=
  ∀ decoded, ∃ s r, chunks.scan (between decoded) rest = .paused s r ∧ s.decoded = decoded

/-- The loop waits, the framing is broken, or a chunk is there. -/
theorem chunk_cases (rest : Bytes) :
    Waits rest ∨ BrokenChunk rest ∨ ∃ chunk data more, rest = chunk ++ more ∧ Chunk chunk data := by
  cases hline : cutAt crlf rest with
  | none =>
    left
    intro decoded
    refine ⟨between decoded, rest, chunks.scan_wait ?_, rfl⟩
    show ChunkState.readSize _ rest = _
    unfold ChunkState.readSize
    rw [hline]
  | some cut =>
    obtain ⟨line, behind⟩ := cut
    cases hsize : chunkSize line with
    | none => exact Or.inr (Or.inl (.size hline hsize))
    | some size =>
      rcases Nat.eq_zero_or_pos size with rfl | hpos
      · -- the last chunk
        left
        intro decoded
        refine ⟨_, behind, (chunks.scan_next (round_size decoded hline hsize)).trans (chunks.scan_wait rfl),
          rfl⟩
      · rcases Nat.lt_or_ge behind.length ((size + 2) % 2 ^ 64) with hshort | hlen
        · left
          intro decoded
          refine ⟨_, behind, (chunks.scan_next (round_size decoded hline hsize)).trans (chunks.scan_wait ?_),
            rfl⟩
          rw [round_data decoded (by omega), ChunkState.readData, if_pos hshort]
        · right
          rcases Nat.lt_or_ge (size + 2) (2 ^ 64) with hwraps | hwraps
          · rw [Nat.mod_eq_of_lt hwraps] at hlen
            by_cases hend : (behind.drop size).take 2 = crlf
            · right
              have htake : (behind.take size).length = size := by
                rw [length_take]
                omega
              refine ⟨line ++ crlf ++ (behind.take size ++ crlf), behind.take size,
                behind.drop (size + 2), ?_, line, cutAt_append (cutAt_mark hline) _, ?_, ?_, ?_⟩
              · rw [cutAt_eq_append hline, ← hend]
                simp only [append_assoc]
                rw [← drop_drop, take_append_drop, take_append_drop]
              · rw [htake, hsize]
              · intro hnil
                rw [hnil, length_nil] at htake
                omega
              · rw [htake]
                exact hwraps
            · exact Or.inl (.terminator hline hsize (by omega) hlen hwraps hend)
          · exact Or.inl (.wraps hline hsize hwraps hlen)

/-- So a body's framing breaks, or it is chunks and a rest. -/
theorem chunks_cases (body : Bytes) :
    FramingBreaks body ∨ ∃ wire text rest, body = wire ++ rest ∧ Chunks wire text ∧ Waits rest := by
  induction hlen : body.length using Nat.strongRecOn generalizing body with
  | _ n ih =>
    rcases chunk_cases body with hwaits | hbroken | ⟨chunk, data, more, rfl, hchunk⟩
    · exact Or.inr ⟨[], [], body, rfl, .nil, hwaits⟩
    · exact Or.inl ⟨[], [], body, rfl, .nil, hbroken⟩
    · have hpos := length_pos_of_ne_nil hchunk.ne_nil
      rw [length_append] at hlen
      rcases ih more.length (by omega) more rfl with ⟨wire, text, rest, rfl, hwire, hbroken⟩ |
        ⟨wire, text, rest, rfl, hwire, hwaits⟩
      · exact Or.inl ⟨chunk ++ wire, data ++ text, rest, by rw [append_assoc],
          .cons hchunk hwire, hbroken⟩
      · exact Or.inr ⟨chunk ++ wire, data ++ text, rest, by rw [append_assoc],
          .cons hchunk hwire, hwaits⟩

/-- **The loop of `Feed` fails if and only if the framing breaks.** -/
theorem scan_stopped_iff (decoded body : Bytes) :
    (∃ failure, chunks.scan (between decoded) body = .stopped failure) ↔ FramingBreaks body := by
  constructor
  · rintro ⟨failure, hstopped⟩
    rcases chunks_cases body with hbreaks | ⟨wire, text, rest, rfl, hwire, hwaits⟩
    · exact hbreaks
    · obtain ⟨s, r, hpaused, _⟩ := hwaits (decoded ++ text)
      rw [scan_chunks hwire, hpaused] at hstopped
      cases hstopped
  · rintro ⟨wire, text, rest, rfl, hwire, hbroken⟩
    rw [scan_chunks hwire]
    exact scan_broken hbroken (decoded ++ text)

/-- **Where the framing does not break, the loop has decoded the data of the chunks**, and nothing else. -/
theorem scan_paused {s : ChunkState} {r : Bytes} (h : chunks.scan (between []) body = .paused s r) :
    ∃ wire rest, body = wire ++ rest ∧ Chunks wire s.decoded ∧ Waits rest := by
  rcases chunks_cases body with hbreaks | ⟨wire, text, rest, rfl, hwire, hwaits⟩
  · obtain ⟨failure, hstopped⟩ := (scan_stopped_iff [] body).mpr hbreaks
    rw [hstopped] at h
    cases h
  · obtain ⟨s', r', hpaused, hdecoded⟩ := hwaits ([] ++ text)
    rw [scan_chunks hwire, hpaused] at h
    cases h
    refine ⟨wire, rest, rfl, ?_, hwaits⟩
    rw [hdecoded, nil_append]
    exact hwire

theorem Chunks.framingBreaks_append (h : Chunks wire text) (rest : Bytes) :
    FramingBreaks (wire ++ rest) ↔ FramingBreaks rest := by
  rw [← scan_stopped_iff [] (wire ++ rest), scan_chunks h, scan_stopped_iff]

theorem Chunks.not_framingBreaks (h : Chunks wire text) : ¬ FramingBreaks wire := by
  rw [← scan_stopped_iff [] wire, ← append_nil wire, scan_chunks h]
  rintro ⟨failure, hstopped⟩
  cases hstopped

theorem Chunks.append {wire' text' : Bytes} (h : Chunks wire text) (h' : Chunks wire' text') :
    Chunks (wire ++ wire') (text ++ text') := by
  induction h with
  | nil => exact h'
  | cons hchunk _ ih =>
    rw [append_assoc, append_assoc]
    exact .cons hchunk ih

theorem Chunks.single (h : Chunk chunk data) : Chunks chunk data := by
  have := Chunks.cons h .nil
  rwa [append_nil, append_nil] at this

theorem Chunks.comparable {wire' text' rest' : Bytes} (h : Chunks wire text) (h' : Chunks wire' text')
    (hbody : wire ++ rest = wire' ++ rest') : text <+: text' ∨ text' <+: text := by
  induction h generalizing wire' text' with
  | nil => exact Or.inl (List.nil_prefix)
  | @cons chunk data wire text hchunk _ ih =>
    cases h' with
    | nil => exact Or.inr (List.nil_prefix)
    | @cons chunk' data' wire' text' hchunk' hwire' =>
      have hchunks : chunk = chunk' := by
        rw [append_assoc, append_assoc] at hbody
        rcases prefix_or_prefix_of_prefix (prefix_append chunk (wire ++ rest))
          (hbody ▸ prefix_append chunk' (wire' ++ rest')) with hle | hle
        · exact hchunk.eq_of_prefix hchunk' hle
        · exact (hchunk'.eq_of_prefix hchunk hle).symm
      subst hchunks
      have hdata : data = data' := by
        obtain ⟨line, hcut, _⟩ := hchunk
        obtain ⟨line', hcut', _⟩ := hchunk'
        rw [hcut, Option.some.injEq, Prod.mk.injEq] at hcut'
        exact append_cancel_right hcut'.2
      subst hdata
      simp only [append_assoc, append_cancel_left_eq] at hbody
      rcases ih hwire' hbody with hle | hle
      · exact Or.inl ((prefix_append_right_inj data).mpr hle)
      · exact Or.inr ((prefix_append_right_inj data).mpr hle)

theorem Chunk.waits_dropLast (h : Chunk chunk data) : Waits chunk.dropLast := by
  have hchunk := dropLast_append_getLast h.ne_nil
  rcases chunk_cases chunk.dropLast with hwaits | hbroken | ⟨chunk', data', more, hmore, hchunk'⟩
  · exact hwaits
  · exfalso
    obtain ⟨failure, hstopped⟩ := scan_broken hbroken []
    have hall := chunks.scan_append_stopped hstopped [chunk.getLast h.ne_nil]
    rw [hchunk, ← append_nil chunk, scan_chunk h] at hall
    cases hall
  · exfalso
    have hle : chunk' <+: chunk := by
      rw [← hchunk, hmore, append_assoc]
      exact prefix_append chunk' _
    have heq := hchunk'.eq_of_prefix h hle
    have hlen := congrArg List.length hmore
    rw [heq, length_append, length_dropLast] at hlen
    have := length_pos_of_ne_nil h.ne_nil
    omega

theorem Chunks.exists_first {P : Bytes → Prop} (h : Chunks wire text) {decoded : Bytes}
    (hbefore : ¬ P decoded) (hafter : P (decoded ++ text)) :
    ∃ wire₀ text₀ chunk data wire₁, wire = wire₀ ++ chunk ++ wire₁ ∧ Chunks wire₀ text₀ ∧
      ¬ P (decoded ++ text₀) ∧ Chunk chunk data ∧ P (decoded ++ (text₀ ++ data)) := by
  induction h generalizing decoded with
  | nil =>
    rw [append_nil] at hafter
    exact absurd hafter hbefore
  | @cons chunk data wire text hchunk hwire ih =>
    by_cases hfirst : P (decoded ++ data)
    · exact ⟨[], [], chunk, data, wire, rfl, .nil, by rwa [append_nil], hchunk, hfirst⟩
    · rw [← append_assoc] at hafter
      obtain ⟨wire₀, text₀, chunk', data', wire₁, rfl, h₀, hnot, hchunk', hP⟩ := ih hfirst hafter
      refine ⟨chunk ++ wire₀, data ++ text₀, chunk', data', wire₁, ?_, .cons hchunk h₀, ?_, hchunk', ?_⟩
      · simp only [append_assoc]
      · rwa [← append_assoc]
      · rwa [append_assoc, ← append_assoc decoded]

/-! ## Lines -/

/-- The lines that a newline ends. -/
def completeLines : Bytes → List Bytes
  | [] => []
  | character :: text =>
    if character = newline then [] :: completeLines text
    else
      match completeLines text with
      | [] => []
      | line :: lines => (character :: line) :: lines

def fields : List Bytes := [ascii "content", ascii "reasoning_content", ascii "finish_reason"]

/-- `[DONE]`, or a line that is rejected. -/
def EndsStream (line : Bytes) : Prop :=
  ∃ text, payload line = some text ∧
    (text = ascii "[DONE]" ∨ Json.Parser.isValidValue text ≠ .ok none
      ∨ ∃ field ∈ fields, ∃ error, extractStringField text field = .error error)

/-- Some complete line ends the stream. -/
def Ends (text : Bytes) : Prop := ∃ line ∈ completeLines text, EndsStream line

theorem completeLines_of_cut {rest : Bytes} (h : cutAt [newline] text = some (line, rest)) :
    completeLines text = line :: completeLines rest := by
  induction text generalizing line with
  | nil => cases h
  | cons character text ih =>
    rw [cutAt] at h
    rw [completeLines]
    by_cases hnewline : character = newline
    · have hprefix : [newline] <+: character :: text := by
        rw [hnewline]
        exact prefix_append [newline] text
      rw [if_pos hprefix] at h
      cases h
      rw [if_pos hnewline]
      rfl
    · have hprefix : ¬ [newline] <+: character :: text := by
        intro hprefix
        exact hnewline (cons_prefix_cons.mp hprefix).1.symm
      rw [if_neg hprefix, Option.map_eq_some_iff] at h
      obtain ⟨⟨line', rest'⟩, hcut, heq⟩ := h
      cases heq
      rw [if_neg hnewline, ih hcut]

theorem completeLines_of_none (h : cutAt [newline] text = none) : completeLines text = [] := by
  induction text with
  | nil => rfl
  | cons character text ih =>
    rw [cutAt] at h
    split at h
    case isTrue => cases h
    case isFalse hprefix =>
      rw [Option.map_eq_none_iff] at h
      have hnewline : character ≠ newline := by
        intro heq
        refine hprefix ?_
        rw [heq]
        exact prefix_append [newline] text
      rw [completeLines, if_neg hnewline, ih h]

theorem extractFields_error {s : SseState} {error : Bytes} (h : s.extractFields text = .error error) :
    ∃ field ∈ fields, extractStringField text field = .error error := by
  unfold SseState.extractFields at h
  unfold fields
  simp only [mem_cons, not_mem_nil, or_false, exists_eq_or_imp, exists_eq_left]
  cases hcontent : extractStringField text (ascii "content") with
  | error e =>
    rw [hcontent] at h
    cases h
    exact Or.inl rfl
  | ok content =>
    rw [hcontent] at h
    cases hreasoning : extractStringField text (ascii "reasoning_content") with
    | error e =>
      rw [hreasoning] at h
      cases h
      exact Or.inr (Or.inl rfl)
    | ok reasoning =>
      rw [hreasoning] at h
      cases hfinish : extractStringField text (ascii "finish_reason") with
      | error e =>
        rw [hfinish] at h
        cases h
        exact Or.inr (Or.inr rfl)
      | ok finishReason =>
        rw [hfinish] at h
        cases h

theorem extractFields_ok {s s' : SseState} (h : s.extractFields text = .ok s') :
    ∀ field ∈ fields, ∃ value, extractStringField text field = .ok value := by
  unfold SseState.extractFields at h
  unfold fields
  simp only [mem_cons, not_mem_nil, or_false, forall_eq_or_imp, forall_eq]
  cases hcontent : extractStringField text (ascii "content") with
  | error e =>
    rw [hcontent] at h
    cases h
  | ok content =>
    rw [hcontent] at h
    cases hreasoning : extractStringField text (ascii "reasoning_content") with
    | error e =>
      rw [hreasoning] at h
      cases h
    | ok reasoning =>
      rw [hreasoning] at h
      cases hfinish : extractStringField text (ascii "finish_reason") with
      | error e =>
        rw [hfinish] at h
        cases h
      | ok finishReason => exact ⟨⟨content, rfl⟩, ⟨reasoning, rfl⟩, ⟨finishReason, rfl⟩⟩

/-- The loop stops at the lines that end the stream. -/
theorem consumeLine_error_iff (s : SseState) (line : Bytes) :
    (∃ stop, s.consumeLine line = .error stop) ↔ EndsStream line := by
  unfold SseState.consumeLine EndsStream
  cases payload line with
  | none =>
    constructor
    · rintro ⟨stop, hstop⟩
      cases hstop
    · rintro ⟨text, htext, _⟩
      cases htext
  | some text =>
    simp only [Option.some.injEq, exists_eq_left']
    by_cases hdone : text = ascii "[DONE]"
    · rw [if_pos hdone]
      exact ⟨fun _ => Or.inl hdone, fun _ => ⟨_, rfl⟩⟩
    · rw [if_neg hdone]
      cases Json.Parser.isValidValue text with
      | error fault => exact ⟨fun _ => Or.inr (Or.inl nofun), fun _ => ⟨_, rfl⟩⟩
      | ok error =>
        cases error with
        | some error => exact ⟨fun _ => Or.inr (Or.inl nofun), fun _ => ⟨_, rfl⟩⟩
        | none =>
          cases hfields : s.extractFields text with
          | error error =>
            obtain ⟨field, hfield, herror⟩ := extractFields_error hfields
            exact ⟨fun _ => Or.inr (Or.inr ⟨field, hfield, error, herror⟩), fun _ => ⟨_, rfl⟩⟩
          | ok s' =>
            constructor
            · rintro ⟨stop, hstop⟩
              cases hstop
            · rintro (h | h | ⟨field, hfield, error, herror⟩)
              · exact absurd h hdone
              · exact absurd rfl h
              · obtain ⟨value, hvalue⟩ := extractFields_ok hfields field hfield
                rw [hvalue] at herror
                cases herror

/-- **The loop of `ConsumeSseLines` stops if and only if a complete line ends the stream.** -/
theorem stopped_iff (s : SseState) (text : Bytes) :
    (∃ stop, consumeSseLines.scan s text = .stopped stop) ↔ Ends text := by
  unfold Ends
  induction s, text using consumeSseLines.scan_induction with
  | wait s p hround =>
    have hcut : cutAt [newline] p = none := by
      have hwait : s.round p = .wait := hround
      unfold SseState.round at hwait
      split at hwait
      case h_1 hcut => exact hcut
      case h_2 =>
        split at hwait <;> cases hwait
    rw [consumeSseLines.scan_wait hround, completeLines_of_none hcut]
    constructor
    · rintro ⟨stop, hstop⟩
      cases hstop
    · rintro ⟨line, hline, _⟩
      cases hline
  | next s p s' r hround ih =>
    obtain ⟨line, hcut, hline⟩ := SseState.round_next hround
    have hgoes : ¬ EndsStream line := by
      rw [← consumeLine_error_iff s line, hline]
      rintro ⟨stop, hstop⟩
      cases hstop
    rw [consumeSseLines.scan_next hround, ih, completeLines_of_cut hcut]
    constructor <;> rintro ⟨line', hmem, hends⟩
    · exact ⟨line', mem_cons_of_mem line hmem, hends⟩
    · rcases mem_cons.mp hmem with rfl | hmem
      · exact absurd hends hgoes
      · exact ⟨line', hmem, hends⟩
  | stop s p stop hround =>
    obtain ⟨line, rest, hcut, hline⟩ := SseState.round_stop hround
    rw [consumeSseLines.scan_stop hround, completeLines_of_cut hcut]
    exact ⟨fun _ => ⟨line, mem_cons_self, (consumeLine_error_iff s line).mp ⟨stop, hline⟩⟩,
      fun _ => ⟨stop, rfl⟩⟩

theorem ends_append (h : Ends text) (more : Bytes) : Ends (text ++ more) := by
  obtain ⟨stop, hstop⟩ := (stopped_iff {} text).mpr h
  exact (stopped_iff {} (text ++ more)).mp ⟨stop, consumeSseLines.scan_append_stopped hstop more⟩

theorem not_ends_nil : ¬ Ends [] := by
  rintro ⟨line, hline, _⟩
  cases hline

end Cockpit.Llm
