/-
  What a chunked body is decoded to: everything of the contract holds but for size lines that are accepted and
  should not be.
-/
import Cockpit.Llm.ChunkSize
import Cockpit.Llm.Framing

namespace Cockpit.Llm

open ByteText Incremental List

variable {wire text line last behind : Bytes} {size : Nat}

/-! ## The calls of `Feed` -/

namespace HttpBodyDecoder

def loop (d : HttpBodyDecoder) : ChunkState := { chunkSize := d.chunkSize, complete := d.complete }

/-- `Feed` with the caller's buffer: a call that fails has appended to it what it had decoded before. -/
def feedInto (d : HttpBodyDecoder) (input : Bytes) : HttpBodyDecoder × Bytes × Option Failure :=
  if !d.chunked then (d, input, none)
  else
    let (s, pending, failure) := chunks.reach d.loop (d.pending ++ input)
    ({ d with pending := pending, chunkSize := s.chunkSize, complete := s.complete }, s.decoded, failure)

/-- `feed` is `feedInto` without the buffer of a call that fails. -/
theorem feed_eq_feedInto (d : HttpBodyDecoder) (input : Bytes) :
    d.feed input =
      match d.feedInto input with
      | (d', decoded, none) => .ok (d', decoded)
      | (_, _, some failure) => .error failure := by
  unfold feed feedInto loop
  split
  · rfl
  · rw [chunks.scan_eq_reach]
    dsimp only
    rcases chunks.reach _ _ with ⟨s, pending, failure⟩
    cases failure <;> rfl

/-- One call of `Feed` for each block, until one fails. -/
def decode : HttpBodyDecoder → List Bytes → Bytes × Option Failure
  | _, [] => ([], none)
  | d, block :: blocks =>
    match d.feedInto block with
    | (d', decoded, none) =>
      let (more, failure) := decode d' blocks
      (decoded ++ more, failure)
    | (_, decoded, some failure) => (decoded, some failure)

def fresh : HttpBodyDecoder := { chunked := true }

theorem after_resumed (s : ChunkState) :
    ChunkState.after s.decoded { chunkSize := s.chunkSize, complete := s.complete } = s := by
  unfold ChunkState.after
  rw [append_nil]

theorem reach_resumed (s : ChunkState) (pending : Bytes) :
    chunks.reach s pending = Prod.map (ChunkState.after s.decoded) id
        (chunks.reach { chunkSize := s.chunkSize, complete := s.complete } pending) := by
  have hmap := chunks.reach_map (ChunkState.round_after s.decoded)
    { chunkSize := s.chunkSize, complete := s.complete } pending
  rwa [after_resumed] at hmap

theorem wait_resumed {s : ChunkState} {pending : Bytes} (h : chunks.round s pending = .wait) :
    chunks.round { chunkSize := s.chunkSize, complete := s.complete } pending = .wait := by
  have hafter := ChunkState.round_after s.decoded { chunkSize := s.chunkSize, complete := s.complete } pending
  rw [after_resumed] at hafter
  have hmapped := hafter.symm.trans h
  show ChunkState.round _ pending = .wait
  cases hround : ChunkState.round { chunkSize := s.chunkSize, complete := s.complete } pending with
  | wait => rfl
  | next s' r | stop e =>
    rw [hround] at hmapped
    cases hmapped

/-- **The calls do what the loop does with all the blocks in one**, from every decoder that waits. -/
theorem decode_eq (blocks : List Bytes) (d : HttpBodyDecoder) (hchunked : d.chunked = true)
    (hwaits : chunks.round d.loop d.pending = .wait) :
    d.decode blocks = ((chunks.reach d.loop (d.pending ++ blocks.flatten)).1.decoded,
        (chunks.reach d.loop (d.pending ++ blocks.flatten)).2.2) := by
  induction blocks generalizing d with
  | nil =>
    rw [flatten_nil, append_nil, chunks.reach_wait hwaits]
    rfl
  | cons block blocks ih =>
    have happend := chunks.reach_append d.loop (d.pending ++ block) blocks.flatten
    rw [decode, feedInto, hchunked, flatten_cons, ← append_assoc, happend]
    cases hreach : chunks.reach d.loop (d.pending ++ block) with
    | mk s reached =>
      obtain ⟨pending, failure⟩ := reached
      cases failure with
      | some failure => rfl
      | none =>
        have hrest := ih ⟨true, pending, s.chunkSize, s.complete⟩ rfl
          (wait_resumed (chunks.wait_of_reach hreach))
        show (s.decoded ++ (decode _ blocks).1, (decode _ blocks).2) = _
        rw [hrest]
        show _ = ((chunks.reach s (pending ++ blocks.flatten)).1.decoded,
          (chunks.reach s (pending ++ blocks.flatten)).2.2)
        rw [reach_resumed s]
        rfl

/-- **The cutting has no part in what is decoded**, nor in whether and how the decoding fails. -/
theorem decode_fresh (blocks : List Bytes) :
    fresh.decode blocks = ((chunks.reach (between []) blocks.flatten).1.decoded,
        (chunks.reach (between []) blocks.flatten).2.2) :=
  decode_eq blocks fresh rfl rfl

end HttpBodyDecoder

/-! ## The contract -/

/-- No line end within. -/
def IsLine (line : Bytes) : Prop := cutAt crlf (line ++ crlf) = some (line, [])

/-- A body that is cut into chunks, as the protocol has them.  The data of a chunk stand in a `std::string`
    together with their line end. -/
inductive Coded : Bytes → Bytes → Prop where
  | nil : Coded [] []
  | cons {line data wire text : Bytes} : IsLine line → SizeLine line data.length → data ≠ [] →
    data.length + 2 < 2 ^ 64 → Coded wire text →
    Coded (line ++ crlf ++ (data ++ crlf) ++ wire) (data ++ text)

/-- A coded body is decoded to the body, whatever is behind it; the cutting of no beginning of the stream
    matters; and a size line that is none of the protocol, or leaves no room in `std::size_t` for the line end,
    fails as soon as it is there. -/
structure DecodingContract (stream : Bytes) : Prop where
  /-- A coded body is decoded to the body, and what is behind the last line is ignored. -/
  body : ∀ wire text last behind blocks, stream = wire ++ (last ++ crlf) ++ behind → Coded wire text →
    IsLine last → SizeLine last 0 → blocks.flatten = stream →
    HttpBodyDecoder.fresh.decode blocks = (text, none)
  /-- What has been decoded, and whether and how it failed, depends on what was received only. -/
  uncut : ∀ received blocks blocks', received <+: stream → blocks.flatten = received →
    blocks'.flatten = received →
    HttpBodyDecoder.fresh.decode blocks = HttpBodyDecoder.fresh.decode blocks'
  /-- A size line that is none of the protocol, or has too great a size, is refused with an error. -/
  rejects : ∀ wire text line blocks, wire ++ (line ++ crlf) <+: stream → Coded wire text → IsLine line →
    (¬ ∃ size, SizeLine line size ∧ size + 2 < 2 ^ 64) → blocks.flatten = wire ++ (line ++ crlf) →
    ∃ message, HttpBodyDecoder.fresh.decode blocks = (text, some (.error message))

/-- A line that `chunkSize` accepts too much: a decorated one, or one of the two greatest sizes. -/
def Misread (stream : Bytes) : Prop :=
  ∃ wire text line, wire ++ (line ++ crlf) <+: stream ∧ Coded wire text ∧ IsLine line ∧
    (Decorated line ∨ ∃ size, SizeLine line size ∧ size < 2 ^ 64 ∧ 2 ^ 64 ≤ size + 2)

/-! ## Where it holds -/

theorem Coded.chunks (h : Coded wire text) : Chunks wire text := by
  induction h with
  | nil => exact .nil
  | @cons line data wire text hline hsize hne hlt _ ih =>
    refine .cons ⟨line, ?_, chunkSize_sizeLine hsize (by omega), hne, hlt⟩ ih
    exact cutAt_append hline (data ++ crlf)

theorem reach_line (h : Coded wire text) (hline : IsLine line) (hsize : chunkSize line = some size) (behind : Bytes) :
    chunks.reach (between []) (wire ++ (line ++ crlf) ++ behind) =
      chunks.reach { between text with chunkSize := some size, complete := size = 0 } behind := by
  rw [append_assoc, reach_chunks h.chunks, nil_append]
  exact chunks.reach_next (round_size text (cutAt_append hline behind) hsize)

variable {blocks : List Bytes}

theorem decode_body (h : Coded wire text) (hline : IsLine last) (hsize : SizeLine last 0)
    (hblocks : blocks.flatten = wire ++ (last ++ crlf) ++ behind) :
    HttpBodyDecoder.fresh.decode blocks = (text, none) := by
  have hzero : chunkSize last = some 0 := chunkSize_sizeLine hsize (by omega)
  rw [HttpBodyDecoder.decode_fresh, hblocks, reach_line h hline hzero behind, chunks.reach_wait rfl]
  rfl

theorem decode_refused (h : Coded wire text) (hline : IsLine line) (hnone : chunkSize line = none)
    (hblocks : blocks.flatten = wire ++ (line ++ crlf)) :
    HttpBodyDecoder.fresh.decode blocks = (text, some invalidSize) := by
  have hstop : chunks.round (between text) (line ++ crlf) = .stop invalidSize := by
    show ChunkState.readSize _ (line ++ crlf) = _
    unfold ChunkState.readSize
    rw [hline]
    dsimp only
    rw [hnone]
  rw [HttpBodyDecoder.decode_fresh, hblocks, reach_chunks h.chunks, nil_append, chunks.reach_stop hstop]
  rfl

theorem decode_accepted {message : Bytes} (h : Coded wire text) (hline : IsLine line)
    (hsize : chunkSize line = some size) (hblocks : blocks.flatten = wire ++ (line ++ crlf)) :
    (HttpBodyDecoder.fresh.decode blocks).2 ≠ some (.error message) := by
  have hreach := reach_line h hline hsize []
  rw [append_nil] at hreach
  rw [HttpBodyDecoder.decode_fresh, hblocks, hreach]
  by_cases hzero : size = 0
  · rw [hzero, chunks.reach_wait rfl]
    nofun
  · have hround : chunks.round { between text with chunkSize := some size, complete := size = 0 } [] =
        ChunkState.readData { between text with chunkSize := some size, complete := size = 0 } size [] :=
      round_data text hzero
    unfold ChunkState.readData at hround
    by_cases hshort : ([] : Bytes).length < (size + 2) % 2 ^ 64
    · rw [if_pos hshort] at hround
      rw [chunks.reach_wait hround]
      nofun
    · -- only a size for which the sum wraps is waited for no longer
      have hwraps : 2 ^ 64 ≤ size + 2 := by
        rw [length_nil] at hshort
        omega
      rw [if_neg hshort, if_pos hwraps] at hround
      rw [chunks.reach_stop hround]
      nofun

/-- **The decoder keeps the contract if and only if no line is misread.** -/
theorem decodes_iff (stream : Bytes) : DecodingContract stream ↔ ¬ Misread stream := by
  constructor
  · rintro hcontract ⟨wire, text, line, hprefix, hcoded, hline, hbad⟩
    have hnone : ¬ ∃ size, SizeLine line size ∧ size + 2 < 2 ^ 64 := by
      rintro ⟨size, hsize, hfits⟩
      rcases hbad with hdecorated | ⟨size', hsize', _, hwraps⟩
      · exact hdecorated.not_sizeLine hsize
      · have hsame := hsize.unique hsize'
        omega
    have hread : ∃ n, chunkSize line = some n := by
      refine (chunkSize_isSome_iff line).mpr ?_
      rcases hbad with hdecorated | ⟨size, hsize, hlt, _⟩
      · exact Or.inr hdecorated
      · exact Or.inl ⟨size, hlt, hsize⟩
    have hflatten : [wire ++ (line ++ crlf)].flatten = wire ++ (line ++ crlf) := flatten_singleton
    obtain ⟨n, hn⟩ := hread
    obtain ⟨message, hmessage⟩ := hcontract.rejects wire text line _ hprefix hcoded hline hnone hflatten
    have hacc : (HttpBodyDecoder.fresh.decode [wire ++ (line ++ crlf)]).2 ≠ some (.error message) :=
      decode_accepted hcoded hline hn hflatten
    refine hacc ?_
    rw [hmessage]
  · intro hread
    refine ⟨?_, ?_, ?_⟩
    · intro wire text last behind blocks hstream hcoded hline hsize hblocks
      exact decode_body hcoded hline hsize (hblocks.trans hstream)
    · intro received blocks blocks' _ hblocks hblocks'
      rw [HttpBodyDecoder.decode_fresh, HttpBodyDecoder.decode_fresh, hblocks, hblocks']
    · intro wire text line blocks hprefix hcoded hline hnone hblocks
      have hrefused : chunkSize line = none := by
        refine Option.eq_none_iff_forall_ne_some.mpr fun n hn => ?_
        rcases (chunkSize_isSome_iff line).mp ⟨n, hn⟩ with ⟨size, hlt, hsize⟩ | hdecorated
        · have hwraps : 2 ^ 64 ≤ size + 2 := by
            have hfits : ¬ size + 2 < 2 ^ 64 := fun hfits => hnone ⟨size, hsize, hfits⟩
            omega
          exact hread ⟨wire, text, line, hprefix, hcoded, hline, Or.inr ⟨size, hsize, hlt, hwraps⟩⟩
        · exact hread ⟨wire, text, line, hprefix, hcoded, hline, Or.inl hdecorated⟩
      exact ⟨_, decode_refused hcoded hline hrefused hblocks⟩

theorem negative_size_accepted :
    ¬ DecodingContract (ascii "-1\r\na") ∧
      HttpBodyDecoder.fresh.decode [ascii "-1\r\na"] = ([], some .exception) := by
  refine ⟨?_, by decide +kernel⟩
  intro hcontract
  have hnone : ¬ ∃ size, SizeLine (ascii "-1") size ∧ size + 2 < 2 ^ 64 := by
    rintro ⟨size, ⟨digits, extension, hline, ⟨hne, hall⟩, _⟩, _⟩
    obtain ⟨digit, more, rfl⟩ := exists_cons_of_ne_nil hne
    have hminus : (0x2D : UInt8) = digit := head_eq_of_cons_eq hline
    rw [← hminus] at hall
    exact absurd (hall 0x2D mem_cons_self) (by decide)
  have hline : cutAt crlf (ascii "-1" ++ crlf) = some (ascii "-1", []) := by decide +kernel
  obtain ⟨message, hmessage⟩ := hcontract.rejects [] [] (ascii "-1") [ascii "-1\r\n"] ⟨ascii "a", rfl⟩ .nil
    hline hnone (by decide +kernel)
  have hgoes : HttpBodyDecoder.fresh.decode [ascii "-1\r\n"] = ([], none) := by decide +kernel
  rw [hgoes] at hmessage
  cases hmessage

end Cockpit.Llm
