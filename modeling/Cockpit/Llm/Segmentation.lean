/-
  Does the answer depend on where the stream is cut into blocks? It does, in one situation (`BreaksLate`): a
  line ends the stream, and the framing of the chunks breaks behind it, within 4095 bytes. In every other stream
  neither the cut matters, nor what follows the line that ends the stream.
-/
import Cockpit.Json.Validation
import Cockpit.Llm.Framing
import Cockpit.Llm.LlamaServerClient

namespace Cockpit.Llm

open ByteText Incremental List

/-! ## Responses -/

/-- A response with a good status. -/
structure Response (stream head body : Bytes) : Prop where
  headers : cutAt headerEnd stream = some (head, body)
  good : ∃ statusCode, parseHttpStatus (head ++ crlf) = some statusCode ∧ isGood statusCode = true

/-- The text of a body, or a beginning of it. -/
inductive BodyText (head : Bytes) : Bytes → Bytes → Prop where
  | plain {body : Bytes} (h : usesChunkedEncoding (head ++ crlf) = false) : BodyText head body body
  | chunked {wire text rest : Bytes} (h : usesChunkedEncoding (head ++ crlf) = true)
      (hwire : Chunks wire text) : BodyText head (wire ++ rest) text

/-- `GenerateResponse` leaves its loop at the line; but when the same block has both, `Feed` fails before any
    line of the block is looked at, and what it had decoded is lost. -/
def BreaksLate (stream : Bytes) : Prop :=
  ∃ head wire text chunk data tail, Response stream head (wire ++ chunk ++ tail) ∧
    usesChunkedEncoding (head ++ crlf) = true ∧
    Chunks wire text ∧ ¬ Ends text ∧ Chunk chunk data ∧ Ends (text ++ data) ∧
    ∃ k < kBlockSize, FramingBreaks (tail.take k)

variable {stream head body text x y : Bytes} {o o' : Outcome} {r : Receiving}

theorem Response.longer (h : Response x head body) (y : Bytes) : Response (x ++ y) head (body ++ y) :=
  ⟨cutAt_append h.headers y, h.good⟩

theorem Response.shorter (h : Response stream head (x ++ y)) :
    Response (head ++ headerEnd ++ x) head x ∧ stream = head ++ headerEnd ++ x ++ y := by
  refine ⟨⟨?_, h.good⟩, ?_⟩
  · exact cutAt_append (cutAt_mark h.headers) x
  · rw [cutAt_eq_append h.headers, ← append_assoc]

theorem Response.of_prefix {body' head' : Bytes} (h : Response stream head body) (hle : x <+: stream)
    (hcut : cutAt headerEnd x = some (head', body')) : Response x head body' ∧ head' = head ∧ body' <+: body := by
  obtain ⟨y, rfl⟩ := hle
  have hstream := h.headers
  rw [cutAt_append hcut y, Option.some.injEq, Prod.mk.injEq] at hstream
  obtain ⟨rfl, rfl⟩ := hstream
  exact ⟨⟨hcut, h.good⟩, rfl, prefix_append body' y⟩

/-! ## What the decoder makes of a body -/

def freshDecoder (head : Bytes) : HttpBodyDecoder := { chunked := usesChunkedEncoding (head ++ crlf) }

theorem feed_plain (h : usesChunkedEncoding (head ++ crlf) = false) (body : Bytes) :
    (freshDecoder head).feed body = .ok (freshDecoder head, body) := by
  unfold HttpBodyDecoder.feed freshDecoder
  rw [h]
  rfl

theorem feed_chunked (h : usesChunkedEncoding (head ++ crlf) = true) (body : Bytes) :
    (freshDecoder head).feed body =
      match chunks.scan (between []) body with
      | .paused s pending =>
        .ok ({ freshDecoder head with pending := pending, chunkSize := s.chunkSize, complete := s.complete },
          s.decoded)
      | .stopped failure => .error failure := by
  unfold HttpBodyDecoder.feed freshDecoder
  rw [h]
  rfl

variable {failure : Failure}

theorem feed_error (h : (freshDecoder head).feed body = .error failure) :
    usesChunkedEncoding (head ++ crlf) = true ∧ FramingBreaks body
      ∧ chunks.scan (between []) body = .stopped failure := by
  cases hchunked : usesChunkedEncoding (head ++ crlf) with
  | false =>
    rw [feed_plain hchunked] at h
    cases h
  | true =>
    rw [feed_chunked hchunked] at h
    split at h
    case h_1 => cases h
    case h_2 failure' hscan =>
      cases h
      exact ⟨rfl, (scan_stopped_iff [] body).mp ⟨failure, hscan⟩, hscan⟩

theorem feed_of_breaks (hchunked : usesChunkedEncoding (head ++ crlf) = true) (h : FramingBreaks body) :
    ∃ failure, (freshDecoder head).feed body = .error failure := by
  obtain ⟨failure, hscan⟩ := (scan_stopped_iff [] body).mpr h
  refine ⟨failure, ?_⟩
  rw [feed_chunked hchunked, hscan]

theorem feed_ok {d : HttpBodyDecoder} (h : (freshDecoder head).feed body = .ok (d, text)) :
    BodyText head body text := by
  cases hchunked : usesChunkedEncoding (head ++ crlf) with
  | false =>
    rw [feed_plain hchunked] at h
    cases h
    exact .plain hchunked
  | true =>
    rw [feed_chunked hchunked] at h
    split at h
    case h_1 s pending hscan =>
      cases h
      obtain ⟨wire, rest, rfl, hwire, _⟩ := scan_paused hscan
      exact .chunked hchunked hwire
    case h_2 => cases h

theorem feed_chunks {wire rest : Bytes} (hchunked : usesChunkedEncoding (head ++ crlf) = true)
    (hwire : Chunks wire text) (hwaits : Waits rest) :
    ∃ d, (freshDecoder head).feed (wire ++ rest) = .ok (d, text) := by
  obtain ⟨s, pending, hscan, hdecoded⟩ := hwaits text
  subst hdecoded
  refine ⟨{ freshDecoder head with
    pending := pending, chunkSize := s.chunkSize, complete := s.complete }, ?_⟩
  rw [feed_chunked hchunked, scan_chunks hwire, nil_append, hscan]

/-! ## How the client stops -/

/-- The client stops when it has this text, and its outcome. -/
inductive Stops (text : Bytes) : Outcome → Prop where
  | status {head body : Bytes} (hcut : cutAt headerEnd text = some (head, body))
      (hstatus : parseHttpStatus (head ++ crlf) = none) :
      Stops text (.failed (ascii "local LLM response had an invalid status line"))
  | framing {head body : Bytes} {failure : Failure} (hcut : cutAt headerEnd text = some (head, body))
      (hfeed : (freshDecoder head).feed body = .error failure) : Stops text failure.outcome
  | line {head body decoded : Bytes} {d : HttpBodyDecoder} {stop : SseStop}
      (hresponse : Response text head body) (hfeed : (freshDecoder head).feed body = .ok (d, decoded))
      (hstop : consumeSseLines.scan {} decoded = .stopped stop) : Stops text stop.outcome

theorem stops_of_receive (h : receiveHeaders x = .stop o) : Stops x o := by
  cases hcut : cutAt headerEnd x with
  | none =>
    rw [receiveHeaders, hcut] at h
    cases h
  | some cut =>
    obtain ⟨head, body⟩ := cut
    rw [receiveHeaders_of_cut hcut, receiveBody] at h
    split at h
    case h_1 hstatus =>
      cases h
      exact .status hcut hstatus
    case h_2 statusCode hstatus =>
      rcases BodyState.decode_stop h with ⟨failure, hfeed, rfl⟩ |
        ⟨d, decoded, stop, hfeed, hgood, hscan, rfl⟩
      · exact .framing hcut hfeed
      · exact .line ⟨hcut, statusCode, hstatus, hgood⟩ hfeed hscan

variable {stop : SseStop}

theorem receive_of_line {d : HttpBodyDecoder} (h : Response x head body)
    (hfeed : (freshDecoder head).feed body = .ok (d, text)) (hstop : consumeSseLines.scan {} text = .stopped stop) :
    receiveHeaders x = .stop stop.outcome := by
  obtain ⟨statusCode, hstatus, hgood⟩ := h.good
  rw [receiveHeaders_of_cut h.headers, receiveBody, hstatus]
  exact BodyState.decode_of_stopped hfeed hgood hstop

theorem receive_of_error (h : Response x head body) (hfeed : (freshDecoder head).feed body = .error failure) :
    receiveHeaders x = .stop failure.outcome := by
  obtain ⟨statusCode, hstatus, _⟩ := h.good
  rw [receiveHeaders_of_cut h.headers, receiveBody, hstatus]
  exact BodyState.decode_of_error hfeed

/-- **Where the client has stopped, it stops with everything longer, too**, and with the same outcome, unless a
    line has stopped it and the framing breaks behind it. -/
theorem receiveHeaders_longer (h : receiveHeaders x = .stop o) (y : Bytes) : receiveHeaders (x ++ y) = .stop o
      ∨ ∃ head body text, Response x head body ∧ BodyText head body text ∧ Ends text
        ∧ FramingBreaks (body ++ y) ∧ usesChunkedEncoding (head ++ crlf) = true := by
  cases hcut : cutAt headerEnd x with
  | none =>
    rw [receiveHeaders, hcut] at h
    cases h
  | some cut =>
    obtain ⟨head, body⟩ := cut
    have hall := receiveHeaders_of_cut (cutAt_append hcut y)
    rw [receiveHeaders_of_cut hcut] at h
    rw [hall]
    unfold receiveBody at h ⊢
    split at h
    case h_1 => exact Or.inl h
    case h_2 statusCode hstatus =>
      rcases BodyState.decode_append_stop h y with hstop | ⟨failure', hfeed', hstop⟩
      · exact Or.inl hstop
      · rcases BodyState.decode_stop h with ⟨failure, hfeed, rfl⟩ |
          ⟨d, decoded, stop, hfeed, hgood, hscan, rfl⟩
        · exact Or.inl (BodyState.decode_of_error (HttpBodyDecoder.feed_append_error hfeed y))
        · obtain ⟨hchunked, hbreaks, _⟩ := feed_error hfeed'
          exact Or.inr ⟨head, body, decoded, ⟨hcut, statusCode, hstatus, hgood⟩, feed_ok hfeed,
            (stopped_iff {} decoded).mp ⟨stop, hscan⟩, hbreaks, hchunked⟩

theorem receive_prefix_next {s : Receiving} (h : receiveHeaders y = .next s) (hle : x <+: y) :
    receiveHeaders x ≠ .stop o := by
  intro hstop
  obtain ⟨more, rfl⟩ := hle
  obtain ⟨o', hstop'⟩ := receiveHeaders_append_stop hstop more
  rw [h] at hstop'
  cases hstop'

theorem waits_nil : Waits [] := fun decoded => ⟨between decoded, [], rfl, rfl⟩

theorem receive_of_chunks {wire : Bytes} (hresponse : Response x head wire)
    (hchunked : usesChunkedEncoding (head ++ crlf) = true) (hwire : Chunks wire text) (hends : Ends text) :
    ∃ stop : SseStop, receiveHeaders x = .stop stop.outcome := by
  obtain ⟨stop, hstop⟩ := (stopped_iff {} text).mpr hends
  obtain ⟨d, hfeed⟩ := feed_chunks hchunked hwire waits_nil
  rw [append_nil] at hfeed
  exact ⟨stop, receive_of_line hresponse hfeed hstop⟩

variable {before : Bytes}

/-- **A block in which a line ends the stream and the framing breaks is one in which it breaks late**: the
    chunk of the line is not complete before the block. -/
theorem breaksLate_of {wire rest block body' : Bytes} {s : Receiving}
    (hresponse : Response stream head (wire ++ rest)) (hchunked : usesChunkedEncoding (head ++ crlf) = true)
    (hwire : Chunks wire text) (hends : Ends text) (hwithin : before ++ block <+: stream)
    (hbounded : block.length ≤ kBlockSize) (hgoing : receiveHeaders before = .next s)
    (hblock : cutAt headerEnd (before ++ block) = some (head, body')) (hbreaks : FramingBreaks body') :
    BreaksLate stream := by
  obtain ⟨wire₀, text₀, chunk, data, wire₁, rfl, h₀, hnot, hchunk, hfirst⟩ :=
    hwire.exists_first (P := Ends) not_ends_nil hends
  rw [nil_append] at hnot hfirst
  rw [append_assoc] at hresponse
  have hdone := h₀.append (Chunks.single hchunk)
  obtain ⟨hshort, hstream⟩ := hresponse.shorter
  -- the text that ends with the chunk of the line
  generalize hpre : head ++ headerEnd ++ (wire₀ ++ chunk) = pre at hshort hstream
  obtain ⟨stop, hstop⟩ := receive_of_chunks hshort hchunked hdone hfirst
  have hpreStream : pre <+: stream := by
    rw [hstream]
    exact prefix_append pre _
  have hbefore : before.length < pre.length := by
    rcases Nat.lt_or_ge before.length pre.length with hlt | hge
    · exact hlt
    · exact absurd hstop (receive_prefix_next hgoing
        (prefix_of_prefix_length_le hpreStream ((prefix_append before block).trans hwithin) hge))
  have hlonger : pre <+: before ++ block := by
    rcases prefix_or_prefix_of_prefix hpreStream hwithin with hle | hle
    · exact hle
    · exfalso
      obtain ⟨_, _, hbody⟩ := hshort.of_prefix hle hblock
      obtain ⟨more, hmore⟩ := hbody
      obtain ⟨failure, hfailure⟩ := feed_of_breaks hchunked hbreaks
      have hfailed := HttpBodyDecoder.feed_append_error hfailure more
      rw [hmore] at hfailed
      exact hdone.not_framingBreaks (feed_error hfailed).2.1
  obtain ⟨more, hmore⟩ := hlonger
  have hbody : body' = wire₀ ++ chunk ++ more := by
    have hcut := (hshort.longer more).headers
    rw [hmore, hblock, Option.some.injEq, Prod.mk.injEq] at hcut
    exact hcut.2
  have htail : more <+: wire₁ ++ rest := by
    rw [← hmore, hstream, prefix_append_right_inj] at hwithin
    exact hwithin
  refine ⟨head, wire₀, text₀, chunk, data, wire₁ ++ rest, ?_, hchunked, h₀, hnot, hchunk, hfirst,
    more.length, ?_, ?_⟩
  · exact hresponse
  · have hlen := congrArg List.length hmore
    rw [length_append, length_append] at hlen
    omega
  · rw [← List.prefix_iff_eq_take.mp htail]
    rw [hbody] at hbreaks
    exact (hdone.framingBreaks_append more).mp hbreaks

/-! ## The outcomes differ -/

theorem feed_failure (h : (freshDecoder head).feed body = .error failure) :
    failure = invalidSize ∨ failure = invalidTerminator ∨ failure = .exception := by
  obtain ⟨_, _, hscan⟩ := feed_error h
  obtain ⟨s, p, hround⟩ := chunks.exists_round_of_stopped hscan
  have hround' : s.round p = .stop failure := hround
  unfold ChunkState.round at hround'
  split at hround'
  case isTrue => cases hround'
  case isFalse =>
    split at hround'
    case h_1 =>
      obtain ⟨_, _, _, _, he⟩ := ChunkState.readSize_stop hround'
      exact Or.inl he
    case h_2 =>
      obtain ⟨_, ⟨_, he⟩ | ⟨_, _, he⟩⟩ := ChunkState.readData_stop hround'
      · exact Or.inr (Or.inr he)
      · exact Or.inr (Or.inl he)

theorem extractStringField_error {field error : Bytes} (h : extractStringField text field = .error error) :
    error = notString field ∨ error = notTerminated field := by
  unfold extractStringField at h
  split at h
  case h_1 => cases h
  case h_2 value _ =>
    dsimp only at h
    split at h
    case isTrue => cases h
    case isFalse =>
      split at h
      case isTrue =>
        cases h
        exact Or.inl rfl
      case isFalse =>
        split at h
        case h_1 => cases h
        case h_2 =>
          cases h
          exact Or.inr rfl

theorem line_stop (h : consumeSseLines.scan {} text = .stopped stop) : (∃ s, stop = .done s)
      ∨ (∃ error, stop = .failed (.error (ascii "invalid streamed local LLM JSON response: " ++ error)))
      ∨ ∃ field ∈ fields, stop = .failed (.error (notString field))
        ∨ stop = .failed (.error (notTerminated field)) := by
  obtain ⟨s, p, hround⟩ := consumeSseLines.exists_round_of_stopped h
  obtain ⟨line, rest, _, hline⟩ := SseState.round_stop hround
  unfold SseState.consumeLine at hline
  split at hline
  case h_1 => cases hline
  case h_2 payload _ =>
    split at hline
    case isTrue =>
      cases hline
      exact Or.inl ⟨s, rfl⟩
    case isFalse =>
      rcases Json.Parser.isValidValue_correct payload with ⟨_, hvalid⟩ | ⟨_, error, _, hvalid⟩ <;>
        rw [hvalid] at hline
      · dsimp only at hline
        split at hline
        case h_1 error hfields =>
          cases hline
          obtain ⟨field, hfield, herror⟩ := extractFields_error hfields
          refine Or.inr (Or.inr ⟨field, hfield, ?_⟩)
          rcases extractStringField_error herror with rfl | rfl
          · exact Or.inl rfl
          · exact Or.inr rfl
        case h_2 => cases hline
      · cases hline
        exact Or.inr (Or.inl ⟨ascii error, rfl⟩)

/-- No line ends with such an outcome. -/
def IsFramingError : Outcome → Prop
  | .returned result => result.error.take 25 = ascii "llama-server response had"
  | .thrown => True

theorem isFramingError_of_feed (h : (freshDecoder head).feed body = .error failure) :
    IsFramingError failure.outcome := by
  rcases feed_failure h with rfl | rfl | rfl
  · show List.take 25 _ = _
    decide
  · show List.take 25 _ = _
    decide
  · trivial

theorem not_isFramingError_of_line (h : consumeSseLines.scan {} text = .stopped stop) :
    ¬ IsFramingError stop.outcome := by
  rcases line_stop h with ⟨s, rfl⟩ | ⟨error, rfl⟩ | ⟨field, hfield, rfl | rfl⟩
  · show ¬ IsFramingError (streamResult s)
    unfold streamResult
    split
    case isTrue =>
      show List.take 25 _ ≠ _
      cases s.receivedReasoning <;> decide
    case isFalse =>
      show List.take 25 ([] : Bytes) ≠ _
      decide
  · show List.take 25 _ ≠ _
    rw [take_append_of_le_length (by decide)]
    decide
  · have hall : ∀ field ∈ fields, (notString field).take 25 ≠ ascii "llama-server response had" := by
      decide
    exact hall field hfield
  · have hall : ∀ field ∈ fields, (notTerminated field).take 25 ≠ ascii "llama-server response had" := by
      decide
    exact hall field hfield

/-- **The outcome of a frame that breaks is never that of a line.** -/
theorem outcome_ne (hline : consumeSseLines.scan {} text = .stopped stop)
    (hfeed : (freshDecoder head).feed body = .error failure) : stop.outcome ≠ failure.outcome := by
  intro heq
  refine not_isFramingError_of_line hline ?_
  rw [heq]
  exact isFramingError_of_feed hfeed

/-! ## Where the cut matters -/

theorem receive_start (x : Bytes) : client.receive (.headers []) x = receiveHeaders x := rfl

theorem kBlockSize_pos : 0 < kBlockSize := by decide

theorem outcome_eq_of_le {block before' block' : Bytes} {s' : Receiving} (hlate : ¬ BreaksLate stream)
    (hstop : receiveHeaders (before ++ block) = .stop o) (hwithin' : before' ++ block' <+: stream)
    (hbounded' : block'.length ≤ kBlockSize) (hgoing' : receiveHeaders before' = .next s')
    (hstop' : receiveHeaders (before' ++ block') = .stop o') (hle : before ++ block <+: before' ++ block') :
    o = o' := by
  obtain ⟨more, hmore⟩ := hle
  rcases receiveHeaders_longer hstop more with hsame |
    ⟨head, body, text, hresponse, htext, hends, hbreaks, hchunked⟩
  · rw [hmore, hstop'] at hsame
    cases hsame
    rfl
  · exfalso
    refine hlate ?_
    have hblock := (hresponse.longer more).headers
    rw [hmore] at hblock
    obtain ⟨behind, hbehind⟩ := hwithin'
    have hall := (hresponse.longer more).longer behind
    rw [hmore, hbehind] at hall
    cases htext with
    | plain hplain =>
      rw [hplain] at hchunked
      cases hchunked
    | chunked _ hwire =>
      rw [append_assoc, append_assoc] at hall
      exact breaksLate_of hall hchunked hwire hends ⟨behind, hbehind⟩ hbounded' hgoing' hblock hbreaks

theorem BreaksLate.canStop (h : BreaksLate stream) : ∃ o o', client.CanStop kBlockSize (.headers []) stream o
      ∧ client.CanStop kBlockSize (.headers []) stream o' ∧ o ≠ o' := by
  obtain ⟨head, wire, text, chunk, data, tail, hresponse, hchunked, hwire, hnot, hchunk, hends, k, hk,
    hbreaks⟩ := h
  have hlast := dropLast_append_getLast hchunk.ne_nil
  obtain ⟨hshort, hstream⟩ := hresponse.shorter
  have hone : wire ++ chunk = wire ++ chunk.dropLast ++ [chunk.getLast hchunk.ne_nil] := by
    rw [append_assoc, hlast]
  -- all but the last byte of the chunk
  obtain ⟨hbefore, hcomplete⟩ := (hone ▸ hshort).shorter
  generalize hpre : head ++ headerEnd ++ (wire ++ chunk.dropLast) = before at hbefore hcomplete
  obtain ⟨d, hfeed⟩ := feed_chunks hchunked hwire hchunk.waits_dropLast
  have hgoing : ∃ s, receiveHeaders before = .next s := by
    cases hreceive : receiveHeaders before with
    | next s => exact ⟨s, rfl⟩
    | stop o =>
      exfalso
      cases stops_of_receive hreceive with
      | status hcut hstatus =>
        obtain ⟨_, hhead, _⟩ := hbefore.of_prefix (prefix_refl before) hcut
        obtain ⟨statusCode, hgood, _⟩ := hbefore.good
        rw [hhead, hgood] at hstatus
        cases hstatus
      | framing hcut hfeed' =>
        rw [hbefore.headers, Option.some.injEq, Prod.mk.injEq] at hcut
        obtain ⟨rfl, rfl⟩ := hcut
        rw [hfeed] at hfeed'
        cases hfeed'
      | line hresponse' hfeed' hstop =>
        have hcut := hresponse'.headers
        rw [hbefore.headers, Option.some.injEq, Prod.mk.injEq] at hcut
        obtain ⟨rfl, rfl⟩ := hcut
        rw [hfeed] at hfeed'
        cases hfeed'
        exact hnot ((stopped_iff {} text).mp ⟨_, hstop⟩)
  obtain ⟨s, hgoing⟩ := hgoing
  have hdone := hwire.append (Chunks.single hchunk)
  -- a block that ends with the chunk
  obtain ⟨stop, hstop⟩ := (stopped_iff {} (text ++ data)).mpr hends
  obtain ⟨d', hfeed'⟩ := feed_chunks hchunked hdone waits_nil
  rw [append_nil] at hfeed'
  have hline := receive_of_line hshort hfeed' hstop
  -- a block that goes on to where the framing breaks
  obtain ⟨failure, hfailure⟩ :=
    feed_of_breaks hchunked ((hdone.framingBreaks_append (tail.take k)).mpr hbreaks)
  have hframing := receive_of_error (hshort.longer (tail.take k)) hfailure
  rw [hone, hcomplete] at hline hframing
  rw [hone, hcomplete] at hstream
  refine ⟨stop.outcome, failure.outcome,
    ⟨before, [chunk.getLast hchunk.ne_nil], s, ?_, ?_, hgoing, hline⟩,
    ⟨before, [chunk.getLast hchunk.ne_nil] ++ tail.take k, s, ?_, ?_, hgoing, ?_⟩,
    outcome_ne hstop hfailure⟩
  · rw [hstream]
    exact prefix_append _ tail
  · exact kBlockSize_pos
  · rw [hstream, ← append_assoc, prefix_append_right_inj]
    exact take_prefix k tail
  · have := length_take_le k tail
    rw [length_append, length_singleton]
    omega
  · rw [← append_assoc]
    exact hframing

/-- **The results of all cuts agree if and only if the framing does not break late.** -/
theorem cuts_agree_iff (stream : Bytes) : (∀ as bs, Cut kBlockSize stream as → Cut kBlockSize stream bs →
      generateResponse as = generateResponse bs) ↔ ¬ BreaksLate stream := by
  show (∀ as bs, Cut kBlockSize stream as → Cut kBlockSize stream bs →
    client.run (.headers []) as = client.run (.headers []) bs) ↔ _
  rw [client.cuts_agree_iff kBlockSize_pos (receive_start [])]
  constructor
  · intro hall hlate
    obtain ⟨o, o', hcan, hcan', hne⟩ := hlate.canStop
    exact hne (hall o o' hcan hcan')
  · intro hlate o o' hcan hcan'
    obtain ⟨before, block, s, hwithin, hbounded, hgoing, hstop⟩ := hcan
    obtain ⟨before', block', s', hwithin', hbounded', hgoing', hstop'⟩ := hcan'
    rcases prefix_or_prefix_of_prefix hwithin hwithin' with hle | hle
    · exact outcome_eq_of_le hlate hstop hwithin' hbounded' hgoing' hstop' hle
    · exact (outcome_eq_of_le hlate hstop' hwithin hbounded hgoing hstop hle).symm

/-! ## What follows the line -/

theorem receive_of_ends (hresponse : Response stream head body) (htext : BodyText head body text)
    (hends : Ends text) : ∃ o, receiveHeaders stream = .stop o := by
  cases htext with
  | plain hplain =>
    obtain ⟨stop, hstop⟩ := (stopped_iff {} body).mpr hends
    exact ⟨stop.outcome, receive_of_line hresponse (feed_plain hplain body) hstop⟩
  | @chunked wire _ rest hchunked hwire =>
    obtain ⟨hshort, hstream⟩ := hresponse.shorter
    obtain ⟨stop, hstop⟩ := receive_of_chunks hshort hchunked hwire hends
    rw [hstream]
    exact receiveHeaders_append_stop hstop rest

theorem BodyText.comparable {x y text text' : Bytes} (h : BodyText head body text)
    (h' : BodyText head x text') (hbody : x ++ y = body) : text <+: text' ∨ text' <+: text := by
  cases h with
  | plain hplain =>
    cases h' with
    | plain =>
      right
      rw [← hbody]
      exact prefix_append x y
    | chunked hchunked =>
      rw [hplain] at hchunked
      cases hchunked
  | chunked hchunked hwire =>
    cases h' with
    | plain hplain =>
      rw [hplain] at hchunked
      cases hchunked
    | chunked _ hwire' =>
      rw [append_assoc] at hbody
      exact hwire.comparable hwire' hbody.symm

theorem stop_unique {text text' : Bytes} {stop' : SseStop} (hstop : consumeSseLines.scan {} before = .stopped stop)
    (hbefore : before <+: text) (hstop' : consumeSseLines.scan {} text' = .stopped stop')
    (hle : text <+: text' ∨ text' <+: text) : stop = stop' := by
  obtain ⟨after, rfl⟩ := hbefore
  have htext := consumeSseLines.scan_append_stopped hstop after
  rcases hle with ⟨more, rfl⟩ | ⟨more, hmore⟩
  · rw [consumeSseLines.scan_append_stopped htext more] at hstop'
    cases hstop'
    rfl
  · rw [← hmore, consumeSseLines.scan_append_stopped hstop' more] at htext
    cases htext
    rfl

/-- **The line that ends the stream decides the result**, whatever follows it, when the framing does not
    break late. -/
theorem result_of_line {after : Bytes} {blocks : List Bytes} (hlate : ¬ BreaksLate stream)
    (hresponse : Response stream head body) (htext : BodyText head body (before ++ after))
    (hstop : consumeSseLines.scan {} before = .stopped stop) (hcut : Cut kBlockSize stream blocks) :
    generateResponse blocks = stop.outcome := by
  have hends : Ends (before ++ after) := ends_append ((stopped_iff {} before).mp ⟨stop, hstop⟩) after
  rcases client.run_cases (receive_start []) hcut with
    ⟨first, block, s, hwithin, hbounded, hgoing, hblock⟩ | ⟨s, hend, _⟩
  · show client.run (.headers []) blocks = _
    generalize client.run (.headers []) blocks = o at hblock ⊢
    cases stops_of_receive hblock with
    | status hcut' hstatus =>
      exfalso
      obtain ⟨_, hhead, _⟩ := hresponse.of_prefix hwithin hcut'
      obtain ⟨statusCode, hgood, _⟩ := hresponse.good
      rw [hhead, hgood] at hstatus
      cases hstatus
    | framing hcut' hfeed =>
      exfalso
      obtain ⟨_, rfl, _⟩ := hresponse.of_prefix hwithin hcut'
      obtain ⟨hchunked, hbreaks, _⟩ := feed_error hfeed
      cases htext with
      | plain hplain =>
        rw [hplain] at hchunked
        cases hchunked
      | chunked _ hwire =>
        exact hlate (breaksLate_of hresponse hchunked hwire hends hwithin hbounded hgoing hcut' hbreaks)
    | line hresponse' hfeed hstop' =>
      obtain ⟨_, rfl, ⟨more, hmore⟩⟩ := hresponse.of_prefix hwithin hresponse'.headers
      rw [stop_unique hstop (prefix_append before after) hstop'
        (htext.comparable (feed_ok hfeed) hmore)]
  · obtain ⟨o, hstream⟩ := receive_of_ends hresponse htext hends
    rw [receive_start, hstream] at hend
    cases hend

/-- **`GenerateResponse` gives the same result for every cut of the stream, and nothing that follows the
    line which ends the stream changes it, if and only if the framing does not break late.** -/
theorem generateResponse_independent_iff (stream : Bytes) :
    ((∀ as bs, Cut kBlockSize stream as → Cut kBlockSize stream bs →
        generateResponse as = generateResponse bs)
      ∧ ∀ head body before after stop, Response stream head body →
        BodyText head body (before ++ after) → consumeSseLines.scan {} before = .stopped stop →
        ∀ blocks, Cut kBlockSize stream blocks → generateResponse blocks = stop.outcome)
      ↔ ¬ BreaksLate stream := by
  constructor
  · intro h
    exact (cuts_agree_iff stream).mp h.1
  · intro hlate
    refine ⟨(cuts_agree_iff stream).mpr hlate, ?_⟩
    intro head body before after stop hresponse htext hstop blocks hcut
    exact result_of_line hlate hresponse htext hstop hcut

def answerInChunk : Bytes :=
  ascii "HTTP/1.1 200 OK\r\n" ++ ascii "Transfer-Encoding: chunked\r\n\r\n" ++ ascii "23\r\n" ++
    ascii "data: \x7b\"content\":\"a\"\x7d\n" ++ ascii "data: [DONE]\n" ++ crlf

theorem bad_size_line_behind_done :
    ¬ ∀ stream as bs, Cut kBlockSize stream as → Cut kBlockSize stream bs →
      generateResponse as = generateResponse bs := by
  intro hagree
  have hanswer : generateResponse [answerInChunk, ascii "zz\r\n"] = .succeeded (ascii "a") := by
    decide +kernel
  have herror : generateResponse [answerInChunk ++ ascii "zz\r\n"] =
      .failed (ascii "llama-server response had an invalid HTTP chunk size") := by
    decide +kernel
  have htwo : Cut kBlockSize (answerInChunk ++ ascii "zz\r\n") [answerInChunk, ascii "zz\r\n"] :=
    ⟨by decide +kernel, by decide +kernel, by decide +kernel⟩
  have hone : Cut kBlockSize (answerInChunk ++ ascii "zz\r\n") [answerInChunk ++ ascii "zz\r\n"] :=
    Cut.single (by decide +kernel) (by decide +kernel)
  have hsame := hagree _ _ _ htwo hone
  rw [hanswer, herror] at hsame
  cases hsame

end Cockpit.Llm
