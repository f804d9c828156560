/-
  `LlamaServerLocalLlmClient::GenerateResponse`, from the first `recv` on. The connection and the request
  before, the deadlines, a cancellation, errors of `poll` and `recv`, and the latencies of a result are left
  out.
-/
import Cockpit.Llm.SseLines

namespace Cockpit.Llm

open ByteText Incremental List

def kBlockSize : Nat := 4096

/-- `LocalLlmResult`. -/
structure LocalLlmResult where
  success : Bool
  responseText : Bytes
  provider : Bytes
  error : Bytes
  deriving DecidableEq

inductive Outcome where
  | returned (result : LocalLlmResult)
  | thrown
  deriving DecidableEq

namespace Outcome

def succeeded (responseText : Bytes) : Outcome :=
  .returned { success := true, responseText := responseText, provider := ascii "llama-server", error := [] }

def failed (error : Bytes) : Outcome :=
  .returned { success := false, responseText := [], provider := ascii "llama-server", error := error }

end Outcome

def Failure.outcome : Failure → Outcome
  | .error text => .failed text
  | .exception => .thrown

/-! ## The loop over the blocks -/

/-- What the loop has of the response body.  `status_code` does not change any more. -/
structure BodyState where
  statusCode : Int
  bodyDecoder : HttpBodyDecoder
  decodedBody : Bytes := []
  ssePending : Bytes := []
  sse : SseState := {}
  deriving DecidableEq

/-- The variables of the loop.  `undecoded_response` is not read again once there is a decoder. -/
inductive Receiving where
  | headers (undecodedResponse : Bytes)
  | body (b : BodyState)
  deriving DecidableEq

/-- The result of a stream. -/
def streamResult (s : SseState) : Outcome :=
  if s.responseText = [] then
    .failed (if s.receivedReasoning then
      ascii "local LLM stream completed with reasoning but without user-visible content"
      else ascii "local LLM stream completed without content")
  else .succeeded s.responseText

/-- The result of a response that was not streamed. -/
def bodyResult (decodedBody : Bytes) : Outcome :=
  match Json.Parser.isValidValue decodedBody with
  | .error _ => .thrown
  | .ok (some error) => .failed (ascii "invalid local LLM JSON response: " ++ ascii error)
  | .ok none =>
    match extractStringField decodedBody (ascii "content") with
    | .error error => .failed error
    | .ok content =>
      if content.getD [] = [] then
        .failed (ascii "llama-server response did not contain message content")
      else .succeeded (content.getD [])

def isGood (statusCode : Int) : Bool := 200 ≤ statusCode && statusCode < 300

namespace BodyState

def finish (b : BodyState) (streamDone : Bool) : Outcome :=
  if !isGood b.statusCode then
    .failed (if b.decodedBody = [] then ascii "local LLM request failed" else b.decodedBody)
  else if streamDone || b.sse.streamFinished then streamResult b.sse
  else bodyResult b.decodedBody

/-- With a good status, the decoded part goes through `ConsumeSseLines`. -/
def consume (b : BodyState) (decoded : Bytes) : Received Receiving Outcome :=
  let b := { b with decodedBody := b.decodedBody ++ decoded }
  if isGood b.statusCode then
    match consumeSseLines.scan b.sse (b.ssePending ++ decoded) with
    | .paused sse pending => .next (.body { b with sse := sse, ssePending := pending })
    | .stopped (.done sse) => .stop ({ b with sse := sse }.finish true)
    | .stopped (.failed failure) => .stop failure.outcome
  else .next (.body b)

/-- Behind the headers every block goes through the decoder. -/
def decode (b : BodyState) (received : Bytes) : Received Receiving Outcome :=
  match b.bodyDecoder.feed received with
  | .error failure => .stop failure.outcome
  | .ok (bodyDecoder, decoded) => { b with bodyDecoder := bodyDecoder }.consume decoded

end BodyState

def headerEnd : Bytes := crlf ++ crlf

def receiveBody (head received : Bytes) : Received Receiving Outcome :=
  match parseHttpStatus (head ++ crlf) with
  | none => .stop (.failed (ascii "local LLM response had an invalid status line"))
  | some statusCode =>
    { statusCode := statusCode, bodyDecoder := { chunked := usesChunkedEncoding (head ++ crlf) } : BodyState
    }.decode received

/-- Until the headers are complete a block is kept. -/
def receiveHeaders (undecodedResponse : Bytes) : Received Receiving Outcome :=
  match cutAt headerEnd undecodedResponse with
  | none => .next (.headers undecodedResponse)
  | some (head, received) => receiveBody head received

namespace Receiving

def receive : Receiving → Bytes → Received Receiving Outcome
  | .headers undecodedResponse, block => receiveHeaders (undecodedResponse ++ block)
  | .body b, block => b.decode block

def finish : Receiving → Outcome
  | .headers _ => .failed (ascii "local LLM response missing HTTP headers")
  | .body b => b.finish false

end Receiving

/-! ## Where a block is cut -/

namespace HttpBodyDecoder

variable {d d' : HttpBodyDecoder} {x decoded : Bytes} {failure : Failure}

theorem feed_append (h : d.feed x = .ok (d', decoded)) (y : Bytes) :
    d.feed (x ++ y) = (d'.feed y).map fun (d'', more) => (d'', decoded ++ more) := by
  unfold feed at h ⊢
  split at h
  case isTrue hchunked =>
    cases h
    rw [if_pos hchunked, if_pos hchunked]
    rfl
  case isFalse hchunked =>
    split at h
    case h_1 s pending hscan =>
      cases h
      have hfresh : ({ s with decoded := [] } : ChunkState).after s.decoded = s := by
        rw [ChunkState.after, append_nil]
      have hmore := chunks.scan_map (ChunkState.round_after s.decoded) { s with decoded := [] } (pending ++ y)
      rw [hfresh] at hmore
      rw [if_neg hchunked, if_neg hchunked, ← append_assoc, chunks.scan_append_paused hscan, hmore]
      dsimp only
      cases chunks.scan { chunkSize := s.chunkSize, complete := s.complete } (pending ++ y) <;> rfl
    case h_2 => cases h

theorem feed_append_error (h : d.feed x = .error failure) (y : Bytes) : d.feed (x ++ y) = .error failure := by
  unfold feed at h ⊢
  split at h
  case isTrue => cases h
  case isFalse hchunked =>
    rw [if_neg hchunked]
    split at h
    case h_1 => cases h
    case h_2 e hscan =>
      cases h
      rw [← append_assoc, chunks.scan_append_stopped hscan]

end HttpBodyDecoder

def SseStop.outcome : SseStop → Outcome
  | .done s => streamResult s
  | .failed failure => failure.outcome

namespace BodyState

variable {b : BodyState} {d : HttpBodyDecoder} {r : Receiving} {o : Outcome} {x decoded : Bytes}

theorem consume_bad (h : isGood b.statusCode = false) (decoded : Bytes) :
    b.consume decoded = .next (.body { b with decodedBody := b.decodedBody ++ decoded }) := by
  unfold consume
  rw [if_neg (by rw [h]; exact Bool.false_ne_true)]

theorem consume_paused {sse : SseState} {pending : Bytes} (h : isGood b.statusCode = true)
    (hscan : consumeSseLines.scan b.sse (b.ssePending ++ decoded) = .paused sse pending) :
    b.consume decoded =
      .next (.body { b with decodedBody := b.decodedBody ++ decoded, sse := sse, ssePending := pending }) := by
  unfold consume
  rw [if_pos h, hscan]

theorem consume_stopped {stop : SseStop} (h : isGood b.statusCode = true)
    (hscan : consumeSseLines.scan b.sse (b.ssePending ++ decoded) = .stopped stop) :
    b.consume decoded = .stop stop.outcome := by
  unfold consume
  rw [if_pos h, hscan]
  cases stop with
  | failed failure => rfl
  | done sse =>
    unfold finish
    dsimp only
    rw [h]
    rfl

/-- A stream is stopped by a line, or goes on. -/
theorem consume_cases (b : BodyState) (decoded : Bytes) : (∃ stop, isGood b.statusCode = true
        ∧ consumeSseLines.scan b.sse (b.ssePending ++ decoded) = .stopped stop)
      ∨ ∃ sse pending, b.consume decoded =
          .next (.body { b with decodedBody := b.decodedBody ++ decoded, sse := sse, ssePending := pending })
        ∧ ∀ more d, { b with bodyDecoder := d }.consume (decoded ++ more) =
          { b with bodyDecoder := d, decodedBody := b.decodedBody ++ decoded, sse := sse,
                   ssePending := pending : BodyState }.consume more := by
  cases hgood : isGood b.statusCode with
  | false =>
    right
    refine ⟨b.sse, b.ssePending, consume_bad hgood decoded, ?_⟩
    intro more d
    unfold consume
    dsimp only
    rw [hgood, append_assoc]
    rfl
  | true =>
    cases hscan : consumeSseLines.scan b.sse (b.ssePending ++ decoded) with
    | stopped stop => exact Or.inl ⟨stop, rfl, rfl⟩
    | paused sse pending =>
      right
      refine ⟨sse, pending, consume_paused hgood hscan, ?_⟩
      intro more d
      have hmore := consumeSseLines.scan_append_paused hscan more
      rw [append_assoc] at hmore
      unfold consume
      dsimp only
      rw [hgood, hmore, append_assoc]
      rfl

/-- **Where the loop goes on behind a block, it makes no difference that the block ends there.** -/
theorem decode_append (h : b.decode x = .next r) (y : Bytes) : b.decode (x ++ y) = r.receive y := by
  unfold decode at h
  split at h
  case h_1 => cases h
  case h_2 d decoded hfeed =>
    rcases consume_cases { b with bodyDecoder := d } decoded with ⟨stop, hgood, hscan⟩ |
      ⟨sse, pending, hnext, hmore⟩
    · rw [consume_stopped hgood hscan] at h
      cases h
    · rw [hnext] at h
      cases h
      show _ = decode _ y
      unfold decode
      rw [HttpBodyDecoder.feed_append hfeed y]
      dsimp only
      cases d.feed y with
      | error failure => rfl
      | ok fed => exact hmore fed.2 fed.1

theorem decode_stop (h : b.decode x = .stop o) :
    (∃ failure, b.bodyDecoder.feed x = .error failure ∧ o = failure.outcome)
      ∨ ∃ d decoded stop, b.bodyDecoder.feed x = .ok (d, decoded) ∧ isGood b.statusCode = true
        ∧ consumeSseLines.scan b.sse (b.ssePending ++ decoded) = .stopped stop ∧ o = stop.outcome := by
  unfold decode at h
  split at h
  case h_1 failure hfeed =>
    cases h
    exact Or.inl ⟨failure, hfeed, rfl⟩
  case h_2 d decoded hfeed =>
    right
    rcases consume_cases { b with bodyDecoder := d } decoded with ⟨stop, hgood, hscan⟩ |
      ⟨sse, pending, hnext, _⟩
    · rw [consume_stopped hgood hscan] at h
      cases h
      exact ⟨d, decoded, stop, hfeed, hgood, hscan, rfl⟩
    · rw [hnext] at h
      cases h

theorem decode_of_error {failure : Failure} (h : b.bodyDecoder.feed x = .error failure) :
    b.decode x = .stop failure.outcome := by
  rw [decode, h]

theorem decode_of_stopped {stop : SseStop} (hfeed : b.bodyDecoder.feed x = .ok (d, decoded))
    (hgood : isGood b.statusCode = true)
    (hscan : consumeSseLines.scan b.sse (b.ssePending ++ decoded) = .stopped stop) :
    b.decode x = .stop stop.outcome := by
  rw [decode, hfeed]
  exact consume_stopped (b := { b with bodyDecoder := d }) hgood hscan

/-- **Where the loop has stopped at a block, it stops at every longer one**: with the same outcome, or
    because the decoder fails behind it. -/
theorem decode_append_stop (h : b.decode x = .stop o) (y : Bytes) : b.decode (x ++ y) = .stop o
      ∨ ∃ failure, b.bodyDecoder.feed (x ++ y) = .error failure ∧ b.decode (x ++ y) = .stop failure.outcome := by
  rcases decode_stop h with ⟨failure, hfeed, rfl⟩ | ⟨d, decoded, stop, hfeed, hgood, hscan, rfl⟩
  · exact Or.inl (decode_of_error (HttpBodyDecoder.feed_append_error hfeed y))
  · cases hmore : b.bodyDecoder.feed (x ++ y) with
    | error failure => exact Or.inr ⟨failure, rfl, decode_of_error hmore⟩
    | ok fed =>
      left
      rw [HttpBodyDecoder.feed_append hfeed y] at hmore
      cases hfed : d.feed y with
      | error failure =>
        rw [hfed] at hmore
        cases hmore
      | ok more =>
        rw [hfed] at hmore
        cases hmore
        have hlonger := consumeSseLines.scan_append_stopped hscan more.2
        rw [append_assoc] at hlonger
        have hall : b.bodyDecoder.feed (x ++ y) = .ok (more.1, decoded ++ more.2) := by
          rw [HttpBodyDecoder.feed_append hfeed y, hfed]
          rfl
        exact decode_of_stopped hall hgood hlonger

end BodyState

/-! ## The client as a receiver -/

theorem receiveBody_append {head x : Bytes} {r : Receiving} (h : receiveBody head x = .next r) (y : Bytes) :
    receiveBody head (x ++ y) = r.receive y := by
  unfold receiveBody at h ⊢
  split at h
  case h_1 => cases h
  case h_2 => exact BodyState.decode_append h y

theorem receiveBody_append_stop {head x : Bytes} {o : Outcome} (h : receiveBody head x = .stop o)
    (y : Bytes) : ∃ o', receiveBody head (x ++ y) = .stop o' := by
  unfold receiveBody at h ⊢
  split at h
  case h_1 => exact ⟨_, rfl⟩
  case h_2 =>
    rcases BodyState.decode_append_stop h y with hstop | ⟨failure, _, hstop⟩
    · exact ⟨o, hstop⟩
    · exact ⟨failure.outcome, hstop⟩

theorem receiveHeaders_of_cut {text head received : Bytes}
    (h : cutAt headerEnd text = some (head, received)) : receiveHeaders text = receiveBody head received := by
  rw [receiveHeaders, h]

theorem receiveHeaders_append {text : Bytes} {r : Receiving} (h : receiveHeaders text = .next r)
    (y : Bytes) : receiveHeaders (text ++ y) = r.receive y := by
  cases hcut : cutAt headerEnd text with
  | none =>
    rw [receiveHeaders, hcut] at h
    cases h
    rfl
  | some cut =>
    rw [receiveHeaders_of_cut hcut] at h
    rw [receiveHeaders_of_cut (cutAt_append hcut y)]
    exact receiveBody_append h y

theorem receiveHeaders_append_stop {text : Bytes} {o : Outcome} (h : receiveHeaders text = .stop o)
    (y : Bytes) : ∃ o', receiveHeaders (text ++ y) = .stop o' := by
  cases hcut : cutAt headerEnd text with
  | none =>
    rw [receiveHeaders, hcut] at h
    cases h
  | some cut =>
    rw [receiveHeaders_of_cut hcut] at h
    rw [receiveHeaders_of_cut (cutAt_append hcut y)]
    exact receiveBody_append_stop h y

/-- What the client does with a part of the stream does not depend on how it is cut. -/
def client : Receiver Receiving UInt8 Outcome where
  receive := Receiving.receive
  finish := Receiving.finish
  next_append := by
    intro r r' x y h
    cases r with
    | headers undecodedResponse =>
      show receiveHeaders (undecodedResponse ++ (x ++ y)) = _
      rw [← append_assoc]
      exact receiveHeaders_append h y
    | body b => exact BodyState.decode_append h y
  stop_append := by
    intro r x o y h
    cases r with
    | headers undecodedResponse =>
      show ∃ o', receiveHeaders (undecodedResponse ++ (x ++ y)) = .stop o'
      rw [← append_assoc]
      exact receiveHeaders_append_stop h y
    | body b =>
      rcases BodyState.decode_append_stop h y with hstop | ⟨failure, _, hstop⟩
      · exact ⟨o, hstop⟩
      · exact ⟨failure.outcome, hstop⟩

/-- The loop over the blocks. -/
def generateResponse (blocks : List Bytes) : Outcome := client.run (.headers []) blocks

end Cockpit.Llm
