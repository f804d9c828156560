/-
  `AudioPlaybackClient`: a text is spoken segment by segment, while any number of callers interrupt or stop the
  client, and the one caller of `SubmitCancellable` may request its cancellation.

  Generation, token and `stopping_` only ever go one way, so a check of all of them can be one step. The
  metrics, the samples and the timeouts that follow from them are left out.
-/
import Mathlib.Algebra.Group.Nat.Defs
import Cockpit.Voice.AsyncSink
import Cockpit.Voice.SpeechSegmenter

namespace Cockpit.Voice

/-! ## What is called -/

inductive AudioPlaybackSubmitStatus where
  | accepted
  | rejected
  | failed
  | cancelled

inductive AudioPlaybackWaitStatus where
  | completed
  | failed
  | cancelled
  | dropped
  | timeout
  | notFound
  | transportError
  deriving DecidableEq

/-- The synthesizer returns or throws. -/
inductive SynthesisAnswer where
  | result (success : Bool) (samples : Nat)
  | exception

/-- What a step meets; each reads its own part. -/
structure PlaybackAnswers where
  focusAcquired : Bool := true
  synthesis : SynthesisAnswer := .result true 1
  synthesisTimedOut : Bool := false
  submitStatus : AudioPlaybackSubmitStatus := .accepted
  waitStatus : AudioPlaybackWaitStatus := .completed
  error : String := ""
  cancelAccepted : Bool := true

/-- `success && !audio.samples.empty()`; an exception leaves a result without audio. -/
def SynthesisAnswer.usable : SynthesisAnswer → Bool
  | .result success samples => success && samples ≠ 0
  | .exception => false

namespace AudioPlaybackWaitStatus

/-- It says nothing about the playback. -/
def uncertain : AudioPlaybackWaitStatus → Bool
  | timeout | transportError => true
  | _ => false

/-- The playback is over. -/
def terminal : AudioPlaybackWaitStatus → Bool
  | completed | failed | cancelled | dropped => true
  | _ => false

def outputStatus : AudioPlaybackWaitStatus → VoiceOutputStatus
  | completed => .completed
  | cancelled => .cancelled
  | dropped => .dropped
  | failed | timeout | notFound | transportError => .failed

end AudioPlaybackWaitStatus

/-- "Voice response unavailable." -/
def fallbackPrompt : List UInt8 :=
  [0x56, 0x6F, 0x69, 0x63, 0x65, 0x20, 0x72, 0x65, 0x73, 0x70, 0x6F, 0x6E, 0x73, 0x65, 0x20,
    0x75, 0x6E, 0x61, 0x76, 0x61, 0x69, 0x6C, 0x61, 0x62, 0x6C, 0x65, 0x2E]

/-! ## Where the threads are -/

/-- In `RequestPlaybackCancellation`: at the head of the loop, and in the call of the transport. -/
inductive CancellationPlace where
  | looking
  | calling

/-- A segment that is being spoken: its number, the generation that was read for it, and whether the
    fallback speaks for it. -/
structure Speaking where
  index : Nat
  generation : Nat
  fallback : Bool := false

/-- Where the caller of `SubmitCancellable` is. -/
inductive Playing where
  | idle
  | focusing
  /-- `SubmitSingleSegment`. -/
  | starting (index : Nat)
  | registering (speaking : Speaking)
  | synthesizing (speaking : Speaking)
  | synthesized (speaking : Speaking) (usable : Bool)
  | fallingBack (speaking : Speaking)
  | checking (speaking : Speaking)
  | numbering (speaking : Speaking)
  | committing (speaking : Speaking) (playbackId : Nat)
  | submitting (speaking : Speaking) (playbackId : Nat)
  | looking (speaking : Speaking) (playbackId : Nat)
  | cancelling (speaking : Speaking) (playbackId : Nat) (place : CancellationPlace)
  | waiting (speaking : Speaking) (playbackId : Nat)
  | recovering (speaking : Speaking) (playbackId : Nat) (first : AudioPlaybackWaitStatus)
      (place : CancellationPlace)
  | waitingAgain (speaking : Speaking) (playbackId : Nat) (first : AudioPlaybackWaitStatus)
      (confirmed : Bool)
  /-- `ClearActiveRequest`: at the end, behind a cancelled submission, and where the segment is refused. -/
  | clearing (speaking : Speaking) (first wait : AudioPlaybackWaitStatus) (error : String)
      (confirmed : Bool)
  | clearingCancelled (error : String)
  | clearingRejected (index : Nat)
  | judging (speaking : Speaking) (first wait : AudioPlaybackWaitStatus) (error : String)
      (confirmed : Bool)
  /-- Behind a segment that was refused. -/
  | rejected (index : Nat)

/-- Where a caller of `Interrupt` is. -/
inductive PlaybackInterrupt where
  | idle
  /-- In `Stop`, and behind it. -/
  | stopped
  | looking
  | cancelling (playbackId : Nat) (place : CancellationPlace)

/-! ## The client -/

/-- No part of the code: a segment whose playback came to an end, with the text that was spoken, the first
    `Wait`, the generations at its beginning and at its end, and the token at its end. -/
structure Spoken where
  text : List UInt8
  wait : AudioPlaybackWaitStatus
  began : Nat
  ended : Nat
  cancelled : Bool

/-- No part of the code: a call of `SubmitCancellable` that has returned. -/
structure PlaybackCall where
  requestId : Nat
  text : List UInt8
  spoken : List Spoken
  completions : List VoiceOutputResult
  returned : Bool

/-- The client, its request, and the calls made so far. -/
structure AudioPlaybackClient where
  /-- Whether there are these. -/
  synthesizer : Bool := true
  fallbackSynthesizer : Bool := true
  focusController : Bool := true
  activeRequestId : Nat := 0
  activePlaybackId : Nat := 0
  activeCancellationAttempts : Nat := 0
  activeCancellationInFlight : Bool := false
  activeCancellationConfirmed : Bool := false
  stopping : Bool := false
  interruptGeneration : Nat := 0
  nextPlaybackId : Nat
  /-- The call in progress: its request, its text and segments, and its token, if it has one. -/
  requestId : Nat := 0
  text : List UInt8 := []
  segments : List (List UInt8) := []
  cancellation : Option Bool := none
  playing : Playing := .idle
  interrupts : Nat → PlaybackInterrupt := fun _ => .idle
  /-- No part of the code: the segments spoken and the completions invoked in the call in progress, and
      the calls before it. -/
  spoken : List Spoken := []
  completions : List VoiceOutputResult := []
  calls : List PlaybackCall := []

/-- Who takes a step. -/
inductive PlaybackEvent where
  | submit (requestId : Nat) (text : List UInt8) (cancellation : Option Bool) (completion : Bool)
  | caller (answers : PlaybackAnswers)
  | requestCancellation
  | interrupt (i : Nat) (answers : PlaybackAnswers)
  | stop (i : Nat)

namespace AudioPlaybackClient

variable (s : AudioPlaybackClient)

/-- The token of the call is requested. -/
def isCancelled : Bool := s.cancellation = some true

def goTo (playing : Playing) : AudioPlaybackClient :=
  { s with playing := playing }

/-- Invoke the completion. -/
def complete (status : VoiceOutputStatus) (error : String) : AudioPlaybackClient :=
  { s with completions := s.completions ++ [⟨s.requestId, status, error⟩] }

/-- Return from `SubmitCancellable`. -/
def returns (returned : Bool) : AudioPlaybackClient :=
  { s with
    calls := s.calls ++ [⟨s.requestId, s.text, s.spoken, s.completions, returned⟩]
    playing := .idle, spoken := [], completions := [] }

/-- No cancellation was attempted. -/
def resetCancellation : AudioPlaybackClient :=
  { s with
    activeCancellationAttempts := 0, activeCancellationInFlight := false
    activeCancellationConfirmed := false }

/-- Only for the request of this call. -/
def clearActiveRequest : AudioPlaybackClient :=
  if s.activeRequestId = s.requestId then
    { s.resetCancellation with activeRequestId := 0, activePlaybackId := 0 }
  else s

/-- The request or its playback is not the active one any more. -/
def isOver (requestId playbackId : Nat) : Bool :=
  s.activePlaybackId ≠ playbackId || (requestId ≠ 0 && s.activeRequestId ≠ requestId)

/-- The next step of `RequestPlaybackCancellation`, and where it is then or what it returns. -/
def requestPlaybackCancellation (requestId playbackId : Nat)
    (cancelAccepted : Bool) : CancellationPlace → AudioPlaybackClient × (CancellationPlace ⊕ Bool)
  | .looking =>
    if s.isOver requestId playbackId then (s, .inr false)
    else if s.activeCancellationConfirmed then (s, .inr true)
    else if s.activeCancellationInFlight then (s, .inl .looking)
    else if s.activeCancellationAttempts ≥ 2 then (s, .inr false)
    else
      ({ s with
        activeCancellationInFlight := true
        activeCancellationAttempts := s.activeCancellationAttempts + 1 }, .inl .calling)
  | .calling =>
    if s.isOver requestId playbackId then (s, .inr false)
    else if cancelAccepted then
      ({ s with activeCancellationConfirmed := true, activeCancellationInFlight := false }, .inr true)
    else if s.activeCancellationAttempts ≥ 2 then
      ({ s with activeCancellationInFlight := false }, .inr false)
    -- the next attempt, still under the mutex
    else if s.activeCancellationConfirmed then (s, .inr true)
    else
      ({ s with activeCancellationAttempts := s.activeCancellationAttempts + 1 }, .inl .calling)

/-- The loop over the segments, behind one that was completed. -/
def nextSegment (speaking : Speaking) (error : String) : AudioPlaybackClient :=
  if speaking.fallback then (s.complete .completed error).returns true
  else if speaking.index + 1 < s.segments.length then s.goTo (.starting (speaking.index + 1))
  else (s.complete .completed "").returns true

/-- The text that is spoken. -/
def textOf (speaking : Speaking) : List UInt8 :=
  if speaking.fallback then fallbackPrompt else s.segments.getD speaking.index []

/-- The result of a segment whose playback came to an end. -/
def judge (speaking : Speaking) (first wait : AudioPlaybackWaitStatus)
    (error : String) (confirmed : Bool) : VoiceOutputStatus × String :=
  if speaking.generation ≠ s.interruptGeneration || s.isCancelled then
    (.cancelled, if error = "" then "voice output interrupted" else error)
  else if first.uncertain then
    (.failed,
      if wait.terminal then
        if confirmed then "audio playback result was uncertain; cancellation terminal was confirmed"
        else "audio playback result was uncertain; a terminal result was recovered"
      else if confirmed then "audio playback terminal state remained uncertain after cancellation"
      else "audio playback terminal state remained uncertain; cancellation failed")
  else if wait.outputStatus = .failed then
    (.failed, if error = "" then "audio playback did not complete" else error)
  else (wait.outputStatus, error)

/-- One step of `SubmitCancellable`. -/
def callerStep (a : PlaybackAnswers) (s : AudioPlaybackClient) : AudioPlaybackClient :=
  match s.playing with
  | .idle => s
  | .focusing =>
    if s.focusController && !a.focusAcquired then
      (s.complete .failed
        "voice output blocked because media audio focus could not be acquired").returns true
    else s.goTo (.starting 0)
  | .starting index => s.goTo (.registering { index := index, generation := s.interruptGeneration })
  | .registering speaking =>
    if s.stopping || s.activeRequestId ≠ 0 || s.isCancelled then s.goTo (.rejected speaking.index)
    else
      { s.resetCancellation with activeRequestId := s.requestId }.goTo
        (if s.synthesizer then .synthesizing speaking else .clearingRejected speaking.index)
  | .synthesizing speaking =>
    s.goTo (.synthesized speaking (a.synthesis.usable && !a.synthesisTimedOut))
  | .synthesized speaking usable =>
    s.goTo
      (if usable then .checking speaking
      else if s.fallbackSynthesizer && speaking.generation = s.interruptGeneration && !s.isCancelled then
        .fallingBack speaking
      else .clearingRejected speaking.index)
  | .fallingBack speaking =>
    s.goTo (if a.synthesis.usable then .checking { speaking with fallback := true }
      else .clearingRejected speaking.index)
  | .checking speaking =>
    s.goTo (if speaking.generation ≠ s.interruptGeneration || s.isCancelled then
      .clearingRejected speaking.index else .numbering speaking)
  | .numbering speaking =>
    { s with nextPlaybackId := (s.nextPlaybackId + 1) % 2 ^ 64 }.goTo
      (.committing speaking s.nextPlaybackId)
  | .committing speaking playbackId =>
    if s.stopping || speaking.generation ≠ s.interruptGeneration || s.isCancelled then
      { s with activeRequestId := 0 }.goTo (.rejected speaking.index)
    else
      { s.resetCancellation with activePlaybackId := playbackId }.goTo (.submitting speaking playbackId)
  | .submitting speaking playbackId =>
    s.goTo (match a.submitStatus with
      | .accepted => .looking speaking playbackId
      | .cancelled => .clearingCancelled a.error
      | .rejected | .failed => .clearingRejected speaking.index)
  | .looking speaking playbackId =>
    s.goTo (if s.stopping || speaking.generation ≠ s.interruptGeneration || s.isCancelled then
      .cancelling speaking playbackId .looking else .waiting speaking playbackId)
  | .cancelling speaking playbackId place =>
    match s.requestPlaybackCancellation s.requestId playbackId a.cancelAccepted place with
    | (s', .inl place') => s'.goTo (.cancelling speaking playbackId place')
    | (s', .inr _) => s'.goTo (.waiting speaking playbackId)
  | .waiting speaking playbackId =>
    s.goTo (if a.waitStatus.uncertain then .recovering speaking playbackId a.waitStatus .looking
      else .clearing speaking a.waitStatus a.waitStatus a.error false)
  | .recovering speaking playbackId first place =>
    match s.requestPlaybackCancellation s.requestId playbackId a.cancelAccepted place with
    | (s', .inl place') => s'.goTo (.recovering speaking playbackId first place')
    | (s', .inr confirmed) => s'.goTo (.waitingAgain speaking playbackId first confirmed)
  | .waitingAgain speaking _ first confirmed =>
    s.goTo (.clearing speaking first a.waitStatus a.error confirmed)
  | .clearing speaking first wait error confirmed =>
    s.clearActiveRequest.goTo (.judging speaking first wait error confirmed)
  | .clearingCancelled error =>
    (s.clearActiveRequest.complete .cancelled
      (if error = "" then "voice output interrupted" else error)).returns true
  | .clearingRejected index => s.clearActiveRequest.goTo (.rejected index)
  | .judging speaking first wait error confirmed =>
    let s' := { s with
      spoken := s.spoken ++
        [Spoken.mk (s.textOf speaking) first speaking.generation s.interruptGeneration s.isCancelled] }
    match s.judge speaking first wait error confirmed with
    | (.completed, error) => s'.nextSegment speaking error
    | (status, error) => (s'.complete status error).returns true
  | .rejected index =>
    if index = 0 then s.returns false
    else if s.isCancelled then (s.complete .cancelled "voice output interrupted").returns true
    else (s.complete .failed "speech segment was rejected").returns true

/-- Begin a call. -/
def submit (requestId : Nat) (text : List UInt8) (cancellation : Option Bool)
    (completion : Bool) : AudioPlaybackClient :=
  match s.playing with
  | .idle =>
    let s' := { s with
      requestId := requestId, text := text, segments := splitSpeechText text 80
      cancellation := cancellation }
    if requestId = 0 || !completion || s'.segments = [] then s'.returns false else s'.goTo .focusing
  | _ => s

/-- One step of an `Interrupt` or `Stop`. -/
def interruptStep (i : Nat) (a : PlaybackAnswers) (s : AudioPlaybackClient) : AudioPlaybackClient :=
  let at' := fun (s : AudioPlaybackClient) (place : PlaybackInterrupt) =>
    { s with interrupts := Function.update s.interrupts i place }
  match s.interrupts i with
  | .idle | .stopped => at' { s with interruptGeneration := s.interruptGeneration + 1 } .looking
  | .looking =>
    at' s (if s.activePlaybackId ≠ 0 then .cancelling s.activePlaybackId .looking else .idle)
  | .cancelling playbackId place =>
    match s.requestPlaybackCancellation 0 playbackId a.cancelAccepted place with
    | (s', .inl place') => at' s' (.cancelling playbackId place')
    | (s', .inr _) => at' s' .idle

def step : PlaybackEvent → AudioPlaybackClient × Unit
  | .submit requestId text cancellation completion =>
    (s.submit requestId text cancellation completion, ())
  | .caller answers => (s.callerStep answers, ())
  | .requestCancellation => ({ s with cancellation := s.cancellation.map fun _ => true }, ())
  | .interrupt i answers => (s.interruptStep i answers, ())
  | .stop i =>
    match s.interrupts i with
    | .idle =>
      ({ s with stopping := true, interrupts := Function.update s.interrupts i .stopped }, ())
    | _ => (s, ())

/-- The constructor. -/
def create (synthesizer fallbackSynthesizer focusController : Bool) (initialPlaybackId : Nat) : AudioPlaybackClient :=
  { synthesizer := synthesizer, fallbackSynthesizer := fallbackSynthesizer
    focusController := focusController, nextPlaybackId := initialPlaybackId }

end AudioPlaybackClient

end Cockpit.Voice
