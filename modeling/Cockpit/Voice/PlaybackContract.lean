/-
  What `SubmitCancellable` of `AudioPlaybackClient` promises.
-/
import Cockpit.Lib.ListUpdate
import Cockpit.Voice.AudioPlaybackClient

namespace Cockpit.Voice

open List

/-! ## The contract -/

/-- The playback of the segment was completed in its first `Wait`, no `Interrupt` came in its time, and the
    token was not requested. -/
def Spoken.Undisturbed (p : Spoken) : Prop :=
  p.wait = .completed ∧ p.began = p.ended ∧ p.cancelled = false

namespace PlaybackCall

/-- All of the text was spoken, or a part of it and the fallback prompt. -/
def SpokeAll (c : PlaybackCall) : Prop :=
  c.spoken.map Spoken.text = splitSpeechText c.text 80 ∨
    ∃ k < (splitSpeechText c.text 80).length,
      c.spoken.map Spoken.text = (splitSpeechText c.text 80).take k ++ [fallbackPrompt]

/-- The completion is invoked once if it returns true; it reports `completed` only if every segment was heard
    and nobody disturbed it. -/
structure Lawful (c : PlaybackCall) : Prop where
  once : c.completions.length = if c.returned then 1 else 0
  own : ∀ r ∈ c.completions, r.requestId = c.requestId
  completed : ∀ r ∈ c.completions, r.status = .completed →
    (∀ p ∈ c.spoken, p.Undisturbed) ∧ c.SpokeAll

end PlaybackCall

/-! ## Places -/

/-- Nothing, a request, or its playback as well is registered. -/
inductive Registration where
  | nothing
  | request
  | playback

namespace Playing

/-- By the place of the call. -/
def registration : Playing → Registration
  | .idle | .focusing | .starting _ | .registering _ | .judging _ _ _ _ _ | .rejected _ => .nothing
  | .synthesizing _ | .synthesized _ _ | .fallingBack _ | .checking _ | .numbering _ | .committing _ _ =>
    .request
  | .submitting _ _ | .looking _ _ | .cancelling _ _ _ | .waiting _ _ | .recovering _ _ _ _
  | .waitingAgain _ _ _ _ | .clearing _ _ _ _ _ | .clearingCancelled _ | .clearingRejected _ => .playback

/-- The segment that is the next one to be heard. -/
def index? : Playing → Option Nat
  | .idle | .clearingCancelled _ => none
  | .focusing => some 0
  | .starting i | .clearingRejected i | .rejected i => some i
  | .registering p | .synthesizing p | .synthesized p _ | .fallingBack p | .checking p | .numbering p
  | .committing p _ | .submitting p _ | .looking p _ | .cancelling p _ _ | .waiting p _
  | .recovering p _ _ _ | .waitingAgain p _ _ _ | .clearing p _ _ _ _ | .judging p _ _ _ _ =>
    some p.index

/-- There is a second `Wait` only behind an uncertain one. -/
def Waited : Playing → Prop
  | .recovering _ _ first _ | .waitingAgain _ _ first _ => first.uncertain = true
  | .clearing _ first wait _ _ | .judging _ first wait _ _ => first.uncertain = false → wait = first
  | _ => True

end Playing

namespace AudioPlaybackClient

variable {s s' : AudioPlaybackClient}

/-- What is registered as active, by where the caller is. -/
def Registered (s : AudioPlaybackClient) : Prop :=
  match s.playing.registration with
  | .nothing => s.activeRequestId = 0 ∧ s.activePlaybackId = 0
  | .request => s.activeRequestId = s.requestId ∧ s.activePlaybackId = 0
  | .playback => s.activeRequestId = s.requestId

/-- What every run keeps. -/
structure Inv (s : AudioPlaybackClient) : Prop where
  registered : s.Registered
  heard : ∀ i, s.playing.index? = some i →
    i < s.segments.length ∧ s.spoken.map Spoken.text = s.segments.take i
  undisturbed : ∀ p ∈ s.spoken, p.Undisturbed
  fresh : s.playing = .idle → s.spoken = []
  silent : s.completions = []
  waited : s.playing.Waited
  segmented : s.playing ≠ .idle → s.segments = splitSpeechText s.text 80
  lawful : ∀ c ∈ s.calls, c.Lawful

/-! ## Steps -/

/-- The call is not touched. -/
structure SameCall (s s' : AudioPlaybackClient) : Prop where
  requestId : s'.requestId = s.requestId
  text : s'.text = s.text
  segments : s'.segments = s.segments
  spoken : s'.spoken = s.spoken
  completions : s'.completions = s.completions
  calls : s'.calls = s.calls

theorem Inv.goes (h : s.Inv) (hcall : SameCall s s') (hreg : s'.Registered)
    (hindex : ∀ i, s'.playing.index? = some i → s.playing.index? = some i)
    (hidle : s'.playing ≠ .idle) (hrunning : s.playing ≠ .idle) (hwaited : s'.playing.Waited) : s'.Inv where
  registered := hreg
  heard i hi := by
    rw [hcall.segments, hcall.spoken]
    exact h.heard i (hindex i hi)
  undisturbed := hcall.spoken ▸ h.undisturbed
  fresh hi := absurd hi hidle
  silent := hcall.completions ▸ h.silent
  waited := hwaited
  segmented _ := by
    rw [hcall.segments, hcall.text]
    exact h.segmented hrunning
  lawful := hcall.calls ▸ h.lawful

theorem Inv.others (h : s.Inv) (hcall : SameCall s s')
    (hplaying : s'.playing = s.playing) (hreq : s'.activeRequestId = s.activeRequestId)
    (hplayback : s'.activePlaybackId = s.activePlaybackId) : s'.Inv where
  registered := by
    have hreg := h.registered
    unfold Registered at hreg ⊢
    rw [hplaying, hreq, hplayback, hcall.requestId]
    exact hreg
  heard i hi := by
    rw [hcall.segments, hcall.spoken]
    exact h.heard i (hplaying ▸ hi)
  undisturbed := hcall.spoken ▸ h.undisturbed
  fresh hi := by
    rw [hcall.spoken]
    exact h.fresh (hplaying ▸ hi)
  silent := hcall.completions ▸ h.silent
  waited := hplaying ▸ h.waited
  segmented hi := by
    rw [hcall.segments, hcall.text]
    exact h.segmented (hplaying ▸ hi)
  lawful := hcall.calls ▸ h.lawful

theorem Inv.returns (h : s.Inv) (returned : Bool) (hcalls : s'.calls = s.calls)
    (hreq : s'.activeRequestId = 0) (hplayback : s'.activePlaybackId = 0)
    (hlawful : (PlaybackCall.mk s'.requestId s'.text s'.spoken s'.completions returned).Lawful) :
    (s'.returns returned).Inv where
  registered := ⟨hreq, hplayback⟩
  heard := nofun
  undisturbed := nofun
  fresh _ := rfl
  silent := rfl
  waited := trivial
  segmented hi := absurd rfl hi
  lawful c hc := by
    rcases ListUpdate.mem_snoc.mp hc with hc | rfl
    · exact h.lawful c (hcalls ▸ hc)
    · exact hlawful

theorem lawful_of_failed {spoken : List Spoken} {status : VoiceOutputStatus} (requestId : Nat)
    (text : List UInt8) (error : String) (hstatus : status ≠ .completed) :
    (PlaybackCall.mk requestId text spoken ([] ++ [⟨requestId, status, error⟩]) true).Lawful where
  once := rfl
  own r hr := by
    rw [mem_singleton.mp hr]
  completed r hr hc := by
    rw [mem_singleton.mp hr] at hc
    exact absurd hc hstatus

theorem lawful_of_refused (requestId : Nat) (text : List UInt8) (spoken : List Spoken) :
    (PlaybackCall.mk requestId text spoken [] false).Lawful :=
  ⟨rfl, nofun, nofun⟩

theorem Inv.fails (h : s.Inv) {status : VoiceOutputStatus} (error : String) (hreq : s'.activeRequestId = 0)
    (hplayback : s'.activePlaybackId = 0) (hstatus : status ≠ .completed)
    (hcalls : s'.calls = s.calls) (hcompletions : s'.completions = s.completions) : ((s'.complete status error).returns true).Inv := by
  refine h.returns true hcalls hreq hplayback ?_
  unfold complete
  dsimp only
  rw [hcompletions, h.silent]
  exact lawful_of_failed s'.requestId s'.text error hstatus

theorem requestPlaybackCancellation_keeps (s : AudioPlaybackClient) (requestId playbackId : Nat)
    (accepted : Bool) (place : CancellationPlace) :
    SameCall s (s.requestPlaybackCancellation requestId playbackId accepted place).1 ∧
      (s.requestPlaybackCancellation requestId playbackId accepted place).1.playing = s.playing ∧
      (s.requestPlaybackCancellation requestId playbackId accepted place).1.activeRequestId =
        s.activeRequestId ∧
      (s.requestPlaybackCancellation requestId playbackId accepted place).1.activePlaybackId =
        s.activePlaybackId := by
  unfold requestPlaybackCancellation
  cases place <;> dsimp only <;> repeat' split
  all_goals exact ⟨⟨rfl, rfl, rfl, rfl, rfl, rfl⟩, rfl, rfl, rfl⟩

theorem SameCall.goTo (hs : SameCall s s') (playing : Playing) : SameCall s (s'.goTo playing) :=
  ⟨hs.requestId, hs.text, hs.segments, hs.spoken, hs.completions, hs.calls⟩

theorem SameCall.refl (s : AudioPlaybackClient) : SameCall s s := ⟨rfl, rfl, rfl, rfl, rfl, rfl⟩

variable {place playing : Playing}

/-- The caller of `SubmitCancellable` goes on with the segment `i`, and may have written what is registered. -/
theorem Inv.goesOn {i : Nat} (h : s.Inv) (hplace : s.playing = place)
    (hreg : (s'.goTo playing).Registered) (hwaited : playing.Waited)
    (hcall : SameCall s s') (hindex : place.index? = some i)
    (hindex' : playing.index? = some i) : (s'.goTo playing).Inv := by
  have hrunning : s.playing ≠ .idle := by
    intro hidle
    rw [← hplace, hidle] at hindex
    cases hindex
  refine h.goes (hcall.goTo playing) hreg (fun j hj => ?_) (fun hidle => ?_) hrunning hwaited
  · rw [hplace, hindex]
    exact hindex'.symm.trans hj
  · rw [show playing = .idle from hidle] at hindex'
    cases hindex'

/-- The caller goes on with the segment `i`, and nothing is written. -/
theorem Inv.stays {i : Nat} (h : s.Inv) (hplace : s.playing = place)
    (hwaited : playing.Waited)
    (hregistration : playing.registration = place.registration) (hindex : place.index? = some i)
    (hindex' : playing.index? = some i) : (s.goTo playing).Inv := by
  refine h.goesOn hplace ?_ hwaited (.refl s) hindex hindex'
  have hreg := h.registered
  unfold Registered goTo at *
  dsimp only
  rw [hregistration, ← hplace]
  exact hreg

/-- The segment `i` is refused while its request is registered. -/
theorem Inv.refuses {i : Nat} (h : s.Inv) (hplace : s.playing = place)
    (hregistration : place.registration ≠ .nothing) (hindex : place.index? = some i) :
    (s.goTo (.clearingRejected i)).Inv := by
  refine h.goesOn hplace ?_ trivial (.refl s) hindex rfl
  have hreg := h.registered
  unfold Registered at hreg
  rw [hplace] at hreg
  show s.activeRequestId = s.requestId
  cases hr : place.registration with
  | nothing => exact absurd hr hregistration
  | request =>
    rw [hr] at hreg
    exact hreg.1
  | playback =>
    rw [hr] at hreg
    exact hreg

theorem clearActiveRequest_eq (h : s.activeRequestId = s.requestId) :
    s.clearActiveRequest = { s.resetCancellation with activeRequestId := 0, activePlaybackId := 0 } :=
  if_pos h

theorem Inv.clears {i : Nat} (h : s.Inv) (hplace : s.playing = place)
    (hwaited : playing.Waited) (hplayback : place.registration = .playback)
    (hnothing : playing.registration = .nothing) (hindex : place.index? = some i)
    (hindex' : playing.index? = some i) :
    (s.clearActiveRequest.goTo playing).Inv := by
  have hreg := h.registered
  unfold Registered at hreg
  rw [hplace, hplayback] at hreg
  rw [clearActiveRequest_eq hreg]
  refine h.goesOn hplace ?_ hwaited ⟨rfl, rfl, rfl, rfl, rfl, rfl⟩ hindex hindex'
  unfold Registered goTo
  dsimp only
  rw [hnothing]
  exact ⟨rfl, rfl⟩

variable {first wait : AudioPlaybackWaitStatus}

variable {speaking : Speaking}

theorem judge_completed {error error' : String} {confirmed : Bool} (hwait : first.uncertain = false → wait = first)
    (hj : s.judge speaking first wait error confirmed = (.completed, error')) :
    first = .completed ∧ speaking.generation = s.interruptGeneration ∧ s.isCancelled = false := by
  unfold judge at hj
  split at hj
  · cases hj
  · next hundisturbed =>
    rw [Bool.or_eq_true, not_or, Bool.not_eq_true, decide_eq_false_iff_not, not_not,
      Bool.not_eq_true] at hundisturbed
    split at hj
    · cases hj
    · next hcertain =>
      have hsame := hwait (Bool.eq_false_iff.mpr hcertain)
      refine ⟨?_, hundisturbed⟩
      rw [hsame] at hj
      split at hj
      · cases hj
      · cases first <;> first | rfl | cases hj

theorem Inv.judges (h : s.Inv) {error : String} {confirmed : Bool}
    (hp : s.playing = .judging speaking first wait error confirmed) (a : PlaybackAnswers) : (s.callerStep a).Inv := by
  have hreg : s.activeRequestId = 0 ∧ s.activePlaybackId = 0 := by
    have := h.registered
    unfold Registered at this
    rwa [hp] at this
  have hwaited := h.waited
  rw [hp] at hwaited
  obtain ⟨hindex, hheard⟩ := h.heard speaking.index (by rw [hp]; rfl)
  have hsegmented := h.segmented (by rw [hp]; nofun)
  unfold callerStep
  rw [hp]
  dsimp only
  split
  · next error' hj =>
    obtain ⟨hfirst, hgen, hcancelled⟩ := judge_completed hwaited hj
    have hundisturbed : ∀ p ∈ s.spoken ++ [Spoken.mk (s.textOf speaking) first speaking.generation
        s.interruptGeneration s.isCancelled], p.Undisturbed := by
      intro p hmem
      rcases ListUpdate.mem_snoc.mp hmem with hmem | rfl
      · exact h.undisturbed p hmem
      · exact ⟨hfirst, hgen, hcancelled⟩
    have htexts : (s.spoken ++ [Spoken.mk (s.textOf speaking) first speaking.generation
        s.interruptGeneration s.isCancelled]).map Spoken.text =
        s.segments.take speaking.index ++ [s.textOf speaking] := by
      rw [map_append, hheard]
      rfl
    have hcompleted : ∀ error'', (splitSpeechText s.text 80 = s.segments.take speaking.index ++
          [s.textOf speaking] ∨ s.textOf speaking = fallbackPrompt) →
        (PlaybackCall.mk s.requestId s.text (s.spoken ++ [Spoken.mk (s.textOf speaking) first
          speaking.generation s.interruptGeneration s.isCancelled])
          (s.completions ++ [⟨s.requestId, .completed, error''⟩]) true).Lawful := by
      intro error'' hall
      rw [h.silent]
      refine ⟨rfl, fun r hr => ?_, fun _ _ _ => ⟨hundisturbed, ?_⟩⟩
      · rw [mem_singleton.mp hr]
      · unfold PlaybackCall.SpokeAll
        dsimp only
        rw [htexts, ← hsegmented]
        rcases hall with hall | hall
        · exact .inl (hsegmented.trans hall).symm
        · exact .inr ⟨speaking.index, hindex, by rw [hall]⟩
    unfold nextSegment
    split
    · next hfallback =>
      refine h.returns true rfl hreg.1 hreg.2 (hcompleted error' (.inr ?_))
      exact if_pos hfallback
    · next hfallback =>
      have htext : s.textOf speaking = s.segments[speaking.index] := by
        unfold textOf
        rw [if_neg hfallback, getD_eq_getElem?_getD, List.getElem?_eq_getElem hindex]
        rfl
      have htake : s.segments.take speaking.index ++ [s.textOf speaking] =
          s.segments.take (speaking.index + 1) := by
        rw [htext, take_append_getElem]
      split
      · next hmore =>
        -- and the loop goes on
        exact {
          registered := hreg
          heard := fun i hi => by
            cases hi
            exact ⟨hmore, htexts.trans htake⟩
          undisturbed := hundisturbed
          fresh := nofun
          silent := h.silent
          waited := trivial
          segmented := fun _ => hsegmented
          lawful := h.lawful }
      · next hlast =>
        refine h.returns true rfl hreg.1 hreg.2 (hcompleted "" (.inl ?_))
        rw [htake, ← hsegmented, take_of_length_le (Nat.not_lt.mp hlast)]
  · next status error' hne hj =>
    refine h.fails error' hreg.1 hreg.2 (fun hc => ?_) rfl rfl
    subst hc
    exact hne rfl

theorem Inv.caller (a : PlaybackAnswers) (h : s.Inv) : (s.callerStep a).Inv := by
  have hreg := h.registered
  have hwaited := h.waited
  unfold Registered at hreg
  unfold callerStep
  cases hp : s.playing with
  | idle => exact h
  | focusing =>
    rw [hp] at hreg
    dsimp only
    split
    · exact h.fails _ hreg.1 hreg.2 nofun rfl rfl
    · exact h.stays hp trivial rfl rfl rfl
  | starting index => exact h.stays hp trivial rfl rfl rfl
  | registering speaking =>
    rw [hp] at hreg
    dsimp only
    split
    · exact h.stays hp trivial rfl rfl rfl
    · split
      · exact h.goesOn hp ⟨rfl, hreg.2⟩ trivial ⟨rfl, rfl, rfl, rfl, rfl, rfl⟩ rfl rfl
      · exact h.goesOn hp rfl trivial ⟨rfl, rfl, rfl, rfl, rfl, rfl⟩ rfl rfl
  | synthesizing speaking => exact h.stays hp trivial rfl rfl rfl
  | synthesized speaking usable =>
    dsimp only
    split
    · exact h.stays hp trivial rfl rfl rfl
    · split
      · exact h.stays hp trivial rfl rfl rfl
      · exact h.refuses hp nofun rfl
  | fallingBack speaking =>
    dsimp only
    split
    · exact h.stays hp trivial rfl rfl rfl
    · exact h.refuses hp nofun rfl
  | checking speaking =>
    dsimp only
    split
    · exact h.refuses hp nofun rfl
    · exact h.stays hp trivial rfl rfl rfl
  | numbering speaking =>
    rw [hp] at hreg
    exact h.goesOn hp hreg trivial ⟨rfl, rfl, rfl, rfl, rfl, rfl⟩ rfl rfl
  | committing speaking playbackId =>
    rw [hp] at hreg
    dsimp only
    split
    · exact h.goesOn hp ⟨rfl, hreg.2⟩ trivial ⟨rfl, rfl, rfl, rfl, rfl, rfl⟩ rfl rfl
    · exact h.goesOn hp hreg.1 trivial ⟨rfl, rfl, rfl, rfl, rfl, rfl⟩ rfl rfl
  | submitting speaking playbackId =>
    rw [hp] at hreg
    dsimp only
    cases a.submitStatus with
    | accepted => exact h.stays hp trivial rfl rfl rfl
    | cancelled =>
      -- no segment is heard any more
      exact h.goes ⟨rfl, rfl, rfl, rfl, rfl, rfl⟩ hreg nofun nofun (by rw [hp]; nofun) trivial
    | rejected | failed => exact h.refuses hp nofun rfl
  | looking speaking playbackId =>
    dsimp only
    split <;> exact h.stays hp trivial rfl rfl rfl
  | cancelling speaking playbackId place =>
    rw [hp] at hreg
    obtain ⟨hcall, _, hreq, _⟩ := requestPlaybackCancellation_keeps s s.requestId playbackId
      a.cancelAccepted place
    dsimp only
    split <;> next heq =>
      rw [heq] at hcall hreq
      exact h.goesOn hp ((hreq.trans hreg).trans hcall.requestId.symm) trivial hcall rfl rfl
  | waiting speaking playbackId =>
    dsimp only
    split
    · next huncertain => exact h.stays hp huncertain rfl rfl rfl
    · exact h.stays hp (fun _ => rfl) rfl rfl rfl
  | recovering speaking playbackId first place =>
    rw [hp] at hreg hwaited
    obtain ⟨hcall, _, hreq, _⟩ := requestPlaybackCancellation_keeps s s.requestId playbackId
      a.cancelAccepted place
    dsimp only
    split <;> next heq =>
      rw [heq] at hcall hreq
      exact h.goesOn hp ((hreq.trans hreg).trans hcall.requestId.symm) hwaited hcall rfl rfl
  | waitingAgain speaking playbackId first confirmed =>
    rw [hp] at hwaited
    have huncertain : first.uncertain = true := hwaited
    refine h.stays hp (fun hcertain => ?_) rfl rfl rfl
    rw [huncertain] at hcertain
    cases hcertain
  | clearing speaking first wait error confirmed =>
    rw [hp] at hwaited
    exact h.clears hp hwaited rfl rfl rfl rfl
  | clearingCancelled error =>
    rw [hp] at hreg
    dsimp only
    rw [clearActiveRequest_eq hreg]
    exact h.fails _ rfl rfl nofun rfl rfl
  | clearingRejected index => exact h.clears hp trivial rfl rfl rfl rfl
  | judging speaking first wait error confirmed =>
    have hjudges := h.judges hp a
    unfold callerStep at hjudges
    rwa [hp] at hjudges
  | rejected index =>
    rw [hp] at hreg
    dsimp only
    split
    · refine h.returns false rfl hreg.1 hreg.2 ?_
      rw [h.silent]
      exact lawful_of_refused s.requestId s.text s.spoken
    · split <;> exact h.fails _ hreg.1 hreg.2 nofun rfl rfl

theorem Inv.submit (requestId : Nat) (text : List UInt8) (cancellation : Option Bool)
    (completion : Bool) (h : s.Inv) : (s.submit requestId text cancellation completion).Inv := by
  unfold AudioPlaybackClient.submit
  split
  · next hp =>
    have hreg := h.registered
    unfold Registered at hreg
    rw [hp] at hreg
    dsimp only
    split
    · refine h.returns false rfl hreg.1 hreg.2 ?_
      rw [h.silent]
      exact lawful_of_refused requestId text s.spoken
    · next hacc =>
      have hsegments : splitSpeechText text 80 ≠ [] := by
        intro hnil
        rw [hnil] at hacc
        exact hacc (by simp)
      exact {
        registered := hreg
        heard := fun i hi => by
          cases hi
          refine ⟨length_pos_iff.mpr hsegments, ?_⟩
          show s.spoken.map Spoken.text = []
          rw [h.fresh hp]
          rfl
        undisturbed := h.undisturbed
        fresh := fun _ => h.fresh hp
        silent := h.silent
        waited := trivial
        segmented := fun _ => rfl
        lawful := h.lawful }
  · exact h

theorem Inv.interrupt (i : Nat) (a : PlaybackAnswers) (h : s.Inv) : (s.interruptStep i a).Inv := by
  unfold interruptStep
  cases s.interrupts i with
  | cancelling playbackId place =>
    obtain ⟨hcall, hplaying, hreq, hplayback⟩ := requestPlaybackCancellation_keeps s 0 playbackId
      a.cancelAccepted place
    dsimp only
    split <;> next heq =>
      rw [heq] at hcall hplaying hreq hplayback
      exact h.others ⟨hcall.requestId, hcall.text, hcall.segments, hcall.spoken, hcall.completions,
        hcall.calls⟩ hplaying hreq hplayback
  | _ => exact h.others ⟨rfl, rfl, rfl, rfl, rfl, rfl⟩ rfl rfl rfl

/-- Every step keeps the invariant. -/
theorem Inv.step (event : PlaybackEvent) (h : s.Inv) : (s.step event).1.Inv := by
  cases event with
  | submit requestId text cancellation completion => exact h.submit requestId text cancellation completion
  | caller a => exact h.caller a
  | requestCancellation => exact h.others ⟨rfl, rfl, rfl, rfl, rfl, rfl⟩ rfl rfl rfl
  | interrupt i a => exact h.interrupt i a
  | stop i =>
    unfold AudioPlaybackClient.step
    dsimp only
    split
    · exact h.others ⟨rfl, rfl, rfl, rfl, rfl, rfl⟩ rfl rfl rfl
    · exact h

theorem inv_create (synthesizer fallback focus : Bool) (initialPlaybackId : Nat) :
    (create synthesizer fallback focus initialPlaybackId).Inv where
  registered := ⟨rfl, rfl⟩
  heard := nofun
  undisturbed := nofun
  fresh _ := rfl
  silent := rfl
  waited := trivial
  segmented hi := absurd rfl hi
  lawful := nofun

/-! ## A call that nobody disturbs -/

/-- The focus is granted, the synthesizer has audio in time, and its playback is accepted and completed. -/
structure Undisturbing (a : PlaybackAnswers) : Prop where
  focusAcquired : a.focusAcquired = true
  usable : (a.synthesis.usable && !a.synthesisTimedOut) = true
  submitStatus : a.submitStatus = .accepted
  waitStatus : a.waitStatus = .completed

/-- The places of an undisturbed call: the segment it speaks, and the steps left for it. -/
inductive Course (generation : Nat) : Nat → Nat → Playing → Prop
  | focusing : Course generation 0 13 .focusing
  | starting (i : Nat) : Course generation i 12 (.starting i)
  | registering (i : Nat) : Course generation i 11 (.registering ⟨i, generation, false⟩)
  | synthesizing (i : Nat) : Course generation i 10 (.synthesizing ⟨i, generation, false⟩)
  | synthesized (i : Nat) : Course generation i 9 (.synthesized ⟨i, generation, false⟩ true)
  | checking (i : Nat) : Course generation i 8 (.checking ⟨i, generation, false⟩)
  | numbering (i : Nat) : Course generation i 7 (.numbering ⟨i, generation, false⟩)
  | committing (i id : Nat) : Course generation i 6 (.committing ⟨i, generation, false⟩ id)
  | submitting (i id : Nat) : Course generation i 5 (.submitting ⟨i, generation, false⟩ id)
  | looking (i id : Nat) : Course generation i 4 (.looking ⟨i, generation, false⟩ id)
  | waiting (i id : Nat) : Course generation i 3 (.waiting ⟨i, generation, false⟩ id)
  | clearing (i : Nat) (error : String) (confirmed : Bool) :
    Course generation i 2 (.clearing ⟨i, generation, false⟩ .completed .completed error confirmed)
  | judging (i : Nat) (error : String) (confirmed : Bool) :
    Course generation i 1 (.judging ⟨i, generation, false⟩ .completed .completed error confirmed)

/-- A call on its course, in a client that is not stopped. -/
structure Ongoing (s : AudioPlaybackClient) (i left : Nat) : Prop where
  course : Course s.interruptGeneration i left s.playing
  synthesizer : s.synthesizer = true
  notStopping : s.stopping = false
  notCancelled : s.isCancelled = false

/-- The call goes on, and has not returned. -/
structure GoesOn (s s' : AudioPlaybackClient) (i left : Nat) : Prop extends Ongoing s' i left where
  requestId : s'.requestId = s.requestId
  text : s'.text = s.text
  segments : s'.segments = s.segments
  calls : s'.calls = s.calls

variable {i left : Nat}

/-- At `.registering`, nothing is registered, so that the segment is not refused for it. -/
theorem Inv.registers (a : PlaybackAnswers) (h : s.Inv)
    (hplace : s.playing = .registering speaking) (hrunning : s.stopping = false)
    (hcancelled : s.isCancelled = false) :
    s.callerStep a = { s.resetCancellation with activeRequestId := s.requestId }.goTo
      (if s.synthesizer then .synthesizing speaking else .clearingRejected speaking.index) := by
  have hreg := h.registered
  unfold Registered at hreg
  rw [hplace] at hreg
  have hnot : ¬ (s.stopping || s.activeRequestId ≠ 0 || s.isCancelled) := by
    rw [hrunning, hcancelled, hreg.1]
    decide
  unfold callerStep
  rw [hplace]
  exact if_neg hnot

theorem Ongoing.caller {a : PlaybackAnswers} (ha : Undisturbing a) (h : s.Inv)
    (hon : s.Ongoing i (left + 2)) : GoesOn s (s.callerStep a) i (left + 1) := by
  obtain ⟨hcourse, hsynthesizer, hstopping, hcancelled⟩ := hon
  have hstays : ∀ {playing}, Course s.interruptGeneration i (left + 1) playing →
      GoesOn s (s.goTo playing) i (left + 1) := fun hcourse' =>
    ⟨⟨hcourse', hsynthesizer, hstopping, hcancelled⟩, rfl, rfl, rfl, rfl⟩
  have hundisturbed : ∀ g : Nat, g = s.interruptGeneration →
      ¬ (s.stopping || g ≠ s.interruptGeneration || s.isCancelled) := by
    rintro g rfl
    rw [hstopping, hcancelled]
    simp
  generalize hplace : s.playing = place at hcourse
  generalize hleft : left + 2 = k at hcourse
  generalize hgen : s.interruptGeneration = generation at hcourse
  cases hcourse <;> cases hleft
  case registering =>
    rw [h.registers a hplace hstopping hcancelled, hsynthesizer]
    exact ⟨⟨hgen ▸ .synthesizing i, hsynthesizer, hstopping, hcancelled⟩, rfl, rfl, rfl, rfl⟩
  all_goals
    subst hgen
    unfold callerStep
    rw [hplace]
    dsimp only
  · rw [ha.focusAcquired, if_neg (by simp)]
    exact hstays (.starting 0)
  · exact hstays (.registering i)
  · rw [ha.usable]
    exact hstays (.synthesized i)
  · exact hstays (.checking i)
  · rw [if_neg fun hd => hundisturbed _ rfl (by rw [Bool.or_assoc, hd, Bool.or_true])]
    exact hstays (.numbering i)
  · exact ⟨⟨.committing i _, hsynthesizer, hstopping, hcancelled⟩, rfl, rfl, rfl, rfl⟩
  · rw [if_neg (hundisturbed _ rfl)]
    exact ⟨⟨.submitting i _, hsynthesizer, hstopping, hcancelled⟩, rfl, rfl, rfl, rfl⟩
  · rw [ha.submitStatus]
    exact hstays (.looking i _)
  · rw [if_neg (hundisturbed _ rfl)]
    exact hstays (.waiting i _)
  · rw [ha.waitStatus]
    exact hstays (.clearing i a.error false)
  · have hreg := h.registered
    unfold Registered at hreg
    rw [hplace] at hreg
    rw [clearActiveRequest_eq hreg]
    exact ⟨⟨.judging i _ _, hsynthesizer, hstopping, hcancelled⟩, rfl, rfl, rfl, rfl⟩

/-- The call `c` has returned true and has reported its text as completed. -/
def Completes (s : AudioPlaybackClient) (calls : List PlaybackCall) (requestId : Nat) (text : List UInt8) : Prop :=
  s.playing = .idle ∧ ∃ spoken,
    s.calls = calls ++ [⟨requestId, text, spoken, [⟨requestId, .completed, ""⟩], true⟩]

theorem Ongoing.judged (a : PlaybackAnswers) (h : s.Inv) (hon : s.Ongoing i 1) :
    if i + 1 < s.segments.length then GoesOn s (s.callerStep a) (i + 1) 12
    else (s.callerStep a).Completes s.calls s.requestId s.text := by
  obtain ⟨hcourse, hsynthesizer, hstopping, hcancelled⟩ := hon
  generalize hplace : s.playing = place at hcourse
  generalize hgen : s.interruptGeneration = generation at hcourse
  cases hcourse with
  | judging i error confirmed =>
    subst hgen
    have hjudge : s.judge ⟨i, s.interruptGeneration, false⟩ .completed .completed error confirmed =
        (.completed, error) := by
      unfold judge
      rw [if_neg (by rw [hcancelled]; simp)]
      rfl
    unfold callerStep
    rw [hplace]
    dsimp only
    rw [hjudge]
    dsimp only
    unfold nextSegment
    dsimp only
    rw [if_neg Bool.false_ne_true]
    by_cases hmore : i + 1 < s.segments.length
    · rw [if_pos hmore, if_pos hmore]
      exact ⟨⟨.starting (i + 1), hsynthesizer, hstopping, hcancelled⟩, rfl, rfl, rfl, rfl⟩
    · rw [if_neg hmore, if_neg hmore]
      refine ⟨rfl, s.spoken ++ [⟨s.textOf ⟨i, s.interruptGeneration, false⟩, .completed,
        s.interruptGeneration, s.interruptGeneration, s.isCancelled⟩], ?_⟩
      unfold complete returns
      dsimp only
      rw [h.silent]
      rfl

theorem run_idle (h : s.playing = .idle) (answers : List PlaybackAnswers) :
    StepRun.run step s (answers.map .caller) = s := by
  induction answers with
  | nil => rfl
  | cons a answers ih =>
    have hstep : s.callerStep a = s := by
      unfold callerStep
      rw [h]
    show StepRun.run step (s.callerStep a) (answers.map .caller) = s
    rw [hstep]
    exact ih

variable {answers : List PlaybackAnswers}

/-- **A call that nobody disturbs is completed**: twelve steps for each segment that is left, and those
    that are left for this one, are enough. -/
theorem Ongoing.completes (ha : ∀ a ∈ answers, Undisturbing a) (h : s.Inv) (hon : s.Ongoing i left)
    (henough : 12 * (s.segments.length - (i + 1)) + left ≤ answers.length) :
    (StepRun.run step s (answers.map .caller)).Completes s.calls s.requestId s.text := by
  induction answers generalizing s i left with
  | nil =>
    have hleft : left = 0 := by
      have : 12 * (s.segments.length - (i + 1)) + left ≤ 0 := henough
      omega
    subst hleft
    cases hon.course
  | cons a answers ih =>
    have hanswers : ∀ a ∈ answers, Undisturbing a := fun b hb => ha b (mem_cons_of_mem a hb)
    rw [length_cons] at henough
    have hgoes : ∀ {j l}, GoesOn s (s.callerStep a) j l →
        12 * (s.segments.length - (j + 1)) + l ≤ answers.length →
        (StepRun.run step s ((a :: answers).map .caller)).Completes s.calls s.requestId s.text := by
      intro j l hgoes hj
      have := ih hanswers (h.caller a) hgoes.toOngoing (by rw [hgoes.segments]; exact hj)
      rwa [hgoes.calls, hgoes.requestId, hgoes.text] at this
    match left, hon with
    | 0, hon => cases hon.course
    | 1, hon =>
      have hjudged := hon.judged a h
      split at hjudged
      · next hmore => exact hgoes hjudged (by omega)
      · show (StepRun.run step (s.callerStep a) (answers.map .caller)).Completes _ _ _
        rw [run_idle hjudged.1]
        exact hjudged
    | left + 2, hon => exact hgoes (hon.caller (ha a mem_cons_self) h) (by omega)

theorem Inv.completes_submit (h : s.Inv) (requestId : Nat) (text : List UInt8)
    (cancellation : Option Bool) (hidle : s.playing = .idle)
    (hsynthesizer : s.synthesizer = true) (hstopping : s.stopping = false)
    (hcancelled : cancellation ≠ some true) (hreq : requestId ≠ 0)
    (hsegments : splitSpeechText text 80 ≠ []) (ha : ∀ a ∈ answers, Undisturbing a)
    (henough : 12 * (splitSpeechText text 80).length + 1 ≤ answers.length) :
    (StepRun.run AudioPlaybackClient.step (s.submit requestId text cancellation true) (answers.map .caller)).Completes
      s.calls requestId text := by
  have hinv := h.submit requestId text cancellation true
  have hsubmit : s.submit requestId text cancellation true =
      { s with
        requestId := requestId, text := text, segments := splitSpeechText text 80
        cancellation := cancellation, playing := .focusing } := by
    unfold AudioPlaybackClient.submit
    rw [hidle]
    exact if_neg (by simp [hreq, hsegments])
  rw [hsubmit] at hinv ⊢
  have hon : Ongoing { s with
      requestId := requestId, text := text, segments := splitSpeechText text 80
      cancellation := cancellation, playing := .focusing } 0 13 :=
    ⟨.focusing, hsynthesizer, hstopping, decide_eq_false hcancelled⟩
  refine hon.completes ha hinv ?_
  show 12 * ((splitSpeechText text 80).length - 1) + 13 ≤ answers.length
  have := length_pos_iff.mpr hsegments
  omega

/-- **The contract of `SubmitCancellable`.**  Every call returns true exactly if it has invoked the
    completion, once and with its own request; it reports `kCompleted` only if all segments of the text,
    or some of them and the fallback prompt, were completed in their first `Wait` with no `Interrupt` in
    their time and no request of cancellation.  Between calls nothing is registered as active, and where a
    segment registers nothing is either: unless the client stops or the call is cancelled, it registers
    itself.  A call that nobody disturbs is completed within twelve steps a segment and one for the focus. -/
theorem playback_contract (synthesizer fallback focus : Bool) (initialPlaybackId : Nat)
    (events : List PlaybackEvent) :
    let s := StepRun.run step (create synthesizer fallback focus initialPlaybackId) events
    (∀ c ∈ s.calls, c.Lawful) ∧
    (s.playing = .idle → s.activeRequestId = 0 ∧ s.activePlaybackId = 0) ∧
    (∀ speaking, s.playing = .registering speaking → s.activeRequestId = 0) ∧
    (∀ speaking, s.playing = .registering speaking → s.stopping = false → s.isCancelled = false →
      ∀ a, (s.callerStep a).activeRequestId = s.requestId ∧ (s.callerStep a).playing =
        if s.synthesizer then .synthesizing speaking else .clearingRejected speaking.index) ∧
    ∀ requestId text cancellation (answers : List PlaybackAnswers), s.playing = .idle →
      s.synthesizer = true → s.stopping = false → cancellation ≠ some true → requestId ≠ 0 → splitSpeechText text 80 ≠ [] →
      (∀ a ∈ answers, Undisturbing a) → 12 * (splitSpeechText text 80).length + 1 ≤ answers.length →
      (StepRun.run step s (.submit requestId text cancellation true :: answers.map .caller)).Completes
        s.calls requestId text := by
  have h := StepRun.run_invariant (I := Inv) (fun _ event h => h.step event)
    (inv_create synthesizer fallback focus initialPlaybackId) events
  have hreg := h.registered
  unfold Registered at hreg
  refine ⟨h.lawful, fun hp => ?_, fun speaking hp => ?_, fun speaking hp hstopping hcancelled a => ?_,
    fun requestId text cancellation answers hidle hsynthesizer hstopping hcancelled hreq hsegments =>
      h.completes_submit requestId text cancellation hidle hsynthesizer hstopping hcancelled hreq
        hsegments⟩
  · rw [hp] at hreg
    exact hreg
  · rw [hp] at hreg
    exact hreg.1
  · rw [h.registers a hp hstopping hcancelled]
    exact ⟨rfl, rfl⟩

end AudioPlaybackClient

end Cockpit.Voice
